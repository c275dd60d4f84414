import Pawnbook.Change
import Pawnbook.Error
import Pawnbook.Transfer

/-! # Transactions

A pending transaction (`Pending`) is an intent: record changes, the funds that come with the
message, outbound transfers, and who asked for what. A `Transaction` is an intent that a book
has applied, with its place in the book's log. -/

namespace Pawnbook

/-! ### Origins -/

/-- Who may be behind a transaction. -/
inductive OriginKind where
  | userAction
  | admin
  | system
deriving DecidableEq

namespace OriginKind

def text : OriginKind → String
  | userAction => "user_action"
  | admin => "admin"
  | system => "system"

def name : OriginKind → String
  | userAction => "USER_ACTION"
  | admin => "ADMIN"
  | system => "SYSTEM"

def all : List OriginKind := [userAction, admin, system]

def ofText? (s : String) : Option OriginKind := all.find? (·.text = s)

def toValue (k : OriginKind) : Value := .member "OriginType" k.name k.text

end OriginKind

/-- Who submitted a transaction, and the action it performs. -/
structure Origin where
  kind : OriginKind
  source : Key
  action : Value := .null
deriving DecidableEq

namespace Origin

/-- The action, unless it stands for nothing. -/
def namedAction? (o : Origin) : Option Value := if o.action.isVoid then none else some o.action

def text (o : Origin) : String :=
  let parts := (o.kind.text ++ ":" ++ o.source.label) ::
    (match o.namedAction? with
      | some a => ["action=" ++ a.label]
      | none => [])
  "Origin(" ++ Text.join ", " parts ++ ")"

def toValue (o : Origin) : Value :=
  .record "TransactionOrigin"
    [("origin_type", o.kind.toValue), ("source_id", o.source.value), ("action", o.action)]
    (some o.text)

end Origin

/-! ### Intents and facts -/

/-- Pairs that describe a transaction to its reader; those that a book writes are texts. -/
abbrev Attributes := List (Key × Value)

def Attributes.get? (attributes : Attributes) (key : Key) : Option Value :=
  (attributes.find? (·.1 == key)).map (·.2)

def Attributes.toValue (attributes : Attributes) : Value :=
  .tuple (attributes.map fun (k, v) => .tuple [k.value, v])

/-- A transaction before it is applied. -/
structure Pending where
  changes : List Change
  /-- What the sender attached, moved to the contract before all else. -/
  fundsIn : List Message
  /-- The outbound transfers, in order. -/
  messages : List Message
  origin : Origin
  /-- The time of the block it was made in. -/
  date : Option Time
  attributes : Attributes := []
  intentId : Key

/-- A transaction that a book has applied. -/
structure Transaction where
  changes : List Change
  fundsIn : List Message
  messages : List Message
  origin : Origin
  /-- The time of the block it was made in. -/
  date : Option Time
  intentId : Key
  /-- The id of this execution. -/
  execId : String
  bookName : Value
  /-- The height at which it was applied. -/
  height : Value
  /-- Its place in the log of the book. -/
  sequence : Value
  attributes : Attributes := []

namespace Pending

/-- An intent that writes nothing and moves nothing. -/
def isEmpty (p : Pending) : Bool := p.changes.isEmpty && p.fundsIn.isEmpty && p.messages.isEmpty

/-- All transfers in order: the funds, then the outbound ones. -/
def transfers (p : Pending) : List Message := p.fundsIn ++ p.messages

def text (p : Pending) : String :=
  "PendingTransaction(" ++ Text.ofNat p.changes.length ++ " changes, " ++
    Text.ofNat p.messages.length ++ " messages, " ++ p.origin.text ++ ")"

def toValue (p : Pending) : Value :=
  .record "PendingTransaction"
    [("changes", .tuple (p.changes.map Change.toValue)),
     ("funds_in", .tuple (p.fundsIn.map Message.toValue)),
     ("messages", .tuple (p.messages.map Message.toValue)), ("origin", p.origin.toValue),
     ("timestamp", .ofOption .time p.date), ("attributes", p.attributes.toValue),
     ("intent_id", p.intentId.value)]
    (some p.text)

end Pending

namespace Transaction

/-- All transfers in order: the funds, then the outbound ones. -/
def transfers (t : Transaction) : List Message := t.fundsIn ++ t.messages

/-- The fact that an intent was carried out. -/
def ofPending (p : Pending) (execId : String) (bookName height sequence : Value) :
    Transaction where
  changes := p.changes
  fundsIn := p.fundsIn
  messages := p.messages
  origin := p.origin
  date := p.date
  intentId := p.intentId
  execId := execId
  bookName := bookName
  height := height
  sequence := sequence
  attributes := p.attributes

/-- A transaction that writes or moves something. -/
def make (p : Pending) (execId : String) (bookName height sequence : Value) :
    Except Malformed Transaction :=
  if p.isEmpty then .error .emptyTransaction else .ok (ofPending p execId bookName height sequence)

end Transaction
end Pawnbook
