import Pawnbook.Malformed
import Pawnbook.Value.Basic
import Pawnbook.Value.Equality

/-! # Coins, terms and envelopes

A coin is an amount of one denomination, in base units; its denomination has a name
(`Coin.make` refuses blanks). Terms are a principal, the interest owed on top in the same
denomination, and a duration in blocks. -/

namespace Pawnbook

/-- An amount of a fungible token. -/
structure Coin where
  denom : String
  amount : Nat
  /-- The denomination has a name. -/
  denom_named : Text.isBlank denom = false
deriving DecidableEq

namespace Coin

/-- A coin, if its denomination has a name and its amount is not negative. -/
def make (denom : String) (amount : Int) : Except Malformed Coin :=
  if h : Text.isBlank denom = false then
    if amount < 0 then .error (.negativeAmount amount) else .ok ⟨denom, amount.toNat, h⟩
  else .error .blankDenom

/-- A coin from values: the denomination must be a text and the amount a whole number. -/
def ofValues : Value → Value → Except Malformed Coin
  | .text denom, .int amount => make denom amount
  | .text denom, amount =>
    if Text.isBlank denom then .error .blankDenom else .error (.amountKind amount.kind)
  | _, _ => .error .blankDenom

/-- Another amount of the same denomination. -/
def withAmount (c : Coin) (amount : Nat) : Coin := { c with amount }

def worth (c : Coin) : Number := .whole c.amount

def text (c : Coin) : String := Text.ofNat c.amount ++ c.denom

def toValue (c : Coin) : Value :=
  .record "Coin" [("denom", .text c.denom), ("amount", .int c.amount)] (some c.text)

end Coin

/-- What a loan costs and how long it runs. -/
structure Terms where
  principal : Coin
  interest : Number
  duration : Number
  /-- The interest is not negative. -/
  interest_valid : interest.isNegative = false
  /-- The duration is not negative. -/
  duration_valid : duration.isNegative = false
deriving DecidableEq

namespace Terms

/-- Terms, if neither interest nor duration is negative. -/
def make (principal : Coin) (interest duration : Number) : Except Malformed Terms :=
  if h : interest.isNegative = false then
    if h' : duration.isNegative = false then .ok ⟨principal, interest, duration, h, h'⟩
    else .error (.negativeDuration duration)
  else .error (.negativeInterest interest)

/-- Terms in whole numbers. -/
def ofNat (principal : Coin) (interest duration : Nat) : Terms where
  principal := principal
  interest := .whole interest
  duration := .whole duration
  interest_valid := by simp
  duration_valid := by simp

/-- Principal and interest: the least repayment. It is a coin for whole amounts only. -/
def totalDue (t : Terms) : Except Malformed Coin :=
  match t.interest.whole? with
  | some n => .ok (t.principal.withAmount (t.principal.amount + n.toNat))
  | none =>
    match Binary64.ofInt t.principal.amount with
    | .infinite _ => .error .hugeWhole
    | _ => .error (.amountKind (Value.ofNumber t.interest).kind)

/-- The same terms, interest and duration being compared by their worth. -/
def agrees (t u : Terms) : Bool :=
  t.principal = u.principal && t.interest.normal = u.interest.normal &&
    t.duration.normal = u.duration.normal

def toValue (t : Terms) : Value :=
  .record "LoanTerms"
    [("principal", t.principal.toValue), ("interest", t.interest),
     ("duration_in_blocks", t.duration)] none

@[simp] theorem totalDue_ofNat (principal : Coin) (interest duration : Nat) :
    (ofNat principal interest duration).totalDue =
      .ok (principal.withAmount (principal.amount + interest)) := rfl

end Terms

/-! ## Tenders

Where a coin is expected a caller may give something else. It is passed on as it is, shown and
compared like any value, and accepted nowhere in place of a coin. -/

/-- What stands in a coin's place. -/
inductive Tender where
  | coin (c : Coin)
  | other (v : Value)
deriving DecidableEq

namespace Tender

instance : Coe Coin Tender := ⟨coin⟩

def coin? : Tender → Option Coin
  | coin c => some c
  | other _ => none

/-- The coin that must have been tendered. -/
def requireCoin : Tender → Except Malformed Coin
  | coin c => .ok c
  | other v => .error (.notCoin v.kind)

def toValue : Tender → Value
  | coin c => c.toValue
  | other v => v

def text : Tender → String
  | coin c => c.text
  | other v => v.label

/-- The same tender: the same coin, or the same value in its place. -/
def agrees : Tender → Tender → Bool
  | coin c, coin d => c = d
  | other v, other w => v.same w
  | _, _ => false

end Tender

/-! ## Envelopes

An envelope says who sends a message and which funds come with it. -/

/-- The sender of a message and the funds attached to it. -/
structure Envelope where
  sender : String
  funds : List Tender := []
  /-- The sender has a name. -/
  sender_named : Text.isBlank sender = false

namespace Envelope

/-- An envelope, if its sender has a name. -/
def make (sender : String) (funds : List Tender) : Except Malformed Envelope :=
  if h : Text.isBlank sender = false then .ok ⟨sender, funds, h⟩ else .error .blankSender

def toValue (e : Envelope) : Value :=
  .record "MessageInfo"
    [("sender", .text e.sender), ("funds", .tuple (e.funds.map Tender.toValue))] none

end Envelope
end Pawnbook
