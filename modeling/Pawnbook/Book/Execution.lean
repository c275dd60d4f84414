import Pawnbook.Book.Validation
import Pawnbook.Transaction.Box

/-! # Applying transactions

`Book.execute` applies a pending transaction that fits the book and logs it. One that does not
fit is rejected, unless its intent was applied before. A write that the offer index refuses ends
the execution where it stands (`Interrupted`): what was written before stays written.
`Book.submit` is an execution that takes a rejection for an error. -/

namespace Pawnbook

/-- An execution that an error has ended, with the book as it was left. -/
structure Interrupted where
  book : Book
  error : Error

/-- The result of an execution. -/
inductive Verdict where
  | applied
  | alreadyApplied
  | rejected
deriving DecidableEq

namespace Verdict

def text : Verdict → String
  | applied => "applied"
  | alreadyApplied => "already_applied"
  | rejected => "rejected"

def name : Verdict → String
  | applied => "APPLIED"
  | alreadyApplied => "ALREADY_APPLIED"
  | rejected => "REJECTED"

def all : List Verdict := [applied, alreadyApplied, rejected]

def ofText? (s : String) : Option Verdict := all.find? (·.text = s)

def toValue (v : Verdict) : Value := .member "ExecuteResult" v.name v.text

end Verdict

namespace Book

/-! ### The effects of a transaction -/

/-- A step of an execution that leaves the book alone if it fails. -/
def attempt (b : Book) (r : Except Error Book) : Except Interrupted Book :=
  r.mapError fun error => { book := b, error }

/-- Carries changes out in order. -/
def writeAll (b : Book) : List Change → Except Interrupted Book
  | [] => .ok b
  | c :: cs => do writeAll (← b.attempt (b.write c)) cs

/-- Carries a transfer of coins out. -/
def pay (b : Book) (sender recipient : Key) (coin : Coin) : Except Error Book := do
  return { b with bank := ← b.bank.send sender recipient coin }

/-- Carries a message out. -/
def deliver (b : Book) : Message → Except Error Book
  | .send s => b.pay s.sender s.recipient s.coin
  | .transfer t => do
    return { b with registry := ← b.registry.transfer t.nft.token t.sender t.recipient }
  | .fee f => do
    let paid ← b.pay f.sender f.recipient f.coin
    return { paid with fees := paid.fees.deposit f.addresses f.kind f.coin }
  | .other _ => .ok b

/-- Brings attached funds in. A fee among them is paid and not recorded. -/
def bringIn (b : Book) : Message → Except Error Book
  | .send s => b.pay s.sender s.recipient s.coin
  | .fee f => b.pay f.sender f.recipient f.coin
  | m => .error (.malformed (.notFunds m.toValue))

/-- Brings attached funds in one by one. -/
def bringInAll (b : Book) : List Message → Except Interrupted Book
  | [] => .ok b
  | m :: ms => do bringInAll (← b.attempt (b.bringIn m)) ms

/-- Carries messages out in order. -/
def deliverAll (b : Book) : List Message → Except Interrupted Book
  | [] => .ok b
  | m :: ms => do deliverAll (← b.attempt (b.deliver m)) ms

/-! ### The log -/

/-- The id of an execution, as if heights of every length were written. -/
def execId (b : Book) (sequence : Nat) : String :=
  "exec:" ++ b.name.label ++ ":" ++ Text.padded 12 sequence ++ ":" ++ b.height.text

/-- The id of an execution can be written. Its place in the log is a count, which always can. -/
def requireExecId (b : Book) : Except Decimal.Failure Unit := Value.requireShort [b.name, b.height]

/-- The transaction that the book would log next for a pending one. -/
def nextTransaction (b : Book) (p : Pending) : Transaction :=
  .ofPending p (b.execId b.nextSequence) b.name b.height (.int b.nextSequence)

/-- Logs a transaction and remembers its intent. -/
def record (b : Book) (t : Transaction) : Book :=
  { b with
    log := b.log ++ [t]
    seen := if b.seen.contains t.intentId then b.seen else b.seen ++ [t.intentId] }

/-- The book after its next place in the log was given out. -/
def numbered (b : Book) : Book := { b with nextSequence := b.nextSequence + 1 }

/-- Carries out a pending transaction that fits the book, and logs it. Its place in the log is given
out before the id of the execution is written, and stays so. -/
def commit (b : Book) (p : Pending) : Except Interrupted Book := do
  let t := b.nextTransaction p
  let started ← b.numbered.attempt do
    b.requireExecId.mapError .calculation
    return b.numbered
  let written ← started.writeAll p.changes
  let funded ← written.bringInAll p.fundsIn
  let delivered ← funded.deliverAll p.messages
  return delivered.record t

/-! ### Execution -/

/-- A verdict, with the lines that a verbose book prints of it. Where they cannot be written, the
verdict is not given. -/
def announce (b : Book) (verdict : Verdict) (lines : Except Decimal.Failure (List String)) :
    Outcome Verdict :=
  if b.verbose then
    match lines with
    | .ok lines => { book := b, printed := lines, answer := .ok verdict }
    | .error failure => { book := b, answer := .error (.calculation failure) }
  else { book := b, answer := .ok verdict }

/-- The line about an intent that was applied before. -/
def repetitionLines (p : Pending) : Except Decimal.Failure (List String) := do
  return Text.lines ("⚠️  ALREADY_APPLIED: intent_id=" ++ (← p.intentId.value.written))

/-- Applies a pending transaction. -/
def execute (b : Book) (p : Pending) : Outcome Verdict :=
  if p.isEmpty then { book := b, answer := .ok .applied }
  else
    match b.refusal? p with
    | .error e => { book := b, answer := .error e }
    | .ok (some reason) =>
      if b.seen.contains p.intentId then b.announce .alreadyApplied (repetitionLines p)
      else b.announce .rejected (.ok (Text.lines ("✗ REJECTED: " ++ reason)))
    | .ok none =>
      match b.commit p with
      | .error stop => { book := stop.book, answer := .error stop.error }
      | .ok after => after.announce .applied ((b.nextTransaction p).linesWith "✓ APPLIED")

/-- Applies a pending transaction and gives the logged one, the earlier one if its intent was
applied before; an empty transaction is not logged. -/
def submit (b : Book) (p : Pending) : Outcome (Option Transaction) :=
  let r := b.execute p
  { book := r.book
    printed := r.printed
    answer :=
      match r.answer with
      | .error e => .error e
      | .ok .rejected => .error (.rejected p.origin.action b.name)
      | .ok _ => .ok (r.book.findTransaction? p.intentId) }

end Book
end Pawnbook
