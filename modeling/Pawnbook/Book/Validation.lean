import Pawnbook.Book.Basic

/-! # When a pending transaction can be applied

A pending transaction fits a book if every record it changes is still the one it was computed
against, and if its transfers, in order, are covered and come from the owners. The transfers are
tried on a sheet of provisional balances and owners (`Rehearsal`) that starts empty and stands in
front of the bank and the registry; the book itself is left alone. `Book.refusal?` words the
first objection against a transaction; it fails where two records cannot be compared, and where the
objection cannot be written. -/

namespace Pawnbook

/-- Why a pending transaction does not fit a book. -/
inductive Objection where
  | badSlot (bad : Book.BadSlot)
  /-- The record in the slot is not the one that the change was computed against. -/
  | stale (slot : Slot)
  | deletion (slot : Slot)
  | uncovered (sender : Key) (available : Number) (coin : Coin)
  | notHolder (sender : Key) (token : Token) (holder : Key)
  | unknownMessage (v : Value)

namespace Objection

/-- A record as objections name it. -/
def recordText (s : Slot) : String := s.kind.name.label ++ " record " ++ s.key.display

/-- The wording of an objection, as if numbers of every length were written. -/
def wording : Objection → String
  | badSlot bad => bad.message
  | stale slot => "stale " ++ recordText slot
  | deletion slot => recordText slot ++ " cannot be deleted"
  | uncovered sender available coin =>
    "insufficient funds: " ++ sender.label ++ " has " ++ available.text ++ coin.denom ++
      ", needs " ++ coin.text
  | notHolder sender token holder => Error.notHolderText sender token holder
  | unknownMessage v => "unknown message: " ++ v.display

/-- The values that the wording writes. -/
def named : Objection → List Value
  | badSlot (.configKey key) | badSlot (.unknownKind key) => [key.value]
  | stale slot | deletion slot => [slot.kind.name.value, slot.key.value]
  | uncovered sender available coin => [sender.value, .ofNumber available, coin.toValue]
  | notHolder sender token holder =>
    [sender.value, token.collection.value, token.id.value, holder.value]
  | unknownMessage v => [v]

/-- The wording, if it can be written. -/
def written (o : Objection) : Except Decimal.Failure String := do
  Value.requireShort o.named
  return o.wording

end Objection

/-- Provisional balances and owners, where they differ from those of a book. -/
structure Rehearsal where
  balances : Table Key Number := .empty
  owners : Table Token Key := .empty

namespace Rehearsal

/-- The balance of an address as far as the rehearsal has come. -/
def balance (r : Rehearsal) (bank : Bank) (address denom : Key) : Number :=
  (r.balances.get? (.pair address denom)).getD (bank.balance address denom)

/-- Who holds a token as far as the rehearsal has come. -/
def holder (r : Rehearsal) (registry : Registry) (t : Token) : Key :=
  (r.owners.get? t).getD (registry.holder t)

/-- Tries a transfer of coins. -/
def pay (r : Rehearsal) (bank : Bank) (sender recipient : Key) (coin : Coin) :
    Except Objection Rehearsal :=
  let available := r.balance bank sender coin.denom
  if available.isBelow coin.worth then .error (.uncovered sender available coin)
  else
    let debited :=
      { r with balances := r.balances.insert (.pair sender coin.denom) (available.sub coin.worth) }
    let received := (debited.balance bank recipient coin.denom).add coin.worth
    .ok { debited with balances := debited.balances.insert (.pair recipient coin.denom) received }

/-- Tries a message. -/
def step (bank : Bank) (registry : Registry) (r : Rehearsal) :
    Message → Except Objection Rehearsal
  | .send s => r.pay bank s.sender s.recipient s.coin
  | .fee f => r.pay bank f.sender f.recipient f.coin
  | .transfer t =>
    let holder := r.holder registry t.nft.token
    if holder == t.sender then .ok { r with owners := r.owners.insert t.nft.token t.recipient }
    else .error (.notHolder t.sender t.nft.token holder)
  | .other v => .error (.unknownMessage v)

/-- Tries a list of messages in order. -/
def run (bank : Bank) (registry : Registry) (r : Rehearsal) :
    List Message → Except Objection Rehearsal
  | [] => .ok r
  | m :: ms => do run bank registry (← step bank registry r m) ms

end Rehearsal

namespace Book

/-- The objection against a change, if there is one. -/
def changeRefusal? (b : Book) (c : Change) : Except Error (Option Objection) :=
  match b.record? c.slot with
  | .error bad => .ok (some (.badSlot bad))
  | .ok current => do
    if ← (Stored.equals? current c.old).mapError .calculation then
      return if c.new.isNone then some (.deletion c.slot) else none
    else return some (.stale c.slot)

/-- The first objection against some changes, if there is one. -/
def changesRefusal? (b : Book) : List Change → Except Error (Option Objection)
  | [] => .ok none
  | c :: cs => do
    match ← b.changeRefusal? c with
    | some objection => return some objection
    | none => changesRefusal? b cs

/-- The objection against some transfers, if there is one. -/
def transferRefusal? (b : Book) (ms : List Message) : Option Objection :=
  match Rehearsal.run b.bank b.registry {} ms with
  | .error objection => some objection
  | .ok _ => none

/-- The first objection against a pending transaction, if there is one. -/
def objection? (b : Book) (p : Pending) : Except Error (Option Objection) := do
  return (← b.changesRefusal? p.changes).or (b.transferRefusal? p.transfers)

/-- The reason to refuse a pending transaction, if there is one, in words. -/
def refusal? (b : Book) (p : Pending) : Except Error (Option String) := do
  match ← b.objection? p with
  | none => return none
  | some objection => return some (← objection.written.mapError .calculation)

end Book
end Pawnbook
