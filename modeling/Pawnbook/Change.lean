import Pawnbook.Record.Basic

/-! # Record changes

A change writes one record of the book and names the record it was computed against.
`Change.merge` collapses successive changes of one slot into one that starts where the first did
and ends where the last does; the slots keep the order in which they were first touched. -/

namespace Pawnbook

/-- A write of one record, with the record it was computed against; `old` is missing for an
insertion. -/
structure Change where
  slot : Slot
  old : Option Stored
  new : Option Stored

namespace Change

def config (old new : Config) : Change := ⟨.config, some (.config old), some (.config new)⟩

def borrower (name : Key) (old : Option Borrower) (new : Borrower) : Change :=
  ⟨.borrower name, old.map .borrower, some (.borrower new)⟩

def listing (key : ListingKey) (old : Option Listing) (new : Listing) : Change :=
  ⟨.listing key, old.map .listing, some (.listing new)⟩

def offer (id : Key) (old : Option Offer) (new : Offer) : Change :=
  ⟨.offer id, old.map .offer, some (.offer new)⟩

/-- The record before the change as a value, nothing for an insertion. -/
def oldValue (c : Change) : Value := .ofOption Stored.toValue c.old

/-- The record after the change as a value. -/
def newValue (c : Change) : Value := .ofOption Stored.toValue c.new

def toValue (c : Change) : Value :=
  .record "RecordChange"
    [("kind", c.slot.kind.name.value), ("key", c.slot.key.value), ("old", c.oldValue),
     ("new", c.newValue)] none

/-- A field with its old and its new value, unless these are equal. -/
def fieldChange? (old : Value) (field : String × Value) :
    Except Decimal.Failure (Option (String × Value × Value)) := do
  let before := (old.field? field.1).getD .null
  return if ← before.equals field.2 then none else some (field.1, before, field.2)

/-- The old and new values of the fields in which a record differs from an older one: all fields
if there is no older one, otherwise those whose values are not equal. -/
def fieldsBetween (old new : Value) : Except Decimal.Failure (List (String × Value × Value)) :=
  match old with
  | .null => .ok (new.fields.map fun f => (f.1, .null, f.2))
  | _ => do return (← new.fields.mapM (fieldChange? old)).filterMap id

/-- The old and new values of the fields that a change touches. -/
def changedFields (c : Change) : Except Decimal.Failure (List (String × Value × Value)) :=
  fieldsBetween c.oldValue c.newValue

/-- Changed fields as a map from their names to pairs of the old and the new value. -/
def fieldsValue (changed : List (String × Value × Value)) : Value :=
  .ofEntries (changed.map fun (name, old, new) => (name, .tuple [old, new]))

/-! ### Merging -/

/-- Adds a change to a merged list: it continues the change of its slot, or comes last. -/
def mergeInto (c : Change) : List Change → List Change
  | [] => [c]
  | m :: rest => if m.slot == c.slot then { c with old := m.old } :: rest else m :: mergeInto c rest

/-- One change for every slot, from the first old record to the last new one. -/
def merge (cs : List Change) : List Change := cs.foldl (fun merged c => mergeInto c merged) []

end Change
end Pawnbook
