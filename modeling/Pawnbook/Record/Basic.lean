import Pawnbook.Config
import Pawnbook.Offer.Basic
import Pawnbook.Record.Key

/-! # Records and their slots

The book stores four kinds of records: its configuration, borrowers, listings and offers. A slot
(`Slot`) says where a record is kept, a `Stored` what is kept there; nothing keeps a record of one
kind from being written in the slot of another. -/

namespace Pawnbook

/-! ### Slots -/

/-- The kinds of records, and whatever else is given as one. -/
inductive Kind where
  | config
  | borrower
  | listing
  | offer
  | other (name : Key)
deriving DecidableEq

namespace Kind

def name : Kind → Key
  | config => "config"
  | borrower => "borrower"
  | listing => "collateral"
  | offer => "offer"
  | other name => name

def stored : List Kind := [config, borrower, listing, offer]

/-- The kind of a name. -/
def ofName (k : Key) : Kind := (stored.find? (·.name == k)).getD (.other k)

/-- The kind under which it is found: others are compared by their names. -/
def normal : Kind → Kind
  | other name => .other name.normal
  | k => k

instance : BEq Kind := ⟨fun k l => decide (k.normal = l.normal)⟩

theorem beq_iff (k l : Kind) : (k == l) = true ↔ k.normal = l.normal := decide_eq_true_iff

instance : EquivBEq Kind where
  rfl := (beq_iff _ _).2 rfl
  symm h := (beq_iff _ _).2 ((beq_iff _ _).1 h).symm
  trans h h' := (beq_iff _ _).2 (((beq_iff _ _).1 h).trans ((beq_iff _ _).1 h'))

end Kind

/-- The place of a record. -/
structure Slot where
  kind : Kind
  key : Key

namespace Slot

instance : BEq Slot := ⟨fun s t => s.kind == t.kind && s.key == t.key⟩

theorem beq_iff (s t : Slot) :
    (s == t) = true ↔ (s.kind == t.kind) = true ∧ (s.key == t.key) = true := Bool.and_eq_true_iff

instance : EquivBEq Slot where
  rfl := (beq_iff _ _).2 ⟨BEq.rfl, BEq.rfl⟩
  symm h := (beq_iff _ _).2 ⟨BEq.symm ((beq_iff _ _).1 h).1, BEq.symm ((beq_iff _ _).1 h).2⟩
  trans h h' := (beq_iff _ _).2
    ⟨BEq.trans ((beq_iff _ _).1 h).1 ((beq_iff _ _).1 h').1,
     BEq.trans ((beq_iff _ _).1 h).2 ((beq_iff _ _).1 h').2⟩

/-- The key of the configuration, of which there is one. -/
def configKey : String := "contract_info"

def config : Slot := ⟨.config, configKey⟩

def borrower (name : Key) : Slot := ⟨.borrower, name⟩

def listing (key : ListingKey) : Slot := ⟨.listing, key⟩

def offer (id : Key) : Slot := ⟨.offer, id⟩

end Slot

/-! ### Stored records -/

/-- A record in a slot. What is no record of the book is kept as given. -/
inductive Stored where
  | config (c : Config)
  | borrower (b : Borrower)
  | listing (l : Listing)
  | offer (o : Offer)
  | other (v : Value)

namespace Stored

def toValue : Stored → Value
  | config c => c.toValue
  | borrower b => b.toValue
  | listing l => l.toValue
  | offer o => o.toValue
  | other v => v

def borrower? : Stored → Option Borrower
  | borrower b => some b
  | _ => none

def listing? : Stored → Option Listing
  | listing l => some l
  | _ => none

/-- A record in a listing's place that takes no offers: a closed listing, or none at all. -/
def isClosed : Stored → Bool
  | listing l => l.isClosed
  | _ => true

/-- Equal records: of one kind, with fields that are equal as values. -/
def equals : Stored → Stored → Except Decimal.Failure Bool
  | config c, config d => c.agrees d
  | borrower b, borrower c => .ok (b.agrees c)
  | listing l, listing m => .ok (l.agrees m)
  | offer o, offer p => .ok (o.agrees p)
  | other v, other w => v.equals w
  | _, _ => .ok false

/-- Equal records, or none on either side. -/
def equals? : Option Stored → Option Stored → Except Decimal.Failure Bool
  | none, none => .ok true
  | some r, some s => r.equals s
  | _, _ => .ok false

end Stored
end Pawnbook
