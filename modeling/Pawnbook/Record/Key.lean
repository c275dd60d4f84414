import Pawnbook.Malformed
import Pawnbook.Value.Equality

/-! # Keys

A record is kept under a key: a borrower's name, an offer's id, or a pair of a borrower and the id
of a listing. Names are texts and the ids of listings are numbers, but a key may be any value. Keys
are the same (`==`) if they are equal as values, however they are written; a key keeps the form in
which it was written. -/

namespace Pawnbook

/-- A key as it was written. -/
structure Key where
  value : Value
deriving DecidableEq

namespace Key

/-- The key in the form that it shares with the keys that are the same. -/
def normal (k : Key) : Key := ⟨k.value.normal⟩

instance : BEq Key := ⟨fun k l => decide (k.normal = l.normal)⟩

theorem beq_iff (k l : Key) : (k == l) = true ↔ k.normal = l.normal := decide_eq_true_iff

instance : EquivBEq Key where
  rfl := (beq_iff _ _).2 rfl
  symm h := (beq_iff _ _).2 ((beq_iff _ _).1 h).symm
  trans h h' := (beq_iff _ _).2 (((beq_iff _ _).1 h).trans ((beq_iff _ _).1 h'))

def text (s : String) : Key := ⟨.text s⟩

def int (n : Int) : Key := ⟨.int n⟩

/-- Nothing in a key's place. -/
def nothing : Key := ⟨.null⟩

def pair (k l : Key) : Key := ⟨.tuple [k.value, l.value]⟩

instance : Coe String Key := ⟨text⟩

instance : Coe Int Key := ⟨int⟩

def label (k : Key) : String := k.value.label

def display (k : Key) : String := k.value.display

/-! ### Parts -/

/-- The parts of a key: the items of a sequence, the characters of a text. -/
def parts (k : Key) : Except Malformed (List Key) :=
  match k.value with
  | .tuple xs | .list xs => .ok (xs.map (⟨·⟩))
  | .text s => .ok (s.toList.map fun c => text c.toString)
  | v => .error (.noParts v.kind)

/-- The parts of a key as one key. -/
def sequence (k : Key) : Except Malformed Key := do
  return ⟨.tuple ((← k.parts).map Key.value)⟩

def first (k : Key) : Except Malformed Key := do
  match ← k.parts with
  | part :: _ => return part
  | [] => throw (.noParts k.value.kind)

/-- The two parts of a key that has no more of them. -/
def both (k : Key) : Except Malformed (Key × Key) := do
  match ← k.parts with
  | [left, right] => return (left, right)
  | _ :: _ :: _ => throw .manyParts
  | few => throw (.fewParts few.length)

@[simp] theorem first_pair (k l : Key) : (pair k l).first = .ok k := rfl

@[simp] theorem both_pair (k l : Key) : (pair k l).both = .ok (k, l) := rfl

/-! ### Keys that are the same -/

@[simp] theorem text_beq_text (s t : String) : (text s == text t) = decide (s = t) := by
  simp [BEq.beq, text, normal, Value.normal]

@[simp] theorem int_beq_int (m n : Int) : (int m == int n) = decide (m = n) := by
  simp [BEq.beq, int, normal, Value.normal]

@[simp] theorem pair_beq_pair (k l k' l' : Key) :
    (pair k l == pair k' l') = (k == k' && l == l') := by
  simp [BEq.beq, pair, normal, Value.normal, Value.normalAll, Bool.decide_and]

end Key
end Pawnbook
