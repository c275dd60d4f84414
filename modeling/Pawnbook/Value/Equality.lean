import Pawnbook.Value.Basic

/-! # Equal values

Three relations on values. Equality of the type compares the forms and is decided by
`Value.sameForm`. Two values are one and the same as keys if their normal forms are equal: in
`Value.normal` numbers of every kind are written alike, the entries of a map come in one order,
the short forms of records are left out, and nothing else is changed. Values that
are compared (`Value.equals`) are equal under the same rule, except that a comparison with a
signaling result fails, and that a result that is no number, compared by itself, differs even
from itself. -/

namespace Pawnbook
namespace Value

/-! ### Forms -/

mutual

def sameForm : Value → Value → Bool
  | null, null => true
  | bool b, bool c => b = c
  | int m, int n => m = n
  | float x, float y => x = y
  | decimal d, decimal e => d = e
  | text s, text t => s = t
  | time t, time u => t = u
  | member type name value, member type' name' value' =>
    type = type' && name = name' && value = value'
  | tuple xs, tuple ys | list xs, list ys => sameForms xs ys
  | map es, map fs => sameEntryForms es fs
  | record name es shown, record name' fs shown' =>
    name = name' && sameFieldForms es fs && shown = shown'
  | _, _ => false
termination_by structural v _ => v

def sameForms : List Value → List Value → Bool
  | [], [] => true
  | x :: xs, y :: ys => sameForm x y && sameForms xs ys
  | _, _ => false
termination_by structural xs _ => xs

/-- The same forms of keys and values, entry by entry. -/
def sameEntryForms : List (Value × Value) → List (Value × Value) → Bool
  | [], [] => true
  | (k, x) :: es, (l, y) :: fs => sameForm k l && sameForm x y && sameEntryForms es fs
  | _, _ => false
termination_by structural es _ => es

def sameFieldForms : List (String × Value) → List (String × Value) → Bool
  | [], [] => true
  | (k, x) :: es, (l, y) :: fs => k = l && sameForm x y && sameFieldForms es fs
  | _, _ => false
termination_by structural es _ => es

end

mutual

theorem sameForm_iff : ∀ v w : Value, sameForm v w = true ↔ v = w
  | null, w | bool _, w | int _, w | float _, w | decimal _, w | text _, w | time _, w
  | member .., w => by cases w <;> simp [sameForm, and_assoc]
  | tuple xs, w | list xs, w => by cases w <;> simp [sameForm, sameForms_iff xs]
  | map es, w => by cases w <;> simp [sameForm, sameEntryForms_iff es]
  | record _ es _, w => by cases w <;> simp [sameForm, sameFieldForms_iff es, and_assoc]

theorem sameForms_iff : ∀ xs ys : List Value, sameForms xs ys = true ↔ xs = ys
  | [], ys => by cases ys <;> simp [sameForms]
  | x :: xs, ys => by cases ys <;> simp [sameForms, sameForm_iff x, sameForms_iff xs]

theorem sameEntryForms_iff : ∀ es fs : List (Value × Value), sameEntryForms es fs = true ↔ es = fs
  | [], fs => by cases fs <;> simp [sameEntryForms]
  | (k, x) :: es, [] => by simp [sameEntryForms]
  | (k, x) :: es, (l, y) :: fs => by
    simp [sameEntryForms, sameForm_iff k, sameForm_iff x, sameEntryForms_iff es]

theorem sameFieldForms_iff : ∀ es fs : List (String × Value), sameFieldForms es fs = true ↔ es = fs
  | [], fs => by cases fs <;> simp [sameFieldForms]
  | (k, x) :: es, [] => by simp [sameFieldForms]
  | (k, x) :: es, (l, y) :: fs => by simp [sameFieldForms, sameForm_iff x, sameFieldForms_iff es]

end

instance : DecidableEq Value := fun v w => decidable_of_iff _ (sameForm_iff v w)

/-! ### Normal forms -/

/-- A number in the one form of its worth: a whole number as such if it can be written down,
any other without zeros at its end. -/
def normalNumber (d : Decimal) : Value :=
  match d.whole? with
  | some n => .int n
  | none => .decimal d.stripped

/-- Entries in the order of the printed forms of their keys. -/
def inOrder (es : List (Value × Value)) : List (Value × Value) :=
  es.mergeSort fun a b => !decide (b.1.display < a.1.display)

mutual

def normal : Value → Value
  | bool b => .int (if b then 1 else 0)
  | float .nan => .float .nan
  | float x => normalNumber x.toDecimal
  | decimal d => normalNumber d
  | tuple xs => .tuple (normalAll xs)
  | list xs => .list (normalAll xs)
  | map es => .map (inOrder (normalEntries es))
  | record name fs _ => .record name (normalFields fs) none
  | v => v

def normalAll : List Value → List Value
  | [] => []
  | x :: xs => normal x :: normalAll xs

def normalEntries : List (Value × Value) → List (Value × Value)
  | [] => []
  | (k, x) :: es => (normal k, normal x) :: normalEntries es

def normalFields : List (String × Value) → List (String × Value)
  | [] => []
  | (name, x) :: fs => (name, normal x) :: normalFields fs

end

/-- Values of one normal form. -/
def same (v w : Value) : Bool := v.normal = w.normal

/-- Two parts that agree if both are there; one alone agrees with nothing. -/
def optionsAgree {α : Type} (agrees : α → α → Bool) : Option α → Option α → Bool
  | none, none => true
  | some a, some b => agrees a b
  | _, _ => false

/-! ### Comparisons -/

mutual

/-- One and the same value, or equal ones, the parts being compared in order up to the first
difference. -/
def agrees : Value → Value → Except Decimal.Failure Bool
  | tuple xs, tuple ys => agreeAll xs ys
  | list xs, list ys => if xs.length = ys.length then agreeAll xs ys else .ok false
  | map es, map fs => if es.length = fs.length then agreeEntries es fs else .ok false
  | record name es _, record name' fs _ =>
    if name = name' then agreeFields es fs else .ok false
  | v, w =>
    match v.number?, w.number? with
    | some a, some b => a.agrees b
    | _, _ => .ok (v = w)
termination_by structural v _ => v

def agreeAll : List Value → List Value → Except Decimal.Failure Bool
  | [], [] => .ok true
  | x :: xs, y :: ys => do if ← agrees x y then agreeAll xs ys else return false
  | _, _ => .ok false
termination_by structural xs _ => xs

/-- Agreement of the values under every key, whatever the order of the keys. -/
def agreeEntries : List (Value × Value) → List (Value × Value) → Except Decimal.Failure Bool
  | [], _ => .ok true
  | (k, x) :: es, fs =>
    match fs.find? fun f => f.1.normal = k.normal with
    | none => .ok false
    | some (_, y) => do if ← agrees x y then agreeEntries es fs else return false
termination_by structural es _ => es

def agreeFields : List (String × Value) → List (String × Value) → Except Decimal.Failure Bool
  | [], [] => .ok true
  | (k, x) :: es, (l, y) :: fs => do
    if k = l && (← agrees x y) then agreeFields es fs else return false
  | _, _ => .ok false
termination_by structural es _ => es

end

/-- Equal values: numbers by what they stand for, all else by its parts. -/
def equals (v w : Value) : Except Decimal.Failure Bool :=
  match v.number?, w.number? with
  | some a, some b => a.equals b
  | _, _ => v.agrees w

/-! ### Maps -/

/-- Writes an entry into a list of entries: in the place of the one whose key is the same, or at
the end. -/
def putEntry (k x : Value) : List (Value × Value) → List (Value × Value)
  | [] => [(k, x)]
  | (l, y) :: es => if l.normal = k.normal then (l, x) :: es else (l, y) :: putEntry k x es

/-- The map of a list of entries, a later entry replacing an earlier one of its key. -/
def mapOf (es : List (Value × Value)) : Value :=
  .map (es.foldl (fun put e => putEntry e.1 e.2 put) [])

end Value
end Pawnbook
