import Pawnbook.Decimal
import Pawnbook.Value.Equality

/-! # The order of values

Texts are ordered by their characters, times by the calendar, numbers of every kind by their worth,
and sequences by the first place where they differ (`Value.precedes`). Values of other kinds, or of
two kinds, have no order. `Value.ascending` and `Value.descending` put items in the order of their
keys, items of equal keys staying as they come, and fail if two keys that have come to stand side
by side cannot be compared. -/

namespace Pawnbook
namespace Value

/-- Why two values have no order. -/
inductive Unordered where
  /-- Two numbers cannot be compared. -/
  | calculation (failure : Decimal.Failure)
  /-- Values of these kinds are not compared. -/
  | kinds (left right : String)
deriving DecidableEq

/-- A decimal, in whose comparisons what is no number is an error. -/
def isDecimal : Value → Bool
  | decimal _ => true
  | _ => false

/-- The order of numbers of any kind. -/
def numberPrecedes (v w : Value) : Except Unordered Bool :=
  match v.number?, w.number? with
  | some a, some b =>
    if v.isDecimal || w.isDecimal then (a.precedes b).mapError .calculation else .ok (a.isBelow b)
  | _, _ => .error (.kinds v.kind w.kind)

mutual

/-- The first value comes before the second one. -/
def precedes : Value → Value → Except Unordered Bool
  | int m, int n => .ok (m < n)
  | text s, text t => .ok (s < t)
  | time t, time u => .ok (t.micros < u.micros)
  | tuple xs, tuple ys | list xs, list ys => precedesAll xs ys
  | v, w => numberPrecedes v w
termination_by structural v _ => v

/-- The first sequence comes before the second one: it does so at the first place where they
differ, or it ends there. -/
def precedesAll : List Value → List Value → Except Unordered Bool
  | [], ys => .ok (!ys.isEmpty)
  | _ :: _, [] => .ok false
  | x :: xs, y :: ys => do
    if ← (agrees x y).mapError .calculation then precedesAll xs ys else precedes x y
termination_by structural xs _ => xs

end

/-- The first value is known to come before the second one. -/
def isBefore (v w : Value) : Bool :=
  match precedes v w with
  | .ok b => b
  | .error _ => false

/-! ### Sorting -/

/-- All values that stand side by side can be compared. -/
def requireOrder : List Value → Except Unordered Unit
  | v :: w :: rest => do
    discard (precedes v w)
    requireOrder (w :: rest)
  | _ => .ok ()

/-- Items in ascending order of their keys, as far as these can be compared. -/
def sorted {α : Type} (key : α → Value) (xs : List α) : List α :=
  xs.mergeSort fun a b => !isBefore (key b) (key a)

/-- Items in ascending order of their keys. -/
def ascending {α : Type} (key : α → Value) (xs : List α) : Except Unordered (List α) := do
  requireOrder ((sorted key xs).map key)
  return sorted key xs

def descending {α : Type} (key : α → Value) (xs : List α) : Except Unordered (List α) := do
  let sorted := xs.mergeSort fun a b => !isBefore (key a) (key b)
  requireOrder (sorted.map key)
  return sorted

@[simp] theorem precedes_int (m n : Int) : precedes (int m) (int n) = .ok (decide (m < n)) := rfl

@[simp] theorem precedes_text (s t : String) :
    precedes (text s) (text t) = .ok (decide (s < t)) := rfl

theorem ascending_perm {α : Type} {key : α → Value} {xs ys : List α}
    (h : ascending key xs = .ok ys) : ys.Perm xs := by
  simp only [ascending, bind, Except.bind] at h
  split at h
  · cases h
  · cases h; exact List.mergeSort_perm _ _

theorem descending_perm {α : Type} {key : α → Value} {xs ys : List α}
    (h : descending key xs = .ok ys) : ys.Perm xs := by
  simp only [descending, bind, Except.bind] at h
  split at h
  · cases h
  · cases h; exact List.mergeSort_perm _ _

end Value
end Pawnbook
