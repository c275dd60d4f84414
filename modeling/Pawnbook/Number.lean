import Pawnbook.Binary64
import Pawnbook.Decimal

/-! # Numbers

Amounts, heights and counts are whole numbers, but a caller may give a truth value, which counts as
one or zero, or a floating number in their place. Whole numbers and truth values are added to whole
numbers; a floating number makes the result a floating one. Numbers are compared by their exact
worth, whatever their kinds. -/

namespace Pawnbook

/-- A number of one of the three kinds that a caller may give. -/
inductive Number where
  | whole (n : Int)
  | truth (b : Bool)
  | floating (x : Binary64)
deriving DecidableEq

namespace Number

instance : Coe Int Number := ⟨whole⟩

instance : Inhabited Number := ⟨whole 0⟩

/-- The whole number of a truth value. -/
def ofTruth (b : Bool) : Int := if b then 1 else 0

/-! ### Worth -/

/-- The whole number that a number counts as, unless it is a floating one. -/
def whole? : Number → Option Int
  | whole n => some n
  | truth b => some (ofTruth b)
  | floating _ => none

/-- The number as a floating one. -/
def toBinary : Number → Binary64
  | whole n => .ofInt n
  | truth b => .ofInt (ofTruth b)
  | floating x => x

/-- The number as a decimal. -/
def toDecimal : Number → Decimal
  | whole n => .ofInt n
  | truth b => .ofInt (ofTruth b)
  | floating x => x.toDecimal

def text : Number → String
  | whole n => Text.ofInt n
  | truth true => "True"
  | truth false => "False"
  | floating x => x.text

/-! ### Comparison -/

/-- The first number is below the second one; nothing is below what is no number. -/
def isBelow (a b : Number) : Bool :=
  match a.whole?, b.whole? with
  | some m, some n => m < n
  | _, _ => a.toDecimal.isBelow b.toDecimal

/-- Numbers of equal worth. -/
def same (a b : Number) : Bool :=
  match a.whole?, b.whole? with
  | some m, some n => m = n
  | _, _ => a.toDecimal.same b.toDecimal

/-- The first number is below the second one or equal to it. -/
def isAtMost (a b : Number) : Bool := a.isBelow b || a.same b

def isNegative (a : Number) : Bool := a.isBelow (whole 0)

def isPositive (a : Number) : Bool := (whole 0).isBelow a

def isZero (a : Number) : Bool := a.same (whole 0)

/-- The number in the one form of its worth. -/
def normal (a : Number) : Number :=
  match a.whole?, a.toDecimal.whole? with
  | some n, _ | none, some n => .whole n
  | none, none => a

/-! ### Arithmetic -/

def neg : Number → Number
  | whole n => .whole (-n)
  | truth b => .whole (-ofTruth b)
  | floating x => .floating x.neg

def add (a b : Number) : Number :=
  match a.whole?, b.whole? with
  | some m, some n => .whole (m + n)
  | _, _ => .floating (a.toBinary.add b.toBinary)

def sub (a b : Number) : Number :=
  match a.whole?, b.whole? with
  | some m, some n => .whole (m - n)
  | _, _ => .floating (a.toBinary.add b.toBinary.neg)

def mul (a b : Number) : Number :=
  match a.whole?, b.whole? with
  | some m, some n => .whole (m * n)
  | _, _ => .floating (a.toBinary.mul b.toBinary)

/-! ### Whole numbers -/

@[simp] theorem whole?_whole (n : Int) : (whole n).whole? = some n := rfl

@[simp] theorem whole_isBelow_whole (m n : Int) :
    (whole m).isBelow (whole n) = decide (m < n) := rfl

@[simp] theorem whole_same_whole (m n : Int) : (whole m).same (whole n) = decide (m = n) := rfl

@[simp] theorem whole_isAtMost_whole (m n : Int) :
    (whole m).isAtMost (whole n) = decide (m ≤ n) := by
  simp only [isAtMost, whole_isBelow_whole, whole_same_whole]
  by_cases h : m < n <;> simp [h] <;> omega

@[simp] theorem isNegative_whole (n : Int) : (whole n).isNegative = decide (n < 0) := rfl

@[simp] theorem isPositive_whole (n : Int) : (whole n).isPositive = decide (0 < n) := rfl

@[simp] theorem isZero_whole (n : Int) : (whole n).isZero = decide (n = 0) := rfl

@[simp] theorem add_whole (m n : Int) : (whole m).add (whole n) = whole (m + n) := rfl

@[simp] theorem sub_whole (m n : Int) : (whole m).sub (whole n) = whole (m - n) := rfl

@[simp] theorem mul_whole (m n : Int) : (whole m).mul (whole n) = whole (m * n) := rfl

@[simp] theorem normal_whole (n : Int) : (whole n).normal = whole n := rfl

end Number
end Pawnbook
