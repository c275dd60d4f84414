import Pawnbook.Decimal

/-! # Binary floating point numbers

A binary number is read off its 64 bits as `m * 2 ^ q`. A finite number has one form: its
significand has fifty-three bits, or fewer at the least exponent. -/

namespace Pawnbook

/-- A binary floating point number: a finite one is `significand * 2 ^ exponent`. -/
inductive Binary64 where
  | finite (negative : Bool) (significand : Nat) (exponent : Int)
  | infinite (negative : Bool)
  | nan
deriving DecidableEq

namespace Binary64

/-- The least significand of full length: one bit and fifty-two zeros behind it. -/
def leastFull : Nat := 1 <<< 52

/-- Reads a number off its sign, its eleven exponent bits and its fraction. -/
def ofBits (bits : UInt64) : Binary64 :=
  let negative : Bool := bits.toNat >>> 63 = 1
  let field : Nat := (bits.toNat >>> 52) % 2048
  let fraction : Nat := bits.toNat % leastFull
  if field = 2047 then (if fraction = 0 then .infinite negative else .nan)
  else if field = 0 then .finite negative fraction (-1074)
  else .finite negative (leastFull + fraction) (field - 1075)

/-- The same number as a decimal. -/
def toDecimal : Binary64 → Decimal
  | finite s m q =>
    if 0 ≤ q then .finite s (m <<< q.toNat) 0 else .finite s (m * Nat.pow 5 (-q).toNat) q
  | infinite s => .infinite s
  | nan => .nan false false 0 0

/-! ## Arithmetic of binary numbers

Sums and products are exact results rounded once to the nearest number, a half going to the even
one (`Binary64.round`); what is too large is infinite. -/

/-! ### Rounding -/

/-- How many bits a number is written with; zero has none. -/
def bitCount (m : Nat) : Nat := if m = 0 then 0 else m.log2 + 1

/-- `m / 2 ^ k` rounded to the nearest whole number, a half to the even one. -/
def shiftRound (m k : Nat) : Nat :=
  let q := m >>> k
  let r := m - (q <<< k)
  if 1 <<< k < 2 * r ∨ (2 * r = 1 <<< k ∧ q % 2 = 1) then q + 1 else q

/-- The least exponent of a finite number. -/
def leastExponent : Int := -1074

/-- The greatest exponent of a finite number. -/
def greatestExponent : Int := 971

/-- The number of a significand of at most fifty-four bits, unless its exponent is too large. -/
def bounded (s : Bool) (m : Nat) (e : Int) : Binary64 :=
  let (m, e) := if m = 2 * leastFull then (leastFull, e + 1) else (m, e)
  if greatestExponent < e then .infinite s else .finite s m e

/-- `m * 2 ^ q` rounded to the nearest number. -/
def round (s : Bool) (m : Nat) (q : Int) : Binary64 :=
  let e := max (q + bitCount m - 53) leastExponent
  if m = 0 then .finite s 0 leastExponent
  else if q ≤ e then bounded s (shiftRound m (e - q).toNat) e
  else bounded s (m <<< (q - e).toNat) e

/-- The number nearest to a whole number. -/
def ofInt (n : Int) : Binary64 := round (n < 0) n.natAbs 0

/-! ### Sums and products -/

def neg : Binary64 → Binary64
  | finite s m q => .finite (!s) m q
  | infinite s => .infinite (!s)
  | nan => .nan

/-- The significand with its sign, on a smaller exponent. -/
def scaled (s : Bool) (m : Nat) (places : Int) : Int :=
  let n : Int := m <<< places.toNat
  if s then -n else n

/-- The sum of two numbers; zero is negative only as the sum of two negative zeros. -/
def add : Binary64 → Binary64 → Binary64
  | nan, _ | _, nan => .nan
  | infinite s, infinite t => if s = t then .infinite s else .nan
  | infinite s, _ | _, infinite s => .infinite s
  | finite s m q, finite t n r =>
    let e := min q r
    let x := scaled s m (q - e) + scaled t n (r - e)
    if x = 0 then .finite (s && t) 0 leastExponent else round (x < 0) x.natAbs e

def mul : Binary64 → Binary64 → Binary64
  | nan, _ | _, nan => .nan
  | infinite s, infinite t => .infinite (s != t)
  | infinite s, finite t m _ | finite t m _, infinite s =>
    if m = 0 then .nan else .infinite (s != t)
  | finite s m q, finite t n r => round (s != t) (m * n) (q + r)

/-! ### Whole parts and fractions -/

def wholePart (m : Nat) (q : Int) : Nat := if 0 ≤ q then m <<< q.toNat else m >>> (-q).toNat

def fraction (m : Nat) (q : Int) : Binary64 :=
  if 0 ≤ q then .finite false 0 leastExponent
  else round false (m - (wholePart m q <<< (-q).toNat)) q

/-- The whole number nearest to the product of a finite number that is not negative with a count, a
half going to the even one. -/
def nearestProduct (x : Binary64) (count : Nat) : Nat :=
  match x.mul (.ofInt count) with
  | finite _ m q => if 0 ≤ q then m <<< q.toNat else shiftRound m (-q).toNat
  | _ => 0

/-! ## The text of binary numbers

The text of a binary number has the fewest digits that still read back as the same number
(`Binary64.shortest`), found by trying the two neighbours of the number on ever finer decimal
grids; it is positional for magnitudes from `0.0001` to below `10 ^ 16` and keeps a `.0` there, and
has an exponent of at least two digits otherwise. -/

open Decimal (tenPow)

/-- Compares `x * 2 ^ q` with `d * 10 ^ k`. -/
def compareScaled (x : Nat) (q : Int) (d : Nat) (k : Int) : Ordering :=
  compare ((x <<< q.toNat) * tenPow (-k).toNat) ((d * tenPow k.toNat) <<< (-q).toNat)

/-- Twice the distance from `m * 2 ^ q` down to the numbers that read as its lower neighbour,
in quarters of the last place: the gap below a power of two is half as wide. -/
def gapBelow (m : Nat) (q : Int) : Nat := if m = leastFull ∧ -1074 < q then 1 else 2

/-- `d * 10 ^ k` reads back as `m * 2 ^ q`: it lies between the midpoints to the neighbours,
which belong to the even one. -/
def readsBack (m : Nat) (q : Int) (d : Nat) (k : Int) : Bool :=
  let low := compareScaled (4 * m - gapBelow m q) (q - 2) d k
  let high := compareScaled (4 * m + 2) (q - 2) d k
  if m % 2 = 0 then low != .gt && high != .lt else low == .lt && high == .gt

/-- The exponent of the first decimal digit of `m * 2 ^ q`, for a number that is not zero. -/
def leadingExponent (m : Nat) (q : Int) : Int :=
  (Text.digitCount (((m * tenPow 400) <<< q.toNat) >>> (-q).toNat) : Int) - 401

/-- The number on the grid `10 ^ k` nearest to `m * 2 ^ q` among those that read back. -/
def onGrid? (m : Nat) (q k : Int) : Option Nat :=
  let d := ((m <<< q.toNat) * tenPow (-k).toNat) / (tenPow k.toNat <<< (-q).toNat)
  match readsBack m q d k, readsBack m q (d + 1) k with
  | true, true =>
    -- the midpoint of the two decides
    match compareScaled (2 * m) q (2 * d + 1) k with
    | .lt => some d
    | .gt => some (d + 1)
    | .eq => some (if d % 2 = 0 then d else d + 1)
  | true, false => some d
  | false, true => some (d + 1)
  | false, false => none

/-- The shortest decimal `d * 10 ^ k` that reads back, without zeros at the end of `d`. -/
def shortest (m : Nat) (q : Int) : Nat × Int :=
  let e := leadingExponent m q
  let found := (List.range 17).findSome? fun (n : Nat) =>
    (onGrid? m q (e - n)).map (·, e - (n : Int))
  let (d, k) := found.getD (m, q)
  Decimal.stripZeros (Text.digitCount d) d k

def digitsText (d : Nat) (k : Int) : String :=
  let ds := Text.digits d
  let place := k + ds.length
  if -4 < place ∧ place ≤ 16 then
    Decimal.pointed ds place ++ (if ds.length ≤ place then ".0" else "")
  else
    let e := place - 1
    Decimal.pointed ds 1 ++ (if e < 0 then "e-" else "e+") ++ Text.padded 2 e.natAbs

def text : Binary64 → String
  | finite s m q =>
    Decimal.signText s ++
      (if m = 0 then "0.0" else let (d, k) := shortest m q; digitsText d k)
  | infinite s => Decimal.signText s ++ "inf"
  | nan => "nan"

end Binary64
end Pawnbook
