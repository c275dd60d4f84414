import Pawnbook.Text

/-! # Decimals

A decimal keeps the form it was written in: `finite s c e` is `c * 10 ^ e`, negative if `s`, so
`0.05` and `0.0500` are two decimals and one number. `Decimal.same` compares the numbers,
equality of the type compares the forms. Beside the finite decimals there are the two
infinities and the results that are no number. Such a result is the same number as nothing, so
it keeps the place where it was read: one that comes back from the book can be told from another
that only looks alike (`Decimal.agrees`). -/

namespace Pawnbook

/-- A decimal in the form it was written in. -/
inductive Decimal where
  | finite (negative : Bool) (coefficient : Nat) (exponent : Int)
  | infinite (negative : Bool)
  | nan (negative : Bool) (signaling : Bool) (payload : Nat) (place : Nat)
deriving DecidableEq

namespace Decimal

/-- Why a calculation with decimals gives no result. -/
inductive Failure where
  /-- The operation is undefined, or an operand forbids every operation. -/
  | undefined
  /-- The result is larger than the largest exponent. -/
  | overflow
  /-- An infinity was asked for its whole part. -/
  | infinite
  /-- What is no number was asked for its whole part. -/
  | notANumber
  /-- A whole number has too many digits to be written. -/
  | tooLong
deriving DecidableEq

def tenPow (k : Nat) : Nat := Nat.pow 10 k

theorem tenPow_zero : tenPow 0 = 1 := rfl

theorem tenPow_succ (k : Nat) : tenPow (k + 1) = tenPow k * 10 := rfl

/-- The decimal of a whole number. -/
def ofInt (n : Int) : Decimal := .finite (n < 0) n.natAbs 0

/-- The exponent of the first digit of `c * 10 ^ e`. -/
def adjusted (c : Nat) (e : Int) : Int := e + Text.digitCount c - 1

/-- A decimal that is a number. -/
def isFinite : Decimal → Bool
  | finite .. => true
  | _ => false

/-- A finite decimal below zero; negative zero is not. -/
def isBelowZero : Decimal → Bool
  | finite s c _ => s && c != 0
  | _ => false

/-- A finite decimal of at least one: its first digit stands left of the point. -/
def isAtLeastOne : Decimal → Bool
  | finite s c e => !s && c != 0 && 0 ≤ adjusted c e
  | _ => false

/-- The same number, whatever the written form. What is no number is the same as nothing. -/
def same : Decimal → Decimal → Bool
  | finite s c e, finite t d f =>
    if c = 0 ∨ d = 0 then c = d
    else s = t && adjusted c e = adjusted d f &&
      c * tenPow (e - min e f).toNat = d * tenPow (f - min e f).toNat
  | infinite s, infinite t => s = t
  | _, _ => false

/-- A decimal that forbids every operation, comparison included. -/
def isSignaling : Decimal → Bool
  | nan _ signaling _ _ => signaling
  | _ => false

/-- The same number, if the two can be compared at all. -/
def equals (a b : Decimal) : Except Failure Bool :=
  if a.isSignaling || b.isSignaling then .error .undefined else .ok (a.same b)

/-- One and the same decimal, or the same number. -/
def agrees (a b : Decimal) : Except Failure Bool := if a = b then .ok true else a.equals b

/-- What is no number, read at the given place. -/
def readAt (place : Nat) : Decimal → Decimal
  | nan s q p _ => .nan s q p place
  | d => d

def neg : Decimal → Decimal
  | finite s c e => .finite (!s) c e
  | infinite s => .infinite (!s)
  | nan s q p l => .nan (!s) q p l

/-! ## The order of decimals

`Decimal.isBelow` compares numbers, whatever their written forms. Digits are compared only between
numbers whose first digits stand in the same place, so that no long coefficient is built. What is
no number has no place in the order (`Decimal.precedes`). -/

/-- `c * 10 ^ e` is below `d * 10 ^ f`. -/
def magnitudeBelow (c : Nat) (e : Int) (d : Nat) (f : Int) : Bool :=
  if c = 0 ∨ d = 0 then c < d
  else if adjusted c e = adjusted d f then
    c * tenPow (e - min e f).toNat < d * tenPow (f - min e f).toNat
  else adjusted c e < adjusted d f

/-- The first number is below the second one; nothing is below what is no number. -/
def isBelow : Decimal → Decimal → Bool
  | finite s c e, finite t d f =>
    match s && c != 0, t && d != 0 with
    | false, false => magnitudeBelow c e d f
    | true, true => magnitudeBelow d f c e
    | negative, _ => negative
  | infinite s, infinite t => s && !t
  | infinite s, finite .. => s
  | finite .., infinite t => !t
  | _, _ => false

/-- A decimal that is no number. -/
def isNan : Decimal → Bool
  | nan .. => true
  | _ => false

/-- The first number is below the second one, if both are numbers. -/
def precedes (a b : Decimal) : Except Failure Bool :=
  if a.isNan || b.isNan then .error .undefined else .ok (a.isBelow b)

/-! ## Decimal arithmetic in fifty digits

Sums and products are exact results rounded once to `Decimal.precision` digits, a half going to
the even neighbour (`Decimal.round`). Results below the smallest exponent lose digits at
`Decimal.leastExponent`. `Decimal.trunc` takes the whole part and rounds nothing else. -/

/-- Digits kept by a calculation. -/
def precision : Nat := 50

/-- The largest exponent that a first digit may have. -/
def greatestExponent : Int := 999999

/-- The smallest exponent that a last digit may have. -/
def leastExponent : Int := -1000048

/-- `c / 10 ^ k` rounded to the nearest whole number, a half to the even one. -/
def divRound (c k : Nat) : Nat :=
  if Text.digitCount c < k then 0
  else
    let q := c / tenPow k
    let r := c % tenPow k
    if tenPow k < 2 * r ∨ (2 * r = tenPow k ∧ q % 2 = 1) then q + 1 else q

/-- The places of `c * 10 ^ e` that do not fit. -/
def excess (c : Nat) (e : Int) : Nat :=
  max (Text.digitCount c - precision) (leastExponent - e).toNat

/-- `c * 10 ^ e` rounded to `precision` digits. -/
def round (s : Bool) (c : Nat) (e : Int) : Except Failure Decimal :=
  let k := excess c e
  let c' := divRound c k
  let e' := e + k
  if precision < Text.digitCount c' then
    if greatestExponent < adjusted (c' / 10) (e' + 1) then .error .overflow
    else .ok (.finite s (c' / 10) (e' + 1))
  else if c' != 0 && greatestExponent < adjusted c' e' then .error .overflow
  else .ok (.finite s c' e')

/-- The coefficients `c` and `d` of two addends with `e ≤ f`, on one exponent. An addend too
small to reach the digit after the last one kept is replaced by one unit just below that digit:
the sum rounds the same way, and no long coefficient is built. -/
def align (c : Nat) (e : Int) (d : Nat) (f : Int) : Nat × Nat × Int :=
  let floor := f + min (-1) (Text.digitCount d - precision - 2 : Int)
  if d != 0 && adjusted c e < floor then
    (if c = 0 then 0 else 1, d * tenPow (f - floor).toNat, floor)
  else (c, d * tenPow (f - e).toNat, e)

/-- The coefficient with its sign. -/
def signed (s : Bool) (c : Nat) : Int := if s then -(c : Int) else c

/-- The sum of two finite decimals with `e ≤ f`. -/
def addAligned (s : Bool) (c : Nat) (e : Int) (t : Bool) (d : Nat) (f : Int) :
    Except Failure Decimal :=
  if d = 0 then round s c e
  else
    let (c', d', g) := align c e d f
    let n := signed s c' + signed t d'
    round (n < 0) n.natAbs g

def add : Decimal → Decimal → Except Failure Decimal
  | nan _ true _ _, _ | _, nan _ true _ _ => .error .undefined
  | nan s q p l, _ | _, nan s q p l => .ok (.nan s q p l)
  | infinite s, infinite t => if s = t then .ok (.infinite s) else .error .undefined
  | infinite s, _ | _, infinite s => .ok (.infinite s)
  | finite s c e, finite t d f =>
    if e ≤ f then addAligned s c e t d f else addAligned t d f s c e

def sub (a b : Decimal) : Except Failure Decimal := a.add b.neg

def mul : Decimal → Decimal → Except Failure Decimal
  | nan _ true _ _, _ | _, nan _ true _ _ => .error .undefined
  | nan s q p l, _ | _, nan s q p l => .ok (.nan s q p l)
  | infinite s, infinite t => .ok (.infinite (s != t))
  | infinite s, finite t c _ | finite t c _, infinite s =>
    if c = 0 then .error .undefined else .ok (.infinite (s != t))
  | finite s c e, finite t d f => round (s != t) (c * d) (e + f)

/-- The whole part, toward zero. -/
def trunc : Decimal → Except Failure Int
  | finite s c e =>
    if 0 ≤ e then .ok (signed s (c * tenPow e.toNat))
    else if Text.digitCount c < (-e).toNat then .ok 0
    else .ok (signed s (c / tenPow (-e).toNat))
  | infinite _ => .error .infinite
  | nan .. => .error .notANumber

/-- Takes up to `n` zeros off the end of a coefficient. -/
def stripZeros : Nat → Nat → Int → Nat × Int
  | 0, c, e => (c, e)
  | n + 1, c, e => if c % 10 = 0 then stripZeros n (c / 10) (e + 1) else (c, e)

/-- The shortest form of the rounded number: no zero at the end, and zero itself as `0`. -/
def reduce : Decimal → Except Failure Decimal
  | finite s c e => do
    match ← round s c e with
    | finite s c e =>
      if c = 0 then return .finite s 0 0
      let (c', e') := stripZeros (Text.digitCount c) c e
      return .finite s c' e'
    | d => return d
  | infinite s => .ok (.infinite s)
  | nan _ true _ _ => .error .undefined
  | nan s false p l => .ok (.nan s false (p % tenPow precision) l)

/-- The whole number that a decimal is, as long as it can be written down. -/
def whole? : Decimal → Option Int
  | finite s c e =>
    if c = 0 then some 0
    else if 0 ≤ e then
      if adjusted c e < (Text.maxDigits : Int) then some (signed s (c * tenPow e.toNat)) else none
    else if Text.digitCount c ≤ (-e).toNat then none
    else if c % tenPow (-e).toNat = 0 then some (signed s (c / tenPow (-e).toNat)) else none
  | _ => none

/-- The number without zeros at the end of its coefficient. -/
def stripped : Decimal → Decimal
  | finite s c e =>
    let (c', e') := stripZeros (Text.digitCount c) c e
    .finite s c' e'
  | d => d

/-! ## The text of decimals

`Decimal.text` writes the form of a decimal: positional while the exponent is not positive and
the first digit stands at most six places behind the point, with an exponent otherwise.
`Decimal.plainText` is always positional. `Decimal.canonicalText` writes the number, whatever
its form. `Decimal.read` accepts what `text` writes and more: blanks around, underscores
anywhere, the digits of every script, either case. -/

/-! ### Writing -/

def signText (s : Bool) : String := if s then "-" else ""

/-- Digits with the point after the first `place` of them, zeros filling the gap on either
side. -/
def pointed (ds : List Char) (place : Int) : String :=
  if place ≤ 0 then "0." ++ String.ofList (List.replicate (-place).toNat '0' ++ ds)
  else if ds.length ≤ place then
    String.ofList (ds ++ List.replicate (place.toNat - ds.length) '0')
  else String.ofList (ds.take place.toNat) ++ "." ++ String.ofList (ds.drop place.toNat)

def exponentText (e : Int) : String :=
  if e < 0 then "E" ++ Text.ofInt e else "E+" ++ Text.ofInt e

def payloadText (p : Nat) : String := if p = 0 then "" else Text.ofNat p

def nanText (s signaling : Bool) (p : Nat) : String :=
  signText s ++ (if signaling then "sNaN" else "NaN") ++ payloadText p

def text : Decimal → String
  | finite s c e =>
    let ds := Text.digits c
    if e ≤ 0 ∧ -6 ≤ adjusted c e then signText s ++ pointed ds (e + ds.length)
    else signText s ++ pointed ds 1 ++ exponentText (adjusted c e)
  | infinite s => signText s ++ "Infinity"
  | nan s q p _ => nanText s q p

/-- The text of a decimal without an exponent. -/
def plainText : Decimal → String
  | finite s c e => signText s ++ pointed (Text.digits c) (e + (Text.digits c).length)
  | infinite s => signText s ++ "Infinity"
  | nan s q p _ => nanText s q p

/-- The text of the number: decimals that round to the same number have the same one. -/
def canonicalText (d : Decimal) : Except Failure String := do
  match ← d.reduce with
  | finite s c e =>
    if 0 ≤ e then
      if (Text.maxDigits : Int) ≤ adjusted c e then throw .tooLong
      return Text.ofInt (signed s (c * tenPow e.toNat))
    else return (Decimal.finite s c e).plainText
  | infinite _ => throw .infinite
  | nan s q p _ => return nanText s q p

/-! ### Reading -/

/-- Why a text cannot be read as a decimal. -/
inductive TextFault where
  /-- It is not written as one. -/
  | form
  /-- Its exponent lies beyond what can be written down. -/
  | limits
deriving DecidableEq

/-- The largest exponent of a first digit that can be written down. -/
def greatestReadable : Int := 999999999999999999

/-- The smallest exponent of a last digit that can be written down. -/
def leastReadable : Int := -1999999999999999997

/-- A coefficient and an exponent, if within the limits of what can be written down. -/
def withinLimits (s : Bool) (c : Nat) (e : Int) : Except TextFault Decimal :=
  let top := if c = 0 then e else adjusted c e
  if leastReadable ≤ e ∧ top ≤ greatestReadable then .ok (.finite s c e) else .error .limits

/-- Digit values of a list of ASCII digits, if it holds nothing else. -/
def digitValues (cs : List Char) : Except TextFault (List Nat) :=
  cs.mapM fun c => if c.isDigit then .ok (c.toNat - '0'.toNat) else .error .form

/-- Reads the digits of an exponent, after its sign. -/
def readExponent : List Char → Except TextFault Int
  | '-' :: ds => (magnitude ds).map fun n => -n
  | '+' :: ds => magnitude ds
  | ds => magnitude ds
where
  magnitude (ds : List Char) : Except TextFault Int :=
    if ds.isEmpty then .error .form else (digitValues ds).map fun vs => (Text.ofDigits vs : Int)

/-- Reads digits with an optional point and an optional exponent. -/
def readNumber (s : Bool) (cs : List Char) : Except TextFault Decimal := do
  let whole := cs.takeWhile Char.isDigit
  let rest := cs.dropWhile Char.isDigit
  let (places, rest) := match rest with
    | '.' :: rest => (rest.takeWhile Char.isDigit, rest.dropWhile Char.isDigit)
    | rest => ([], rest)
  if (whole ++ places).isEmpty then throw .form
  let c := Text.ofDigits (← digitValues (whole ++ places))
  match rest with
  | [] => withinLimits s c (-places.length)
  | 'e' :: ds => withinLimits s c ((← readExponent ds) - places.length)
  | _ => throw .form

/-- Reads the payload of what is no number. -/
def readNan (s signaling : Bool) (ds : List Char) : Except TextFault Decimal :=
  (digitValues ds).map fun vs => .nan s signaling (Text.ofDigits vs) 0

/-- Reads a decimal in lower case after its sign. -/
def readUnsigned (s : Bool) : List Char → Except TextFault Decimal
  | 'i' :: 'n' :: 'f' :: rest =>
    if rest = [] ∨ rest = ['i', 'n', 'i', 't', 'y'] then .ok (.infinite s) else .error .form
  | 'n' :: 'a' :: 'n' :: ds => readNan s false ds
  | 's' :: 'n' :: 'a' :: 'n' :: ds => readNan s true ds
  | cs => readNumber s cs

/-- A character as the grammar sees it: a digit of any script in ASCII, a letter in lower
case. -/
def plainChar (c : Char) : Char :=
  match Text.digitValue? c with
  | some v => Char.ofNat ('0'.toNat + v)
  | none => c.toLower

/-- Reads a decimal. -/
def read (s : String) : Except TextFault Decimal :=
  match ((Text.trim s).filter (· != '_')).map plainChar with
  | '-' :: cs => readUnsigned true cs
  | '+' :: cs => readUnsigned false cs
  | cs => readUnsigned false cs

end Decimal
end Pawnbook
