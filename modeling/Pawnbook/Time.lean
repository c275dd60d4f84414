import Pawnbook.Binary64

/-! # Times

A time is a count of microseconds since the first midnight of year 1, before the end of year
9999, in the calendar that drops three leap days in four hundred years. `Time.civil` splits it
into date and time of day, and `Time.ofCivil` puts it together and names the first part that no
calendar or clock has. `Time.after` adds a span and fails outside the years. -/

namespace Pawnbook

/-- A time from year 1 to year 9999 in microseconds. -/
structure Time where
  micros : Nat
  /-- The time lies before the year 10000. -/
  inRange : micros < 3652059 * 86400000000
deriving DecidableEq

namespace Time

def microsPerDay : Nat := 86400000000

/-! ### The calendar -/

/-- A date and a time of day. -/
structure Civil where
  year : Nat
  month : Nat
  day : Nat
  hour : Nat
  minute : Nat
  second : Nat
  micro : Nat
deriving DecidableEq

/-- A year with a leap day. -/
def isLeap (y : Nat) : Bool := y % 4 = 0 && (y % 100 != 0 || y % 400 = 0)

def daysBeforeYear (y : Nat) : Nat := (y - 1) * 365 + (y - 1) / 4 - (y - 1) / 100 + (y - 1) / 400

/-- The lengths of the months of year `y`. -/
def monthLengths (y : Nat) : List Nat :=
  [31, if isLeap y then 29 else 28, 31, 30, 31, 30, 31, 31, 30, 31, 30, 31]

/-- Month and day of the month, both from 1, of day `n` of the months given, counted from
`month`. -/
def monthAndDay (month n : Nat) : List Nat → Nat × Nat
  | [] => (month, n + 1)
  | length :: rest =>
    if n < length then (month, n + 1) else monthAndDay (month + 1) (n - length) rest

/-- The year of day `n` and the day of that year, both years and four-year spans being counted
inside their centuries, and those inside their spans of four hundred years. -/
def yearAndDay (n : Nat) : Nat × Nat :=
  let (n400, r) := (n / 146097, n % 146097)
  let n100 := min 3 (r / 36524)
  let r := r - n100 * 36524
  let (n4, r) := (r / 1461, r % 1461)
  let n1 := min 3 (r / 365)
  (400 * n400 + 100 * n100 + 4 * n4 + n1 + 1, r - n1 * 365)

def dateOfDay (n : Nat) : Nat × Nat × Nat :=
  let (year, day) := yearAndDay n
  (year, monthAndDay 1 day (monthLengths year))

/-- Date and time of day. -/
def civil (t : Time) : Civil :=
  let (year, month, day) := dateOfDay (t.micros / microsPerDay)
  let r := t.micros % microsPerDay
  { year, month, day, hour := r / 3600000000, minute := r / 60000000 % 60,
    second := r / 1000000 % 60, micro := r % 1000000 }

/-- The part of a date or of a time of day that no calendar or clock has. -/
inductive Missing where
  | year (year : Nat)
  | month
  | day
  | hour
  | minute
  | second
deriving DecidableEq

/-- What is wrong with a part that does not exist. -/
def Missing.message : Missing → String
  | .year y => "year " ++ Text.ofNat y ++ " is out of range"
  | .month => "month must be in 1..12"
  | .day => "day is out of range for month"
  | .hour => "hour must be in 0..23"
  | .minute => "minute must be in 0..59"
  | .second => "second must be in 0..59"

/-- The first part of a date or of a time of day that does not exist. -/
def Civil.missing? (c : Civil) : Option Missing :=
  if c.year < 1 ∨ 9999 < c.year then some (.year c.year)
  else if c.month < 1 ∨ 12 < c.month then some .month
  else if c.day < 1 ∨ (monthLengths c.year).getD (c.month - 1) 0 < c.day then some .day
  else if 23 < c.hour then some .hour
  else if 59 < c.minute then some .minute
  else if 59 < c.second then some .second
  else none

/-- The microseconds before a date and a time of day. -/
def microsBefore (c : Civil) : Nat :=
  let months := (monthLengths c.year).take (c.month - 1)
  let days := daysBeforeYear c.year + months.foldr (· + ·) 0 + (c.day - 1)
  days * microsPerDay + ((c.hour * 60 + c.minute) * 60 + c.second) * 1000000 + c.micro

/-- The time of a date and a time of day, if they exist. -/
def ofCivil (c : Civil) : Except Missing Time :=
  match c.missing? with
  | some part => .error part
  | none =>
    if h : microsBefore c < 3652059 * 86400000000 then .ok ⟨microsBefore c, h⟩
    else .error (.year c.year)

/-! ### Adding seconds -/

/-- Why a time cannot be moved by a span. -/
inductive Unreachable where
  /-- The time reached lies outside the years 1 to 9999. -/
  | outOfRange
  /-- The span has more days than any span may have. -/
  | longSpan (days : Int)
  /-- The span's days cannot even be counted. -/
  | uncountable
deriving DecidableEq

def microsPerSecond : Nat := 1000000

/-- The microseconds of a floating number of seconds: those of its fraction are computed as a
floating number and rounded, a half to the even one. -/
def microsOfBinary (negative : Bool) (m : Nat) (q : Int) : Int :=
  let micros : Int := Binary64.wholePart m q * microsPerSecond +
    (Binary64.fraction m q).nearestProduct microsPerSecond
  if negative then -micros else micros

/-- The time `span` microseconds after `t`, before it if they are negative. -/
def after (t : Time) (span : Int) : Except Unreachable Time :=
  let days := Int.fdiv span microsPerDay
  if days < -2147483648 ∨ 2147483647 < days then .error .uncountable
  else if days < -999999999 ∨ 999999999 < days then .error (.longSpan days)
  else
    let micros : Int := t.micros + span
    if h : 0 ≤ micros ∧ micros < 3652059 * 86400000000 then .ok ⟨micros.toNat, by omega⟩
    else .error .outOfRange

/-! ## The written forms of times

`Time.text` writes a time: date, a separator, and time of day. `Time.read` also takes the other
written forms of the calendar: dates by week and day of the week, dates and times of day without
marks between their parts, and times of day whose last parts are left out. -/

/-! ### Writing -/

def dateText (c : Civil) : String :=
  Text.padded 4 c.year ++ "-" ++ Text.padded 2 c.month ++ "-" ++ Text.padded 2 c.day

/-- The time of day, with microseconds only if there are any. -/
def clockText (c : Civil) : String :=
  Text.padded 2 c.hour ++ ":" ++ Text.padded 2 c.minute ++ ":" ++ Text.padded 2 c.second ++
    (if c.micro = 0 then "" else "." ++ Text.padded 6 c.micro)

/-- Date and time of day around a separator. -/
def textWith (separator : String) (t : Time) : String :=
  dateText t.civil ++ separator ++ clockText t.civil

/-- The written form, with a `T` between date and time of day. -/
def text (t : Time) : String := t.textWith "T"

/-- The time as a list of numbers: hour and minute always, seconds and microseconds only as far
as they are not zero. -/
def components (t : Time) : List Nat :=
  let c := t.civil
  [c.year, c.month, c.day, c.hour, c.minute] ++
    (if c.second = 0 ∧ c.micro = 0 then [] else [c.second]) ++
    (if c.micro = 0 then [] else [c.micro])

/-! ### Reading -/

/-- Why a text is no time. -/
inductive Unread where
  /-- It has none of the written forms. -/
  | form
  /-- It has one, of a date or a time of day that does not exist. -/
  | missing (part : Missing)
deriving DecidableEq

/-- A number of exactly `width` digits in front of a text, with what follows. -/
def digits? (width : Nat) (cs : List Char) : Option (Nat × List Char) :=
  let ds := cs.take width
  if ds.length = width ∧ ds.all Char.isDigit then
    some (Text.ofDigits (ds.map fun c => c.toNat - '0'.toNat), cs.drop width)
  else none

/-- What follows a hyphen that must come next if hyphens are used. -/
def afterHyphen? (hyphens : Bool) (cs : List Char) : Option (List Char) :=
  if !hyphens then some cs
  else
    match cs with
    | '-' :: rest => some rest
    | _ => none

/-- The number of weeks of a year: 53 if it has 53 Thursdays, otherwise 52. -/
def weeksOf (year : Nat) : Nat :=
  let first := daysBeforeYear year % 7
  if first = 3 ∨ (first = 2 ∧ isLeap year) then 53 else 52

/-- The date of a day of a week, if the year has that week. Weeks begin on Monday, and the first
one is that of the first Thursday. The weeks of year 0 lie in no month. -/
def dateOfWeek? (year week day : Nat) : Option (Nat × Nat × Nat) :=
  let before := daysBeforeYear year
  let monday := before - before % 7 + (if 3 < before % 7 then 7 else 0)
  if week < 1 ∨ weeksOf year < week ∨ day < 1 ∨ 7 < day then none
  else if year = 0 then some (1, 0, day)
  else some (dateOfDay (monday + (week - 1) * 7 + (day - 1)))

/-- Reads year, month and day of a date, which may be given by its week. -/
def readDate? (cs : List Char) : Option (Nat × Nat × Nat) := do
  let (year, rest) ← digits? 4 cs
  let hyphens := rest.head? = some '-'
  match ← afterHyphen? hyphens rest with
  | 'W' :: rest =>
    let (week, rest) ← digits? 2 rest
    if rest.isEmpty then dateOfWeek? year week 1
    else
      let (day, _) ← digits? 1 (← afterHyphen? hyphens rest)
      dateOfWeek? year week day
  | rest =>
    let (month, rest) ← digits? 2 rest
    let (day, rest) ← digits? 2 (← afterHyphen? hyphens rest)
    if rest.isEmpty then some (year, month, day) else none

/-- How many characters of a text are its date. Behind a week without marks, an odd number of
digits begins with the day of the week. -/
def dateLength (cs : List Char) : Nat :=
  if cs[4]? = some '-' then
    if cs[5]? ≠ some 'W' then 10
    else if cs[8]? = some '-' && !cs[10]?.any Char.isDigit then 10
    else 8
  else if cs[4]? ≠ some 'W' then 8
  else
    let digits := ((cs.drop 7).takeWhile Char.isDigit).length
    if digits < 2 then 7 + digits else if digits % 2 = 0 then 8 else 7

/-- Reads a fraction of a second in microseconds; digits beyond the sixth are dropped. -/
def readFraction? (cs : List Char) : Option Nat :=
  if cs.all Char.isDigit then
    (digits? 6 (cs ++ List.replicate 6 '0')).map (·.1)
  else none

/-- Reads what follows the hour of a time of day: at most `n` more parts, then a fraction. -/
def readParts? (colons : Bool) : Nat → List Char → Option (List Nat × Nat)
  | _, [] => some ([], 0)
  | _, [_] => none
  | n, c :: rest => do
    if c = '.' ∨ c = ',' then return ([], ← readFraction? rest)
    if colons ∧ c ≠ ':' then none
    let next := if colons then rest else c :: rest
    match n with
    | 0 => return ([], ← readFraction? next)
    | n + 1 =>
      let (x, rest) ← digits? 2 next
      let (xs, micro) ← readParts? colons n rest
      return (x :: xs, micro)

/-- Reads hour, minute, second and microseconds of a time of day. -/
def readClock? (cs : List Char) : Option (Nat × Nat × Nat × Nat) := do
  let (hour, rest) ← digits? 2 cs
  let (parts, micro) ← readParts? (rest.head? = some ':') 2 rest
  return (hour, parts.getD 0 0, parts.getD 1 0, micro)

/-- Reads the parts of a date and of a time of day. A date alone is its midnight. -/
def readCivil? (s : String) : Option Civil := do
  let cs := s.toList
  let n := dateLength cs
  let (year, month, day) ← readDate? (cs.take n)
  let (hour, minute, second, micro) ←
    if cs.length ≤ n then some (0, 0, 0, 0) else readClock? (cs.drop (n + 1))
  return { year, month, day, hour, minute, second, micro }

/-- Reads a time in any of its written forms. -/
def read (s : String) : Except Unread Time :=
  match readCivil? s with
  | some c => (ofCivil c).mapError .missing
  | none => .error .form

end Time
end Pawnbook
