import Pawnbook.Number
import Pawnbook.Text
import Pawnbook.Time

/-! # Values

What a record's field, a record's key or a free argument can hold: nothing, truth values,
numbers, texts, times, members of an enumeration, sequences, maps, and records as named lists of
fields. A document is a value as well: its arrays are lists and its objects are maps under texts.
Every record type of the book has a view as a value (`toValue` in its module), from which its
printed form and its canonical text are made. -/

namespace Pawnbook

/-- A value of any kind. The characters of a text are Unicode scalar values: a text never holds one
half of a surrogate pair, which no encoding writes. A tuple is a sequence that never changes, a list
one of a document. A record may bring a short form of its own, shown in place of its fields. -/
inductive Value where
  | null
  | bool (b : Bool)
  | int (n : Int)
  | float (x : Binary64)
  | decimal (d : Decimal)
  | text (s : String)
  | time (t : Time)
  | member (type name value : String)
  | tuple (xs : List Value)
  | list (xs : List Value)
  | map (entries : List (Value × Value))
  | record (name : String) (fields : List (String × Value)) (shown : Option String)

namespace Value

instance : Inhabited Value := ⟨.null⟩

/-- Nothing for a missing value. -/
def ofOption {α : Type} (view : α → Value) : Option α → Value
  | some a => view a
  | none => .null

/-- A map under texts. -/
def ofEntries (es : List (String × Value)) : Value := .map (es.map fun (k, v) => (.text k, v))

/-- A number that is counted with, as a value. -/
def ofNumber : Number → Value
  | .whole n => .int n
  | .truth b => .bool b
  | .floating x => .float x

instance : Coe Number Value := ⟨ofNumber⟩

instance : Coe String Value := ⟨text⟩

/-- The number that a value is, if it can be counted with. -/
def asNumber? : Value → Option Number
  | int n => some (.whole n)
  | bool b => some (.truth b)
  | float x => some (.floating x)
  | _ => none

/-- A number as a decimal; a truth value counts as one or zero. -/
def number? : Value → Option Decimal
  | decimal d => some d
  | v => v.asNumber?.map Number.toDecimal

/-- What stands for nothing: nothing itself, no, zero, and what is empty. -/
def isVoid : Value → Bool
  | null => true
  | text s => s = ""
  | tuple xs | list xs => xs.isEmpty
  | map es => es.isEmpty
  | v =>
    match v.number? with
    | some (.finite _ c _) => c = 0
    | _ => false

def kind : Value → String
  | null => "NoneType"
  | bool _ => "bool"
  | int _ => "int"
  | float _ => "float"
  | decimal _ => "Decimal"
  | text _ => "str"
  | time _ => "datetime"
  | member type _ _ => type
  | tuple _ => "tuple"
  | list _ => "list"
  | map _ => "dict"
  | record name _ _ => name

/-- The value is the given text. -/
def isText (name : String) : Value → Bool
  | text s => s = name
  | _ => false

/-- How many parts a value has: characters, items or entries. -/
def length : Value → Nat
  | text s => s.length
  | tuple xs | list xs => xs.length
  | map es => es.length
  | _ => 0

/-- The fields of a record. -/
def fields : Value → List (String × Value)
  | record _ fs _ => fs
  | _ => []

/-- The field of a record under a name, or the entry of a map under a text. -/
def field? (v : Value) (name : String) : Option Value :=
  match v with
  | record _ fs _ => (fs.find? (·.1 = name)).map (·.2)
  | map es => (es.find? (·.1.isText name)).map (·.2)
  | _ => none

/-! ## Printed values

`Value.display` is the printed form in which texts are quoted and kinds can be told apart;
`Value.label` is the form in running text, where texts stand as they are. -/

/-- Items between parentheses; a single one keeps a comma behind it. -/
def parenthesized : List String → String
  | [x] => "(" ++ x ++ ",)"
  | xs => "(" ++ Text.join ", " xs ++ ")"

def bracketed (xs : List String) : String := "[" ++ Text.join ", " xs ++ "]"

def braced (xs : List String) : String := "\x7b" ++ Text.join ", " xs ++ "\x7d"

def timeDisplay (t : Time) : String :=
  "datetime.datetime(" ++ Text.join ", " (t.components.map Text.ofNat) ++ ")"

mutual

def display : Value → String
  | null => "None"
  | bool true => "True"
  | bool false => "False"
  | int n => Text.ofInt n
  | float x => x.text
  | decimal d => "Decimal('" ++ d.text ++ "')"
  | text s => Text.quoted s
  | time t => timeDisplay t
  | member type name value => "<" ++ type ++ "." ++ name ++ ": " ++ Text.quoted value ++ ">"
  | tuple xs => parenthesized (displayAll xs)
  | list xs => bracketed (displayAll xs)
  | map es => braced (displayEntries es)
  | record _ _ (some shown) => shown
  | record name fs none => name ++ "(" ++ Text.join ", " (displayFields fs) ++ ")"

def displayAll : List Value → List String
  | [] => []
  | x :: xs => display x :: displayAll xs

def displayEntries : List (Value × Value) → List String
  | [] => []
  | (k, x) :: es => (display k ++ ": " ++ display x) :: displayEntries es

def displayFields : List (String × Value) → List String
  | [] => []
  | (name, x) :: fs => (name ++ "=" ++ display x) :: displayFields fs

end

def label : Value → String
  | text s => s
  | decimal d => d.text
  | time t => t.textWith " "
  | member type name _ => type ++ "." ++ name
  | v => v.display

theorem displayAll_eq_map (xs : List Value) : displayAll xs = xs.map display := by
  induction xs with
  | nil => simp [displayAll]
  | cons x xs ih => simp [displayAll, ih]

/-! ### Values that are written

A text is made only if every whole number in it is short enough (`Text.isShort`). -/

mutual

/-- All whole numbers in the value are written. -/
def isShort : Value → Bool
  | int n => Text.isShort n
  | tuple xs | list xs => isShortAll xs
  | map es => isShortEntries es
  | record _ fs _ => isShortFields fs
  | _ => true

def isShortAll : List Value → Bool
  | [] => true
  | x :: xs => isShort x && isShortAll xs

def isShortEntries : List (Value × Value) → Bool
  | [] => true
  | (k, x) :: es => isShort k && isShort x && isShortEntries es

def isShortFields : List (String × Value) → Bool
  | [] => true
  | (_, x) :: fs => isShort x && isShortFields fs

end

/-- Passes if the given values can be written. -/
def requireShort (vs : List Value) : Except Decimal.Failure Unit :=
  if vs.all isShort then .ok () else .error .tooLong

/-- The form in running text, if it can be written. -/
def written (v : Value) : Except Decimal.Failure String :=
  if v.isShort then .ok v.label else .error .tooLong

/-- The printed form, if it can be written. -/
def printed (v : Value) : Except Decimal.Failure String :=
  if v.isShort then .ok v.display else .error .tooLong

/-! ## Canonical text

`Value.canonical` writes a value for hashing: every kind has its own mark, numbers of equal
worth are written alike, and the entries of a map are put in the order of their keys' labels, so
that the order in which they were entered does not show. -/

/-- Entries of a map in the order of the labels that come with them; entries of one label keep
their order. -/
def sortByLabel {α : Type} (es : List (String × α)) : List (String × α) :=
  es.mergeSort fun a b => !decide (b.1 < a.1)

/-- The written entries of a map between braces. -/
def canonicalMap (es : List (String × Except Decimal.Failure String)) :
    Except Decimal.Failure String := do
  let es ← (sortByLabel es).mapM fun e => e.2
  return "\x7b" ++ Text.join "," es ++ "\x7d"

mutual

/-- The canonical text of a value. -/
def canonical : Value → Except Decimal.Failure String
  | null => .ok "null"
  | bool true => .ok "true"
  | bool false => .ok "false"
  | member type _ value => .ok ("E:" ++ type ++ "." ++ value)
  | decimal d => d.canonicalText.map ("D:" ++ ·)
  | int n => do return "N:" ++ (← (int n).written)
  | text s => .ok ("S:" ++ s)
  | time t => .ok ("T:" ++ t.text)
  | record name fs _ => do return name ++ "(" ++ Text.join "," (← canonicalFields fs) ++ ")"
  | map es => do
    requireShort (es.map (·.1))
    canonicalMap (canonicalEntries es)
  | tuple xs | list xs => do return "[" ++ Text.join "," (← canonicalAll xs) ++ "]"
  | float x => .ok ("R:" ++ x.text)

def canonicalAll : List Value → Except Decimal.Failure (List String)
  | [] => .ok []
  | x :: xs => do return (← canonical x) :: (← canonicalAll xs)

/-- The canonical texts of the entries of a map, each with the label of its key. -/
def canonicalEntries : List (Value × Value) → List (String × Except Decimal.Failure String)
  | [] => []
  | (k, x) :: es =>
    (k.label, do return (← canonical k) ++ ":" ++ (← canonical x)) :: canonicalEntries es

/-- The canonical texts of the fields of a record. -/
def canonicalFields : List (String × Value) → Except Decimal.Failure (List String)
  | [] => .ok []
  | (name, x) :: fs => do return (name ++ "=" ++ (← canonical x)) :: (← canonicalFields fs)

end

end Value
end Pawnbook
