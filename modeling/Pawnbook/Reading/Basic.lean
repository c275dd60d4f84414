import Pawnbook.Record.Key

/-! # Reading values

A value that comes from outside is read as what it should be: a number, a time, a sequence, or a
record by the names of its fields. The value may be a document, whose lists are sequences and
whose maps are records with the name of their type among their entries. A missing field reads as
nothing, a missing number as zero; what a field should hold is checked only where the book counts
with it. Times, decimals and members of enumerations may be given in their written form. -/

namespace Pawnbook

/-- Why a value cannot be read. -/
inductive Unreadable where
  /-- It has the right form and breaks a rule. -/
  | malformed (reason : Malformed)
  /-- A text that cannot be read as a decimal. -/
  | notDecimal (fault : Decimal.TextFault)
  /-- A text that cannot be read as a time. -/
  | notTime (text : String) (fault : Time.Unread)
  /-- What stands in the place of a member of an enumeration is none. -/
  | notMember (shown type : String)
  /-- It is counted with as it is read, and that fails. -/
  | calculation (failure : Decimal.Failure)
  /-- It is of another kind than wanted. -/
  | unexpected (wanted kind : String)
deriving DecidableEq

/-- A value that was read, or the reason why it cannot be. -/
abbrev Reading := Except Unreadable

/-- A well-formed value, as far as its rules go. -/
def Malformed.toReading {α : Type} (r : Except Malformed α) : Reading α := r.mapError .malformed

/-- What is calculated as a value is read. -/
def calculated {α : Type} (r : Except Decimal.Failure α) : Reading α := r.mapError .calculation

namespace Value

/-! ### Parts -/

/-- The field of a record under a name, nothing if it is missing. -/
def get (v : Value) (name : String) : Value := (v.field? name).getD .null

/-- The entries of a map in their order. -/
def entries : Value → List (Value × Value)
  | map es => es
  | _ => []

/-- The item of a sequence at a place, nothing if it is missing. -/
def item (v : Value) (i : Nat) : Value :=
  match v with
  | tuple xs | list xs => xs.getD i .null
  | _ => .null

def typeName (v : Value) : String :=
  match v, v.field? "type" with
  | record name _ _, _ => name
  | map _, some (text name) => name
  | _, _ => ""

/-- The value has fields. -/
def isObject : Value → Bool
  | record .. | map _ => true
  | _ => false

/-! ### Simple values -/

/-- The refusal of a value that is not of the wanted kind. -/
def unexpected {α : Type} (wanted : String) (v : Value) : Reading α :=
  .error (.unexpected wanted v.kind)

def readText : Value → Reading String
  | text s => .ok s
  | v => v.unexpected "text"

def readNumber (v : Value) : Reading Number :=
  match v.asNumber? with
  | some n => .ok n
  | none => .error (.malformed (.noNumber v.kind))

/-- A whole number; a truth value counts as one or zero. -/
def readInt (v : Value) : Reading Int :=
  match v.asNumber?.bind Number.whole? with
  | some n => .ok n
  | none => v.unexpected "whole number"

/-- A time, as such or in its written form. -/
def readTime : Value → Reading Time
  | time t => .ok t
  | text s => (Time.read s).mapError (.notTime s)
  | v => v.unexpected "time"

/-- A decimal, as a number or in its text. -/
def readDecimal (v : Value) : Reading Decimal :=
  match v, v.number? with
  | text s, _ => (Decimal.read s).mapError .notDecimal
  | _, some d => .ok d
  | _, none => v.unexpected "decimal"

/-- A member of the enumeration with the given name, as such or in its written form. -/
def readMember {α : Type} (type : String) (ofText? : String → Option α) (v : Value) : Reading α :=
  let written := match v with
    | text s => ofText? s
    | member own _ s => if own = type then ofText? s else none
    | _ => none
  match written with
  | some a => .ok a
  | none => .error (.notMember v.display type)

/-! ### Sequences and missing values -/

/-- What a value gives one by one: the items of a sequence, the characters of a text, the keys of
a map. -/
def items? : Value → Option (List Value)
  | tuple xs | list xs => some xs
  | text s => some (s.toList.map fun c => text c.toString)
  | map es => some (es.map (·.1))
  | _ => none

/-- What a value gives one by one, each part being read. -/
def readAll {α : Type} (read : Value → Reading α) (v : Value) : Reading (List α) :=
  match v.items? with
  | some xs => xs.mapM read
  | none => v.unexpected "sequence"

/-- The two parts of a pair. -/
def readPair (v : Value) : Reading (Key × Key) := Malformed.toReading (Key.both ⟨v⟩)

/-- A value that may be nothing. -/
def optional {α : Type} (read : Value → Reading α) : Value → Reading (Option α)
  | null => .ok none
  | v => some <$> read v

/-- A value, with a default in place of nothing. -/
def orElse {α : Type} (read : Value → Reading α) (missing : α) : Value → Reading α
  | null => .ok missing
  | v => read v

/-- The items of a sequence, none for nothing. -/
def listOf {α : Type} (read : Value → Reading α) (v : Value) : Reading (List α) :=
  v.orElse (readAll read) []

/-! ### Names -/

/-- The value as the key that an argument gives; a list of a document is one sequence of parts. -/
def asKey : Value → Key
  | list xs => ⟨.tuple xs⟩
  | v => ⟨v⟩

/-- The name in a field, as it was written. -/
def nameAt (v : Value) (name : String) : Key := ⟨v.get name⟩

/-- The name in a field that may be missing. -/
def nameAt? (v : Value) (name : String) : Option Key :=
  match v.get name with
  | null => none
  | x => some ⟨x⟩

/-- The names that a field gives one by one. -/
def namesAt (v : Value) (name : String) : Reading (List Key) :=
  (v.get name).listOf fun x => return ⟨x⟩

def textAt (v : Value) (name : String) : Reading String := (v.get name).readText

/-- A sender in a field; what stands for nothing reads as the empty name. -/
def senderAt (v : Value) (name : String) : Reading String :=
  if (v.get name).isVoid then .ok "" else v.textAt name

/-! ### Numbers and remarks -/

/-- What a field counts, as it was written; zero if it is missing. -/
def countAt (v : Value) (name : String) : Value := (v.field? name).getD (.int 0)

def numberAt (v : Value) (name : String) : Reading Number := (v.countAt name).readNumber

/-- What a field holds, unless that is nothing. -/
def valueAt? (v : Value) (name : String) : Option Value :=
  match v.get name with
  | null => none
  | x => some x

/-! ### Decimals -/

/-- The name of the field for the place at which a document writes what is no number. -/
def placeField : String := "place"

/-- A decimal in a field, read at the place that is given beside it. -/
def decimalAt (v : Value) (name : String) : Reading Decimal := do
  let d ← (v.get name).readDecimal
  match v.get placeField with
  | .int place => return d.readAt place.toNat
  | _ => return d

/-- The mark of a decimal in a document. -/
def decimalMark : String := "$dec"

/-- What a field gives as a rate, as it was written. -/
def writtenRateAt (v : Value) (name : String) : Value :=
  match v.get name with
  | map es => map (es.filter fun e => !e.1.isText placeField)
  | x => x

/-- What a field gives as a rate: a decimal with its mark, or anything else as it is. -/
def rateAt (v : Value) (name : String) : Reading Value :=
  let given := v.get name
  if (given.field? decimalMark).isSome then .decimal <$> given.decimalAt decimalMark else .ok given

end Value
end Pawnbook
