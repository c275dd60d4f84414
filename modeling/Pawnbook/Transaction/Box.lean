import Pawnbook.Transaction.Basic

/-! # Printed transactions

A transaction prints as a box of a hundred columns: its identity, its transfers and the fields
it changes. Longer lines are cut and end in three points. The box that a book prints has a last
section with the outcome. -/

namespace Pawnbook
namespace Box

/-- The columns inside a box. -/
def width : Nat := 100

/-- A text on exactly `width` columns. -/
def fit (s : String) : String :=
  let cs := s.toList
  if width < cs.length then String.ofList (cs.take (width - 3)) ++ "..."
  else String.ofList (cs.rightpad width ' ')

/-- A line of text between the sides of a box. -/
def row (s : String) : String := "│" ++ fit s ++ "│"

/-- A horizontal line with the given ends. -/
def rule (left right : String) : String :=
  left ++ String.ofList (List.replicate width '─') ++ right

def top : String := rule "┌" "┐"

def divider : String := rule "├" "┤"

def bottom : String := rule "└" "┘"

end Box

namespace Change

def fieldRow : String × Value × Value → Except Decimal.Failure String
  | (name, old, new) => do
    return Box.row ("      " ++ name ++ ": " ++ (← old.printed) ++ " → " ++ (← new.printed))

/-- The rows of a change: its slot, and its changed fields. -/
def rows (c : Change) : Except Decimal.Failure (List String) := do
  let kind ← c.slot.kind.name.value.written
  let key ← c.slot.key.value.written
  let fields ← (← c.changedFields).mapM fieldRow
  return Box.row ("   [" ++ kind ++ " " ++ key ++ "]") :: fields

end Change

namespace Transaction

/-- An attribute and its value, as if numbers of every length were written. -/
def attributeText (e : Key × Value) : String := e.1.label ++ "=" ++ e.2.label

/-- The values that the rows on top name. -/
def headValues (t : Transaction) : List Value :=
  [t.intentId.value, t.bookName, t.height, t.origin.source.value, t.origin.action] ++
    t.attributes.flatMap fun e => [e.1.value, e.2]

/-- The rows that identify a transaction. -/
def headRows (t : Transaction) : Except Decimal.Failure (List String) := do
  Value.requireShort t.headValues
  return [Box.row (" Transaction: " ++ t.execId), Box.divider,
    Box.row ("   intent_id      : " ++ t.intentId.label),
    Box.row ("   timestamp      : " ++ (Value.ofOption .time t.date).label),
    Box.row ("   book_name      : " ++ t.bookName.label),
    Box.row ("   block_height   : " ++ t.height.label),
    Box.row ("   sequence       : " ++ t.sequence.label),
    Box.row ("   origin         : " ++ t.origin.text)] ++
    if t.attributes.isEmpty then []
    else [Box.row ("   attributes     : " ++ Text.join ", " (t.attributes.map attributeText))]

def transferRows (t : Transaction) : Except Decimal.Failure (List String) := do
  Value.requireShort (t.transfers.flatMap Message.named)
  return Box.row (" Transfers (" ++ Text.ofNat t.transfers.length ++ "):") ::
    t.transfers.zipIdx.map fun (m, i) =>
      Box.row ("   [" ++ Text.ofNat i ++ "] " ++ m.text)

/-- The section of the changes, if there are any. -/
def changeRows (t : Transaction) : Except Decimal.Failure (List String) :=
  if t.changes.isEmpty then .ok []
  else do
    let rows ← t.changes.mapM Change.rows
    return [Box.divider, Box.row (" Record Changes (" ++ Text.ofNat t.changes.length ++ "):")] ++
      rows.flatten

/-- The rows of the box without its bottom, after an empty line. -/
def openBox (t : Transaction) : Except Decimal.Failure (List String) := do
  let head ← t.headRows
  let transfers ← t.transferRows
  return ["", Box.top] ++ head ++ [Box.divider] ++ transfers ++ (← t.changeRows)

def lines (t : Transaction) : Except Decimal.Failure (List String) := do
  return ((← t.openBox) ++ [Box.bottom]).flatMap Text.lines

def toValue (t : Transaction) : Except Decimal.Failure Value := do
  return .record "Transaction"
    [("changes", .tuple (t.changes.map Change.toValue)),
     ("funds_in", .tuple (t.fundsIn.map Message.toValue)),
     ("messages", .tuple (t.messages.map Message.toValue)), ("origin", t.origin.toValue),
     ("timestamp", .ofOption .time t.date), ("intent_id", t.intentId.value),
     ("exec_id", .text t.execId), ("book_name", t.bookName), ("block_height", t.height),
     ("sequence_number", t.sequence), ("attributes", t.attributes.toValue)]
    (some (Text.join "\n" (← t.lines)))

/-- The printed lines of a transaction with its outcome. -/
def linesWith (t : Transaction) (outcome : String) : Except Decimal.Failure (List String) := do
  return (← t.openBox).flatMap Text.lines ++ [Box.divider, Box.row (" " ++ outcome), Box.bottom]

end Transaction
end Pawnbook
