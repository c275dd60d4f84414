import Pawnbook.Sha256
import Pawnbook.Transaction.Basic
import Pawnbook.Value.Basic

/-! # Intent ids

The id of an intent is computed from what the transaction does and never from when it was made:
`Intent.text` writes origin, changes, funds and outbound transfers in order, and `Intent.id` is
the start of the digest of that text. `Pending.identified` gives a pending transaction its id. -/

namespace Pawnbook
namespace Intent

/-- The text of who asked for what, as if numbers of every length were written. -/
def originText (o : Origin) : List String :=
  ("origin:" ++ o.kind.text ++ ":" ++ o.source.label) ::
    (match o.namedAction? with
      | some a => ["action:" ++ a.label]
      | none => [])

def changeText (c : Change) : Except Decimal.Failure String := do
  let kind ← c.slot.kind.name.value.written
  let key ← c.slot.key.value.canonical
  let old ← c.oldValue.canonical
  let new ← c.newValue.canonical
  return "change:" ++ kind ++ "|" ++ key ++ "|" ++ old ++ "|" ++ new

/-- The text of a transfer that comes with the message. -/
def fundsText (m : Message) : Except Decimal.Failure String := do
  return "funds:" ++ (← m.toValue.canonical)

def messageText (m : Message) : Except Decimal.Failure String := do
  return "msg:" ++ (← m.toValue.canonical)

def text (changes : List Change) (fundsIn messages : List Message)
    (origin : Origin) : Except Decimal.Failure String := do
  Value.requireShort [origin.source.value, origin.action]
  let changes ← changes.mapM changeText
  let funds ← fundsIn.mapM fundsText
  let messages ← messages.mapM messageText
  return Text.join "|" (originText origin ++ changes ++ funds ++ messages)

/-- The id that belongs to a text: the first sixteen digits of its digest. -/
def id (text : String) : String := String.ofList ((Sha256.hexDigest text).toList.take 16)

end Intent

namespace Pending

/-- The text of what a pending transaction does. -/
def intentText (p : Pending) : Except Decimal.Failure String :=
  Intent.text p.changes p.fundsIn p.messages p.origin

/-- Gives a pending transaction the id of its intent, unless it has an id already. -/
def identified (p : Pending) : Except Decimal.Failure Pending :=
  if p.intentId.value.isVoid then do
    return { p with intentId := .text (Intent.id (← p.intentText)) }
  else .ok p

end Pending
end Pawnbook
