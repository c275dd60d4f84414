import Pawnbook.Book.Basic
import Pawnbook.Transaction.Intent

/-! # Drafting transactions

A draft collects what an action does; `Draft.pending` makes the pending transaction of it, at
the time and for the address of a book: changes of one slot are merged, zero coins are left out
of the funds, and attributes without a value are dropped, the others being put into texts. -/

namespace Pawnbook

/-- What an action does, for a sender. -/
structure Draft where
  sender : Key
  /-- The name of the action. -/
  action : Value := .null
  changes : List Change := []
  messages : List Message := []
  /-- The coins that the sender attached. -/
  funds : List Coin := []
  attributes : Attributes := []
  kind : OriginKind := .userAction

namespace Draft

/-- The transfers that bring the attached coins to the contract. -/
def fundsIn (d : Draft) (contract : Key) : Except Error (List BankSend) :=
  (d.funds.filter (·.amount != 0)).mapM fun c =>
    Malformed.toError (BankSend.make d.sender contract c)

/-- The attributes that have a value. -/
def namedAttributes (d : Draft) : Attributes := d.attributes.filter fun e => e.2 != .null

/-- The attributes in running text, after the action itself. -/
def attributeTexts (d : Draft) : Except Decimal.Failure Attributes := do
  let texts ← d.namedAttributes.mapM fun (k, v) => do return (k, Value.text (← v.written))
  return ("action", d.action) :: texts

/-- The pending transaction of a draft. -/
def pending (d : Draft) (b : Book) : Except Error Pending := do
  let fundsIn ← d.fundsIn b.address
  let identified : Except Decimal.Failure Pending := do
    let attributes ← d.attributeTexts
    Pending.identified
      { changes := Change.merge d.changes
        fundsIn := fundsIn.map .send
        messages := d.messages
        origin := ⟨d.kind, d.sender, d.action⟩
        date := some b.time
        attributes
        intentId := "" }
  identified.mapError .calculation

end Draft

namespace Book

/-- The pending transaction that does nothing. -/
def emptyPending (b : Book) : Except Decimal.Failure Pending :=
  Pending.identified
    { changes := [], fundsIn := [], messages := [], origin := ⟨.system, "noop", .null⟩
      date := some b.time, intentId := "" }

end Book
end Pawnbook
