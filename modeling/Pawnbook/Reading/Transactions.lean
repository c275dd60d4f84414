import Pawnbook.Reading.Records
import Pawnbook.Transaction.Box
import Pawnbook.Transaction.Intent

/-! # Reading transfers and transactions

Transfers are checked as they are read. A pending transaction that comes without an id gets the
id of its intent. -/

namespace Pawnbook

/-! ### Transfers -/

def BankSend.ofValue (v : Value) : Reading BankSend := do
  let tender ← Tender.ofValue (v.get "coin")
  let sender := v.nameAt "sender"
  let recipient := v.nameAt "recipient"
  if sender == recipient then .error (.malformed .selfSend)
  else
    let coin ← Malformed.toReading tender.requireCoin
    Malformed.toReading (BankSend.make sender recipient coin)

def NftTransfer.ofValue (v : Value) : Reading NftTransfer := do
  let asset ← Asset.ofValue (v.get "asset")
  Malformed.toReading (NftTransfer.make asset (v.nameAt "sender") (v.nameAt "recipient"))

def FeeDeposit.ofValue (v : Value) : Reading FeeDeposit := do
  let coin ← Coin.ofValue (v.get "coin")
  let addresses ← v.namesAt "addresses"
  Malformed.toReading
    (FeeDeposit.make (v.nameAt "sender") (v.nameAt "recipient") addresses (v.get "fee_type") coin)

/-- Reads a message by the name of its type. What is no transfer is kept as given. -/
def Message.ofValue (v : Value) : Reading Message := do
  match v with
  | .record "BankSend" .. => return .send (← BankSend.ofValue v)
  | .record "NftTransfer" .. => return .transfer (← NftTransfer.ofValue v)
  | .record "FeeDeposit" .. => return .fee (← FeeDeposit.ofValue v)
  | _ => return .other v

/-! ### Transactions -/

def OriginKind.ofValue (v : Value) : Reading OriginKind :=
  v.readMember "OriginType" OriginKind.ofText?

def Origin.ofValue (v : Value) : Reading Origin := do
  return ⟨← OriginKind.ofValue (v.get "origin_type"), v.nameAt "source_id", v.get "action"⟩

def Attributes.ofValue (v : Value) : Reading Attributes :=
  v.listOf fun e => do
    let (name, x) ← e.readPair
    return (name, x.value)

/-- Reads what a pending transaction and one that was applied have in common. The id of the intent
may be missing. -/
def Pending.partsOfValue (v : Value) : Reading Pending := do
  return {
    changes := ← (v.get "changes").listOf Change.ofValue
    fundsIn := ← (v.get "funds_in").listOf Message.ofValue
    messages := ← (v.get "messages").listOf Message.ofValue
    origin := ← Origin.ofValue (v.get "origin")
    date := ← (v.get "timestamp").optional Value.readTime
    attributes := ← Attributes.ofValue (v.get "attributes")
    intentId := v.nameAt "intent_id" }

def Pending.ofValue (v : Value) : Reading Pending := do calculated (← partsOfValue v).identified

def Transaction.ofValue (v : Value) : Reading Transaction := do
  let intent ← Pending.partsOfValue v
  Malformed.toReading (make intent (← v.textAt "exec_id") (v.get "book_name")
    (v.get "block_height") (v.get "sequence_number"))

end Pawnbook
