import Pawnbook.Asset
import Pawnbook.Change
import Pawnbook.Coin
import Pawnbook.Reading.Basic

/-! # Reading records

The records of the book and the parts they are made of, coins, terms and assets. Each record is
read by the names of its fields; a coin and terms are checked as they are read. Assets are told
apart by the names of their types. -/

namespace Pawnbook

def Coin.ofValue (v : Value) : Reading Coin :=
  Malformed.toReading (Coin.ofValues (v.get "denom") (v.get "amount"))

/-- Reads what stands in a coin's place: what has no fields is passed on as it is. -/
def Tender.ofValue (v : Value) : Reading Tender :=
  if v.isObject then .coin <$> Coin.ofValue v else .ok (.other v)

/-- Reads the principal of terms, which must be a coin. -/
def Terms.principalOfValue (v : Value) : Reading Coin :=
  if v.isObject then Coin.ofValue v else .error (.malformed (.principalKind v.kind))

def Terms.ofValue (v : Value) : Reading Terms := do
  let principal ← Terms.principalOfValue (v.get "principal")
  let interest ← v.numberAt "interest"
  let duration ← v.numberAt "duration_in_blocks"
  Malformed.toReading (Terms.make principal interest duration)

/-- The token that the fields for its collection and its id name. -/
def Token.ofFields (v : Value) : Token := ⟨v.nameAt "address", v.nameAt "token_id"⟩

def Asset.ofValue (v : Value) : Reading Asset := do
  match v.typeName with
  | "Cw721Coin" => return .nft ⟨.cw721, .ofFields v⟩
  | "Sg721Token" => return .nft ⟨.sg721, .ofFields v⟩
  | "Cw1155Coin" => return .cw1155 (.ofFields v) (v.countAt "value")
  | "Cw20Coin" => return .cw20 (v.nameAt "address") (v.countAt "amount")
  | "NativeCoin" => return .native (← Tender.ofValue (v.get "coin"))
  | _ => v.unexpected "asset"

/-! ## Reading the records of the book

The configuration, the records of borrowers, listings and offers, their keys, and the changes of
them. A configuration is taken as it is: its name and its fee rate are not checked. -/

def Envelope.ofValue (v : Value) : Reading Envelope := do
  let funds ← (v.get "funds").listOf Tender.ofValue
  Malformed.toReading (Envelope.make (← v.senderAt "sender") funds)

/-! ### Records -/

def Ownership.ofFields (v : Value) : Ownership := ⟨v.nameAt "owner", v.nameAt? "new_owner"⟩

def Config.ofValue (v : Value) : Reading Config := do
  return {
    name := v.get "name"
    ownership := .ofFields (v.get "owner")
    feeDistributor := v.nameAt "fee_distributor"
    feeRate := ← v.decimalAt "fee_rate"
    lastOffer := v.countAt "global_offer_index" }

def Borrower.ofFields (v : Value) : Borrower := ⟨v.countAt "last_collateral_id"⟩

/-- Reads the state of a listing, which is published if none is given. -/
def LoanState.ofValue (v : Value) : Reading LoanState :=
  v.orElse (Value.readMember "LoanState" LoanState.ofText?) .published

/-- Reads the state of an offer, which is published if none is given. -/
def OfferState.ofValue (v : Value) : Reading OfferState :=
  v.orElse (Value.readMember "OfferState" OfferState.ofText?) .published

def Listing.ofValue (v : Value) : Reading Listing := do
  return {
    assets := ← (v.get "associated_assets").listOf Asset.ofValue
    date := ← (v.get "list_date").optional Value.readTime
    state := ← LoanState.ofValue (v.get "state")
    terms := ← (v.get "terms").optional Terms.ofValue
    offerCount := v.countAt "offer_amount"
    activeOffer := v.nameAt? "active_offer"
    startBlock := v.valueAt? "start_block"
    comment := v.valueAt? "comment"
    preview := ← (v.get "loan_preview").optional Asset.ofValue }

def Offer.ofValue (v : Value) : Reading Offer := do
  return {
    lender := v.nameAt "lender"
    borrower := v.nameAt "borrower"
    loanId := ⟨v.countAt "loan_id"⟩
    position := v.countAt "offer_id"
    terms := ← (v.get "terms").optional Terms.ofValue
    state := ← OfferState.ofValue (v.get "state")
    date := ← (v.get "list_date").optional Value.readTime
    deposit := ← (v.get "deposited_funds").optional Tender.ofValue
    comment := v.valueAt? "comment" }

/-- Reads a record of the book by the name of its type. What is no record of the book is kept as
given. -/
def Stored.ofValue (v : Value) : Reading Stored := do
  match v with
  | .record "ContractInfo" .. => return .config (← Config.ofValue v)
  | .record "BorrowerInfo" .. => return .borrower (.ofFields v)
  | .record "CollateralInfo" .. => return .listing (← Listing.ofValue v)
  | .record "OfferInfo" .. => return .offer (← Offer.ofValue v)
  | _ => return .other v

/-! ### Keys and changes -/

def ListingKey.ofPair (v : Value) : ListingKey := ⟨⟨v.item 0⟩, (v.item 1).asKey⟩

/-- The slot that the fields of a change name. -/
def Slot.ofFields (v : Value) : Slot := ⟨.ofName (v.nameAt "kind"), v.nameAt "key"⟩

def Change.ofValue (v : Value) : Reading Change := do
  return {
    slot := .ofFields v
    old := ← (v.get "old").optional Stored.ofValue
    new := ← (v.get "new").optional Stored.ofValue }

end Pawnbook
