import Pawnbook.Book.Execution
import Pawnbook.Query
import Pawnbook.Reading.Transactions

/-! # Completing values

`Value.complete` makes the value that a document writes in a free place. Lists become tuples, and
maps with a mark become the value that is marked: a decimal, a time, a member of an enumeration
or a map under keys of any kind. A map that names a type becomes the record of that type in the
form in which the book writes it: the record is checked, its missing fields get their defaults,
and its fields come in order. A map without a type is left for its reader, its own values being
completed. -/

namespace Pawnbook

/-! ### Answers to queries -/

def ListingEntry.ofValue (v : Value) : Reading ListingEntry := do
  return ⟨v.nameAt "borrower", ⟨v.countAt "loan_id"⟩,
    ← (v.get "collateral").optional fun x => Stored.listing <$> Listing.ofValue x⟩

def readOfferEntry (v : Value) : Reading (Key × Offer) := do
  return (v.nameAt "global_offer_id", ← Offer.ofValue (v.get "offer_info"))

def readPage {α : Type} (items next : String) (entry : Value → Reading α) (v : Value) :
    Reading (Page α Key) := do
  return { items := ← (v.get items).listOf entry, next := (v.valueAt? next).map Value.asKey }

/-! ### Marked values -/

/-- The member of an enumeration by the names of its type and of its written form. -/
def readMemberOf (s : String) : Reading Value :=
  let type := String.ofList (s.toList.takeWhile (· != '.'))
  let written := Value.text (String.ofList (s.toList.drop (type.length + 1)))
  match type with
  | "LoanState" => LoanState.toValue <$> written.readMember type LoanState.ofText?
  | "OfferState" => OfferState.toValue <$> written.readMember type OfferState.ofText?
  | "OriginType" => OriginKind.toValue <$> written.readMember type OriginKind.ofText?
  | "ExecuteResult" => Verdict.toValue <$> written.readMember type Verdict.ofText?
  | _ => (Value.text s).unexpected "member of an enumeration"

/-- The marks of values that are no records, each the name of the one field that they have. -/
def Value.marks : List String := [decimalMark, "$time", "$enum", "$map"]

/-- The mark of a value that is no record. -/
def Value.mark? (v : Value) : Option String := Value.marks.find? fun mark => (v.field? mark).isSome

/-- Reads a value with a mark. -/
def Value.ofMarked (mark : String) (v : Value) : Reading Value := do
  let x := v.get mark
  match mark with
  | "$time" => return .time (← x.readTime)
  | "$enum" => readMemberOf (← x.readText)
  | "$map" => return .mapOf ((← x.listOf Value.readPair).map fun (k, y) => (k.value, y.value))
  | _ => return .decimal (← v.decimalAt mark)

/-! ### All records -/

/-- Reads a record of any type and writes it again. -/
def Value.completeRecord (v : Value) : Reading Value := do
  match v.typeName with
  | "" => return v
  | "Coin" => return (← Coin.ofValue v).toValue
  | "LoanTerms" => return (← Terms.ofValue v).toValue
  | "MessageInfo" => return (← Envelope.ofValue v).toValue
  | "OwnerStruct" => return (Ownership.ofFields v).toValue
  | "ContractInfo" => return (← Config.ofValue v).toValue
  | "BorrowerInfo" => return (Borrower.ofFields v).toValue
  | "CollateralInfo" => return (← Listing.ofValue v).toValue
  | "OfferInfo" => return (← Offer.ofValue v).toValue
  | "BankSend" => return (← BankSend.ofValue v).toValue
  | "NftTransfer" => return (← NftTransfer.ofValue v).toValue
  | "FeeDeposit" => return (← FeeDeposit.ofValue v).toValue
  | "TransactionOrigin" => return (← Origin.ofValue v).toValue
  | "RecordChange" => return (← Change.ofValue v).toValue
  | "PendingTransaction" => return (← Pending.ofValue v).toValue
  | "Transaction" => calculated (← Transaction.ofValue v).toValue
  | "CollateralResponse" => return (← ListingEntry.ofValue v).toValue
  | "OfferResponse" => return offerEntry (← readOfferEntry v)
  | "MultipleCollateralsResponse" =>
    return listingsAnswer (← readPage "collaterals" "next_collateral" ListingEntry.ofValue v)
  | "MultipleCollateralsAllResponse" =>
    return allListingsAnswer (← readPage "collaterals" "next_collateral" ListingEntry.ofValue v)
  | "MultipleOffersResponse" =>
    return offersAnswer (← readPage "offers" "next_offer" readOfferEntry v)
  | _ => return (← Asset.ofValue v).toValue

namespace Value

/-- The types of records that hold values of any kind. -/
def openTypes : List String := ["", "RecordChange", "PendingTransaction", "Transaction"]

mutual

/-- The value that a document writes. -/
def complete : Value → Reading Value
  | tuple xs | list xs => do return .tuple (← completeAll xs)
  | map es => do
    if openTypes.contains (map es).typeName then
      let v := map (← completeEntries es)
      match v.mark? with
      | some mark => ofMarked mark v
      | none => completeRecord v
    else completeRecord (map es)
  | v => .ok v

/-- The values that a list of documents writes. -/
def completeAll : List Value → Reading (List Value)
  | [] => .ok []
  | x :: xs => do return (← complete x) :: (← completeAll xs)

/-- The entries of a map, each with the value that a document writes. -/
def completeEntries : List (Value × Value) → Reading (List (Value × Value))
  | [] => .ok []
  | (k, x) :: es => do return (k, ← complete x) :: (← completeEntries es)

end

end Value
end Pawnbook
