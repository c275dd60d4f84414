import Pawnbook.Book.Basic

/-! # The book at a glance

The state of a book as one value: in full (`Book.contents`), or with a few words for every record
(`Book.overview`). Listings come in the order of their keys, offers in the order of their ids,
tokens in their own order, balances without those that are zero. -/

namespace Pawnbook

/-! ### Bank, registry and fees -/

/-- The balances that are not zero, by address and denomination. -/
def Bank.toValue (b : Bank) : Value :=
  .map (b.allHoldings.map fun (a, held) =>
    (a.value, .map (held.map fun (d, n) => (d.value, .ofNumber n))))

/-- The tokens with their owners, in the order of the tokens. -/
def Registry.toValue (r : Registry) : Value :=
  .tuple (r.sorted.map fun (t, owner) => .tuple [t.collection.value, t.id.value, owner.value])

def FeeLedger.toValue (l : FeeLedger) : Value :=
  .tuple (l.receipts.map fun r =>
    .tuple [.tuple (r.addresses.map Key.value), r.kind, r.coin.toValue])

namespace Book

/-! ### Records in order -/

/-- The records of listings by the two parts of their keys, and in the order of these. -/
def sortedListings (b : Book) : Except Error (List ((Key × Key) × Stored)) := do
  let rows ← Malformed.toError <| b.listings.entries.mapM fun (k, r) => do return (← k.both, r)
  Value.Unordered.toError (Value.ascending (fun e => (Key.pair e.1.1 e.1.2).value) rows)

def sortedOffers (b : Book) : Except Error (List (Key × Offer)) :=
  Value.Unordered.toError (Value.ascending (·.1.value) b.offers.offers.entries)

/-- The intents that were applied, in the order of their ids. -/
def sortedSeen (b : Book) : List Key := Value.sorted Key.value b.seen

/-! ### The two views -/

/-- A listing in a few words: its state, its offers and the start of its loan. -/
def listingWords (l : Listing) : List Value :=
  [.text l.state.text, l.offerCount, .ofOption Key.value l.activeOffer,
   .ofOption id l.startBlock]

/-- An offer in a few words: its id, its stored state, the state it reads in, and its deposit. -/
def offerLine (b : Book) (id : Key) (o : Offer) : Value :=
  .tuple
    [id.value, .text o.state.text, .text (o.stateIf (b.closes o.listing)).text,
     .ofOption Tender.toValue o.deposit]

/-- The borrowers with their latest numbers. -/
def borrowerNumbers (b : Book) : List (Value × Value) :=
  b.borrowers.entries.filterMap fun (k, r) => r.borrower?.map fun r => (k.value, r.lastId)

/-- The listings in a few words each, behind the parts of their keys. -/
def listingLines (b : Book) : Except Error (List Value) := do
  return (← b.sortedListings).filterMap fun ((borrower, id), r) => r.listing?.map fun l =>
    .tuple (borrower.value :: id.value :: listingWords l)

/-- The listings in full, behind the parts of their keys. -/
def listingRows (b : Book) : Except Error (List Value) := do
  return (← b.sortedListings).map fun ((borrower, id), r) =>
    .tuple [borrower.value, id.value, r.toValue]

/-- The book with a few words for every record. -/
def overview (b : Book) : Except Error Value := do
  return .ofEntries
    [("height", b.height), ("time", .time b.time), ("borrowers", .map b.borrowerNumbers),
     ("collaterals", .tuple (← b.listingLines)),
     ("offers", .tuple ((← b.sortedOffers).map fun (id, o) => b.offerLine id o)),
     ("balances", b.bank.toValue), ("owners", b.registry.toValue),
     ("fees", .int b.fees.receipts.length), ("log", .int b.log.length)]

/-- The book in full. -/
def contents (b : Book) : Except Error Value := do
  return .ofEntries
    [("contract_info", b.configRecord.toValue), ("height", b.height), ("time", .time b.time),
     ("borrowers", .map (b.borrowers.entries.map fun (k, r) => (k.value, r.toValue))),
     ("collaterals", .tuple (← b.listingRows)),
     ("offers", .tuple ((← b.sortedOffers).map fun (id, o) => .tuple [id.value, o.toValue])),
     ("balances", b.bank.toValue), ("owners", b.registry.toValue), ("fees", b.fees.toValue),
     ("log", .tuple (b.log.map fun t => .tuple [.text t.execId, t.intentId.value])),
     ("seen", .tuple (b.sortedSeen.map Key.value))]

end Book
end Pawnbook
