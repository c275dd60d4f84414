import Pawnbook.Book.Basic

/-! # Queries

Lists are read page by page in descending order of their keys. A page starts below an exclusive
cursor and holds ten items, or as many as asked for up to a hundred and fifty (`Page.size`). The
cursor for the next page is the last key of the page. Listings are ordered by the values of their
keys, offers by the numbers of their ids. Offers are read in their effective state. -/

namespace Pawnbook

/-! ### Pages -/

/-- A part of a list, and the cursor at which the next part starts. -/
structure Page (α κ : Type) where
  items : List α
  next : Option κ
deriving DecidableEq

namespace Page

def defaultSize : Number := .whole 10

def maxSize : Number := .whole 150

/-- A limit that the largest page keeps within. -/
def capped (limit : Number) : Number := if maxSize.isBelow limit then maxSize else limit

def size : Option Number → Number
  | none => defaultSize
  | some limit => if (capped limit).isPositive then capped limit else .whole 0

/-- The part of a list that a page holds. -/
def cut {α : Type} (limit : Option Number) (xs : List α) : List α :=
  xs.take ((size limit).whole?.getD 0).toNat

/-- The first keys below a cursor, in descending order. -/
def keysBelow (cursor : Option Key) (limit : Option Number) (keys : List Key) :
    Except Value.Unordered (List Key) := do
  let ordered ← Value.descending Key.value keys
  match cursor with
  | none => return cut limit ordered
  | some cursor => return cut limit (← ordered.filterM fun k => k.value.precedes cursor.value)

end Page

/-- The number that an offer id writes; ids are ordered by it. -/
def offerNumber (id : String) : Except Error Int :=
  (Text.readInt id).mapError fun
    | .form => .malformed (.notWhole id)
    | .tooLong digits => .malformed (.longNumber digits)

/-- The number that an offer's key stands for: a number is taken by its whole part. -/
def keyNumber (k : Key) : Except Error Int :=
  match k.value with
  | .text id => offerNumber id
  | .float .nan => .error (.malformed .notANumber)
  | .float (.infinite _) => .error .unbounded
  | v =>
    match v.number? with
    | some d => d.trunc.mapError .calculation
    | none => .error (.malformed (.notWhole k.label))

/-- The number of a cursor among offers. -/
def cursorNumber (cursor : Key) : Except Error Int :=
  (keyNumber cursor).mapError fun
    | .malformed _ | .calculation .notANumber => .badCursor cursor
    | e => e

/-! ### Answers as values -/

/-- A listing in an answer: the two parts of its key, and what is kept under the pair of them. -/
structure ListingEntry where
  borrower : Key
  id : Key
  record : Option Stored

namespace ListingEntry

/-- The pair of the two parts. -/
def key (e : ListingEntry) : Key := .pair e.borrower e.id

def toValue (e : ListingEntry) : Value :=
  .record "CollateralResponse"
    [("borrower", e.borrower.value), ("loan_id", e.id.value),
     ("collateral", .ofOption Stored.toValue e.record)] none

end ListingEntry

def offerEntry (e : Key × Offer) : Value :=
  .record "OfferResponse" [("global_offer_id", e.1.value), ("offer_info", e.2.toValue)] none

def listingsAnswer (p : Page ListingEntry Key) : Value :=
  .record "MultipleCollateralsResponse"
    [("collaterals", .tuple (p.items.map ListingEntry.toValue)),
     ("next_collateral", .ofOption Key.value p.next)] none

def allListingsAnswer (p : Page ListingEntry Key) : Value :=
  .record "MultipleCollateralsAllResponse"
    [("collaterals", .tuple (p.items.map ListingEntry.toValue)),
     ("next_collateral", .ofOption Key.value p.next)] none

def offersAnswer (p : Page (Key × Offer) Key) : Value :=
  .record "MultipleOffersResponse"
    [("offers", .tuple (p.items.map offerEntry)), ("next_offer", .ofOption Key.value p.next)] none

namespace Book

/-! ### Borrowers and listings -/

/-- The record of a borrower who has listed something. -/
def queryBorrower (b : Book) (name : Key) : Except Error Stored :=
  match b.borrowers.get? name with
  | some r => .ok r
  | none => .error (.borrowerNotFound name)

def queryListing (b : Book) (borrower id : Key) : Except Error Stored := b.requireRecord borrower id

/-- A listing in an answer, by the two parts of its key. -/
def listingEntry (b : Book) (borrower id : Key) : ListingEntry :=
  ⟨borrower, id, b.listings.get? (.pair borrower id)⟩

/-- The ids of a borrower's listings, in the order in which they were made. -/
def listingIds (b : Book) (borrower : Option Key) : Except Malformed (List Key) := do
  (← b.listingKeys borrower).mapM fun k => do return (← k.both).2

/-- A borrower's listings, the newest first. The next cursor is given for a full page only. -/
def queryListings (b : Book) (borrower : Option Key) (startAfter : Option Key)
    (limit : Option Number) : Except Error (Page ListingEntry Key) := do
  let ids ← Malformed.toError (b.listingIds borrower)
  let page ← Value.Unordered.toError (Page.keysBelow startAfter limit ids)
  return {
    items := page.map (b.listingEntry (borrower.getD .nothing))
    next := if (Page.size limit).same (.whole page.length) then page.getLast? else none }

/-- All listings in descending order of their keys. -/
def queryAllListings (b : Book) (startAfter : Option Key) (limit : Option Number) :
    Except Error (Page ListingEntry Key) := do
  let cursor ← Malformed.toError (startAfter.mapM Key.sequence)
  let keys ← Malformed.toError (b.listingKeys none)
  let page ← Value.Unordered.toError (Page.keysBelow cursor limit keys)
  let items ← Malformed.toError <| page.mapM fun k => do
    let (borrower, id) ← k.both
    return b.listingEntry borrower id
  return { items, next := page.getLast? }

/-! ### Offers -/

/-- The offers of some ids, the newest first. -/
def offerPage (b : Book) (ids : List Key) (startAfter : Option Key) (limit : Option Number) :
    Except Error (Page (Key × Offer) Key) := do
  let numbered ← ids.mapM fun id => do return (id, ← keyNumber id)
  let ordered := numbered.mergeSort fun a c => c.2 ≤ a.2
  let cursor ← startAfter.mapM cursorNumber
  let page := (Page.cut limit (ordered.filter fun a => cursor.all (a.2 < ·))).map (·.1)
  let items ← page.mapM fun id => do return (id, ← b.requireOffer id)
  return { items, next := page.getLast? }

def queryOffers (b : Book) (borrower id : Key) (startAfter : Option Key) (limit : Option Number) :
    Except Error (Page (Key × Offer) Key) :=
  b.offerPage (b.offers.byListing (.pair borrower id)) startAfter limit

def queryLenderOffers (b : Book) (lender : Key) (startAfter : Option Key) (limit : Option Number) :
    Except Error (Page (Key × Offer) Key) :=
  b.offerPage (b.offers.byLender lender) startAfter limit

end Book
end Pawnbook
