import Pawnbook.Error
import Pawnbook.Record.Key
import Pawnbook.Table

/-! # The index of offers

Offers by id, and the ids of each lender and of each listing in order of insertion. Ids are never
reused and an offer never moves to another lender or listing, so only an insertion touches the
two projections (`OfferIndex.byLender`, `OfferIndex.byListing`). -/

namespace Pawnbook

/-- Offers by id, with a projection by lender and one by listing. -/
structure OfferIndex where
  offers : Table Key Offer := .empty
  lenders : Table Key (List Key) := .empty
  listings : Table Key (List Key) := .empty

namespace OfferIndex

def empty : OfferIndex := {}

instance : Inhabited OfferIndex := ⟨empty⟩

def get? (x : OfferIndex) (id : Key) : Option Offer := x.offers.get? id

def ids (x : OfferIndex) : List Key := x.offers.keys

def size (x : OfferIndex) : Nat := x.offers.size

def byLender (x : OfferIndex) (lender : Key) : List Key := (x.lenders.get? lender).getD []

def byListing (x : OfferIndex) (key : Key) : List Key := (x.listings.get? key).getD []

/-- Adds an offer under a new id. -/
def insert (x : OfferIndex) (id : Key) (o : Offer) : Except Error OfferIndex :=
  if x.offers.contains id then .error (.malformed (.offerExists id.value))
  else .ok
    { offers := x.offers.insert id o
      lenders := x.lenders.insert o.lender (x.byLender o.lender ++ [id])
      listings := x.listings.insert o.listing (x.byListing o.listing ++ [id]) }

/-- Replaces the offer of an id by one of the same lender on the same listing. -/
def update (x : OfferIndex) (id : Key) (o : Offer) : Except Error OfferIndex :=
  match x.get? id with
  | none => .error (.unknownOffer id)
  | some current =>
    if current.lender == o.lender && current.listing == o.listing then
      .ok { x with offers := x.offers.insert id o }
    else .error (.malformed (.offerMoved id.value))

end OfferIndex
end Pawnbook
