import Pawnbook.Listing.Basic

/-! # Offers

A lender's offer on a listing. The lender's principal is deposited with the offer, and the
deposit is cleared when it is paid out. The stored state moves from `published` to `accepted`,
`refused` or `cancelled`. An offer still published whose listing is no longer published counts
as refused wherever it is read (`Offer.effectiveState`). -/

namespace Pawnbook

/-- The stored state of an offer. -/
inductive OfferState where
  | published
  | accepted
  | refused
  | cancelled
deriving DecidableEq

namespace OfferState

def text : OfferState → String
  | published => "published"
  | accepted => "accepted"
  | refused => "refused"
  | cancelled => "cancelled"

def name : OfferState → String
  | published => "PUBLISHED"
  | accepted => "ACCEPTED"
  | refused => "REFUSED"
  | cancelled => "CANCELLED"

def all : List OfferState := [published, accepted, refused, cancelled]

def ofText? (s : String) : Option OfferState := all.find? (·.text = s)

def toValue (s : OfferState) : Value := .member "OfferState" s.name s.text

end OfferState

/-- A lender's offer. -/
structure Offer where
  lender : Key
  /-- The borrower of the listing the offer is made on. -/
  borrower : Key
  /-- The id of that listing. -/
  loanId : Key
  /-- The position of the offer among the offers on its listing. -/
  position : Value
  /-- The terms of the loan; an offer of the contract's own making always has them. -/
  terms : Option Terms
  state : OfferState
  /-- When the offer was made. -/
  date : Option Time
  /-- The principal while the contract holds it for this offer. -/
  deposit : Option Tender := none
  comment : Option Value := none
deriving DecidableEq

namespace Offer

def listing (o : Offer) : ListingKey := ⟨o.borrower, o.loanId⟩

/-- The state in which an offer reads, given whether its listing is closed. -/
def stateIf (o : Offer) (closed : Bool) : OfferState :=
  if closed && o.state = .published then .refused else o.state

/-- The offer in the state in which it reads, given whether its listing is closed. -/
def readIf (o : Offer) (closed : Bool) : Offer := { o with state := o.stateIf closed }

/-- The state in which an offer on the given listing reads. -/
def effectiveState (o : Offer) (listing : Option Listing) : OfferState :=
  o.stateIf (listing.any (·.isClosed))

/-- The offer in the state in which it reads. -/
def withEffectiveState (o : Offer) (listing : Option Listing) : Offer :=
  o.readIf (listing.any (·.isClosed))

def toValue (o : Offer) : Value :=
  .record "OfferInfo"
    [("lender", o.lender.value), ("borrower", o.borrower.value), ("loan_id", o.loanId.value),
     ("offer_id", o.position), ("terms", .ofOption Terms.toValue o.terms),
     ("state", o.state.toValue), ("list_date", .ofOption .time o.date),
     ("deposited_funds", .ofOption Tender.toValue o.deposit),
     ("comment", .ofOption id o.comment)] none

/-- The coin that the contract holds for this offer. -/
def escrow? (o : Offer) : Option Coin := o.deposit.bind Tender.coin?

/-- The same offer, its parts being compared as values. -/
def agrees (o p : Offer) : Bool :=
  o.lender == p.lender && o.borrower == p.borrower && o.loanId == p.loanId &&
    o.position.same p.position && Value.optionsAgree Terms.agrees o.terms p.terms &&
    o.state = p.state && o.date = p.date &&
    Value.optionsAgree Tender.agrees o.deposit p.deposit &&
    Value.optionsAgree Value.same o.comment p.comment

@[simp] theorem listing_readIf (o : Offer) (closed : Bool) :
    (o.readIf closed).listing = o.listing := rfl

@[simp] theorem stateIf_false (o : Offer) : o.stateIf false = o.state := rfl

@[simp] theorem effectiveState_none (o : Offer) : o.effectiveState none = o.state := rfl

end Offer
end Pawnbook
