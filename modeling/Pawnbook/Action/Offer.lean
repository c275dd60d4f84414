import Pawnbook.Action.Listing
import Pawnbook.Coin
import Pawnbook.Listing.Guard
import Pawnbook.Offer.Escrow

/-! # Making offers and deciding on them

An offer brings the lender's principal into escrow under the next offer id. Accepting it pays
the principal to the borrower and takes the assets into custody; it looks at the stored state of
the offer. Cancelling and recovering a refused deposit look at the effective state. -/

namespace Pawnbook
namespace Action

/-- The terms of a loan, which must be there. -/
def requireTerms (key : ListingKey) : Option Terms → Except Error Terms
  | some terms => .ok terms
  | none => .error (.noTerms key)

/-! ### New offers -/

/-- An offer that was just made, with the listing that counts it and the changes that store
both. -/
structure NewOffer where
  id : String
  offer : Offer
  /-- What the lender brought into escrow. -/
  deposit : Coin
  listing : Listing
  changes : List Change

/-- Makes an offer that holds the lender's principal. -/
def newOffer (b : Book) (e : Envelope) (key : ListingKey) (terms : Option Terms)
    (comment : Option Value) : Except Error NewOffer := do
  let listing ← b.requireListing .notCounterable key
  listing.requireCounterable
  discard (singleCoin e.funds)
  let deposit ← Offer.depositOf e.funds (← requireTerms key terms)
  let config := { b.config with lastOffer := ← Malformed.toError b.config.lastOffer.next }
  let id ← config.lastOffer.written.mapError .calculation
  let counted := { listing with offerCount := ← Malformed.toError listing.offerCount.next }
  let offer : Offer :=
    { lender := e.sender, borrower := key.borrower, loanId := key.id
      position := counted.offerCount, terms, state := .published, date := some b.time
      deposit := some (.coin deposit), comment }
  return {
    id, offer, deposit, listing := counted
    changes :=
      [.config b.config config, .listing key (some listing) counted, .offer id none offer] }

def draftOffer (b : Book) (e : Envelope) (key : ListingKey) (terms : Option Terms)
    (comment : Option Value) : Except Error Draft := do
  let new ← newOffer b e key terms comment
  return {
    sender := e.sender
    changes := new.changes
    funds := [new.deposit]
    attributes := listingAttributes key ++ ([("global_offer_id", .text new.id)] : Attributes) }

/-! ### Acceptance -/

/-- The borrower owns every token that is to be taken into custody. -/
def requireOwned (b : Book) (borrower : Key) : List NftTransfer → Except Error Unit
  | [] => .ok ()
  | t :: ts =>
    let owner := b.registry.holder t.nft.token
    if owner == borrower then requireOwned b borrower ts
    else .error (.notTokenOwner t.nft.token owner)

/-- Starts a loan: the deposit goes to the borrower and the assets come into custody. -/
def accept (b : Book) (id : Key) (offer : Offer) (listing : Listing) :
    Except Error (List Change × List Message) := do
  listing.requireAcceptable
  if offer.state ≠ .published then throw (.ofOfferState .wrongOfferState offer.state)
  let (cleared, sends) ← offer.release b.address offer.borrower
  let transfers ← listing.intoCustody offer.borrower b.address
  requireOwned b offer.borrower transfers
  let started : Listing :=
    { listing with
      state := .started
      startBlock := some (.ofNumber b.height)
      activeOffer := some id }
  return (
    [.listing offer.listing (some listing) started,
     .offer id (some offer) { cleared with state := .accepted }],
    sends.map .send ++ transfers.map .transfer)

/-- Attributes that name a loan: borrower, lender, number and offer. -/
def loanAttributes (key : ListingKey) (lender : Key) (id : Value) : Attributes :=
  [("borrower", key.borrower.value), ("lender", lender.value), ("loan_id", key.id.value),
   ("global_offer_id", id)]

/-- Lends on the borrower's own terms: makes the offer and accepts it at once. -/
def draftAcceptLoan (b : Book) (e : Envelope) (key : ListingKey) (comment : Option Value) :
    Except Error Draft := do
  let listing ← b.requireListing .notCounterable key
  let terms ← requireTerms key listing.terms
  let new ← newOffer b e key (some terms) comment
  let (changes, messages) ← accept b new.id new.offer new.listing
  return {
    sender := e.sender
    changes := new.changes ++ changes
    messages
    funds := [new.deposit]
    attributes := loanAttributes key e.sender (.text new.id) }

/-- Accepts an offer made to the sender. -/
def draftAcceptOffer (b : Book) (sender : String) (id : Key) : Except Error Draft := do
  let offer ← b.requireStoredOffer id
  offer.requireBorrower sender
  let listing ← b.requireListing .notAcceptable offer.listing
  let (changes, messages) ← accept b id offer listing
  return {
    sender
    changes
    messages
    attributes := loanAttributes offer.listing offer.lender id.value }

/-! ### Withdrawal and refusal -/

/-- Takes back an offer that reads as published, with its deposit. -/
def draftCancel (b : Book) (sender : String) (id : Key) : Except Error Draft := do
  let stored ← b.requireStoredOffer id
  stored.requireLender sender
  discard (b.requireRecord stored.borrower stored.loanId)
  let state := stored.stateIf (b.closes stored.listing)
  if state ≠ .published then throw (.cantChangeOffer state .cancelled)
  (← b.requireListing .notModifiable stored.listing).requireModifiable
  let (cleared, refunds) ← stored.release b.address stored.lender
  return {
    sender
    changes := [.offer id (some stored) { cleared with state := .cancelled }]
    messages := refunds.map .send
    attributes := [("global_offer_id", id.value)] }

/-- Refuses an offer made to the sender; its deposit stays until the lender takes it. -/
def draftRefuse (b : Book) (sender : String) (id : Key) : Except Error Draft := do
  let stored ← b.requireStoredOffer id
  stored.requireBorrower sender
  stored.requireRefusable (← b.requireListing .notRefusable stored.listing)
  return {
    sender
    changes := [.offer id (some stored) { stored with state := .refused }]
    attributes := [("global_offer_id", id.value)] }

/-- Recovers the deposit of an offer that reads as refused, and stores the refusal. -/
def draftWithdrawRefused (b : Book) (sender : String) (id : Key) : Except Error Draft := do
  let stored ← b.requireStoredOffer id
  stored.requireLender sender
  discard (b.requireRecord stored.borrower stored.loanId)
  let current := stored.readIf (b.closes stored.listing)
  if current.state ≠ .refused then throw (.ofOfferState .notWithdrawable current.state)
  let (cleared, refunds) ← current.release b.address stored.lender
  return {
    sender
    changes := [.offer id (some stored) cleared]
    messages := refunds.map .send
    attributes := [("global_offer_id", id.value)] }

end Action
end Pawnbook
