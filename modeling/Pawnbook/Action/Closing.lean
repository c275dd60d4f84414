import Pawnbook.Action.Offer
import Pawnbook.Error

/-! # Repayments and defaults

How a loan comes to its end, and who gets what then.

## How a repayment is split

The lender gets the principal back and the interest less the protocol's share, the fraction
being cut off. The rest of the payment, an overpayment included, is the treasury's. For a
principal of 456, an interest of 50, a rate of 0.05 and a payment of 506, the lender gets
456 + 47 = 503 and the treasury 3. -/

namespace Pawnbook
namespace Repayment

/-- What is left of the interest at a fee rate, before the fraction is cut off. -/
def retained (interest rate : Decimal) : Except Decimal.Failure Decimal := do
  interest.mul (← (Decimal.ofInt 1).sub rate)

/-- The lender's share of the interest. -/
def lenderInterest (interest rate : Decimal) : Except Decimal.Failure Int := do
  (← retained interest rate).trunc

/-- What the lender receives. -/
def lenderPayback (principal : Number) (interest rate : Decimal) : Except Error Number := do
  return principal.add (.whole (← (lenderInterest interest rate).mapError .calculation))

/-- What the treasury receives: all that was sent beyond the lender's part. -/
def treasuryCut (sent payback : Number) : Number := sent.sub payback

end Repayment

/-! ## Closing loans

A started loan is closed before its default block by the borrower, who repays, or from then on
by the lender, who claims the assets. A repayment pays the lender, returns the assets and sends
the rest of the payment to the fee distributor; a claim moves the assets only. -/
namespace Action

/-- The coin that a whole amount is, if it is above zero. -/
def positiveCoin? (coin : Coin) (amount : Number) : Option Coin :=
  (amount.whole?.filter (0 < ·)).map fun n => coin.withAmount n.toNat

/-- Repays a loan with a payment of at least principal and interest. -/
def closeByPayment (b : Book) (key : ListingKey) (listing : Listing) (id : Key)
    (offer : Offer) (funds : List Tender) : Except Error Draft := do
  let terms ← requireTerms key offer.terms
  let payment ← Malformed.toError (← singleCoin funds).requireCoin
  if payment.denom ≠ terms.principal.denom then
    throw (.wrongDenom payment.denom terms.principal.denom)
  let due ← Malformed.toError terms.totalDue
  if payment.amount < due.amount then throw (.insufficientRepayment due payment)
  let payback ←
    Repayment.lenderPayback terms.principal.worth terms.interest.toDecimal b.config.feeRate
  let cut := Repayment.treasuryCut payment.worth payback
  let payout ← (positiveCoin? payment payback).toList.mapM fun c =>
    Malformed.toError (BankSend.make b.address offer.lender c)
  let returned ← listing.outOfCustody b.address key.borrower
  let fees ← (positiveCoin? payment cut).toList.mapM fun c => do
    Malformed.toError
      (FeeDeposit.make b.address b.config.feeDistributor (← listing.collections)
        FeeDeposit.fundsKind c)
  return {
    sender := key.borrower
    changes := [.listing key (some listing) { listing with state := .ended }]
    messages := payout.map .send ++ returned.map .transfer ++ fees.map .fee
    funds := [payment]
    attributes := loanAttributes key offer.lender id.value ++
      ([("lender_payback", payback), ("treasury_cut", cut)] : Attributes) }

/-- Repays a loan that is started and not in default. -/
def draftRepay (b : Book) (e : Envelope) (loanId : Key) : Except Error Draft := do
  let key : ListingKey := ⟨e.sender, loanId⟩
  let listing ← b.requireListing .wrongLoanState key
  if listing.state = .started then
    let (id, offer) ← b.activeLoan listing
    listing.requireRepayable offer.terms b.height
    closeByPayment b key listing id offer e.funds
  else throw (.ofLoanState .wrongLoanState listing.state)

/-- Claims the assets of a loan in default for its lender. -/
def draftClaimDefault (b : Book) (sender : String) (key : ListingKey) : Except Error Draft := do
  let listing ← b.requireListing .wrongLoanState key
  let active ← listing.activeOffer.mapM b.requireOffer
  listing.requireDefaulted (active.bind (·.terms)) b.height
  let offer ← b.requireActiveLender sender listing
  if listing.state = .defaulted then
    throw (.ofLoanState .loanAlreadyDefaulted listing.state)
  let claimed ← listing.outOfCustody b.address offer.lender
  return {
    sender
    changes := [.listing key (some listing) { listing with state := .defaulted }]
    messages := claimed.map .transfer
    attributes := loanAttributes key offer.lender (.ofOption Key.value listing.activeOffer) }

end Action
end Pawnbook
