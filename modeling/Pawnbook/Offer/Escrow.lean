import Pawnbook.Error
import Pawnbook.Listing.Guard
import Pawnbook.Table
import Pawnbook.Transfer

/-! # Escrow

A lender's principal is deposited with the offer and leaves it once: to the borrower when the
offer is accepted, or back to the lender. `Offer.release` pays it out and clears the deposit. Who
may decide on an offer is checked here as well. -/

namespace Pawnbook

/-- The only coin of a payment. -/
def singleCoin : List Tender → Except Error Tender
  | [c] => .ok c
  | funds => .error (.notOneCoin funds.length)

namespace Offer

/-- The funds of an offer: exactly the principal of its terms. -/
def depositOf (funds : List Tender) (terms : Terms) : Except Error Coin := do
  let sent ← singleCoin funds
  if sent = .coin terms.principal then return terms.principal
  else throw (.principalMismatch sent terms.principal)

/-- Pays the deposit out: the offer without it, and the transfer, which is left out for a zero
amount. -/
def release (contract : Key) (o : Offer) (recipient : Key) :
    Except Error (Offer × List BankSend) :=
  match o.deposit with
  | none => .error (.ofOfferState .noFundsToWithdraw o.state)
  | some deposit => do
    let coin ← Malformed.toError deposit.requireCoin
    let cleared := { o with deposit := none }
    if coin.amount = 0 then return (cleared, [])
    let send ← Malformed.toError (BankSend.make contract recipient coin)
    return (cleared, [send])

/-- The deposits of some offers summed up by denomination. -/
def escrowTotals (offers : List Offer) : Table Key Nat :=
  (offers.filterMap (·.escrow?)).foldl
    (fun t c => t.insert c.denom ((t.get? c.denom).getD 0 + c.amount)) .empty

/-! ## When an offer allows a step

Only its lender may take an offer back and only the borrower it is made to may decide on it. -/

/-- The sender made the offer. -/
def requireLender (o : Offer) (sender : Key) : Except Error Unit :=
  if o.lender == sender then .ok () else .error (.notLender sender)

/-- The offer is made to the sender. -/
def requireBorrower (o : Offer) (sender : Key) : Except Error Unit :=
  if o.borrower == sender then .ok () else .error (.notBorrower sender)

/-- The offer can be refused: its listing takes offers and it is still published. -/
def requireRefusable (o : Offer) (l : Listing) : Except Error Unit := do
  l.requirePublished .notRefusable
  if o.state = .published then return else throw (.ofOfferState .notRefusable o.state)

end Offer
end Pawnbook
