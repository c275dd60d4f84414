import Pawnbook.Offer.Basic

/-! # Actions

What a message can ask of the contract. Borrowers list, modify and withdraw assets, decide on
offers and repay; lenders make offers, take a borrower's own terms, recover what they deposited
and claim the assets of a loan in default; the owner sets the configuration. -/

namespace Pawnbook

/-- What a message asks for. -/
inductive Action where
  /-- List assets. -/
  | deposit (assets : List Asset) (terms : Option Terms) (comment : Option Value)
      (preview : Option Asset)
  /-- Change what is given of a published listing. -/
  | modify (loanId : Key) (terms : Option Terms) (comment : Option Value)
      (preview : Option Asset)
  /-- Withdraw a published listing. -/
  | withdraw (loanId : Key)
  /-- Offer to lend on a listing. -/
  | makeOffer (key : ListingKey) (terms : Option Terms) (comment : Option Value)
  /-- Lend at once, on the terms that the borrower proposed. -/
  | acceptLoan (key : ListingKey) (comment : Option Value)
  /-- Accept an offer. -/
  | acceptOffer (id : Key)
  /-- Take an offer back. -/
  | cancelOffer (id : Key)
  /-- Refuse an offer. -/
  | refuseOffer (id : Key)
  /-- Recover the deposit of a refused offer. -/
  | withdrawRefused (id : Key)
  /-- Repay a loan. -/
  | repay (loanId : Key)
  /-- Claim the assets of a loan in default. -/
  | claimDefault (key : ListingKey)
  /-- Propose the next owner of the contract. -/
  | proposeOwner (owner : Option Key)
  /-- Become the owner of the contract. -/
  | claimOwnership
  | setFeeDistributor (address : Key)
  | setFeeRate (rate : Value)

namespace Action

def name : Action → String
  | deposit .. => "deposit_collateral"
  | modify .. => "modify_collateral"
  | withdraw _ => "withdraw_collateral"
  | makeOffer .. => "make_offer"
  | acceptLoan .. => "accept_loan"
  | acceptOffer _ => "accept_offer"
  | cancelOffer _ => "cancel_offer"
  | refuseOffer _ => "refuse_offer"
  | withdrawRefused _ => "withdraw_refused_offer"
  | repay _ => "repay_borrowed_funds"
  | claimDefault _ => "withdraw_defaulted_loan"
  | proposeOwner _ => "set_owner"
  | claimOwnership => "claim_ownership"
  | setFeeDistributor _ => "set_fee_distributor"
  | setFeeRate _ => "set_fee_rate"

end Action
end Pawnbook
