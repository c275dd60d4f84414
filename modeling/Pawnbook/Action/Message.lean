import Pawnbook.Action.Basic
import Pawnbook.Action.Closing
import Pawnbook.Action.Ownership
import Pawnbook.Book.Execution

/-! # Messages

A message is an action in an envelope. `Book.transact` computes the pending transaction of a
message from the state of the book and changes nothing; `Book.handle` computes it and submits it
at once. -/

namespace Pawnbook

namespace Action

/-- What an action does when its message comes in an envelope, without its name. -/
def effects (b : Book) (e : Envelope) : Action → Except Error Draft
  | deposit assets terms comment preview => draftDeposit b e.sender assets terms comment preview
  | modify loanId terms comment preview => draftModify b e.sender loanId terms comment preview
  | withdraw loanId => draftWithdraw b e.sender loanId
  | makeOffer key terms comment => draftOffer b e key terms comment
  | acceptLoan key comment => draftAcceptLoan b e key comment
  | acceptOffer id => draftAcceptOffer b e.sender id
  | cancelOffer id => draftCancel b e.sender id
  | refuseOffer id => draftRefuse b e.sender id
  | withdrawRefused id => draftWithdrawRefused b e.sender id
  | repay loanId => draftRepay b e loanId
  | claimDefault key => draftClaimDefault b e.sender key
  | proposeOwner owner => draftProposeOwner b e.sender owner
  | claimOwnership => draftClaimOwnership b e.sender
  | setFeeDistributor address => draftFeeDistributor b e.sender address
  | setFeeRate rate => draftFeeRate b e.sender rate

/-- The draft of an action, under its name. -/
def draft (b : Book) (e : Envelope) (a : Action) : Except Error Draft := do
  return { (← a.effects b e) with action := .text a.name }

/-- The funds that go with an action when none are given: the principal of the offer made, or of
the borrower's terms. -/
def defaultFunds (b : Book) : Action → List Coin
  | makeOffer _ terms _ => (terms.map (·.principal)).toList
  | acceptLoan key _ => (((b.listing? key).bind (·.terms)).map (·.principal)).toList
  | _ => []

end Action

namespace Book

/-- The pending transaction of a message. -/
def transact (b : Book) (e : Envelope) (a : Action) : Except Error Pending := do
  (← a.draft b e).pending b

/-- Computes the transaction of a message and submits it. -/
def handle (b : Book) (e : Envelope) (a : Action) : Outcome (Option Transaction) :=
  match b.transact e a with
  | .ok p => b.submit p
  | .error e => { book := b, answer := .error e }

/-- Handles an action of a sender, with the funds given or those that go with the action. -/
def message (b : Book) (sender : String) (funds : Option (List Tender)) (a : Action) :
    Outcome (Option Transaction) :=
  match Envelope.make sender (funds.getD ((a.defaultFunds b).map .coin)) with
  | .ok e => b.handle e a
  | .error reason => { book := b, answer := .error (.malformed reason) }

end Book
end Pawnbook
