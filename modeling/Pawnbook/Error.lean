import Pawnbook.Offer.Basic
import Pawnbook.Value.Order

/-! # Errors

`Error` lists the causes for which a call is refused, `Error.message` is the text that goes with an
error and `Error.family?` the family it belongs to. Both are those of what is raised
(`Error.raised`): a cause that cannot be put into words is none of the contract's. Families are
nested (`Family.parent?`), so that a caller can treat all payments that are malformed, or all
records that are missing, alike. The causes without a family are those that lie outside the rules of
the contract: malformed values, arithmetic without a result, times out of range. -/

namespace Pawnbook

/-! ### Families -/

/-- The families of refusals. -/
inductive Family where
  | loanError
  | transactionRejected
  | unauthorized
  | senderNotOwner
  | stateGuardViolation
  | wrongLoanState
  | wrongOfferState
  | notModifiable
  | notCounterable
  | notAcceptable
  | notWithdrawable
  | notRefusable
  | loanAlreadyDefaulted
  | noFundsToWithdraw
  | cantChangeOfferState
  | malformedPayment
  | multipleCoins
  | fundsDontMatchTerms
  | insufficientRepayment
  | recordNotFound
  | loanNotFound
  | offerNotFound
  | borrowerNotFound
  | structuralViolation
  | noAssets
  | assetNotInLoan
  | wrongAssetDeposited
  | unrecognizedAsset
  | noTermsSpecified
  | invalidConfig
  | invalidFeeRate
  | invalidName
  | insufficientFunds
  | assetTransferFailed
deriving DecidableEq

namespace Family

def name : Family → String
  | loanError => "LoanError"
  | transactionRejected => "TransactionRejected"
  | unauthorized => "Unauthorized"
  | senderNotOwner => "SenderNotOwner"
  | stateGuardViolation => "StateGuardViolation"
  | wrongLoanState => "WrongLoanState"
  | wrongOfferState => "WrongOfferState"
  | notModifiable => "NotModifiable"
  | notCounterable => "NotCounterable"
  | notAcceptable => "NotAcceptable"
  | notWithdrawable => "NotWithdrawable"
  | notRefusable => "NotRefusable"
  | loanAlreadyDefaulted => "LoanAlreadyDefaulted"
  | noFundsToWithdraw => "NoFundsToWithdraw"
  | cantChangeOfferState => "CantChangeOfferState"
  | malformedPayment => "MalformedPayment"
  | multipleCoins => "MultipleCoins"
  | fundsDontMatchTerms => "FundsDontMatchTerms"
  | insufficientRepayment => "InsufficientRepayment"
  | recordNotFound => "RecordNotFound"
  | loanNotFound => "LoanNotFound"
  | offerNotFound => "OfferNotFound"
  | borrowerNotFound => "BorrowerNotFound"
  | structuralViolation => "StructuralViolation"
  | noAssets => "NoAssets"
  | assetNotInLoan => "AssetNotInLoan"
  | wrongAssetDeposited => "WrongAssetDeposited"
  | unrecognizedAsset => "UnrecognizedAsset"
  | noTermsSpecified => "NoTermsSpecified"
  | invalidConfig => "InvalidConfig"
  | invalidFeeRate => "InvalidFeeRate"
  | invalidName => "InvalidName"
  | insufficientFunds => "InsufficientFunds"
  | assetTransferFailed => "AssetTransferFailed"

def all : List Family :=
  [loanError, transactionRejected, unauthorized, senderNotOwner, stateGuardViolation,
   wrongLoanState, wrongOfferState, notModifiable, notCounterable, notAcceptable,
   notWithdrawable, notRefusable, loanAlreadyDefaulted, noFundsToWithdraw,
   cantChangeOfferState, malformedPayment, multipleCoins, fundsDontMatchTerms,
   insufficientRepayment, recordNotFound, loanNotFound, offerNotFound, borrowerNotFound,
   structuralViolation, noAssets, assetNotInLoan, wrongAssetDeposited, unrecognizedAsset,
   noTermsSpecified, invalidConfig, invalidFeeRate, invalidName, insufficientFunds,
   assetTransferFailed]

def ofName? (s : String) : Option Family := all.find? (·.name = s)

/-- The next wider family. -/
def parent? : Family → Option Family
  | loanError => none
  | senderNotOwner => some unauthorized
  | wrongLoanState | wrongOfferState | notModifiable | notCounterable | notAcceptable
  | notWithdrawable | notRefusable | loanAlreadyDefaulted | noFundsToWithdraw
  | cantChangeOfferState => some stateGuardViolation
  | multipleCoins | fundsDontMatchTerms | insufficientRepayment => some malformedPayment
  | loanNotFound | offerNotFound | borrowerNotFound => some recordNotFound
  | noAssets | assetNotInLoan | wrongAssetDeposited | unrecognizedAsset | noTermsSpecified =>
    some structuralViolation
  | invalidFeeRate | invalidName => some invalidConfig
  | transactionRejected | unauthorized | stateGuardViolation | malformedPayment | recordNotFound
  | structuralViolation | invalidConfig | insufficientFunds | assetTransferFailed =>
    some loanError

/-- A family and the wider ones up to the widest. -/
def lineage (f : Family) : List Family :=
  match f.parent? with
  | none => [f]
  | some g =>
    match g.parent? with
    | none => [f, g]
    | some h => [f, g, h]

/-- The refusals that carry the state of the record that did not allow the step. -/
def carriesState (f : Family) : Bool := f.lineage.contains stateGuardViolation

end Family

/-! ### States that did not allow a step -/

/-- The state of a record, or whatever was given in its place. -/
inductive Standing where
  | loan (s : LoanState)
  | offer (s : OfferState)
  | other (v : Value)

namespace Standing

/-- The state in running text. -/
def label : Standing → String
  | loan s => s.text
  | offer s => s.text
  | other (.member _ _ value) => value
  | other v => v.label

def toValue : Standing → Value
  | loan s => s.toValue
  | offer s => s.toValue
  | other v => v

end Standing

/-! ### Causes -/

/-- The causes for which a call is refused. -/
inductive Error where
  | malformed (reason : Malformed)
  | calculation (failure : Decimal.Failure)
  | time (reason : Time.Unreachable)
  /-- An infinite binary number was asked for its whole part. -/
  | unbounded
  /-- Values of two kinds were to be put in order. -/
  | unordered (left right : String)
  /-- Balances are set directly only in test mode. -/
  | testModeOnly
  /-- A write to an offer that is not stored. -/
  | unknownOffer (id : Key)
  | notContractOwner (sender : String)
  | notProposedOwner (sender : String)
  | notLender (sender : Key)
  | notBorrower (sender : Key)
  /-- The borrower does not own a listed token. -/
  | notTokenOwner (token : Token) (owner : Key)
  /-- A record's state does not allow the step; `family` says which step. -/
  | guarded (family : Family) (state : Standing) (message : Option String)
  | cantChangeOffer (source target : OfferState)
  | notOneCoin (count : Nat)
  | principalMismatch (sent : Tender) (required : Coin)
  | wrongDenom (sent required : String)
  | insufficientRepayment (expected received : Tender)
  | loanNotFound (borrower id : Key)
  | offerNotFound (id : Key)
  | noActiveOffer
  | badCursor (cursor : Key)
  | borrowerNotFound (borrower : Key)
  | noAssets
  | previewNotListed (preview : Asset)
  | cannotHold (asset : Asset)
  | cannotSettle (asset : Asset)
  | cannotRelease (asset : Asset)
  | noTerms (key : ListingKey)
  | feeRateNoNumber (given : Value)
  | feeRateOutOfRange (rate : Decimal)
  | nameLength (length : Nat)
  | rejected (action book : Value)
  | overdrawn (sender : Key) (available : Number) (coin : Coin)
  | notHolder (sender : Key) (token : Token) (holder : Key)
  /-- A refusal of a family with a wording of its own. -/
  | stated (family : Family) (message : String)

namespace Error

/-- The wording of a token transfer by an address that does not own it. -/
def notHolderText (sender : Key) (token : Token) (holder : Key) : String :=
  sender.label ++ " cannot transfer " ++ token.text ++ " owned by " ++ holder.label

/-- The wording of a calculation without a result. -/
def calculationText : Decimal.Failure → String
  | .undefined => "undefined operation"
  | .overflow => "exponent too large"
  | .infinite => "cannot convert Infinity to integer"
  | .notANumber => "cannot convert NaN to integer"
  | .tooLong => "more than " ++ Text.ofNat Text.maxDigits ++ " digits"

/-- The wording of a span that leads out of the calendar. -/
def timeText : Time.Unreachable → String
  | .outOfRange => "date value out of range"
  | .longSpan days => "days=" ++ Text.ofInt days ++ "; must have magnitude <= 999999999"
  | .uncountable => "span of time too long"

/-- The wording of a cause, as if numbers of every length were written. -/
def wording : Error → String
  | malformed reason => reason.message
  | calculation failure => calculationText failure
  | time reason => timeText reason
  | unbounded => "cannot convert float infinity to integer"
  | unordered left right => "no order between " ++ left ++ " and " ++ right
  | testModeOnly =>
    "set_balance() is only available in test_mode. Fund accounts by executing transactions instead."
  | unknownOffer id => id.display
  | notContractOwner sender => sender ++ " is not the contract owner"
  | notProposedOwner sender => sender ++ " is not the proposed owner"
  | notLender sender => sender.label ++ " is not the lender of this offer"
  | notBorrower sender => sender.label ++ " is not the borrower targeted by this offer"
  | notTokenOwner token owner =>
    "Sender is not the owner of " ++ token.text ++ " (owner: " ++ owner.label ++ ")"
  | guarded _ _ (some message) => message
  | guarded family state none => family.name ++ " (current state: " ++ state.label ++ ")"
  | cantChangeOffer source target =>
    "Can't change offer state from " ++ source.text ++ " to " ++ target.text
  | notOneCoin count => "Expected exactly one coin, got " ++ Text.ofNat count
  | principalMismatch sent required => "Sent " ++ sent.text ++ ", terms require " ++ required.text
  | wrongDenom sent required => "Repayment in " ++ sent ++ ", loan is in " ++ required
  | insufficientRepayment expected received =>
    "Funds don't match terms and principal: expected " ++ expected.text ++ ", got " ++ received.text
  | loanNotFound borrower id => "Loan " ++ borrower.label ++ "/" ++ id.label ++ " not found"
  | offerNotFound id => "Offer " ++ id.label ++ " not found"
  | noActiveOffer => "The loan has no active offer"
  | badCursor cursor => "Offer cursor " ++ cursor.display ++ " is not an offer id"
  | borrowerNotFound borrower => "Borrower " ++ borrower.label ++ " has never listed collateral"
  | noAssets => "A collateral listing needs at least one asset"
  | previewNotListed preview =>
    "Preview " ++ preview.display ++ " is not one of the listed assets"
  | cannotHold asset => "Asset " ++ asset.display ++ " cannot be held as collateral"
  | cannotSettle asset => "Cannot settle asset " ++ asset.display
  | cannotRelease asset => "Cannot release asset " ++ asset.display
  | noTerms key => "Loan " ++ key.text ++ " has no proposed terms"
  | feeRateNoNumber given => "Fee rate is not a number: " ++ given.display
  | feeRateOutOfRange rate => "Fee rate must be in [0, 1), got " ++ rate.text
  | nameLength length => "Name must be 3 to 50 characters, got " ++ Text.ofNat length
  | rejected action book => action.label ++ " rejected by " ++ book.label
  | overdrawn sender available coin =>
    sender.label ++ " has " ++ available.text ++ coin.denom ++ ", needs " ++ coin.text
  | notHolder sender token holder => notHolderText sender token holder
  | stated _ message => message

/-- The values that the wording of a cause writes. -/
def named : Error → List Value
  | malformed reason => reason.named
  | notLender sender | notBorrower sender => [sender.value]
  | notTokenOwner token owner => [token.collection.value, token.id.value, owner.value]
  | guarded _ (.other v) none => [v]
  | principalMismatch sent required => [sent.toValue, required.toValue]
  | insufficientRepayment expected received => [expected.toValue, received.toValue]
  | loanNotFound borrower id => [borrower.value, id.value]
  | offerNotFound id | badCursor id => [id.value]
  | borrowerNotFound borrower => [borrower.value]
  | previewNotListed a | cannotHold a | cannotSettle a | cannotRelease a => [a.toValue]
  | noTerms key => [key.borrower.value, key.id.value]
  | feeRateNoNumber given => [given]
  | rejected action book => [action, book]
  | overdrawn sender available coin => [sender.value, .ofNumber available, coin.toValue]
  | notHolder sender token holder =>
    [sender.value, token.collection.value, token.id.value, holder.value]
  | _ => []

/-- What is raised for a cause: an error comes with its wording, and where that cannot be written,
the failure to write it is raised in its place. -/
def raised (e : Error) : Error :=
  match Value.requireShort e.named with
  | .ok _ => e
  | .error failure => .calculation failure

/-- The wording of what is raised. -/
def message (e : Error) : String := e.raised.wording

/-- The family that a cause belongs to if it can be named. -/
def ownFamily? : Error → Option Family
  | malformed _ | calculation _ | time _ | unbounded | unordered .. | testModeOnly
  | unknownOffer _ => none
  | notContractOwner _ | notProposedOwner _ | notLender _ | notBorrower _ => some .unauthorized
  | notTokenOwner .. => some .senderNotOwner
  | guarded family _ _ => some family
  | cantChangeOffer .. => some .cantChangeOfferState
  | notOneCoin _ => some .multipleCoins
  | principalMismatch .. | wrongDenom .. => some .fundsDontMatchTerms
  | insufficientRepayment .. => some .insufficientRepayment
  | loanNotFound .. => some .loanNotFound
  | offerNotFound _ | noActiveOffer | badCursor _ => some .offerNotFound
  | borrowerNotFound _ => some .borrowerNotFound
  | noAssets => some .noAssets
  | previewNotListed _ => some .assetNotInLoan
  | cannotHold _ => some .wrongAssetDeposited
  | cannotSettle _ | cannotRelease _ => some .unrecognizedAsset
  | noTerms _ => some .noTermsSpecified
  | feeRateNoNumber _ | feeRateOutOfRange _ => some .invalidFeeRate
  | nameLength _ => some .invalidName
  | rejected .. => some .transactionRejected
  | overdrawn .. => some .insufficientFunds
  | notHolder .. => some .assetTransferFailed
  | stated family _ => some family

/-- The family of what is raised, for causes that the contract's rules know. -/
def family? (e : Error) : Option Family := e.raised.ownFamily?

/-- The state that did not allow the step. -/
def state? (e : Error) : Option Standing :=
  match e.raised with
  | guarded _ state _ => some state
  | cantChangeOffer source _ => some (.offer source)
  | _ => none

/-- The refusal of a step by a listing's state. -/
def ofLoanState (family : Family) (s : LoanState) : Error := .guarded family (.loan s) none

/-- The refusal of a step by an offer's state. -/
def ofOfferState (family : Family) (s : OfferState) : Error := .guarded family (.offer s) none

end Error

/-- Values without an order as an error. -/
def Value.Unordered.toError {α : Type} (r : Except Value.Unordered α) : Except Error α :=
  r.mapError fun
    | .calculation failure => .calculation failure
    | .kinds left right => .unordered left right

/-- A malformed value as an error. -/
def Malformed.toError {α : Type} (r : Except Malformed α) : Except Error α := r.mapError .malformed

end Pawnbook
