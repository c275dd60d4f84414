import Pawnbook.Action.Basic
import Pawnbook.Reading.Records

/-! # Reading actions

An action is named, and its arguments come as the fields of a value. Assets, terms and funds are
checked field by field in the order in which they are written (`Arguments.ofValue`), whether the
action needs them or not; all else is taken as it is. -/

namespace Pawnbook

/-- The arguments of an action. -/
structure Arguments where
  tokens : List Asset := []
  terms : Option Terms := none
  preview : Option Asset := none
  funds : Option (List Tender) := none
  /-- All arguments as they were written. -/
  written : Value

namespace Arguments

/-- Takes a field in. -/
def take (a : Arguments) : Value × Value → Reading Arguments
  | (.text "tokens", x) => return { a with tokens := ← x.listOf Asset.ofValue }
  | (.text "terms", x) => return { a with terms := ← x.optional Terms.ofValue }
  | (.text "loan_preview", x) => return { a with preview := ← x.optional Asset.ofValue }
  | (.text "funds", x) => return { a with funds := ← x.optional (Value.readAll Tender.ofValue) }
  | _ => return a

/-- Reads the fields of a value one by one. -/
def ofValue (v : Value) : Reading Arguments := v.entries.foldlM take { written := v }

def key (a : Arguments) (name : String) : Key := (a.written.get name).asKey

/-- The key that an argument gives, unless it is nothing. -/
def key? (a : Arguments) (name : String) : Option Key := (a.written.valueAt? name).map Value.asKey

/-- The number of the listing that an action is about. -/
def loanId (a : Arguments) : Key := a.key "loan_id"

def listing (a : Arguments) : ListingKey := ⟨a.key "borrower", a.loanId⟩

def offer (a : Arguments) : Key := a.key "global_offer_id"

def comment (a : Arguments) : Option Value := a.written.valueAt? "comment"

end Arguments

namespace Action

/-- The action of a name with its arguments. -/
def ofArguments? (name : String) (a : Arguments) : Option Action :=
  match name with
  | "deposit_collateral" => some (.deposit a.tokens a.terms a.comment a.preview)
  | "modify_collateral" => some (.modify a.loanId a.terms a.comment a.preview)
  | "withdraw_collateral" => some (.withdraw a.loanId)
  | "make_offer" => some (.makeOffer a.listing a.terms a.comment)
  | "accept_loan" => some (.acceptLoan a.listing a.comment)
  | "accept_offer" => some (.acceptOffer a.offer)
  | "cancel_offer" => some (.cancelOffer a.offer)
  | "refuse_offer" => some (.refuseOffer a.offer)
  | "withdraw_refused_offer" => some (.withdrawRefused a.offer)
  | "repay_borrowed_funds" => some (.repay a.loanId)
  | "withdraw_defaulted_loan" => some (.claimDefault a.listing)
  | "set_owner" => some (.proposeOwner (a.key? "new_owner"))
  | "claim_ownership" => some .claimOwnership
  | "set_fee_distributor" => some (.setFeeDistributor (a.key "fee_distributor"))
  | "set_fee_rate" => some (.setFeeRate (a.written.writtenRateAt "fee_rate"))
  | _ => none

/-- The action that a value names, with its arguments. -/
def ofArguments (name : Value) (a : Arguments) : Reading Action :=
  match ofArguments? name.label a with
  | some action => .ok action
  | none => .error (.malformed (.unknownAction name))

end Action
end Pawnbook
