import Pawnbook.Error
import Pawnbook.Transfer

/-! # What a listing allows

When a listing allows a step, and how its assets move with one. A listing can be modified, offered
on, accepted and withdrawn while it is published. A started loan is in default from its default
block on (`Listing.defaultBlock?`) and can be repaid before. Each guard passes or names the state
that does not allow the step. -/

namespace Pawnbook
namespace Listing

/-- Passes for a published listing. -/
def requirePublished (family : Family) (l : Listing) : Except Error Unit :=
  if l.state = .published then .ok () else .error (.ofLoanState family l.state)

def requireModifiable (l : Listing) : Except Error Unit := l.requirePublished .notModifiable

/-- The listing takes offers. -/
def requireCounterable (l : Listing) : Except Error Unit := l.requirePublished .notCounterable

/-- An offer on the listing may be accepted. -/
def requireAcceptable (l : Listing) : Except Error Unit := l.requirePublished .notAcceptable

def requireWithdrawable (l : Listing) : Except Error Unit := l.requirePublished .notWithdrawable

/-- The first height at which a loan under the given terms is in default. -/
def defaultBlock? (l : Listing) (terms : Terms) : Option Number :=
  (l.startBlock.bind Value.asNumber?).map (·.add terms.duration)

/-- The loan is in default: its default block has come, or the default was claimed. -/
def isDefaulted (l : Listing) (terms : Option Terms) (height : Number) : Bool :=
  match l.state with
  | .started =>
    match terms.bind l.defaultBlock? with
    | some block => block.isAtMost height
    | none => false
  | .defaulted => true
  | _ => false

/-- The loan is in default. -/
def requireDefaulted (l : Listing) (terms : Option Terms) (height : Number) : Except Error Unit :=
  if l.isDefaulted terms height then .ok () else .error (.ofLoanState .wrongLoanState l.state)

/-- The loan runs and is not in default; one that is in default reads as defaulted. -/
def requireRepayable (l : Listing) (terms : Option Terms) (height : Number) : Except Error Unit :=
  if l.isDefaulted terms height then .error (.ofLoanState .wrongLoanState .defaulted)
  else if l.state = .started then .ok ()
  else .error (.ofLoanState .wrongLoanState l.state)

/-- A preview must be one of the listed assets. -/
def requirePreview (assets : List Asset) : Option Asset → Except Error Unit
  | none => .ok ()
  | some preview =>
    if assets.any (·.agrees preview) then .ok () else .error (.previewNotListed preview)

/-! ## Custody

The listed assets move together, one transfer each and in the order of the listing: into custody
when the loan starts, out of it when the loan is settled. Only non-fungible tokens can. -/

/-- One transfer for every listed asset; `refusal` names an asset that cannot be moved. -/
def moveAssets (sender recipient : Key) (refusal : Asset → Error) :
    List Asset → Except Error (List NftTransfer)
  | [] => .ok []
  | a :: rest =>
    match a.nft? with
    | none => .error (refusal a)
    | some n => do return ⟨n, sender, recipient⟩ :: (← moveAssets sender recipient refusal rest)

/-- The transfers that take the assets into custody. -/
def intoCustody (l : Listing) (sender recipient : Key) : Except Error (List NftTransfer) :=
  moveAssets sender recipient .cannotHold l.assets

/-- The transfers that release the assets. -/
def outOfCustody (l : Listing) (sender recipient : Key) : Except Error (List NftTransfer) :=
  moveAssets sender recipient .cannotRelease l.assets

/-- The collections of the assets, in the order of the listing. -/
def collections (l : Listing) : Except Error (List Key) :=
  l.assets.mapM fun a =>
    match a.nft? with
    | some n => .ok n.token.collection
    | none => .error (.cannotSettle a)

end Listing
end Pawnbook
