import Pawnbook.Action.Draft
import Pawnbook.Listing.Guard

/-! # Listing assets

Listing, modifying and withdrawing move nothing: the assets stay with the borrower until a loan
starts. -/

namespace Pawnbook
namespace Action

/-- Attributes that name a listing. -/
def listingAttributes (key : ListingKey) : Attributes :=
  [("borrower", key.borrower.value), ("loan_id", key.id.value)]

/-- Lists assets under the borrower's next number. -/
def draftDeposit (b : Book) (borrower : String) (assets : List Asset) (terms : Option Terms)
    (comment : Option Value) (preview : Option Asset) : Except Error Draft := do
  if assets.isEmpty then throw .noAssets
  Listing.requirePreview assets preview
  let known := b.borrower? borrower
  let id ← Malformed.toError (Borrower.nextId known)
  let key : ListingKey := ⟨borrower, ⟨id⟩⟩
  let listing : Listing := { assets, date := some b.time, terms, comment, preview }
  return {
    sender := borrower
    changes := [.borrower borrower known ⟨id⟩, .listing key none listing]
    attributes := listingAttributes key }

/-- Changes what is given of a published listing and renews its date. -/
def draftModify (b : Book) (borrower : String) (loanId : Key) (terms : Option Terms)
    (comment : Option Value) (preview : Option Asset) : Except Error Draft := do
  let key : ListingKey := ⟨borrower, loanId⟩
  let listing ← b.requireListing .notModifiable key
  listing.requireModifiable
  Listing.requirePreview listing.assets preview
  let updated : Listing :=
    { listing with
      terms := terms.or listing.terms
      comment := comment.or listing.comment
      preview := preview.or listing.preview
      date := some b.time }
  return {
    sender := borrower
    changes := [.listing key (some listing) updated]
    attributes := listingAttributes key }

def draftWithdraw (b : Book) (borrower : String) (loanId : Key) : Except Error Draft := do
  let key : ListingKey := ⟨borrower, loanId⟩
  let listing ← b.requireListing .notWithdrawable key
  listing.requireWithdrawable
  return {
    sender := borrower
    changes := [.listing key (some listing) { listing with state := .assetWithdrawn }]
    attributes := listingAttributes key }

end Action
end Pawnbook
