import Pawnbook.Asset
import Pawnbook.Malformed

/-! # Listings

A listing is a borrower's pledge: the assets, the terms the borrower would take, and how far the
loan has come. It moves from `published` to `started` and on to `ended` or `defaulted`, or from
`published` to `assetWithdrawn`. A borrower's listings are numbered; `Borrower` keeps the last
number given out. -/

namespace Pawnbook

/-- How far a listing has come. -/
inductive LoanState where
  | published
  | started
  | defaulted
  | ended
  | assetWithdrawn
deriving DecidableEq

namespace LoanState

def text : LoanState → String
  | published => "published"
  | started => "started"
  | defaulted => "defaulted"
  | ended => "ended"
  | assetWithdrawn => "asset_withdrawn"

def name : LoanState → String
  | published => "PUBLISHED"
  | started => "STARTED"
  | defaulted => "DEFAULTED"
  | ended => "ENDED"
  | assetWithdrawn => "ASSET_WITHDRAWN"

def all : List LoanState := [published, started, defaulted, ended, assetWithdrawn]

def ofText? (s : String) : Option LoanState := all.find? (·.text = s)

def toValue (s : LoanState) : Value := .member "LoanState" s.name s.text

end LoanState

/-- The key of a listing: its borrower and its id, a number among the borrower's listings. -/
structure ListingKey where
  borrower : Key
  id : Key
deriving DecidableEq

namespace ListingKey

/-- Borrower and id as one key. -/
def toKey (k : ListingKey) : Key := .pair k.borrower k.id

instance : Coe ListingKey Key := ⟨toKey⟩

def text (k : ListingKey) : String := k.borrower.label ++ "/" ++ k.id.label

instance : BEq ListingKey := ⟨fun k l => k.toKey == l.toKey⟩

theorem beq_iff (k l : ListingKey) :
    (k == l) = true ↔ (k.borrower == l.borrower) = true ∧ (k.id == l.id) = true := by
  change (Key.pair k.borrower k.id == Key.pair l.borrower l.id) = true ↔ _
  simp

end ListingKey

/-- What is known of a borrower: the number of the latest listing. -/
structure Borrower where
  lastId : Value
deriving DecidableEq

namespace Borrower

/-- The number of the next listing: the first is zero. -/
def nextId : Option Borrower → Except Malformed Value
  | none => .ok (.int 0)
  | some b => b.lastId.next

/-- The same record, the number being compared by its worth. -/
def agrees (b c : Borrower) : Bool := b.lastId.same c.lastId

def toValue (b : Borrower) : Value :=
  .record "BorrowerInfo" [("last_collateral_id", b.lastId)] none

end Borrower

/-- A borrower's listing. -/
structure Listing where
  /-- The listed assets; they never change. -/
  assets : List Asset
  /-- When the listing was made or last modified. -/
  date : Option Time
  state : LoanState := .published
  /-- The terms that the borrower would take. -/
  terms : Option Terms := none
  /-- How many offers were ever made on the listing. -/
  offerCount : Value := .int 0
  /-- The id of the accepted offer once the loan has started. -/
  activeOffer : Option Key := none
  /-- The height at which the loan started. -/
  startBlock : Option Value := none
  comment : Option Value := none
  /-- The asset that represents the listing. -/
  preview : Option Asset := none
deriving DecidableEq

namespace Listing

/-- The listing takes no offers any more. -/
def isClosed (l : Listing) : Bool := l.state ≠ .published

def toValue (l : Listing) : Value :=
  .record "CollateralInfo"
    [("associated_assets", .tuple (l.assets.map Asset.toValue)),
     ("list_date", .ofOption .time l.date), ("state", l.state.toValue),
     ("terms", .ofOption Terms.toValue l.terms), ("offer_amount", l.offerCount),
     ("active_offer", .ofOption Key.value l.activeOffer),
     ("start_block", .ofOption id l.startBlock), ("comment", .ofOption id l.comment),
     ("loan_preview", .ofOption Asset.toValue l.preview)] none

/-- The same listing, its parts being compared as values. -/
def agrees (l m : Listing) : Bool :=
  l.assets.isEqv m.assets Asset.agrees && l.date = m.date && l.state = m.state &&
    Value.optionsAgree Terms.agrees l.terms m.terms && l.offerCount.same m.offerCount &&
    Value.optionsAgree (· == ·) l.activeOffer m.activeOffer &&
    Value.optionsAgree Value.same l.startBlock m.startBlock &&
    Value.optionsAgree Value.same l.comment m.comment &&
    Value.optionsAgree Asset.agrees l.preview m.preview

end Listing
end Pawnbook
