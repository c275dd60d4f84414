import Pawnbook.Proofs.Success
import Mathlib.Tactic.MkIffOfInductiveProp

/-! # What agreeing records share

A change is applied if the stored record agrees with the one the change was computed against.
Agreement compares parts as values, so it is weaker than equality; the lemmas here say what it
keeps: the states of listings and offers, their numbers, and the coin of a deposit.
`Book.Fits` is the condition on one change that `Book.changesRefusal?` checks, and `Fits.listing`,
`Fits.offer`, `Fits.borrower` and `Fits.config` read it for a record that is replaced. -/

namespace Pawnbook

namespace Value

theorem same_iff (v w : Value) : v.same w = true ↔ v.normal = w.normal := decide_eq_true_iff

theorem same_int_iff (m n : Int) : (int m).same (int n) = true ↔ m = n := by
  simp [same_iff, normal]

section options
variable {α : Type} {r : α → α → Bool} {o : Option α}

theorem optionsAgree_some {a : α} (h : optionsAgree r o (some a) = true) :
    ∃ a', o = some a' ∧ r a' a = true := by
  cases o with
  | none => cases h
  | some a' => exact ⟨a', rfl, h⟩

theorem optionsAgree_none (h : optionsAgree r o none = true) : o = none := by
  cases o with
  | none => rfl
  | some a' => cases h

end options
end Value

namespace ListingKey

theorem beq_toKey (k l : ListingKey) : (k == l) = (k.toKey == l.toKey) := rfl

instance : EquivBEq ListingKey where
  rfl {k} := BEq.rfl (a := k.toKey)
  symm {k l} h := BEq.symm (a := k.toKey) (b := l.toKey) h
  trans {k l m} h h' := BEq.trans (a := k.toKey) (b := l.toKey) (c := m.toKey) h h'

end ListingKey

theorem Tender.agrees_coin {t : Tender} {c : Coin} (h : t.agrees (.coin c) = true) :
    t = .coin c := by
  cases t with
  | coin d =>
      have : d = c := by simpa [agrees] using h
      rw [this]
  | other v => cases h

/-! ### Listings -/

namespace Listing
variable {l m : Listing}

/-- What is compared of two listings, part by part. -/
@[mk_iff agrees_parts]
structure Agrees (l m : Listing) : Prop where
  assets : l.assets.isEqv m.assets Asset.agrees = true
  date : l.date = m.date
  state : l.state = m.state
  terms : Value.optionsAgree Terms.agrees l.terms m.terms = true
  offerCount : l.offerCount.same m.offerCount = true
  activeOffer : Value.optionsAgree (· == ·) l.activeOffer m.activeOffer = true
  startBlock : Value.optionsAgree Value.same l.startBlock m.startBlock = true
  comment : Value.optionsAgree Value.same l.comment m.comment = true
  preview : Value.optionsAgree Asset.agrees l.preview m.preview = true

theorem agrees_iff : l.agrees m = true ↔ l.Agrees m := by
  simp only [agrees, agrees_parts, Bool.and_eq_true, decide_eq_true_eq, and_assoc]

/-- Terms of an agreeing listing are there, and lend the same principal. -/
theorem exists_terms_of_agrees {t : Terms} (h : l.agrees m = true) (hm : m.terms = some t) :
    ∃ t', l.terms = some t' ∧ t'.principal = t.principal := by
  have terms := (agrees_iff.1 h).terms
  rw [hm] at terms
  obtain ⟨t', ht', ha⟩ := Value.optionsAgree_some terms
  simp only [Terms.agrees, Bool.and_eq_true, decide_eq_true_eq] at ha
  exact ⟨t', ht', ha.1.1⟩

end Listing

/-! ### Offers -/

namespace Offer
variable {o p : Offer}

/-- What is compared of two offers, part by part. -/
@[mk_iff agrees_parts]
structure Agrees (o p : Offer) : Prop where
  lender : (o.lender == p.lender) = true
  borrower : (o.borrower == p.borrower) = true
  loanId : (o.loanId == p.loanId) = true
  position : o.position.same p.position = true
  terms : Value.optionsAgree Terms.agrees o.terms p.terms = true
  state : o.state = p.state
  date : o.date = p.date
  deposit : Value.optionsAgree Tender.agrees o.deposit p.deposit = true
  comment : Value.optionsAgree Value.same o.comment p.comment = true

theorem agrees_iff : o.agrees p = true ↔ o.Agrees p := by
  simp only [agrees, agrees_parts, Bool.and_eq_true, decide_eq_true_eq, and_assoc]

theorem Agrees.listing (h : o.Agrees p) : (o.listing == p.listing) = true :=
  (ListingKey.beq_iff _ _).2 ⟨h.borrower, h.loanId⟩

theorem deposit_eq_of_agrees {c : Coin} (h : o.agrees p = true) (hp : p.deposit = some (.coin c)) :
    o.deposit = some (.coin c) := by
  have hd := (agrees_iff.1 h).deposit
  rw [hp] at hd
  obtain ⟨t, ht, ha⟩ := Value.optionsAgree_some hd
  rw [ht, Tender.agrees_coin ha]

theorem deposit_none_of_agrees (h : o.agrees p = true) (hp : p.deposit = none) :
    o.deposit = none := by
  have hd := (agrees_iff.1 h).deposit
  rw [hp] at hd
  exact Value.optionsAgree_none hd

end Offer

/-! ### Stored records -/

namespace Stored
variable {r : Option Stored}

theorem equals?_none (h : equals? r none = .ok true) : r = none := by
  cases r with
  | none => rfl
  | some r => cases h

theorem equals?_listing {l : Listing} (h : equals? r (some (.listing l)) = .ok true) :
    ∃ l', r = some (.listing l') ∧ l'.agrees l = true := by
  cases r with
  | none => cases h
  | some r =>
      cases r with
      | listing l' => exact ⟨l', rfl, Except.ok.inj h⟩
      | config | borrower | offer | other => cases h

theorem equals?_offer {o : Offer} (h : equals? r (some (.offer o)) = .ok true) :
    ∃ o', r = some (.offer o') ∧ o'.agrees o = true := by
  cases r with
  | none => cases h
  | some r =>
      cases r with
      | offer o' => exact ⟨o', rfl, Except.ok.inj h⟩
      | config | borrower | listing | other => cases h

theorem equals?_borrower {c : Borrower} (h : equals? r (some (.borrower c)) = .ok true) :
    ∃ c', r = some (.borrower c') ∧ c'.agrees c = true := by
  cases r with
  | none => cases h
  | some r =>
      cases r with
      | borrower c' => exact ⟨c', rfl, Except.ok.inj h⟩
      | config | listing | offer | other => cases h

theorem equals?_config {c d : Config}
    (h : equals? (some (.config c)) (some (.config d)) = .ok true) :
    (c.ownership.owner == d.ownership.owner) = true ∧
      Value.optionsAgree (· == ·) c.ownership.proposed d.ownership.proposed = true := by
  have h : c.agrees d = .ok true := h
  unfold Config.agrees at h
  split at h
  · rename_i parts
    simp only [Ownership.agrees, Bool.and_eq_true] at parts
    exact parts.1.2
  · cases h

end Stored

/-! ### Changes that fit a book -/

namespace Book
variable {b : Book}

/-- The record in the slot of a change is the one the change was computed against. -/
def Fits (b : Book) (c : Change) : Prop :=
  ∃ r, b.record? c.slot = .ok r ∧ Stored.equals? r c.old = .ok true

theorem fits_of_changeRefusal? {c : Change} (h : b.changeRefusal? c = .ok none) : b.Fits c := by
  unfold changeRefusal? at h
  split at h
  · cases h
  · rename_i r hr
    obtain ⟨same, hs, h⟩ := bind_ok h
    cases same with
    | true => exact ⟨r, hr, mapError_ok hs⟩
    | false => cases h

theorem changesRefusal?_none_iff : ∀ {cs : List Change},
    b.changesRefusal? cs = .ok none ↔ ∀ c ∈ cs, b.changeRefusal? c = .ok none
  | [] => by simp [changesRefusal?]
  | c :: cs => by
      rw [List.forall_mem_cons, ← changesRefusal?_none_iff, changesRefusal?]
      constructor
      · intro h
        obtain ⟨reason, hc, h⟩ := bind_ok h
        cases reason with
        | some reason => cases h
        | none => exact ⟨hc, h⟩
      · rintro ⟨hc, h⟩
        rw [hc]
        exact h

theorem fits_of_changesRefusal? {cs : List Change} (h : b.changesRefusal? cs = .ok none) :
    ∀ c ∈ cs, b.Fits c := fun c hc => fits_of_changeRefusal? (changesRefusal?_none_iff.1 h c hc)

theorem Fits.listing {key : ListingKey} {old new : Listing}
    (h : b.Fits (.listing key (some old) new)) :
    ∃ l, b.listings.get? key = some (.listing l) ∧ l.agrees old = true := by
  obtain ⟨r, hr, he⟩ := h
  cases hr
  exact Stored.equals?_listing he

theorem Fits.newListing {key : ListingKey} {new : Listing} (h : b.Fits (.listing key none new)) :
    b.listings.get? key = none := by
  obtain ⟨r, hr, he⟩ := h
  cases hr
  exact Stored.equals?_none he

theorem Fits.offer {id : Key} {old new : Offer} (h : b.Fits (.offer id (some old) new)) :
    ∃ o, b.storedOffer? id = some o ∧ o.agrees old = true := by
  obtain ⟨r, hr, he⟩ := h
  cases hr
  obtain ⟨o, ho, ha⟩ := Stored.equals?_offer he
  obtain ⟨o', ho', hoo⟩ := Option.map_eq_some_iff.1 ho
  cases hoo
  exact ⟨o, ho', ha⟩

theorem Fits.newOffer {id : Key} {new : Offer} (h : b.Fits (.offer id none new)) :
    b.storedOffer? id = none := by
  obtain ⟨r, hr, he⟩ := h
  cases hr
  exact Option.map_eq_none_iff.1 (Stored.equals?_none he)

theorem Fits.borrower {name : Key} {old new : Borrower}
    (h : b.Fits (.borrower name (some old) new)) :
    ∃ c, b.borrowers.get? name = some (.borrower c) ∧ c.agrees old = true := by
  obtain ⟨r, hr, he⟩ := h
  cases hr
  exact Stored.equals?_borrower he

theorem Fits.newBorrower {name : Key} {new : Borrower} (h : b.Fits (.borrower name none new)) :
    b.borrowers.get? name = none := by
  obtain ⟨r, hr, he⟩ := h
  cases hr
  exact Stored.equals?_none he

theorem Fits.config {old new : Config} (h : b.Fits (.config old new)) (misfit : b.misfit = none) :
    (b.config.ownership.owner == old.ownership.owner) = true ∧
      Value.optionsAgree (· == ·) b.config.ownership.proposed old.ownership.proposed = true := by
  obtain ⟨r, hr, he⟩ := h
  have current : b.record? (Change.config old new).slot = .ok (some b.configRecord) := by
    simp [record?, Change.config, Slot.config]
  cases current.symm.trans hr
  rw [configRecord, misfit] at he
  exact Stored.equals?_config he

end Book
end Pawnbook
