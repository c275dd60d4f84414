import Pawnbook.Action.Message

/-! # Calls that succeed

Every fallible step of the book is a chain in `Except`. The lemmas here take the success of a
chain apart: a bound step succeeded before its continuation (`bind_ok`), a guard that was passed
did not hold (`unless_ok`) or held (`require_ok`), and a step whose errors are reworded succeeded
itself (`mapError_ok`). The guards of listings, offers and the configuration follow, each with
the condition under which it passes. -/

namespace Pawnbook

section chains
variable {ε ε' α β : Type}

theorem bind_ok {x : Except ε α} {f : α → Except ε β} {b : β} (h : (x >>= f) = .ok b) :
    ∃ a, x = .ok a ∧ f a = .ok b := by
  cases x with
  | error e => cases h
  | ok a => exact ⟨a, rfl, h⟩

theorem bind_of_ok {x : Except ε α} {f : α → Except ε β} {a : α} {y : Except ε β}
    (hx : x = .ok a) (hf : f a = y) : (x >>= f) = y := by
  rw [hx]
  exact hf

theorem bind_of_error {x : Except ε α} {f : α → Except ε β} {e : ε} (hx : x = .error e) :
    (x >>= f) = .error e := by
  rw [hx]
  rfl

theorem mapError_ok {f : ε → ε'} {x : Except ε α} {a : α} (h : x.mapError f = .ok a) :
    x = .ok a := by
  cases x with
  | error e => cases h
  | ok a' => cases h; rfl

theorem map_ok {f : α → β} {x : Except ε α} {b : β} (h : x.map f = .ok b) :
    ∃ a, x = .ok a ∧ f a = b := by
  cases x with
  | error e => cases h
  | ok a =>
      cases h
      exact ⟨a, rfl, rfl⟩

theorem toOption_eq_some_iff {x : Except ε α} {a : α} : x.toOption = some a ↔ x = .ok a := by
  cases x <;> simp [Except.toOption]

theorem toOption_eq_none_iff {x : Except ε α} : x.toOption = none ↔ ∃ e, x = .error e := by
  cases x <;> simp [Except.toOption]

theorem toError_ok {x : Except Malformed α} {a : α} (h : Malformed.toError x = .ok a) :
    x = .ok a := mapError_ok h

theorem unless_ok {c : Prop} [Decidable c] {e : ε} {f : α → Except ε β} {x : Except ε β} {b : β}
    (h : (if c then (throw e >>= f) else x) = .ok b) : ¬ c ∧ x = .ok b := by
  split at h
  · cases h
  · rename_i hc
    exact ⟨hc, h⟩

theorem require_ok {c : Prop} [Decidable c] {e : ε} {x : Except ε α} {a : α}
    (h : (if c then x else .error e) = .ok a) : c ∧ x = .ok a := by
  split at h
  · rename_i hc
    exact ⟨hc, h⟩
  · cases h

theorem refuse_ok {c : Prop} [Decidable c] {e : ε} {x : Except ε α} {a : α}
    (h : (if c then .error e else x) = .ok a) : ¬ c ∧ x = .ok a := by
  split at h
  · cases h
  · rename_i hc
    exact ⟨hc, h⟩

/-- A list of at most one element, mapped: nothing came of nothing, one result of one element. -/
theorem mapM_toList_ok {f : α → Except ε β} {o : Option α} {bs : List β}
    (h : o.toList.mapM f = .ok bs) :
    (o = none ∧ bs = []) ∨ ∃ a b, o = some a ∧ bs = [b] ∧ f a = .ok b := by
  cases o with
  | none => exact .inl ⟨rfl, by cases h; rfl⟩
  | some a =>
      rw [Option.toList_some, List.mapM_cons] at h
      obtain ⟨b, hb, h⟩ := bind_ok h
      cases h
      exact .inr ⟨a, b, rfl, rfl, hb⟩

end chains

/-! ### Guards of a listing -/

namespace Listing

theorem requirePublished_ok {family : Family} {l : Listing} {u : Unit}
    (h : l.requirePublished family = .ok u) : l.state = .published := (require_ok h).1

theorem requireDefaulted_ok {l : Listing} {terms : Option Terms} {height : Number} {u : Unit}
    (h : l.requireDefaulted terms height = .ok u) : l.isDefaulted terms height = true :=
  (require_ok h).1

theorem requireRepayable_ok {l : Listing} {terms : Option Terms} {height : Number} {u : Unit}
    (h : l.requireRepayable terms height = .ok u) :
    l.isDefaulted terms height = false ∧ l.state = .started := by
  obtain ⟨hd, h⟩ := refuse_ok h
  exact ⟨by simpa using hd, (require_ok h).1⟩

theorem state_of_isDefaulted {l : Listing} {terms : Option Terms} {height : Number}
    (h : l.isDefaulted terms height = true) : l.state = .started ∨ l.state = .defaulted := by
  unfold isDefaulted at h
  split at h
  · rename_i hs
    exact .inl hs
  · rename_i hs
    exact .inr hs
  · cases h

end Listing

/-! ### Guards of an offer -/

namespace Offer

theorem stateIf_eq_published_iff {o : Offer} {closed : Bool} :
    o.stateIf closed = .published ↔ o.state = .published ∧ closed = false := by
  unfold stateIf
  cases closed <;> by_cases h : o.state = .published <;> simp [h]

theorem requireLender_ok {o : Offer} {sender : Key} {u : Unit}
    (h : o.requireLender sender = .ok u) : (o.lender == sender) = true := (require_ok h).1

theorem requireBorrower_ok {o : Offer} {sender : Key} {u : Unit}
    (h : o.requireBorrower sender = .ok u) : (o.borrower == sender) = true := (require_ok h).1

theorem requireRefusable_ok {o : Offer} {l : Listing} {u : Unit}
    (h : o.requireRefusable l = .ok u) : l.state = .published ∧ o.state = .published := by
  obtain ⟨_, hl, h⟩ := bind_ok h
  exact ⟨Listing.requirePublished_ok hl, (require_ok h).1⟩

theorem depositOf_ok {funds : List Tender} {terms : Terms} {c : Coin}
    (h : depositOf funds terms = .ok c) :
    funds = [.coin terms.principal] ∧ c = terms.principal := by
  obtain ⟨sent, hs, h⟩ := bind_ok h
  split at h
  · rename_i hc
    cases h
    unfold singleCoin at hs
    split at hs
    · cases hs
      exact ⟨by rw [hc], rfl⟩
    · cases hs
  · cases h

end Offer

/-! ### Guards of the configuration -/

/-- A decimal from zero to below one. -/
def Decimal.IsRate (d : Decimal) : Prop :=
  d.isFinite = true ∧ d.isBelowZero = false ∧ d.isAtLeastOne = false

theorem Config.checkFeeRate_ok {given : Value} {rate : Decimal}
    (h : checkFeeRate given = .ok rate) : rate.IsRate := by
  obtain ⟨_, -, h⟩ := bind_ok h
  obtain ⟨hr, h⟩ := require_ok h
  cases h
  simpa [Decimal.IsRate] using hr

/-! ### Look-ups that must succeed -/

namespace Book
variable {b : Book}

theorem requireListing_ok {step : Family} {key : ListingKey} {l : Listing}
    (h : b.requireListing step key = .ok l) : b.listings.get? key = some (.listing l) := by
  obtain ⟨r, hr, h⟩ := bind_ok h
  unfold requireRecord at hr
  split at hr
  · rename_i r' hg
    cases hr
    cases r with
    | listing l' => cases h; exact hg
    | config | borrower | offer | other => cases h
  · cases hr

theorem requireStoredOffer_ok {id : Key} {o : Offer} (h : b.requireStoredOffer id = .ok o) :
    b.storedOffer? id = some o := by
  unfold requireStoredOffer at h
  split at h
  · rename_i o' ho
    cases h
    exact ho
  · cases h

theorem requireOffer_ok {id : Key} {o : Offer} (h : b.requireOffer id = .ok o) :
    ∃ stored, b.storedOffer? id = some stored ∧ o = stored.readIf (b.closes stored.listing) := by
  unfold requireOffer at h
  split at h
  · rename_i o' ho
    cases h
    obtain ⟨stored, hs, ho⟩ := Option.map_eq_some_iff.1 ho
    exact ⟨stored, hs, ho.symm⟩
  · cases h

theorem requireOffer_of_stored {id : Key} {o : Offer} (h : b.storedOffer? id = some o) :
    b.requireOffer id = .ok (o.readIf (b.closes o.listing)) := by
  rw [requireOffer, offer?, h]
  rfl

theorem activeLoan_ok {l : Listing} {id : Key} {o : Offer} (h : b.activeLoan l = .ok (id, o)) :
    l.activeOffer = some id ∧ b.requireOffer id = .ok o := by
  unfold activeLoan at h
  split at h
  · cases h
  · rename_i id' hid
    obtain ⟨o', ho, h⟩ := bind_ok h
    cases h
    exact ⟨hid, ho⟩

theorem requireActiveLender_ok {sender : Key} {l : Listing} {o : Offer}
    (h : b.requireActiveLender sender l = .ok o) :
    ∃ id, l.activeOffer = some id ∧ b.requireOffer id = .ok o ∧ (o.lender == sender) = true := by
  obtain ⟨⟨id, o'⟩, hl, h⟩ := bind_ok h
  obtain ⟨hs, h⟩ := require_ok h
  cases h
  exact ⟨id, (activeLoan_ok hl).1, (activeLoan_ok hl).2, hs⟩

end Book
end Pawnbook
