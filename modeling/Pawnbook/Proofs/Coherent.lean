import Pawnbook.Proofs.Commit

/-! # Coherent books and how they go on

A book is coherent (`Book.Coherent`) if its listings and offers tell one story: a listing with a
loan names the one accepted offer on it, and an offer holds exactly the deposit that its state
calls for. `Book.Follows` is what one step may do to the records, `Book.Since` what is left of it
over any number of steps; a record that was read earlier and still agrees with what is stored is
recovered from it (`Since.listing_of_fits`, `Since.offer_of_fits`). `Coherent.of_since` reduces the
coherence of a later book to the records that changed. -/

namespace Pawnbook

/-! ### The edges of the two state machines -/

namespace LoanState

/-- The steps that a listing can take. -/
inductive Edge : LoanState → LoanState → Prop
  | start : Edge published started
  | finish : Edge started ended
  | default : Edge started defaulted
  | withdraw : Edge published assetWithdrawn

/-- A loan has started in this state. -/
def hasLoan : LoanState → Bool
  | started | ended | defaulted => true
  | published | assetWithdrawn => false

end LoanState

namespace OfferState

/-- The steps that an offer can take. -/
inductive Edge : OfferState → OfferState → Prop
  | accept : Edge published accepted
  | refuse : Edge published refused
  | cancel : Edge published cancelled

theorem Edge.published {s s' : OfferState} (h : Edge s s') : s = .published := by
  cases h <;> rfl

end OfferState

/-! ### Records that go on -/

namespace Listing

/-- What the contract relies on in a listing; the rest is the borrower's to change. -/
structure Core where
  assets : List Asset
  state : LoanState
  offerCount : Value
  activeOffer : Option Key
  startBlock : Option Value

/-- The core of a listing. -/
def core (l : Listing) : Core :=
  ⟨l.assets, l.state, l.offerCount, l.activeOffer, l.startBlock⟩

/-- The second listing is the first one at the same or a later time. -/
structure Extends (l l' : Listing) : Prop where
  assets : l'.assets = l.assets
  count : ∀ n, l.offerCount = .int n → ∃ n', l'.offerCount = .int n' ∧ n ≤ n'
  active : ∀ k, l.activeOffer = some k → l'.activeOffer = some k
  start : ∀ v, l.startBlock = some v → l'.startBlock = some v

/-- The second listing is the first one after at most one step. -/
structure Follows (l l' : Listing) : Prop extends Extends l l' where
  state : l'.state = l.state ∨ LoanState.Edge l.state l'.state

variable {l l' l'' : Listing}

theorem Extends.refl (l : Listing) : l.Extends l :=
  ⟨rfl, fun n hn => ⟨n, hn, Int.le_refl n⟩, fun _ hk => hk, fun _ hv => hv⟩

theorem Extends.trans (h : l.Extends l') (h' : l'.Extends l'') : l.Extends l'' where
  assets := h'.assets.trans h.assets
  count := by
    intro n hn
    obtain ⟨n', hn', hle⟩ := h.count n hn
    obtain ⟨n'', hn'', hle'⟩ := h'.count n' hn'
    exact ⟨n'', hn'', Int.le_trans hle hle'⟩
  active k hk := h'.active k (h.active k hk)
  start v hv := h'.start v (h.start v hv)

theorem Follows.refl (l : Listing) : l.Follows l := ⟨.refl l, .inl rfl⟩

theorem Follows.congr (h : l.Follows l') (hc : l''.core = l'.core) : l.Follows l'' := by
  simp only [core, Core.mk.injEq] at hc
  obtain ⟨ha, hs, hn, hk, hv⟩ := hc
  refine ⟨⟨ha.trans h.assets, ?_, ?_, ?_⟩, ?_⟩
  · rw [hn]
    exact h.count
  · rw [hk]
    exact h.active
  · rw [hv]
    exact h.start
  · rw [hs]
    exact h.state

theorem Follows.of_core (h : l'.core = l.core) : l.Follows l' := (refl l).congr h

theorem Extends.core_eq {n : Int} (h : l.Extends l') (hn : l.offerCount = .int n)
    (ha : l'.agrees l = true) : l'.core = l.core := by
  obtain ⟨n', hn', -⟩ := h.count n hn
  have hcount : l'.offerCount = l.offerCount := by
    have hs := (agrees_iff.1 ha).offerCount
    rw [hn, hn', Value.same_int_iff] at hs
    rw [hn, hn', hs]
  have hactive : l'.activeOffer = l.activeOffer := by
    cases hk : l.activeOffer with
    | some k => exact h.active k hk
    | none =>
        have hk' := (agrees_iff.1 ha).activeOffer
        rw [hk] at hk'
        exact Value.optionsAgree_none hk'
  have hstart : l'.startBlock = l.startBlock := by
    cases hv : l.startBlock with
    | some v => exact h.start v hv
    | none =>
        have hv' := (agrees_iff.1 ha).startBlock
        rw [hv] at hv'
        exact Value.optionsAgree_none hv'
  rw [core, core, h.assets, (agrees_iff.1 ha).state, hcount, hactive, hstart]

end Listing

namespace Offer

/-- The second offer is the first one at the same or a later time: only state and deposit can
differ, and the state no longer once it is settled. -/
structure Extends (o o' : Offer) : Prop where
  same : { o' with state := o.state, deposit := o.deposit } = o
  settled : o.state ≠ .published → o'.state = o.state

/-- The second offer is the first one after at most one step. -/
structure Follows (o o' : Offer) : Prop where
  same : { o' with state := o.state, deposit := o.deposit } = o
  state : o'.state = o.state ∨ OfferState.Edge o.state o'.state

variable {o o' o'' : Offer}

theorem Follows.extends (h : o.Follows o') : o.Extends o' where
  same := h.same
  settled hs := h.state.resolve_right fun he => hs he.published

theorem Follows.refl (o : Offer) : o.Follows o := ⟨rfl, .inl rfl⟩

theorem Extends.trans (h : o.Extends o') (h' : o'.Extends o'') : o.Extends o'' where
  same := by
    rw [← h.same, ← h'.same]
  settled hs := by
    have h₁ := h.settled hs
    rw [← h₁] at hs
    rw [h'.settled hs, h₁]

theorem Extends.lender (h : o.Extends o') : o'.lender = o.lender :=
  (congrArg Offer.lender h.same :)

theorem Extends.listing (h : o.Extends o') : o'.listing = o.listing :=
  (congrArg Offer.listing h.same :)

theorem Extends.terms (h : o.Extends o') : o'.terms = o.terms := (congrArg Offer.terms h.same :)

/-- An earlier offer that agrees with the later one is that offer, if its deposit is a coin or
none at all. -/
theorem Extends.eq_of_agrees (h : o.Extends o') (ha : o'.agrees o = true)
    (hd : ∀ t, o.deposit = some t → ∃ c, t = .coin c) : o' = o := by
  have hdeposit : o'.deposit = o.deposit := by
    cases ht : o.deposit with
    | none => exact deposit_none_of_agrees ha ht
    | some t =>
        obtain ⟨c, rfl⟩ := hd t ht
        exact deposit_eq_of_agrees ha ht
  rw [← h.same, ← (agrees_iff.1 ha).state, ← hdeposit]

end Offer

/-! ### Books that go on -/

namespace Book

/-- The second book is the first one at the same or a later time. -/
structure Since (b b' : Book) : Prop where
  address : b'.address = b.address
  height : ∀ h, b.height = .whole h → ∃ h', b'.height = .whole h' ∧ h ≤ h'
  listing : ∀ key l, b.listing? key = some l → ∃ l', b'.listing? key = some l' ∧ l.Extends l'
  offer : ∀ id o, b.storedOffer? id = some o → ∃ o', b'.storedOffer? id = some o' ∧ o.Extends o'

/-- The second book is the first one after at most one step of every record. -/
structure Follows (b b' : Book) : Prop where
  address : b'.address = b.address
  height : ∀ h, b.height = .whole h → ∃ h', b'.height = .whole h' ∧ h ≤ h'
  listing : ∀ key l, b.listing? key = some l → ∃ l', b'.listing? key = some l' ∧ l.Follows l'
  offer : ∀ id o, b.storedOffer? id = some o → ∃ o', b'.storedOffer? id = some o' ∧ o.Follows o'

variable {b b' b'' : Book}

theorem Since.refl (b : Book) : b.Since b :=
  ⟨rfl, fun h hh => ⟨h, hh, Int.le_refl h⟩, fun _ l hl => ⟨l, hl, .refl l⟩,
    fun _ o ho => ⟨o, ho, (Offer.Follows.refl o).extends⟩⟩

theorem Since.trans (h : b.Since b') (h' : b'.Since b'') : b.Since b'' where
  address := h'.address.trans h.address
  height n hn := by
    obtain ⟨n', hn', hle⟩ := h.height n hn
    obtain ⟨n'', hn'', hle'⟩ := h'.height n' hn'
    exact ⟨n'', hn'', Int.le_trans hle hle'⟩
  listing key l hl := by
    obtain ⟨l', hl', he⟩ := h.listing key l hl
    obtain ⟨l'', hl'', he'⟩ := h'.listing key l' hl'
    exact ⟨l'', hl'', he.trans he'⟩
  offer id o ho := by
    obtain ⟨o', ho', he⟩ := h.offer id o ho
    obtain ⟨o'', ho'', he'⟩ := h'.offer id o' ho'
    exact ⟨o'', ho'', he.trans he'⟩

theorem Follows.since (h : b.Follows b') : b.Since b' where
  address := h.address
  height := h.height
  listing key l hl := by
    obtain ⟨l', hl', he⟩ := h.listing key l hl
    exact ⟨l', hl', he.toExtends⟩
  offer id o ho := by
    obtain ⟨o', ho', he⟩ := h.offer id o ho
    exact ⟨o', ho', he.extends⟩

theorem Follows.refl (b : Book) : b.Follows b :=
  ⟨rfl, fun h hh => ⟨h, hh, Int.le_refl h⟩, fun _ l hl => ⟨l, hl, .of_core rfl⟩,
    fun _ o ho => ⟨o, ho, .refl o⟩⟩

/-- The second book has the records, the address and the height of the first one. -/
structure Alike (b b' : Book) : Prop where
  config : b'.config = b.config
  misfit : b'.misfit = b.misfit
  address : b'.address = b.address
  height : b'.height = b.height
  listings : b'.listings = b.listings
  offers : b'.offers = b.offers

theorem alike_posted (b : Book) (p : Pending) : (b.putAll p.changes).Alike (b.posted p) := by
  rw [posted_eq]
  exact ⟨rfl, rfl, rfl, rfl, rfl, rfl⟩

theorem Alike.listing? (h : b.Alike b') (key : ListingKey) :
    b'.listing? key = b.listing? key := by rw [Book.listing?, h.listings, Book.listing?]

theorem Alike.storedOffer? (h : b.Alike b') (id : Key) :
    b'.storedOffer? id = b.storedOffer? id := by
  rw [Book.storedOffer?, h.offers, Book.storedOffer?]

theorem Follows.alike (h : b.Follows b') (ha : b'.Alike b'') : b.Follows b'' where
  address := ha.address.trans h.address
  height n hn := by
    obtain ⟨n', hn', hle⟩ := h.height n hn
    exact ⟨n', ha.height.trans hn', hle⟩
  listing key l hl := by
    obtain ⟨l', hl', hf⟩ := h.listing key l hl
    exact ⟨l', (ha.listing? key).trans hl', hf⟩
  offer id o ho := by
    obtain ⟨o', ho', hf⟩ := h.offer id o ho
    exact ⟨o', (ha.storedOffer? id).trans ho', hf⟩

end Book

/-! ### Sound records -/

/-- A rate from zero to below one, and a counter of offers that counts. -/
structure Config.Sound (c : Config) : Prop where
  rate : c.feeRate.IsRate
  count : ∃ n : Int, c.lastOffer = .int n

/-- A listing without a loan names neither an offer nor a start; one with a loan names the
accepted offer on it, and a start that is not ahead of the chain. -/
structure Listing.Sound (b : Book) (key : ListingKey) (l : Listing) : Prop where
  count : ∃ n : Int, l.offerCount = .int n
  idle : l.state.hasLoan = false → l.activeOffer = none ∧ l.startBlock = none
  lent : l.state.hasLoan = true → ∃ id o start height, l.activeOffer = some id ∧
    b.storedOffer? id = some o ∧ o.state = .accepted ∧ (o.listing == key) = true ∧
    l.startBlock = some (.int start) ∧ b.height = .whole height ∧ start ≤ height

/-- A published offer holds the principal of its terms, an accepted or cancelled one holds
nothing, a refused one holds the principal until it is recovered. -/
structure Offer.Escrowed (o : Offer) (t : Terms) : Prop where
  published : o.state = .published → o.deposit = some (.coin t.principal)
  settled : o.state = .accepted ∨ o.state = .cancelled → o.deposit = none
  refused : o.state = .refused → o.deposit = some (.coin t.principal) ∨ o.deposit = none

/-- An offer is made on a listing that is there, and if it is accepted the listing names it. -/
structure Offer.Sound (b : Book) (id : Key) (o : Offer) : Prop where
  escrow : ∃ t, o.terms = some t ∧ o.Escrowed t
  listed : ∃ l, b.listing? o.listing = some l ∧
    (o.state = .accepted → ∃ k, l.activeOffer = some k ∧ (k == id) = true)

theorem Offer.Escrowed.coin {o : Offer} {t : Terms} {d : Tender} (h : o.Escrowed t)
    (hd : o.deposit = some d) : d = .coin t.principal := by
  cases hs : o.state with
  | published => exact Option.some.inj (hd.symm.trans (h.published hs))
  | accepted => cases hd.symm.trans (h.settled (.inl hs))
  | cancelled => cases hd.symm.trans (h.settled (.inr hs))
  | refused =>
      rcases h.refused hs with h | h
      · exact Option.some.inj (hd.symm.trans h)
      · cases hd.symm.trans h

namespace Book

/-- The records of a book tell one story. -/
structure Coherent (b : Book) : Prop where
  config : b.config.Sound
  misfit : b.misfit = none
  height : ∃ n : Int, b.height = .whole n
  index : b.offers.Coherent
  listing : ∀ key l, b.listing? key = some l → l.Sound b key
  offer : ∀ id o, b.storedOffer? id = some o → o.Sound b id

theorem listing?_congr (b : Book) {key key' : ListingKey} (h : (key == key') = true) :
    b.listing? key = b.listing? key' := by
  rw [ListingKey.beq_toKey] at h
  rw [listing?, listing?, Table.get?_congr _ h]

theorem storedOffer?_congr (b : Book) {id id' : Key} (h : (id == id') = true) :
    b.storedOffer? id = b.storedOffer? id' := Table.get?_congr _ h

theorem listing?_of_get? {b : Book} {key : ListingKey} {l : Listing}
    (h : b.listings.get? key = some (.listing l)) : b.listing? key = some l := by
  rw [listing?, h]
  rfl

theorem get?_of_listing? {b : Book} {key : ListingKey} {l : Listing} (h : b.listing? key = some l) :
    b.listings.get? key = some (.listing l) := by
  obtain ⟨r, hr, hl⟩ := Option.bind_eq_some_iff.1 h
  cases r with
  | listing l' =>
      cases hl
      exact hr
  | config | borrower | offer | other => cases hl

end Book

section soundness
variable {b b' : Book}

theorem Listing.Sound.mono {key key' : ListingKey} {l l' : Listing} (h : l.Sound b key)
    (since : b.Since b') (hc : l'.core = l.core) (hk : (key == key') = true) :
    l'.Sound b' key' := by
  simp only [core, Core.mk.injEq] at hc
  obtain ⟨-, hs, hn, ha, hv⟩ := hc
  refine ⟨hn ▸ h.count, ?_, ?_⟩
  · intro hi
    rw [ha, hv]
    exact h.idle (hs ▸ hi)
  · intro hl
    obtain ⟨id, o, start, height, hid, ho, hacc, hlist, hstart, hh, hle⟩ := h.lent (hs ▸ hl)
    obtain ⟨o', ho', he⟩ := since.offer id o ho
    obtain ⟨height', hh', hle'⟩ := since.height height hh
    refine ⟨id, o', start, height', ha.trans hid, ho', ?_, ?_, hv.trans hstart, hh',
      Int.le_trans hle hle'⟩
    · rw [he.settled (by rw [hacc]; decide), hacc]
    · rw [he.listing]
      exact BEq.trans hlist hk

theorem Offer.Sound.mono {id id' : Key} {o : Offer} (h : o.Sound b id) (since : b.Since b')
    (hk : (id == id') = true) : o.Sound b' id' := by
  refine ⟨h.escrow, ?_⟩
  obtain ⟨l, hl, hacc⟩ := h.listed
  obtain ⟨l', hl', he⟩ := since.listing _ l hl
  refine ⟨l', hl', ?_⟩
  intro ha
  obtain ⟨k, hkey, hki⟩ := hacc ha
  exact ⟨k, he.active k hkey, BEq.trans hki hk⟩

namespace Book

theorem Coherent.listed {id : Key} {o : Offer} (hb : b.Coherent) (h : b.storedOffer? id = some o) :
    ∃ l, b.listings.get? o.listing = some (.listing l) := by
  obtain ⟨l, hl, -⟩ := (hb.offer id o h).listed
  exact ⟨l, get?_of_listing? hl⟩

/-- A later book is coherent if the records that changed are sound. -/
theorem Coherent.of_since (h : b.Coherent) (since : b.Since b') (config : b'.config.Sound)
    (misfit : b'.misfit = none) (index : b'.offers.Coherent)
    (listing : ∀ key l', b'.listing? key = some l' →
      l'.Sound b' key ∨ ∃ l, b.listing? key = some l ∧ l'.core = l.core)
    (offer : ∀ id o, b'.storedOffer? id = some o → o.Sound b' id ∨ b.storedOffer? id = some o) :
    b'.Coherent where
  config := config
  misfit := misfit
  height := by
    obtain ⟨n, hn⟩ := h.height
    obtain ⟨n', hn', -⟩ := since.height n hn
    exact ⟨n', hn'⟩
  index := index
  listing key l' hl' := by
    rcases listing key l' hl' with hs | ⟨l, hl, hc⟩
    · exact hs
    · exact (h.listing key l hl).mono since hc BEq.rfl
  offer id o ho := by
    rcases offer id o ho with hs | ho
    · exact hs
    · exact (h.offer id o ho).mono since BEq.rfl

theorem Coherent.alike (h : b.Coherent) (ha : b.Alike b') : b'.Coherent := by
  refine h.of_since ((Follows.refl b).alike ha).since ?_ ?_ ?_ ?_ ?_
  · rw [ha.config]
    exact h.config
  · rw [ha.misfit, h.misfit]
  · rw [ha.offers]
    exact h.index
  · intro key l' hl'
    exact .inr ⟨l', (ha.listing? key).symm.trans hl', rfl⟩
  · intro id o ho
    exact .inr ((ha.storedOffer? id).symm.trans ho)

/-! ### Records that were read earlier -/

/-- A listing that was read earlier and fits has the core of the one that is stored. -/
theorem Since.listing_of_fits (since : b.Since b') (h : b.Coherent) {key : ListingKey}
    {l new : Listing} (hl : b.listing? key = some l)
    (fits : b'.Fits (.listing key (some l) new)) :
    ∃ l', b'.listing? key = some l' ∧ l'.core = l.core := by
  obtain ⟨l', hl', ha⟩ := fits.listing
  have hl' := listing?_of_get? hl'
  obtain ⟨l'', hl'', he⟩ := since.listing key l hl
  cases hl''.symm.trans hl'
  obtain ⟨n, hn⟩ := (h.listing key l hl).count
  exact ⟨l', hl', he.core_eq hn ha⟩

/-- An offer that was read earlier and fits is still stored. -/
theorem Since.offer_of_fits (since : b.Since b') (h : b.Coherent) {id : Key} {o new : Offer}
    (ho : b.storedOffer? id = some o) (fits : b'.Fits (.offer id (some o) new)) :
    b'.storedOffer? id = some o := by
  obtain ⟨o', ho', ha⟩ := fits.offer
  obtain ⟨o'', ho'', he⟩ := since.offer id o ho
  cases ho''.symm.trans ho'
  obtain ⟨t, -, hd⟩ := (h.offer id o ho).escrow
  rw [ho', he.eq_of_agrees ha fun d hd' => ⟨t.principal, hd.coin hd'⟩]

end Book
end soundness
end Pawnbook
