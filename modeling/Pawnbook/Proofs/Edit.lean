import Pawnbook.Proofs.Coherent

/-! # The shapes of a transaction's changes

`Edit b cs` lists the seven ways in which the changes of a transaction meet a book: a new listing,
a listing that goes on by itself, a new offer, a loan that starts with a new offer or with one that
is there, an offer that is settled without a loan, and a new configuration. Each of them can be
written (`Edit.writeAll`), moves every record by at most one step (`Edit.follows`) and keeps the
book coherent (`Edit.coherent`). -/

namespace Pawnbook

/-! ### Sound records that go on -/

section records
variable {b : Book} {key : ListingKey} {l new : Listing}

theorem Listing.Sound.restate (h : l.Sound b key) {s : LoanState}
    (hs : s.hasLoan = l.state.hasLoan) : Listing.Sound b key { l with state := s } where
  count := h.count
  idle hi := h.idle (hs.symm.trans hi)
  lent hl := h.lent (hs.symm.trans hl)

theorem Listing.Sound.recount (h : l.Sound b key) (n : Int) :
    Listing.Sound b key { l with offerCount := .int n } where
  count := ⟨n, rfl⟩
  idle := h.idle
  lent := h.lent

theorem Listing.Follows.restate {s : LoanState} (h : s = l.state ∨ LoanState.Edge l.state s) :
    l.Follows { l with state := s } :=
  ⟨⟨rfl, (Extends.refl l).count, fun _ h => h, fun _ h => h⟩, h⟩

theorem Listing.Follows.recount {n : Int} (h : l.offerCount = .int n) :
    l.Follows { l with offerCount := .int (n + 1) } := by
  have count : ∀ m, l.offerCount = .int m → ∃ m', Value.int (n + 1) = .int m' ∧ m ≤ m' := by
    intro m hm
    cases h.symm.trans hm
    exact ⟨n + 1, rfl, by omega⟩
  exact ⟨⟨rfl, count, fun _ h => h, fun _ h => h⟩, .inl rfl⟩

/-- A published listing names neither offer nor start, so any may be entered when its loan
starts. -/
theorem Listing.Sound.begin (h : l.Sound b key) (published : l.state = .published) {c : Value}
    (hc : c = l.offerCount ∨ ∃ n, l.offerCount = .int n ∧ c = .int (n + 1)) (k : Option Key)
    (v : Option Value) : l.Follows
      { l with state := .started, offerCount := c, activeOffer := k, startBlock := v } := by
  obtain ⟨hk, hv⟩ := h.idle (by rw [published]; rfl)
  have moves : LoanState.Edge l.state .started := published ▸ .start
  refine ⟨⟨rfl, ?_, ?_, ?_⟩, .inr moves⟩
  · intro m hm
    rcases hc with rfl | ⟨n, hn, rfl⟩
    · exact ⟨m, hm, Int.le_refl m⟩
    · cases hn.symm.trans hm
      exact ⟨m + 1, rfl, by omega⟩
  · intro k' h
    cases hk.symm.trans h
  · intro v' h
    cases hv.symm.trans h

theorem Listing.sound_of_idle {assets : List Asset} {n : Int} {s : LoanState}
    (hs : s.hasLoan = false) (core : new.core = ⟨assets, s, .int n, none, none⟩) :
    new.Sound b key := by
  simp only [Listing.core, Core.mk.injEq] at core
  obtain ⟨-, hstate, hn, ha, hv⟩ := core
  constructor
  · exact ⟨n, hn⟩
  · intro _
    exact ⟨ha, hv⟩
  · intro hl
    rw [hstate, hs] at hl
    cases hl

theorem Listing.sound_of_started {assets : List Asset} {n start height : Int} {id : Key}
    {o : Offer} (core : new.core = ⟨assets, .started, .int n, some id, some (.int start)⟩)
    (stands : b.height = .whole height) (began : start ≤ height)
    (offer : b.storedOffer? id = some o) (accepted : o.state = .accepted)
    (listing : o.listing = key) : new.Sound b key := by
  simp only [Listing.core, Core.mk.injEq] at core
  obtain ⟨-, hstate, hn, ha, hv⟩ := core
  constructor
  · exact ⟨n, hn⟩
  · intro hi
    rw [hstate] at hi
    cases hi
  · intro _
    have hkey : (o.listing == key) = true := listing ▸ BEq.rfl
    exact ⟨id, o, start, height, ha, offer, accepted, hkey, hv, stands, began⟩

theorem Offer.escrowed_of_published {o : Offer} {t : Terms} (hs : o.state = .published)
    (hd : o.deposit = some (.coin t.principal)) : o.Escrowed t where
  published _ := hd
  settled h := by
    rw [hs] at h
    rcases h with h | h <;> cases h
  refused h := .inl hd

theorem Offer.escrowed_of_settled {o : Offer} {t : Terms} (hs : o.state ≠ .published)
    (hd : o.deposit = none) : o.Escrowed t where
  published h := absurd h hs
  settled _ := hd
  refused _ := .inr hd

end records

namespace Book

section lookups
variable {b b' : Book} {key : ListingKey} {new : Listing} {id : Key} {o' : Offer}

theorem follows_of_listing
    (hb : ∀ k, b'.listing? k = if key == k then some new else b.listing? k)
    (hf : ∀ l, b.listing? key = some l → l.Follows new) (k : ListingKey) (l : Listing)
    (h : b.listing? k = some l) : ∃ l', b'.listing? k = some l' ∧ l.Follows l' := by
  by_cases hk : (key == k) = true
  · have hl : b.listing? key = some l := by rw [b.listing?_congr hk, h]
    have hnew : b'.listing? k = some new := by rw [hb, if_pos hk]
    exact ⟨new, hnew, hf l hl⟩
  · have hl : b'.listing? k = some l := by rw [hb, if_neg hk, h]
    exact ⟨l, hl, .of_core rfl⟩

theorem follows_of_offer
    (hb : ∀ i, b'.storedOffer? i = if id == i then some o' else b.storedOffer? i)
    (hf : ∀ o, b.storedOffer? id = some o → o.Follows o') (i : Key) (o : Offer)
    (h : b.storedOffer? i = some o) : ∃ o', b'.storedOffer? i = some o' ∧ o.Follows o' := by
  by_cases hi : (id == i) = true
  · have ho : b.storedOffer? id = some o := by rw [b.storedOffer?_congr hi, h]
    have hnew : b'.storedOffer? i = some o' := by rw [hb, if_pos hi]
    exact ⟨o', hnew, hf o ho⟩
  · have ho : b'.storedOffer? i = some o := by rw [hb, if_neg hi, h]
    exact ⟨o, ho, .refl o⟩

theorem sound_of_listing
    (hb : ∀ k, b'.listing? k = if key == k then some new else b.listing? k)
    (hs : new.Sound b' key) (k : ListingKey) (l' : Listing) (h : b'.listing? k = some l') :
    l'.Sound b' k ∨ ∃ l, b.listing? k = some l ∧ l'.core = l.core := by
  rw [hb] at h
  split at h
  · rename_i hk
    cases h
    exact .inl (hs.mono (.refl b') rfl hk)
  · exact .inr ⟨l', h, rfl⟩

theorem sound_of_offer
    (hb : ∀ i, b'.storedOffer? i = if id == i then some o' else b.storedOffer? i)
    (hs : o'.Sound b' id) (i : Key) (o : Offer) (h : b'.storedOffer? i = some o) :
    o.Sound b' i ∨ b.storedOffer? i = some o := by
  rw [hb] at h
  split at h
  · rename_i hi
    cases h
    exact .inl (hs.mono (.refl b') hi)
  · exact .inr h

end lookups

/-! ### The shapes -/

/-- How the changes of a transaction meet the records of a book. -/
inductive Edit (b : Book) : List Change → Prop
  | list {name : Key} {before : Option Borrower} {r : Borrower} {key : ListingKey} {new : Listing}
      {assets : List Asset} (fresh : b.listing? key = none)
      (core : new.core = ⟨assets, .published, .int 0, none, none⟩) :
      Edit b [.borrower name before r, .listing key none new]
  | relist {key : ListingKey} {l old new : Listing} {s : LoanState}
      (stored : b.listing? key = some l) (core : new.core = { l.core with state := s })
      (loan : s.hasLoan = l.state.hasLoan) (moves : s = l.state ∨ LoanState.Edge l.state s) :
      Edit b [.listing key (some old) new]
  | offer {config config' : Config} {key : ListingKey} {l old new : Listing} {n : Int} {id : Key}
      {o : Offer} {t : Terms} (sound : config'.Sound) (stored : b.listing? key = some l)
      (published : l.state = .published) (count : l.offerCount = .int n)
      (core : new.core = { l.core with offerCount := .int (n + 1) })
      (fresh : b.storedOffer? id = none) (listing : o.listing = key)
      (pending : o.state = .published) (terms : o.terms = some t)
      (deposit : o.deposit = some (.coin t.principal)) :
      Edit b [.config config config', .listing key (some old) new, .offer id none o]
  | lend {config config' : Config} {key : ListingKey} {l old new : Listing} {n start height : Int}
      {id : Key} {o : Offer} {t : Terms} (sound : config'.Sound)
      (stored : b.listing? key = some l) (published : l.state = .published)
      (count : l.offerCount = .int n)
      (core : new.core = ⟨l.assets, .started, .int (n + 1), some id, some (.int start)⟩)
      (stands : b.height = .whole height) (began : start ≤ height)
      (fresh : b.storedOffer? id = none) (listing : o.listing = key)
      (accepted : o.state = .accepted) (terms : o.terms = some t) (deposit : o.deposit = none) :
      Edit b [.config config config', .listing key (some old) new, .offer id none o]
  | accept {key : ListingKey} {l old new : Listing} {start height : Int} {id : Key} {o : Offer}
      (stored : b.listing? key = some l) (published : l.state = .published)
      (core : new.core = ⟨l.assets, .started, l.offerCount, some id, some (.int start)⟩)
      (stands : b.height = .whole height) (began : start ≤ height)
      (offer : b.storedOffer? id = some o) (listing : o.listing = key)
      (pending : o.state = .published) :
      Edit b
        [.listing key (some old) new,
         .offer id (some o) { o with deposit := none, state := .accepted }]
  | settle {id : Key} {o : Offer} {t : Terms} {d : Option Tender} {s : OfferState}
      (offer : b.storedOffer? id = some o) (moves : s = o.state ∨ OfferState.Edge o.state s)
      (open' : s ≠ .accepted) (terms : o.terms = some t)
      (escrow : Offer.Escrowed { o with deposit := d, state := s } t) :
      Edit b [.offer id (some o) { o with deposit := d, state := s }]
  | configure {config config' : Config} (sound : config'.Sound) :
      Edit b [.config config config']

variable {b : Book} {cs : List Change}

/-- The changes can be written; offers are all that a write can stumble over. -/
theorem Edit.writeAll (h : b.Edit cs) {b' : Book} (hb : b'.offers = b.offers) :
    b'.writeAll cs = .ok (b'.putAll cs) := by
  have stored : ∀ id, b'.storedOffer? id = b.storedOffer? id := by
    intro id
    rw [storedOffer?, hb, storedOffer?]
  cases h with
  | list | relist | configure => rfl
  | offer _ _ _ _ _ fresh | lend _ _ _ _ _ _ _ fresh =>
      apply writeAll_cons rfl
      apply writeAll_cons rfl
      apply writeAll_cons _ rfl
      apply write_newOffer
      exact (stored _).trans fresh
  | accept _ _ _ _ _ offer =>
      apply writeAll_cons rfl
      exact writeAll_cons (write_offer ((stored _).trans offer) BEq.rfl BEq.rfl) rfl
  | settle offer =>
      exact writeAll_cons (write_offer ((stored _).trans offer) BEq.rfl BEq.rfl) rfl

theorem Edit.follows (h : b.Edit cs) (hb : b.Coherent) : b.Follows (b.putAll cs) := by
  have height : ∀ n, b.height = .whole n → ∃ n', (b.putAll cs).height = .whole n' ∧ n ≤ n' := by
    intro n hn
    refine ⟨n, ?_, Int.le_refl n⟩
    rw [height_putAll, hn]
  refine ⟨address_putAll b cs, height, ?_, ?_⟩
  · cases h with
    | list fresh =>
        apply follows_of_listing (fun k => listing?_put_listing _ _ k _ _)
        intro l hl
        cases fresh.symm.trans hl
    | relist stored core loan moves =>
        apply follows_of_listing (fun k => listing?_put_listing _ _ k _ _)
        intro l hl
        cases stored.symm.trans hl
        exact (Listing.Follows.restate moves).congr core
    | offer sound stored published count core =>
        apply follows_of_listing (fun k => listing?_put_listing _ _ k _ _)
        intro l hl
        cases stored.symm.trans hl
        exact (Listing.Follows.recount count).congr core
    | lend sound stored published count core =>
        apply follows_of_listing (fun k => listing?_put_listing _ _ k _ _)
        intro l hl
        cases stored.symm.trans hl
        exact ((hb.listing _ _ stored).begin published (.inr ⟨_, count, rfl⟩) _ _).congr core
    | accept stored published core =>
        apply follows_of_listing (fun k => listing?_put_listing _ _ k _ _)
        intro l hl
        cases stored.symm.trans hl
        exact ((hb.listing _ _ stored).begin published (.inl rfl) _ _).congr core
    | settle | configure => exact (Follows.refl b).listing
  · cases h with
    | list | relist | configure => exact (Follows.refl b).offer
    | offer _ _ _ _ _ fresh | lend _ _ _ _ _ _ _ fresh =>
        apply follows_of_offer (fun i => storedOffer?_put_offer _ _ i _ _)
        intro o ho
        cases fresh.symm.trans ho
    | accept _ _ _ _ _ offer _ pending =>
        apply follows_of_offer (fun i => storedOffer?_put_offer _ _ i _ _)
        intro o' ho'
        cases offer.symm.trans ho'
        exact ⟨rfl, .inr (pending ▸ .accept)⟩
    | settle offer moves =>
        apply follows_of_offer (fun i => storedOffer?_put_offer _ _ i _ _)
        intro o' ho'
        cases offer.symm.trans ho'
        exact ⟨rfl, moves⟩

theorem Edit.coherent (h : b.Edit cs) (hb : b.Coherent) : (b.putAll cs).Coherent := by
  have since := (h.follows hb).since
  have height : (b.putAll cs).height = b.height := height_putAll b cs
  cases h with
  | list fresh core =>
      refine hb.of_since since hb.config hb.misfit hb.index
        (sound_of_listing (fun k => listing?_put_listing _ _ k _ _) ?_) fun _ _ ho => .inr ho
      exact Listing.sound_of_idle rfl core
  | @relist key l old new s stored core loan =>
      refine hb.of_since since hb.config hb.misfit hb.index
        (sound_of_listing (fun k => listing?_put_listing _ _ k _ _) ?_) fun _ _ ho => .inr ho
      exact ((hb.listing key l stored).restate loan).mono since core BEq.rfl
  | @offer config config' key l old new n id o t sound stored published count core fresh listing
      pending terms deposit =>
      refine hb.of_since since sound rfl (hb.index.add fresh)
        (sound_of_listing (fun k => listing?_put_listing _ _ k _ _) ?_)
        (sound_of_offer (fun i => storedOffer?_put_offer _ _ i _ _) ?_)
      · exact ((hb.listing key l stored).recount (n + 1)).mono since core BEq.rfl
      · refine ⟨⟨t, terms, Offer.escrowed_of_published pending deposit⟩, new, ?_, ?_⟩
        · exact (listing?_put_listing _ _ _ _ _).trans (if_pos (listing ▸ BEq.rfl))
        · intro ha
          cases pending.symm.trans ha
  | @lend config config' key l old new n start h id o t sound stored published count core
      stands began fresh listing accepted terms deposit =>
      refine hb.of_since since sound rfl (hb.index.add fresh)
        (sound_of_listing (fun k => listing?_put_listing _ _ k _ _) ?_)
        (sound_of_offer (fun i => storedOffer?_put_offer _ _ i _ _) ?_)
      · exact Listing.sound_of_started core (height.trans stands) began
          (storedOffer?_put_self ..) accepted listing
      · have settled : o.state ≠ .published := by rw [accepted]; decide
        refine ⟨⟨t, terms, Offer.escrowed_of_settled settled deposit⟩, new, ?_, ?_⟩
        · exact (listing?_put_listing _ _ _ _ _).trans (if_pos (listing ▸ BEq.rfl))
        · intro _
          exact ⟨id, congrArg Listing.Core.activeOffer core, BEq.rfl⟩
  | @accept key l old new start h id o stored published core stands began offer listing
      pending =>
      obtain ⟨n, hn⟩ := (hb.listing key l stored).count
      obtain ⟨t, terms, -⟩ := (hb.offer id o offer).escrow
      refine hb.of_since since hb.config hb.misfit (hb.index.replace offer BEq.rfl BEq.rfl)
        (sound_of_listing (fun k => listing?_put_listing _ _ k _ _) ?_)
        (sound_of_offer (fun i => storedOffer?_put_offer _ _ i _ _) ?_)
      · exact Listing.sound_of_started (hn ▸ core) (height.trans stands) began
          (storedOffer?_put_self ..) rfl listing
      · refine ⟨⟨t, terms, Offer.escrowed_of_settled (by simp) rfl⟩, new, ?_, ?_⟩
        · exact (listing?_put_listing _ _ _ _ _).trans (if_pos (listing ▸ BEq.rfl))
        · intro _
          exact ⟨id, congrArg Listing.Core.activeOffer core, BEq.rfl⟩
  | @settle id o t d s offer moves open' terms escrow =>
      obtain ⟨l, hl, -⟩ := (hb.offer id o offer).listed
      refine hb.of_since since hb.config hb.misfit (hb.index.replace offer BEq.rfl BEq.rfl)
        (fun key l hl => .inr ⟨l, hl, rfl⟩)
        (sound_of_offer (fun i => storedOffer?_put_offer _ _ i _ _) ?_)
      exact ⟨⟨t, terms, escrow⟩, l, hl, fun ha => absurd ha open'⟩
  | configure sound =>
      exact hb.of_since since sound rfl hb.index (fun key l hl => .inr ⟨l, hl, rfl⟩)
        fun _ _ ho => .inr ho

end Book
end Pawnbook
