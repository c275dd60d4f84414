import Pawnbook.Proofs.Lateness

/-! # Who can change a record

Who may call for a change is checked when a transaction is computed, and the change is made when it
is applied. In between the contract can get another owner, and other transactions can be applied,
the same one among them. `Book.Entitles` says what an applied transaction of a sender may have
changed, in terms of the records that are stored at the time of its application: the sender's own
records; another's listing by counting an offer on it, by starting its loan at the terms that its
borrower has put on it, or by closing its loan as overdue; an offer that the sender made or was
made; and the configuration as its owner or its proposed owner.

Every plan is entitled to what it changes on a later book that it fits (`Book.entitles_of_plan`),
since the records that it was computed against agree with those that are stored. Records that
others have written in the meantime can differ in how a number is written, so what is said of them
is said up to agreement. -/

namespace Pawnbook

/-! ### The same edit of agreeing records -/

theorem Config.agrees_reown {c d : Config} (h : c.agrees d = .ok true) (o : Ownership) :
    { c with ownership := o }.agrees { d with ownership := o } = .ok true := by
  obtain ⟨name, -, distributor, rate, last⟩ := agrees_iff.1 h
  have same : o.agrees o = true := by simp [Ownership.agrees, Value.optionsAgree_refl]
  exact agrees_iff.2 ⟨name, same, distributor, rate, last⟩

/-- Listings go on agreeing when the same is entered in both. -/
theorem Listing.agrees_edit {l m : Listing} (h : l.agrees m = true) (s : LoanState) (v : Value)
    (k : Option Key) (start : Option Value) :
    { l with state := s, offerCount := v, activeOffer := k, startBlock := start }.agrees
      { m with state := s, offerCount := v, activeOffer := k, startBlock := start } = true := by
  have active := Value.optionsAgree_refl (fun _ => BEq.rfl) k
  have began := Value.optionsAgree_refl Value.same_refl start
  exact agrees_iff.2 { agrees_iff.1 h with
    state := rfl, offerCount := v.same_refl, activeOffer := active, startBlock := began }

section listings
variable {l m : Listing}

theorem Listing.agrees_recount (h : l.agrees m = true) (core : l.core = m.core) (v : Value) :
    { l with offerCount := v }.agrees { m with offerCount := v } = true := by
  simp only [Listing.core, Core.mk.injEq] at core
  obtain ⟨-, state, -, active, start⟩ := core
  have edited := agrees_edit h l.state v l.activeOffer l.startBlock
  rwa [← state, ← active, ← start]

theorem Listing.agrees_restate (h : l.agrees m = true) (core : l.core = m.core) (s : LoanState) :
    { l with state := s }.agrees { m with state := s } = true := by
  simp only [Listing.core, Core.mk.injEq] at core
  obtain ⟨-, -, count, active, start⟩ := core
  have edited := agrees_edit h s l.offerCount l.activeOffer l.startBlock
  rwa [← count, ← active, ← start]

end listings

/-! ### What a sender may change -/

namespace Book

/-- What a listing on the book `b` may become by an action of a sender that leaves the book `b'`:
anything, if it is the sender's own; the same listing with one more offer counted, and with its loan
started at the terms that it had; and the same listing in default, if the sender lent. -/
inductive GrantsListing (b b' : Book) (sender : Key) (key : ListingKey) : Action → Listing → Prop
  | own {a : Action} {l' : Listing} (mine : (key.borrower == sender) = true) :
      GrantsListing b b' sender key a l'
  | counted {terms : Option Terms} {comment : Option Value} {l l' : Listing} {n : Int}
      (stored : b.listing? key = some l) (count : l.offerCount = .int n)
      (same : { l with offerCount := .int (n + 1) }.agrees l' = true) :
      GrantsListing b b' sender key (.makeOffer key terms comment) l'
  | begun {comment : Option Value} {l l' : Listing} {n : Int} {height : Number} {id : Key}
      {o : Offer} {proposed terms : Terms} (stored : b.listing? key = some l)
      (published : l.state = .published) (count : l.offerCount = .int n)
      (same : (Listing.begun { l with offerCount := .int (n + 1) } height id).agrees l' = true)
      (offer : b'.storedOffer? id = some o) (accepted : o.state = .accepted)
      (own : l.terms = some proposed) (agreed : o.terms = some terms)
      (atTerms : proposed.agrees terms = true) :
      GrantsListing b b' sender key (.acceptLoan key comment) l'
  | defaulted {l l' : Listing} {id : Key} {o : Offer} (stored : b.listing? key = some l)
      (started : l.state = .started) (active : l.activeOffer = some id)
      (offer : b.storedOffer? id = some o) (mine : (o.lender == sender) = true)
      (same : { l with state := .defaulted }.agrees l' = true) :
      GrantsListing b b' sender key (.claimDefault key) l'

/-- What an offer on a book may become by an action of a sender: a new one of the sender's; one that
the sender made, cancelled or with the deposit taken back after it was refused; and one that the
sender was made, accepted or refused. -/
inductive GrantsOffer (b : Book) (sender id : Key) : Offer → Prop
  | made {o : Offer} (fresh : b.storedOffer? id = none) (mine : (o.lender == sender) = true) :
      GrantsOffer b sender id o
  | cancelled {o : Offer} (offer : b.storedOffer? id = some o)
      (mine : (o.lender == sender) = true) :
      GrantsOffer b sender id { o with deposit := none, state := .cancelled }
  | recovered {o : Offer} (offer : b.storedOffer? id = some o)
      (mine : (o.lender == sender) = true)
      (refused : o.stateIf (b.closes o.listing) = .refused) :
      GrantsOffer b sender id { o with deposit := none, state := .refused }
  | accepted {o : Offer} (offer : b.storedOffer? id = some o)
      (mine : (o.borrower == sender) = true) :
      GrantsOffer b sender id { o with deposit := none, state := .accepted }
  | refused {o : Offer} (offer : b.storedOffer? id = some o)
      (mine : (o.borrower == sender) = true) :
      GrantsOffer b sender id { o with state := .refused }

/-- What the configuration of a book may become by an action of a sender: the same with one more
offer counted; anything, if the sender is the owner; and the same with the sender as its owner and
nobody proposed, if the sender was. -/
inductive GrantsConfig (b : Book) (sender : Key) (a : Action) : Config → Prop
  | counted {c : Config} {n : Int} (offers : a.offers = true)
      (count : b.config.lastOffer = .int n)
      (same : { b.config with lastOffer := .int (n + 1) }.agrees c = .ok true) :
      GrantsConfig b sender a c
  | owner {c : Config} (owns : (b.config.ownership.owner == sender) = true) :
      GrantsConfig b sender a c
  | claimed {c : Config} (proposed : b.config.ownership.proposed.any (· == sender) = true)
      (same : { b.config with ownership := { owner := sender } }.agrees c = .ok true) :
      GrantsConfig b sender a c

/-- An action of a sender that makes one book of another changes no record but those that it may
change, in the way in which it may. -/
structure Entitles (b b' : Book) (sender : Key) (a : Action) : Prop where
  listings : ∀ k, b'.listings.get? k = b.listings.get? k ∨
    ∃ key l', (key.toKey == k) = true ∧ b'.listings.get? k = some (.listing l') ∧
      b.GrantsListing b' sender key a l'
  offers : ∀ id, b'.storedOffer? id = b.storedOffer? id ∨
    ∃ id' o', (id' == id) = true ∧ b'.storedOffer? id = some o' ∧ b.GrantsOffer sender id' o'
  borrowers : ∀ k, b'.borrowers.get? k = b.borrowers.get? k ∨ (k == sender) = true
  config : b'.config = b.config ∨ b.GrantsConfig sender a b'.config
  misfit : b'.misfit = none

/-! ### What a plan changes -/

section plans
variable {b₀ b b' : Book} {e : Envelope} {a : Action} {cs : List Change} {ss : List BankSend}
  {ms : List Message} {as : Attributes}

theorem grants_listing {sender : Key} {key : ListingKey} {l' : Listing}
    (h : b'.listings = b.listings.insert key (.listing l'))
    (grants : b.GrantsListing b' sender key a l') (k : Key) :
    b'.listings.get? k = b.listings.get? k ∨
      ∃ key l', (key.toKey == k) = true ∧ b'.listings.get? k = some (.listing l') ∧
        b.GrantsListing b' sender key a l' := by
  rw [h, Table.get?_insert]
  split
  · rename_i hk
    exact .inr ⟨key, l', hk, rfl, grants⟩
  · exact .inl rfl

theorem grants_offer {sender id : Key} {b₁ : Book} {old : Option Offer} {o' : Offer}
    (h : b'.offers = (b₁.put (.offer id old o')).offers) (kept : b₁.offers = b.offers)
    (grants : b.GrantsOffer sender id o') (i : Key) :
    b'.storedOffer? i = b.storedOffer? i ∨
      ∃ id o', (id == i) = true ∧ b'.storedOffer? i = some o' ∧ b.GrantsOffer sender id o' := by
  have stored : b'.storedOffer? i = if id == i then some o' else b₁.storedOffer? i := by
    rw [← storedOffer?_put_offer b₁ id i old o', storedOffer?, h, storedOffer?]
  rw [stored]
  split
  · rename_i hi
    exact .inr ⟨id, o', hi, rfl, grants⟩
  · exact .inl (congrArg (·.get? i) kept)

theorem unchanged {t t' : Table Key Stored} (h : t' = t) {p : Key → Prop} (k : Key) :
    t'.get? k = t.get? k ∨ p k := .inl (by rw [h])

theorem unoffered (h : b'.offers = b.offers) {p : Key → Prop} (i : Key) :
    b'.storedOffer? i = b.storedOffer? i ∨ p i := .inl (by rw [storedOffer?, h, storedOffer?])

/-- A later book that a plan fits is changed only as the sender may change it. -/
theorem entitles_of_plan (plan : Action.Plan b₀ e a cs ss ms as) (order : b₀.Precedes b)
    (fits : ∀ c ∈ cs, b.Fits c) (left : (b.putAll cs).Alike b')
    (borrowers : b'.borrowers = (b.putAll cs).borrowers) : b.Entitles b' e.sender a := by
  obtain ⟨config, misfit, -, -, listings, offers⟩ := left
  have sender : ((e.sender : Key) == e.sender) = true := BEq.rfl
  cases plan with
  | @deposit assets terms comment preview id filled shown next =>
      refine ⟨grants_listing listings (.own sender), unoffered offers, ?_, .inl config,
        misfit.trans order.after.misfit⟩
      intro k
      have entered : b'.borrowers = b.borrowers.insert e.sender (.borrower ⟨id⟩) := borrowers
      rw [entered, Table.get?_insert]
      split
      · rename_i hk
        exact .inr (BEq.symm hk)
      · exact .inl rfl
  | modify | withdraw | repay =>
      exact ⟨grants_listing listings (.own sender), unoffered offers,
        unchanged borrowers, .inl config, misfit.trans order.after.misfit⟩
  | makeOffer present published funds next counted =>
      rw [List.forall_mem_cons, List.forall_mem_cons, List.forall_mem_singleton] at fits
      obtain ⟨l, n, kept, core, agrees, count, rfl⟩ :=
        order.since.counted order.before order.after present counted fits.2.1
      obtain ⟨m, last, rfl, same⟩ := fits.1.recounted order.after order.before.config next
      exact ⟨grants_listing listings (.counted kept count (Listing.agrees_recount agrees core _)),
        grants_offer offers rfl (.made fits.2.2.newOffer sender),
        unchanged borrowers, .inr (config ▸ .counted rfl last same), misfit⟩
  | @acceptLoan key comment l₀ proposed last₀ count₀ ss ps ts present published own funds next
      counted =>
      rw [List.forall_mem_cons, List.forall_mem_cons, List.forall_mem_singleton] at fits
      obtain ⟨l, n, kept, core, agrees, count, rfl⟩ :=
        order.since.counted order.before order.after present counted fits.2.1
      obtain ⟨m, last, rfl, same⟩ := fits.1.recounted order.after order.before.config next
      have state : l.state = l₀.state := congrArg Listing.Core.state core
      have agreed := (Listing.agrees_iff.1 agrees).terms
      rw [own] at agreed
      obtain ⟨terms, ownNow, atTerms⟩ := Value.optionsAgree_some agreed
      have made : b'.storedOffer? (.text (Value.int (m + 1)).label) = some
          { e.offer b₀.time key proposed (.int (n + 1)) comment with
            state := .accepted, deposit := none } := by
        rw [storedOffer?, offers]
        exact storedOffer?_put_self ..
      have begun := Listing.agrees_edit agrees .started (.int (n + 1))
        (some (.text (Value.int (m + 1)).label)) (some (.ofNumber b₀.height))
      exact ⟨grants_listing listings
          (.begun kept (state.trans published) count begun made rfl ownNow rfl atTerms),
        grants_offer offers rfl (.made fits.2.2.newOffer sender),
        unchanged borrowers, .inr (config ▸ .counted rfl last same), misfit⟩
  | acceptOffer offer mine =>
      rw [List.forall_mem_cons, List.forall_mem_singleton] at fits
      have offer' := order.since.offer_of_fits order.before offer fits.2
      exact ⟨grants_listing listings (.own mine), grants_offer offers rfl (.accepted offer' mine),
        unchanged borrowers, .inl config, misfit.trans order.after.misfit⟩
  | cancel offer mine =>
      have offer' := order.since.offer_of_fits order.before offer (fits _ List.mem_cons_self)
      exact ⟨unchanged listings, grants_offer offers rfl (.cancelled offer' mine),
        unchanged borrowers, .inl config, misfit.trans order.after.misfit⟩
  | refuse offer mine =>
      have offer' := order.since.offer_of_fits order.before offer (fits _ List.mem_cons_self)
      exact ⟨unchanged listings, grants_offer offers rfl (.refused offer' mine),
        unchanged borrowers, .inl config, misfit.trans order.after.misfit⟩
  | recover offer mine refused =>
      have offer' := order.since.offer_of_fits order.before offer (fits _ List.mem_cons_self)
      exact ⟨unchanged listings,
        grants_offer offers rfl (.recovered offer' mine (order.refused offer refused)),
        unchanged borrowers, .inl config, misfit.trans order.after.misfit⟩
  | @claim key l₀ id o₀ ts present started active offer mine =>
      rw [List.forall_mem_singleton] at fits
      obtain ⟨l, kept, core, agrees⟩ := order.listing present fits
      obtain ⟨-, o, -, offer', -, lender, -, -⟩ := order.read offer
      have state : l.state = l₀.state := congrArg Listing.Core.state core
      have active' : l.activeOffer = l₀.activeOffer := congrArg Listing.Core.activeOffer core
      have grants : b.GrantsListing b' e.sender key (.claimDefault key)
          { l₀ with state := .defaulted } :=
        .defaulted (listing?_of_get? kept) (state.trans started) (active'.trans active) offer'
          (lender ▸ mine) (Listing.agrees_restate agrees core _)
      exact ⟨grants_listing listings grants, unoffered offers,
        unchanged borrowers, .inl config, misfit.trans order.after.misfit⟩
  | @configure a c as made =>
      rw [List.forall_mem_singleton] at fits
      have agrees := fits.config_agrees order.after.misfit
      have ownership := (Config.agrees_iff.1 agrees).2.1
      simp only [Ownership.agrees, Bool.and_eq_true] at ownership
      obtain ⟨owner, proposed⟩ := ownership
      have grants : b.GrantsConfig e.sender a c := by
        cases made with
        | owner owns | distributor owns | rate owns => exact .owner (BEq.trans owner owns)
        | claim mine =>
            obtain ⟨k, hk, same⟩ := (Option.any_eq_true _ _).1 mine
            rw [hk] at proposed
            obtain ⟨k', hk', agree⟩ := Value.optionsAgree_some proposed
            exact .claimed ((Option.any_eq_true _ _).2 ⟨k', hk', BEq.trans agree same⟩)
              (Config.agrees_reown agrees _)
      exact ⟨unchanged listings, unoffered offers,
        unchanged borrowers, .inr (config ▸ grants), misfit⟩

end plans
end Book

/-! ### Over a run -/

theorem Action.Plan.name_eq {b₀ b : Book} {e : Envelope} {a : Action} {cs : List Change}
    {ss : List BankSend} {ms : List Message} {as : Attributes} (plan : Plan b₀ e a cs ss ms as) :
    (b.putAll cs).config.name = b.config.name ∨ (b.putAll cs).config.name = b₀.config.name := by
  cases plan with
  | deposit | modify | withdraw | acceptOffer | cancel | refuse | recover | repay | claim =>
      exact .inl rfl
  | makeOffer | acceptLoan => exact .inr rfl
  | configure made => cases made <;> exact .inr rfl

theorem Reaches.name_eq {P : Book → Move → Prop} {s₀ s : Session} (run : Reaches P s₀ s)
    (fresh : s₀.IsFresh) : s.book.config.name = s₀.book.config.name := by
  refine (run.enrich (I := fun b => b.config.name = s₀.book.config.name) fresh rfl ?_).2
  intro b m b' coherent allowed named moved
  cases moved with
  | still | number | advance | fund | mint | transfer => exact named
  | @post place p b₀ e a ss as source =>
      rw [(b.alike_posted p).config]
      rcases source.computed.plan.name_eq (b := b) with same | same
      · exact same.trans named
      · exact same.trans source.allowed.2

/-- After every run of a new contract its name is the same and its fee rate a rate; and whatever was
computed then and is applied later, once or again, changes only the records that its sender may
change. -/
theorem records_entitled {P : Book → Move → Prop} {s₀ s₁ : Session} (fresh : s₀.IsFresh)
    (run : Reaches P s₀ s₁) :
    (s₁.book.config.name = s₀.book.config.name ∧ s₁.book.config.feeRate.IsRate) ∧
      ∀ (e : Envelope) (a : Action) (p : Pending) (s : Session),
        s₁.book.transact e a = .ok p → Reaches P s₁ s →
        (s.book.execute p).answer = .ok .applied →
        s.book.Entitles (s.book.execute p).book e.sender a := by
  refine ⟨⟨run.name_eq fresh, (run.sound fresh).book.config.rate⟩, ?_⟩
  intro e a p s sent later applied
  obtain ⟨ss, as, computed, order, fits, -, posted⟩ :=
    run.posted_later fresh sent later applied
  rw [posted]
  have borrowers : (s.book.posted p).borrowers = (s.book.putAll p.changes).borrowers := by
    rw [Book.posted_eq]
  exact Book.entitles_of_plan computed.plan order fits (s.book.alike_posted p) borrowers

/-- Carol takes Alice's terms three blocks after she asked for it. -/
theorem records_entitled_courted : ∃ p,
    Session.courted.book.transact Session.funding (.acceptLoan ⟨"alice", .int 0⟩ none) = .ok p ∧
    ((Session.courted.run [.advance 3 (.whole 5)]).book.execute p).answer = .ok .applied ∧
    (Session.courted.run [.advance 3 (.whole 5)]).book.Entitles
      ((Session.courted.run [.advance 3 (.whole 5)]).book.execute p).book "carol"
      (.acceptLoan ⟨"alice", .int 0⟩ none) := by
  have run : Reaches (fun _ _ => True) Session.opening Session.courted :=
    Reaches.start.run (by decide +kernel)
  have later : Reaches (fun _ _ => True) Session.courted
      (Session.courted.run [.advance 3 (.whole 5)]) := Reaches.start.run (by decide +kernel)
  have taken : ∃ p ∈ (Session.courted.book.transact Session.funding
        (.acceptLoan ⟨"alice", .int 0⟩ none)).toOption,
      ((Session.courted.run [.advance 3 (.whole 5)]).book.execute p).answer.toOption =
        some .applied := by decide +kernel
  obtain ⟨p, sent, applied⟩ := taken
  have sent := toOption_eq_some_iff.1 sent
  have applied := toOption_eq_some_iff.1 applied
  exact ⟨p, sent, applied,
    (records_entitled Session.isFresh_opening run).2 _ _ p _ sent later applied⟩

end Pawnbook
