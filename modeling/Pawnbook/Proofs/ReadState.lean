import Pawnbook.Proofs.AuditTrail
import Pawnbook.Proofs.Paging
import Pawnbook.Proofs.Recognition

/-! # The states in which offers read

An offer is read in its effective state, which is made from two records: the offer as it is stored,
and its listing. Both move on by themselves. Where every transaction is carried out as soon as it
is computed (`Book.Served`), an offer on a listing that is closed is at most refused
(`Action.Plan.refuses`), and so the state in which it reads is settled once it is no longer
`published` (`Proceeds.read`). The pages of offers read the same states (`Book.Reports`), and the
withdrawal of a refused escrow, which writes what was read, changes none of them
(`Book.ReadsAlike`). -/

namespace Pawnbook

/-! ### Messages that are carried out at once -/

/-- The books that come of a book by messages, whose transactions are computed and carried out at
once, and by moving the chain on. -/
inductive Book.Served (b₀ : Book) : Book → Prop
  | start : Served b₀ b₀
  | message {b : Book} (run : Served b₀ b) (sender : String) (funds : Option (List Tender))
      (a : Action) : Served b₀ (b.message sender funds a).book
  | advance {b : Book} (run : Served b₀ b) (blocks : Int) (seconds : Number) :
      Served b₀ (b.advance (.whole blocks) seconds).book

theorem Book.message_book (b : Book) (sender : String) (funds : Option (List Tender)) (a : Action) :
    (b.message sender funds a).book = b ∨ ∃ e p, b.transact e a = .ok p ∧
      (b.message sender funds a).book = (b.execute p).book := by
  unfold message
  split
  · rename_i e _
    unfold handle
    split
    · rename_i p sent
      exact .inr ⟨e, p, sent, rfl⟩
    · exact .inl rfl
  · exact .inl rfl

/-- What comes of the book of a session is the book of a session that can be reached from it. -/
theorem Book.Served.exists_session {s₀ : Session} {b : Book} (run : s₀.book.Served b) :
    ∃ s, Reaches (fun _ _ => True) s₀ s ∧ s.book = b := by
  induction run with
  | start => exact ⟨s₀, .start, rfl⟩
  | message run sender funds a ih =>
      obtain ⟨s, reached, rfl⟩ := ih
      rcases s.book.message_book sender funds a with same | ⟨e, p, sent, executed⟩
      · exact ⟨s, reached, same.symm⟩
      · refine ⟨s.called e a, .step _ (.step _ reached trivial) trivial, ?_⟩
        rw [Session.called_eq sent, executed]
  | advance run blocks seconds ih =>
      obtain ⟨s, reached, rfl⟩ := ih
      exact ⟨s.after (.advance blocks seconds), .step _ reached trivial, rfl⟩

/-! ### What is settled -/

section plans
variable {b : Book} {e : Envelope} {a : Action} {cs : List Change} {ss : List BankSend}
  {ms : List Message} {as : Attributes}

/-- Transactions for a book that they are computed on leave an offer on a closed listing as it is,
or refuse it. -/
theorem Action.Plan.refuses (plan : Plan b e a cs ss ms as) (fits : ∀ c ∈ cs, b.Fits c) {id : Key}
    {o : Offer} (offer : b.storedOffer? id = some o) (pending : o.state = .published)
    (closed : b.closes o.listing = true) :
    ∃ o', (b.putAll cs).storedOffer? id = some o' ∧
      (o'.state = .published ∨ o'.state = .refused) := by
  have kept : ∃ o', b.storedOffer? id = some o' ∧ (o'.state = .published ∨ o'.state = .refused) :=
    ⟨o, offer, .inl pending⟩
  have written : ∀ {b₁ : Book} {id' : Key} {old : Option Offer} {new : Offer},
      (∀ i, b₁.storedOffer? i = b.storedOffer? i) → ((id' == id) = true → new.state = .refused) →
      ∃ o', (b₁.put (.offer id' old new)).storedOffer? id = some o' ∧
        (o'.state = .published ∨ o'.state = .refused) := by
    intro b₁ id' old new same refused
    rw [Book.storedOffer?_put_offer, same]
    split
    · rename_i hit
      exact ⟨new, rfl, .inr (refused hit)⟩
    · exact kept
  -- the offers that are accepted, cancelled and refused are on open listings
  have spared : ∀ {id' : Key} {o₁ : Offer} {l : Listing}, b.storedOffer? id' = some o₁ →
      b.listings.get? o₁.listing = some (.listing l) → l.state = .published →
      ¬(id' == id) = true := by
    intro id' o₁ l offer' stored opened hit
    rw [b.storedOffer?_congr hit, offer] at offer'
    cases offer'
    rw [(Book.closes_eq_false_iff stored).2 opened] at closed
    cases closed
  have fresh : ∀ {id' : Key}, b.storedOffer? id' = none → ¬(id' == id) = true := by
    intro id' unknown hit
    rw [b.storedOffer?_congr hit, offer] at unknown
    cases unknown
  cases plan with
  | deposit | modify | withdraw | repay | claim | configure => exact kept
  | makeOffer | acceptLoan =>
      rw [List.forall_mem_cons, List.forall_mem_cons, List.forall_mem_singleton] at fits
      exact written (fun i => rfl) fun hit => absurd hit (fresh fits.2.2.newOffer)
  | acceptOffer offer' mine stored opened | refuse offer' mine stored opened =>
      exact written (fun i => rfl) fun hit => absurd hit (spared offer' stored opened)
  | cancel offer' mine pending' stored opened =>
      exact written (fun i => rfl) fun hit => absurd hit (spared offer' stored opened)
  | recover => exact written (fun i => rfl) fun _ => rfl

/-- From one book to the next, every record takes at most one step, and an offer on a closed listing
is at most refused. -/
structure Book.Proceeds (b b' : Book) : Prop where
  coherent : b'.Coherent
  follows : b.Follows b'
  refuses : ∀ {id o}, b.storedOffer? id = some o → o.state = .published →
    b.closes o.listing = true →
    ∃ o', b'.storedOffer? id = some o' ∧ (o'.state = .published ∨ o'.state = .refused)

theorem Book.Coherent.proceeds_self (hb : b.Coherent) : b.Proceeds b :=
  ⟨hb, .refl b, fun offer pending _ => ⟨_, offer, .inl pending⟩⟩

theorem Computed.proceeds {p : Pending} (computed : Computed b e a p ss as) (hb : b.Coherent) :
    b.Proceeds (b.execute p).book := by
  rcases computed.execute hb (.refl b) hb with
    same | ⟨⟨f, id⟩, numbered⟩ | ⟨id, fits, posting, honoured, covered, posted⟩
  · rw [same]
    exact hb.proceeds_self
  · have moved : b.Moved (fun _ _ => True) (.execute 0) b.numbered := .number id
    rw [numbered]
    exact ⟨moved.coherent hb, moved.follows hb, fun offer pending _ => ⟨_, offer, .inl pending⟩⟩
  · have moved : b.Moved (fun _ _ => True) (.execute 0) (b.posted p) :=
      .post ⟨trivial, hb, .refl b, computed⟩ posting honoured covered fits id
    rw [posted]
    refine ⟨moved.coherent hb, moved.follows hb, fun {id o} offer pending closed => ?_⟩
    rw [Book.storedOffer?_posted]
    exact computed.plan.refuses (Book.fits_of_changesRefusal? fits) offer pending closed

theorem Book.Coherent.proceeds_message (hb : b.Coherent) (sender : String)
    (funds : Option (List Tender)) (a : Action) : b.Proceeds (b.message sender funds a).book := by
  rcases b.message_book sender funds a with same | ⟨e, p, sent, executed⟩
  · rw [same]
    exact hb.proceeds_self
  · obtain ⟨ss, as, computed⟩ := transact_plan sent
    rw [executed]
    exact computed.proceeds hb

theorem Book.Coherent.proceeds_advance (hb : b.Coherent) (blocks : Int) (seconds : Number) :
    b.Proceeds (b.advance (.whole blocks) seconds).book := by
  obtain ⟨height, stands⟩ := hb.height
  have moved := Book.advance_moved (P := fun _ _ => True) stands blocks seconds
  have kept : ∀ {b'}, b.Moved (fun _ _ => True) (.advance blocks seconds) b' →
      b'.offers = b.offers := by
    intro b' h
    cases h <;> rfl
  refine ⟨moved.coherent hb, moved.follows hb, fun {id o} offer pending _ => ⟨o, ?_, .inl pending⟩⟩
  rw [Book.storedOffer?, kept moved]
  exact offer

end plans

section reading
variable {b b' : Book} {id : Key} {o : Offer}

theorem Book.Follows.closes (h : b.Follows b') (hb : b.Coherent)
    (offer : b.storedOffer? id = some o) (closed : b.closes o.listing = true) :
    b'.closes o.listing = true := by
  obtain ⟨l, stored⟩ := hb.listed offer
  exact (h.closed ((Book.closed_iff stored).2 closed)).closes

/-- An offer that was read can be read in the next book, in the same state unless it was read as
`published`. -/
theorem Book.Proceeds.read (h : b.Proceeds b') (hb : b.Coherent)
    (read : b.requireOffer id = .ok o) :
    ∃ o', b'.requireOffer id = .ok o' ∧ (o.state ≠ .published → o'.state = o.state) := by
  obtain ⟨old, offer, rfl⟩ := Book.requireOffer_ok read
  obtain ⟨new, offer', follows⟩ := h.follows.offer id old offer
  refine ⟨_, Book.requireOffer_of_stored offer', fun decided => ?_⟩
  have decided : old.stateIf (b.closes old.listing) ≠ .published := decided
  show new.stateIf (b'.closes new.listing) = old.stateIf (b.closes old.listing)
  rw [follows.extends.listing]
  by_cases pending : old.state = .published
  · cases closed : b.closes old.listing with
    | false =>
        rw [closed] at decided
        exact absurd pending decided
    | true =>
        rw [h.follows.closes hb offer closed]
        obtain ⟨new', hnew, state⟩ := h.refuses offer pending closed
        cases offer'.symm.trans hnew
        rcases state with state | state <;> simp [Offer.stateIf, pending, state]
  · have same := follows.extends.settled pending
    simp [Offer.stateIf, same, pending]

end reading

namespace Book.Served
variable {b b' : Book}

theorem invariant {I : Book → Prop} (later : b.Served b') (hb : b.Coherent) (start : I b)
    (step : ∀ {c c'}, c.Coherent → c.Proceeds c' → I c → I c') : b'.Coherent ∧ I b' := by
  induction later with
  | start => exact ⟨hb, start⟩
  | message later sender funds a ih =>
      have proceeds := ih.1.proceeds_message sender funds a
      exact ⟨proceeds.coherent, step ih.1 proceeds ih.2⟩
  | advance later blocks seconds ih =>
      have proceeds := ih.1.proceeds_advance blocks seconds
      exact ⟨proceeds.coherent, step ih.1 proceeds ih.2⟩

/-- Once an offer reads as decided it does so forever, in the same state. -/
theorem read (later : b.Served b') (hb : b.Coherent) {id : Key} {o : Offer}
    (read : b.requireOffer id = .ok o) :
    ∃ o', b'.requireOffer id = .ok o' ∧ (o.state ≠ .published → o'.state = o.state) := by
  refine (later.invariant (I := fun c => ∃ o', c.requireOffer id = .ok o' ∧
    (o.state ≠ .published → o'.state = o.state)) hb ⟨o, read, fun _ => rfl⟩ ?_).2
  rintro c c' hc proceeds ⟨o', read', kept⟩
  obtain ⟨o'', read'', kept'⟩ := proceeds.read hc read'
  refine ⟨o'', read'', fun decided => ?_⟩
  have same := kept decided
  rw [← same] at decided
  exact (kept' decided).trans same

end Book.Served

/-! ### What the pages report -/

/-- The pages of offers report what is read under the ids, and an offer reads as `published` as long
as it is stored so and its listing is. -/
structure Book.Reports (b : Book) : Prop where
  published : ∀ id o, b.storedOffer? id = some o → ∃ l, b.listing? o.listing = some l ∧
    ((b.requireOffer id).map (·.state) = .ok .published ↔
      o.state = .published ∧ l.state = .published)
  offers : ∀ borrower id cursor limit page, b.queryOffers borrower id cursor limit = .ok page →
    ∀ e ∈ page.items, b.requireOffer e.1 = .ok e.2
  lenderOffers : ∀ lender cursor limit page, b.queryLenderOffers lender cursor limit = .ok page →
    ∀ e ∈ page.items, b.requireOffer e.1 = .ok e.2
  /-- Every offer is on a page of its listing and on one of its lender. -/
  reported : ∀ id o limit, b.requireOffer id = .ok o → Page.Fair limit →
    ∃ k, (k == id) = true ∧
      (∃ cursor page, b.queryOffers o.borrower o.loanId cursor limit = .ok page ∧
        (k, o) ∈ page.items) ∧
      ∃ cursor page, b.queryLenderOffers o.lender cursor limit = .ok page ∧ (k, o) ∈ page.items

section reports
variable {b : Book} {id : Key} {o : Offer}

theorem Book.mem_offerPage {ids : List Key} {cursor : Option Key} {limit : Option Number}
    {page : Page (Key × Offer) Key} (h : b.offerPage ids cursor limit = .ok page) {e : Key × Offer}
    (he : e ∈ page.items) : b.requireOffer e.1 = .ok e.2 := by
  obtain ⟨numbered, -, h⟩ := bind_ok h
  obtain ⟨number, -, h⟩ := bind_ok h
  obtain ⟨items, entries, h⟩ := bind_ok h
  cases h
  obtain ⟨id, -, entry⟩ := mem_of_mapM_ok entries e he
  obtain ⟨o, read, entry⟩ := bind_ok entry
  cases entry
  exact read

theorem Book.Coherent.reads_published (hb : b.Coherent) (offer : b.storedOffer? id = some o) :
    ∃ l, b.listing? o.listing = some l ∧
      ((b.requireOffer id).map (·.state) = .ok .published ↔
        o.state = .published ∧ l.state = .published) := by
  obtain ⟨l, stored⟩ := hb.listed offer
  refine ⟨l, Book.listing?_of_get? stored, ?_⟩
  rw [Book.requireOffer_of_stored offer, ← Book.closes_eq_false_iff stored]
  show Except.ok (o.stateIf (b.closes o.listing)) = Except.ok .published ↔ _
  rw [Except.ok.injEq]
  cases b.closes o.listing with
  | false => simp
  | true => by_cases pending : o.state = .published <;> simp [Offer.stateIf, pending]

theorem Reaches.exists_page {P : Book → Move → Prop} {s₀ s : Session} (run : Reaches P s₀ s)
    (fresh : s₀.IsFresh)
    {ask : Book → Option Key → Option Number → Except Error (Page (Key × Offer) Key)}
    {p : Offer → Bool} (kept : ∀ {o o'}, o.Extends o' → p o' = p o)
    (asked : ∀ {b}, b.Coherent → ask b = b.offerPage (b.idsWhere p)) {n : Int} {stored : Offer}
    (offer : s.book.storedOffer? (.ofOffer n) = some stored) (picked : p stored = true)
    (read : s.book.requireOffer (.ofOffer n) = .ok o) {limit : Option Number}
    (fair : Page.Fair limit) :
    ∃ cursor page, ask s.book cursor limit = .ok page ∧ (.ofOffer n, o) ∈ page.items := by
  have catalogue := catalogue_offers fresh run kept asked
  obtain ⟨ks, members, descends, shows⟩ := catalogue.shows .start
  have mem := (members n).2 ⟨stored, offer, picked⟩
  obtain ⟨cursor, page, answer, ⟨k, o'⟩, he, same⟩ :=
    shows.exists_page catalogue.order descends mem fair
  have same : k = .ofOffer n := same
  subst same
  have answer : ask s.book cursor limit = .ok page := answer
  refine ⟨cursor, page, answer, ?_⟩
  rw [asked (run.sound fresh).book] at answer
  cases read.symm.trans (Book.mem_offerPage answer he)
  exact he

theorem Reaches.reports {P : Book → Move → Prop} {s₀ s : Session} (run : Reaches P s₀ s)
    (fresh : s₀.IsFresh) : s.book.Reports where
  published id o offer := (run.sound fresh).book.reads_published offer
  offers borrower id cursor limit page answer e he := Book.mem_offerPage answer he
  lenderOffers lender cursor limit page answer e he := Book.mem_offerPage answer he
  reported id o limit read fair := by
    obtain ⟨stored, offer, rfl⟩ := Book.requireOffer_ok read
    obtain ⟨n, last, -⟩ := (run.numbered fresh).offers
    obtain ⟨m, -, -, same⟩ := (run.numbered fresh).offers.exists_number last offer
    rw [← s.book.storedOffer?_congr same] at offer
    have read := Book.requireOffer_of_stored offer
    refine ⟨_, same, run.exists_page fresh (fun kept => ?_) (fun hb => hb.queryOffers_eq) offer
      BEq.rfl read fair, run.exists_page fresh (fun kept => ?_)
      (fun hb => hb.queryLenderOffers_eq) offer BEq.rfl read fair⟩
    · rw [kept.listing]
    · rw [kept.lender]

end reports

/-! ### The withdrawal of a refused escrow -/

section alike
variable {ε α β γ : Type}

theorem map_bind_congr {x : Except ε α} {f f' : α → Except ε β} {g : β → γ}
    (h : ∀ a, (f' a).map g = (f a).map g) : (x >>= f').map g = (x >>= f).map g := by
  cases x with
  | error e => rfl
  | ok a => exact h a

theorem map_mapM (f : α → Except ε β) (g : β → γ) : ∀ as : List α,
    (as.mapM f).map (List.map g) = as.mapM fun a => (f a).map g
  | [] => rfl
  | a :: as => by
      rw [List.mapM_cons, List.mapM_cons, ← map_mapM f g as]
      cases f a with
      | error e => rfl
      | ok b => cases as.mapM f <;> rfl

end alike

/-- A page of offers, with nothing but the states in which they read. -/
def Page.states (p : Page (Key × Offer) Key) : Page (Key × OfferState) Key where
  items := p.items.map fun e => (e.1, e.2.state)
  next := p.next

/-- All queries answer alike in two books, as far as the states of offers go. -/
structure Book.ReadsAlike (b b' : Book) : Prop where
  offer : ∀ id, (b'.requireOffer id).map (·.state) = (b.requireOffer id).map (·.state)
  offers : ∀ borrower id cursor limit,
    (b'.queryOffers borrower id cursor limit).map Page.states =
      (b.queryOffers borrower id cursor limit).map Page.states
  lenderOffers : ∀ lender cursor limit,
    (b'.queryLenderOffers lender cursor limit).map Page.states =
      (b.queryLenderOffers lender cursor limit).map Page.states

section alike
variable {b b' : Book}

theorem Book.states_offerPage
    (h : ∀ id, (b'.requireOffer id).map (·.state) = (b.requireOffer id).map (·.state))
    (ids : List Key) (cursor : Option Key) (limit : Option Number) :
    (b'.offerPage ids cursor limit).map Page.states =
      (b.offerPage ids cursor limit).map Page.states := by
  have entry : ∀ (c : Book) (id : Key),
      (do return (id, ← c.requireOffer id) : Except Error (Key × Offer)).map
        (fun e => (e.1, e.2.state)) = ((c.requireOffer id).map (·.state)).map (id, ·) := by
    intro c id
    cases c.requireOffer id <;> rfl
  have page : ∀ (next : Option Key) (x : Except Error (List (Key × Offer))),
      (do return { items := ← x, next } : Except Error (Page (Key × Offer) Key)).map Page.states =
        (x.map (List.map fun e => (e.1, e.2.state))).map fun items => { items, next } := by
    intro next x
    cases x <;> rfl
  refine map_bind_congr fun numbered => map_bind_congr fun cursor => ?_
  refine (page ..).trans (Eq.trans ?_ (page ..).symm)
  rw [map_mapM, map_mapM]
  simp only [entry, h]

theorem Book.ReadsAlike.of_offer (listings : b'.offers.listings = b.offers.listings)
    (lenders : b'.offers.lenders = b.offers.lenders)
    (h : ∀ id, (b'.requireOffer id).map (·.state) = (b.requireOffer id).map (·.state)) :
    b.ReadsAlike b' where
  offer := h
  offers borrower id cursor limit := by
    rw [queryOffers, queryOffers, OfferIndex.byListing, OfferIndex.byListing, listings]
    exact states_offerPage h ..
  lenderOffers lender cursor limit := by
    rw [queryLenderOffers, queryLenderOffers, OfferIndex.byLender, OfferIndex.byLender, lenders]
    exact states_offerPage h ..

section recovers
variable {e : Envelope} {id : Key} {p : Pending} {ss : List BankSend} {as : Attributes}

/-- A withdrawal of a refused escrow writes one offer, which read as refused, and writes it so. -/
theorem Computed.recovered (computed : Computed b e (.withdrawRefused id) p ss as) :
    ∃ o new, b.storedOffer? id = some o ∧ o.stateIf (b.closes o.listing) = .refused ∧
      p.changes = [.offer id (some o) new] ∧ new.state = .refused := by
  have plan := computed.plan
  generalize p.changes = cs, p.messages = ms at plan ⊢
  cases plan with
  | recover offer mine refused => exact ⟨_, _, offer, refused, rfl, rfl⟩
  | configure made => cases made

theorem Computed.readsAlike (computed : Computed b e (.withdrawRefused id) p ss as) :
    b.ReadsAlike (b.posted p) := by
  obtain ⟨o, new, offer, refused, changes, state⟩ := computed.recovered
  have offers : (b.posted p).offers = b.offers.replace id new := by
    rw [Book.offers_posted, changes]
    rfl
  have closes : (b.posted p).closes = b.closes := by
    rw [Book.posted_eq, changes]
    rfl
  refine .of_offer (by rw [offers]; rfl) (by rw [offers]; rfl) fun id' => ?_
  have written := b.storedOffer?_posted p id'
  rw [changes, Book.putAll_cons, Book.putAll_nil, Book.storedOffer?_put_offer] at written
  by_cases hit : (id == id') = true
  · rw [if_pos hit] at written
    rw [b.storedOffer?_congr hit] at offer
    rw [Book.requireOffer_of_stored written, Book.requireOffer_of_stored offer]
    show Except.ok (new.stateIf _) = Except.ok (o.stateIf _)
    rw [refused]
    simp [Offer.stateIf, state]
  · rw [if_neg hit] at written
    rw [Book.requireOffer, Book.requireOffer, Book.offer?, Book.offer?, written, closes]

/-- Whatever comes of a withdrawal, no query answers otherwise as far as states go. If it is
applied, the offer is stored as it read. -/
theorem Computed.recovers (computed : Computed b e (.withdrawRefused id) p ss as)
    (hb : b.Coherent) : b.ReadsAlike (b.execute p).book ∧ ((b.execute p).answer = .ok .applied →
      ∃ o, (b.execute p).book.storedOffer? id = some o ∧ o.state = .refused) := by
  constructor
  · rcases computed.execute hb (.refl b) hb with same | ⟨-, numbered⟩ | ⟨-, -, -, -, -, posted⟩
    · rw [same]
      exact ⟨fun _ => rfl, fun _ _ _ _ => rfl, fun _ _ _ => rfl⟩
    · rw [numbered]
      exact ⟨fun _ => rfl, fun _ _ _ _ => rfl, fun _ _ _ => rfl⟩
    · rw [posted]
      exact computed.readsAlike
  · intro applied
    obtain ⟨o, new, -, -, changes, state⟩ := computed.recovered
    obtain ⟨-, -, -, posted⟩ := computed.posted_of_applied hb (.refl b) hb applied
    refine ⟨new, ?_, state⟩
    rw [posted, Book.storedOffer?_posted, changes]
    exact b.storedOffer?_put_self ..

end recovers
end alike

/-- Where every transaction is carried out as soon as it is computed, what has been read as decided
stays decided, all queries report the same states, and a withdrawal of a refused escrow writes the
state that was read. -/
theorem reads_settle {s₀ : Session} {b b' : Book} (fresh : s₀.IsFresh) (run : s₀.book.Served b)
    (later : b.Served b') :
    (∀ id o, b.requireOffer id = .ok o →
      ∃ o', b'.requireOffer id = .ok o' ∧ (o.state ≠ .published → o'.state = o.state)) ∧
    b.Reports ∧
    ∀ e id p, b.transact e (.withdrawRefused id) = .ok p →
      b.ReadsAlike (b.execute p).book ∧ ((b.execute p).answer = .ok .applied →
        ∃ o, (b.execute p).book.storedOffer? id = some o ∧ o.state = .refused) := by
  obtain ⟨s, reached, rfl⟩ := run.exists_session
  have hb := (reached.sound fresh).book
  refine ⟨fun id o read => later.read hb read, reached.reports fresh, fun e id p sent => ?_⟩
  obtain ⟨ss, as, computed⟩ := transact_plan sent
  exact computed.recovers hb

namespace Session

/-- Alice lists her token, Bob makes her an offer, and Carol takes Alice's own terms. -/
def outbid : Book :=
  (((endowed.book.message "alice" none
      (.deposit [.nft cat] (some (.ofNat (stars 500) 50 10)) none none)).book.message "bob" none
      (.makeOffer ⟨"alice", .int 0⟩ (some (.ofNat (stars 1000) 120 100)) none)).book.message
      "carol" none (.acceptLoan ⟨"alice", .int 0⟩ none)).book

theorem served_outbid : endowed.book.Served outbid :=
  .message (.message (.message .start ..) ..) ..

end Session

/-- Bob's offer reads as refused though it is stored as published, and still does so after Bob has
taken his coins back. -/
theorem reads_settle_outbid :
    (Session.outbid.storedOffer? (.ofOffer 1)).map (·.state) = some .published ∧
    ∃ o o', Session.outbid.requireOffer (.ofOffer 1) = .ok o ∧ o.state = .refused ∧
      (Session.outbid.message "bob" none (.withdrawRefused (.ofOffer 1))).book.requireOffer
        (.ofOffer 1) = .ok o' ∧ o'.state = .refused := by
  have read :
      (Session.outbid.requireOffer (.ofOffer 1)).toOption.map (·.state) = some .refused := by
    decide +kernel
  obtain ⟨o, read, refused⟩ := Option.map_eq_some_iff.1 read
  have read := toOption_eq_some_iff.1 read
  obtain ⟨settled, -⟩ := reads_settle Session.isFresh_endowed Session.served_outbid
    (.message .start "bob" none (.withdrawRefused (.ofOffer 1)))
  obtain ⟨o', read', same⟩ := settled _ o read
  refine ⟨by decide +kernel, o, o', read, refused, read', ?_⟩
  rw [same (by rw [refused]; decide), refused]

end Pawnbook
