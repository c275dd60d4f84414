import Pawnbook.Proofs.Lateness

/-! # Transactions that are carried out again

A book asks whether an intent was applied before only when its transaction does not fit. That a
transaction is applied once therefore rests on its changes: a change is spent (`Book.Spent`) if the
record that it was computed against has gone on to where it never comes back from. A spent change
stays spent (`Book.Moved.spent`) and does not fit (`Book.Spent.not_fits`), and every transaction of
a final action (`Action.isFinal`) spends one of its changes when it is posted
(`Action.Plan.spends`). The other actions set what can be set back, and their transactions can be
applied again. -/

namespace Pawnbook

/-- The actions that take a listing or an offer on, or make a new one. The others set the
configuration or what a borrower says of a listing. -/
def Action.isFinal : Action → Bool
  | deposit .. | withdraw _ | makeOffer .. | acceptLoan .. | acceptOffer _ | cancelOffer _
  | refuseOffer _ | withdrawRefused _ | repay _ | claimDefault _ => true
  | modify .. | proposeOwner _ | claimOwnership | setFeeDistributor _ | setFeeRate _ => false

/-! ### Spent changes -/

/-- The first state was left for the second one, and never comes back. -/
inductive LoanState.Left : LoanState → LoanState → Prop
  | published {s : LoanState} (h : s ≠ .published) : Left .published s
  | started {s : LoanState} (h : s = .ended ∨ s = .defaulted) : Left .started s

theorem LoanState.Left.ne {s s' : LoanState} (h : s.Left s') : s' ≠ s := by
  cases h with
  | published h => exact h
  | started h => rcases h with rfl | rfl <;> decide

theorem LoanState.Left.edge {s s' s'' : LoanState} (h : s.Left s') (edge : Edge s' s'') :
    s.Left s'' := by
  cases h with
  | published => exact .published (by cases edge <;> decide)
  | started h => rcases h with rfl | rfl <;> cases edge

namespace Book

/-- The record that a change was computed against will not be in its slot again: there is a listing
or an offer where none was, a listing or an offer has left the state it was in, or an offer has let
go of its deposit. -/
inductive Spent (b : Book) : Change → Prop
  | listed {key : ListingKey} {l new : Listing} (stored : b.listing? key = some l) :
      Spent b (.listing key none new)
  | moved {key : ListingKey} {l old new : Listing} (stored : b.listing? key = some l)
      (left : old.state.Left l.state) : Spent b (.listing key (some old) new)
  | made {id : Key} {o new : Offer} (stored : b.storedOffer? id = some o) :
      Spent b (.offer id none new)
  | decided {id : Key} {o old new : Offer} (stored : b.storedOffer? id = some o)
      (was : old.state = .published) (now : o.state ≠ .published) :
      Spent b (.offer id (some old) new)
  | released {id : Key} {o old new : Offer} {d : Tender} (stored : b.storedOffer? id = some o)
      (was : old.deposit = some d) (now : o.deposit = none) : Spent b (.offer id (some old) new)

variable {b b' : Book} {c : Change}

theorem Spent.not_fits (h : b.Spent c) : ¬ b.Fits c := by
  intro fits
  cases h with
  | listed stored =>
      have missing := fits.newListing
      cases (get?_of_listing? stored).symm.trans missing
  | moved stored left =>
      obtain ⟨l, hl, agrees⟩ := fits.listing
      cases (get?_of_listing? stored).symm.trans hl
      exact left.ne (Listing.agrees_iff.1 agrees).state
  | made stored => cases stored.symm.trans fits.newOffer
  | decided stored was now =>
      obtain ⟨o, ho, agrees⟩ := fits.offer
      cases stored.symm.trans ho
      exact now ((Offer.agrees_iff.1 agrees).state.trans was)
  | released stored was now =>
      obtain ⟨o, ho, agrees⟩ := fits.offer
      cases stored.symm.trans ho
      have held := (Offer.agrees_iff.1 agrees).deposit
      rw [was] at held
      obtain ⟨d, hd, -⟩ := Value.optionsAgree_some held
      cases now.symm.trans hd

theorem changesRefusal?_ne_none {cs : List Change} (hc : c ∈ cs) (h : ¬ b.Fits c) :
    b.changesRefusal? cs ≠ .ok none := fun fits => h (fits_of_changesRefusal? fits c hc)

end Book

/-! ### Spent changes stay spent -/

section persistence
variable {P : Book → Move → Prop} {b b' : Book} {m : Move} {c : Change}

theorem Action.Posting.deposit_none {c : Config} {e : Envelope} {a : Action} {cs : List Change}
    {ss : List BankSend} {ms : List Message} {as : Attributes}
    (posting : Posting b c e a cs ss ms as) {id : Key} {o : Offer}
    (stored : b.storedOffer? id = some o) (spent : o.deposit = none) :
    ∃ o', (b.putAll cs).storedOffer? id = some o' ∧ o'.deposit = none := by
  -- one offer is written, and holds nothing if it is this one
  have written : ∀ {b' : Book} {i : Key} {new : Offer},
      (∀ j, b'.storedOffer? j = if i == j then some new else b.storedOffer? j) →
      ((i == id) = true → new.deposit = none) →
      ∃ o', b'.storedOffer? id = some o' ∧ o'.deposit = none := by
    intro b' i new stores holds
    rw [stores]
    split
    · rename_i same
      exact ⟨new, rfl, holds same⟩
    · exact ⟨o, stored, spent⟩
  have fresh : ∀ {i : Key} {new : Offer}, b.storedOffer? i = none → (i == id) = true →
      new.deposit = none := by
    intro i new missing same
    rw [b.storedOffer?_congr same, stored] at missing
    cases missing
  cases posting with
  | deposit | modify | withdraw | repay | claim | configure => exact ⟨o, stored, spent⟩
  | makeOffer _ _ _ _ _ missing | acceptLoan _ _ _ _ _ _ _ missing =>
      exact written (fun j => Book.storedOffer?_put_offer _ _ j _ _) (fresh missing)
  | acceptOffer | cancel | recover =>
      exact written (fun j => Book.storedOffer?_put_offer _ _ j _ _) fun _ => rfl
  | refuse offer =>
      refine written (fun j => Book.storedOffer?_put_offer _ _ j _ _) fun same => ?_
      rw [b.storedOffer?_congr same, stored] at offer
      cases offer
      exact spent

theorem Book.Moved.deposit_none (h : b.Moved P m b') {id : Key} {o : Offer}
    (stored : b.storedOffer? id = some o) (spent : o.deposit = none) :
    ∃ o', b'.storedOffer? id = some o' ∧ o'.deposit = none := by
  cases h with
  | still | number | advance | fund | mint | transfer => exact ⟨o, stored, spent⟩
  | post source posting =>
      obtain ⟨o', ho', hd⟩ := posting.deposit_none stored spent
      exact ⟨o', (Book.storedOffer?_posted _ _ _).trans ho', hd⟩

theorem Book.Moved.spent (h : b.Moved P m b') (hb : b.Coherent) (spent : b.Spent c) :
    b'.Spent c := by
  have follows := h.follows hb
  cases spent with
  | listed stored =>
      obtain ⟨l', hl', -⟩ := follows.listing _ _ stored
      exact .listed hl'
  | moved stored left =>
      obtain ⟨l', hl', step⟩ := follows.listing _ _ stored
      refine .moved hl' ?_
      rcases step.state with same | edge
      · rw [same]
        exact left
      · exact left.edge edge
  | made stored =>
      obtain ⟨o', ho', -⟩ := follows.offer _ _ stored
      exact .made ho'
  | decided stored was now =>
      obtain ⟨o', ho', step⟩ := follows.offer _ _ stored
      refine .decided ho' was ?_
      rw [step.extends.settled now]
      exact now
  | released stored was now =>
      obtain ⟨o', ho', hd⟩ := h.deposit_none stored now
      exact .released ho' was hd

end persistence

/-! ### Transactions spend their changes -/

/-- A transaction of a final action leaves one of its own changes spent. -/
theorem Action.Plan.spends {b₀ b : Book} {e : Envelope} {a : Action} {p : Pending}
    {ss : List BankSend} {as : Attributes} (plan : Plan b₀ e a p.changes ss p.messages as)
    (final : a.isFinal = true) : ∃ c ∈ p.changes, (b.posted p).Spent c := by
  have listing : ∀ key, (b.posted p).listing? key = (b.putAll p.changes).listing? key :=
    b.listing?_posted p
  have offer : ∀ id, (b.posted p).storedOffer? id = (b.putAll p.changes).storedOffer? id :=
    b.storedOffer?_posted p
  generalize b.posted p = after at listing offer ⊢
  generalize p.changes = cs at plan listing offer ⊢
  generalize p.messages = ms at plan
  -- the last change of a slot is what is left there
  cases plan with
  | deposit =>
      exact ⟨_, List.mem_cons_of_mem _ List.mem_cons_self,
        .listed ((listing _).trans (Book.listing?_put_self ..))⟩
  | modify => cases final
  | withdraw stored published =>
      refine ⟨_, List.mem_cons_self, .moved ((listing _).trans (Book.listing?_put_self ..)) ?_⟩
      rw [published]
      exact .published nofun
  | makeOffer | acceptLoan =>
      exact ⟨_, List.mem_cons_of_mem _ (List.mem_cons_of_mem _ List.mem_cons_self),
        .made ((offer _).trans (Book.storedOffer?_put_self ..))⟩
  | acceptOffer stored mine listed published pending =>
      exact ⟨_, List.mem_cons_of_mem _ List.mem_cons_self,
        .decided ((offer _).trans (Book.storedOffer?_put_self ..)) pending nofun⟩
  | cancel stored mine pending =>
      exact ⟨_, List.mem_cons_self,
        .decided ((offer _).trans (Book.storedOffer?_put_self ..)) pending nofun⟩
  | refuse stored mine listed published pending =>
      exact ⟨_, List.mem_cons_self,
        .decided ((offer _).trans (Book.storedOffer?_put_self ..)) pending nofun⟩
  | recover stored mine refused deposit =>
      exact ⟨_, List.mem_cons_self,
        .released ((offer _).trans (Book.storedOffer?_put_self ..)) deposit rfl⟩
  | repay stored started =>
      refine ⟨_, List.mem_cons_self, .moved ((listing _).trans (Book.listing?_put_self ..)) ?_⟩
      rw [started]
      exact .started (.inl rfl)
  | claim stored started =>
      refine ⟨_, List.mem_cons_self, .moved ((listing _).trans (Book.listing?_put_self ..)) ?_⟩
      rw [started]
      exact .started (.inr rfl)
  | configure made => cases made <;> cases final

/-! ### Changes that can be compared -/

theorem Config.agrees_ok {c d : Config} (hc : c.feeRate.IsRate) (hd : d.feeRate.IsRate) :
    ∃ r, c.agrees d = .ok r := by
  have quiet : ∀ {r : Decimal}, r.IsRate → r.isSignaling = false := by
    rintro (_ | _ | _) ⟨finite, -⟩
    · rfl
    · cases finite
    · cases finite
  have rates : ∃ r, c.feeRate.agrees d.feeRate = .ok r := by
    unfold Decimal.agrees Decimal.equals
    rw [quiet hc, quiet hd]
    split
    · exact ⟨_, rfl⟩
    · exact ⟨_, rfl⟩
  obtain ⟨r, hr⟩ := rates
  unfold Config.agrees
  split
  · rw [hr]
    exact ⟨_, rfl⟩
  · exact ⟨_, rfl⟩

namespace Book
variable {b b₀ : Book}

theorem changeRefusal?_of_compared {c : Change} {r : Option Stored} (hr : b.record? c.slot = .ok r)
    (compared : ∃ same, Stored.equals? r c.old = .ok same) :
    ∃ reason, b.changeRefusal? c = .ok reason := by
  obtain ⟨same, hs⟩ := compared
  unfold changeRefusal?
  rw [hr]
  dsimp only
  rw [hs]
  cases same with
  | true => exact ⟨_, rfl⟩
  | false => exact ⟨_, rfl⟩

theorem changesRefusal?_of_compared : ∀ {cs : List Change},
    (∀ c ∈ cs, ∃ reason, b.changeRefusal? c = .ok reason) →
    ∃ reason, b.changesRefusal? cs = .ok reason
  | [], _ => ⟨none, rfl⟩
  | c :: cs, h => by
      rw [List.forall_mem_cons] at h
      obtain ⟨⟨reason, hc⟩, h⟩ := h
      obtain ⟨rest, hcs⟩ := changesRefusal?_of_compared h
      unfold changesRefusal?
      rw [hc]
      cases reason with
      | some reason => exact ⟨_, rfl⟩
      | none => exact ⟨rest, hcs⟩

theorem changeRefusal?_listing_ok (b : Book) (key : ListingKey) (old : Option Listing)
    (new : Listing) : ∃ reason, b.changeRefusal? (.listing key old new) = .ok reason := by
  refine changeRefusal?_of_compared (r := b.listings.get? key) rfl ?_
  cases b.listings.get? key with
  | none => cases old <;> exact ⟨_, rfl⟩
  | some r => cases old <;> cases r <;> exact ⟨_, rfl⟩

theorem changeRefusal?_borrower_ok (b : Book) (name : Key) (old : Option Borrower)
    (new : Borrower) : ∃ reason, b.changeRefusal? (.borrower name old new) = .ok reason := by
  refine changeRefusal?_of_compared (r := b.borrowers.get? name) rfl ?_
  cases b.borrowers.get? name with
  | none => cases old <;> exact ⟨_, rfl⟩
  | some r => cases old <;> cases r <;> exact ⟨_, rfl⟩

theorem changeRefusal?_offer_ok (b : Book) (id : Key) (old : Option Offer) (new : Offer) :
    ∃ reason, b.changeRefusal? (.offer id old new) = .ok reason := by
  refine changeRefusal?_of_compared (r := (b.storedOffer? id).map .offer) rfl ?_
  cases b.storedOffer? id with
  | none => cases old <;> exact ⟨_, rfl⟩
  | some o => cases old <;> exact ⟨_, rfl⟩

theorem changeRefusal?_config_ok (hb : b.Coherent) {old : Config} (ho : old.feeRate.IsRate)
    (new : Config) : ∃ reason, b.changeRefusal? (.config old new) = .ok reason := by
  have current : b.record? (Change.config old new).slot = .ok (some (.config b.config)) := by
    simp [record?, Change.config, Slot.config, configRecord, hb.misfit]
  exact changeRefusal?_of_compared current (Config.agrees_ok hb.config.rate ho)

/-- Whether a computed transaction fits a coherent book can always be said. -/
theorem changesRefusal?_ok {e : Envelope} {a : Action} {cs : List Change} {ss : List BankSend}
    {ms : List Message} {as : Attributes} (plan : Action.Plan b₀ e a cs ss ms as)
    (h₀ : b₀.Coherent) (hb : b.Coherent) : ∃ reason, b.changesRefusal? cs = .ok reason := by
  have config := fun new => b.changeRefusal?_config_ok hb h₀.config.rate new
  have borrower := b.changeRefusal?_borrower_ok
  have listing := b.changeRefusal?_listing_ok
  have offer := b.changeRefusal?_offer_ok
  apply changesRefusal?_of_compared
  cases plan with
  | deposit =>
      rw [List.forall_mem_cons, List.forall_mem_singleton]
      exact ⟨borrower .., listing ..⟩
  | modify | withdraw | repay | claim =>
      rw [List.forall_mem_singleton]
      exact listing ..
  | makeOffer | acceptLoan =>
      rw [List.forall_mem_cons, List.forall_mem_cons, List.forall_mem_singleton]
      exact ⟨config _, listing .., offer ..⟩
  | acceptOffer =>
      rw [List.forall_mem_cons, List.forall_mem_singleton]
      exact ⟨listing .., offer ..⟩
  | cancel | refuse | recover =>
      rw [List.forall_mem_singleton]
      exact offer ..
  | configure =>
      rw [List.forall_mem_singleton]
      exact config _

end Book

/-! ### Intents that were applied -/

namespace Book

/-- The intent was applied: it is remembered, and a transaction that carried it out is logged. -/
def Applied (b : Book) (intentId : Key) : Prop :=
  b.seen.contains intentId = true ∧ ∃ t ∈ b.log, t.intentId = intentId

theorem seen_posted (b : Book) (p : Pending) : (b.posted p).seen =
    if b.seen.contains p.intentId then b.seen else b.seen ++ [p.intentId] := by
  have hs : ((b.putAll p.changes).numbered.carryAll p.transfers).seen = b.seen := by
    rw [carryAll_eq, numbered, putAll_eq]
  unfold posted record
  rw [hs]
  rfl

theorem applied_posted (b : Book) (p : Pending) : (b.posted p).Applied p.intentId := by
  constructor
  · rw [seen_posted]
    split
    · assumption
    · simp
  · rw [log_posted]
    exact ⟨_, List.mem_append_right _ List.mem_cons_self, rfl⟩

theorem Applied.posted {b : Book} {intentId : Key} (h : b.Applied intentId) (p : Pending) :
    (b.posted p).Applied intentId := by
  obtain ⟨seen, t, ht, same⟩ := h
  constructor
  · rw [seen_posted]
    split
    · exact seen
    · rw [List.contains_iff_exists_mem_beq] at seen ⊢
      obtain ⟨k, hk, hs⟩ := seen
      exact ⟨k, List.mem_append_left _ hk, hs⟩
  · rw [log_posted]
    exact ⟨t, List.mem_append_left _ ht, same⟩

theorem Moved.applied {P : Book → Move → Prop} {b b' : Book} {m : Move} (h : b.Moved P m b')
    {intentId : Key} (applied : b.Applied intentId) : b'.Applied intentId := by
  cases h with
  | still | number | advance | fund | mint | transfer => exact applied
  | post => exact applied.posted _

/-- A book that has just posted a transaction finds it. -/
theorem findTransaction?_posted (b : Book) (p : Pending) :
    (b.posted p).findTransaction? p.intentId = some (b.nextTransaction p) := by
  rw [findTransaction?, log_posted, List.reverse_append]
  exact List.find?_cons_of_pos BEq.rfl

/-- The book finds a transaction that carried an intent out. -/
theorem Applied.findTransaction? {b : Book} {id : String} (h : b.Applied (.text id)) :
    ∃ t ∈ b.log, t.intentId = .text id ∧ b.findTransaction? (.text id) = some t := by
  obtain ⟨-, t, ht, same⟩ := h
  have found : (b.findTransaction? (.text id)).isSome = true := by
    rw [Book.findTransaction?, List.find?_isSome]
    exact ⟨t, List.mem_reverse.2 ht, by rw [same]; exact BEq.rfl⟩
  obtain ⟨t', ht'⟩ := Option.isSome_iff_exists.1 found
  have latest : b.log.reverse.find? (·.intentId == Key.text id) = some t' := ht'
  have same' := List.find?_some latest
  have mem : t' ∈ b.log := List.mem_reverse.1 (List.mem_of_find?_eq_some latest)
  exact ⟨t', mem, Key.eq_text_of_beq (BEq.symm same'), ht'⟩

/-- A transaction that does not fit any more, and whose intent was applied, is left as it is. -/
theorem execute_again {b : Book} {p : Pending} {reason : String} (filled : p.isEmpty = false)
    (refused : b.refusal? p = .ok (some reason)) (applied : b.Applied p.intentId)
    (named : p.intentId.value.isShort = true) :
    (b.execute p).answer = .ok .alreadyApplied ∧ (b.execute p).book = b := by
  have lines : ∃ lines, repetitionLines p = .ok lines :=
    ⟨_, bind_of_ok (Value.written_ok_iff.2 ⟨named, rfl⟩) rfl⟩
  unfold execute
  rw [if_neg (by simp [filled]), refused]
  dsimp only
  rw [if_pos applied.1]
  exact ⟨answer_announce _ fun _ => lines, book_announce ..⟩

end Book

/-! ### After a run -/

section runs
variable {P : Book → Move → Prop} {s s' : Session} {c : Change} {intentId : Key}

theorem Reaches.spent (run : Reaches P s s') (sound : s.Sound P) (spent : s.book.Spent c)
    (applied : s.book.Applied intentId) :
    s'.Sound P ∧ s'.book.Spent c ∧ s'.book.Applied intentId := by
  induction run with
  | start => exact ⟨sound, spent, applied⟩
  | step m run allowed ih =>
      obtain ⟨sound, spent, applied⟩ := ih
      have moved := sound.moved m
      exact ⟨sound.after allowed, moved.spent sound.book spent, moved.applied applied⟩

/-- A session whose book carries out a transaction that was computed earlier is sound, and the
book makes one of the moves of a session. -/
theorem Session.Sound.executed {p : Pending} {b₀ : Book} {e : Envelope} {a : Action}
    {ss : List BankSend} {as : Attributes} (sound : s.Sound P)
    (source : p.Sourced P s.book b₀ e a ss as)
    (applied : (s.book.execute p).answer = .ok .applied) :
    (s.book.execute p).book = s.book.posted p ∧
      (s.withBook (s.book.execute p).book).Sound P := by
  obtain ⟨posting, fits, transfers, posted⟩ :=
    source.computed.posted_of_applied source.coherent source.since sound.book applied
  obtain ⟨id, -⟩ := Book.unrefused_of_applied source.computed.isEmpty_eq_false applied
  obtain ⟨covered, honoured, -⟩ := Book.transferRefusal?_eq_none_iff.1 transfers
  have moved : s.book.Moved P (.execute 0) (s.book.posted p) :=
    .post source posting honoured covered fits id
  refine ⟨posted, ?_⟩
  rw [posted]
  refine ⟨moved.coherent sound.book, fun q hq => ?_⟩
  obtain ⟨b₁, e₁, a₁, ss₁, as₁, kept⟩ := sound.kept q hq
  exact ⟨b₁, e₁, a₁, ss₁, as₁, kept.allowed, kept.coherent,
    kept.since.trans (moved.follows sound.book).since, kept.computed⟩

end runs

/-- Once a transaction of a final action has been applied, it is never applied again: from then on,
after any further moves, an execution answers that the intent was applied and leaves the book alone,
and a submission gives a logged transaction with the same intent. -/
theorem applied_once {P : Book → Move → Prop} {s₀ s₁ s₂ s : Session} {e : Envelope} {a : Action}
    {p : Pending} (fresh : s₀.IsFresh) (run : Reaches P s₀ s₁)
    (sent : s₁.book.transact e a = .ok p) (final : a.isFinal = true) (later : Reaches P s₁ s₂)
    (applied : (s₂.book.execute p).answer = .ok .applied)
    (onward : Reaches P (s₂.withBook (s₂.book.execute p).book) s) :
    ((s.book.execute p).answer = .ok .alreadyApplied ∧ (s.book.execute p).book = s.book) ∧
      ∃ t ∈ s.book.log, t.intentId = p.intentId ∧ (s.book.submit p).answer = .ok (some t) ∧
        (s.book.submit p).book = s.book := by
  obtain ⟨ss, as, computed⟩ := transact_plan sent
  obtain ⟨text, -, identified⟩ := transact_intentId sent
  have run := run.weaken (Q := fun _ _ => True) fun _ _ _ => trivial
  have later := later.weaken (Q := fun _ _ => True) fun _ _ _ => trivial
  have onward := onward.weaken (Q := fun _ _ => True) fun _ _ _ => trivial
  have before := run.sound fresh
  obtain ⟨sound, order⟩ := later.precedes before
  have source : p.Sourced (fun _ _ => True) s₂.book s₁.book e a ss as :=
    ⟨trivial, before.book, order.since, computed⟩
  obtain ⟨posted, after⟩ := sound.executed source applied
  obtain ⟨c, hc, spent⟩ := computed.plan.spends (b := s₂.book) final
  have recorded := s₂.book.applied_posted p
  rw [← posted] at spent recorded
  obtain ⟨whole, spent, recorded⟩ := onward.spent after spent recorded
  have refused : ∃ reason, s.book.refusal? p = .ok (some reason) := by
    obtain ⟨objection, hr⟩ := Book.changesRefusal?_ok computed.plan before.book whole.book
    cases objection with
    | none => exact absurd hr (Book.changesRefusal?_ne_none hc spent.not_fits)
    | some objection =>
        obtain ⟨words, written⟩ := Book.written_of_changesRefusal? computed.legible.changes hr
        exact ⟨words, Book.refusal?_of_objection (bind_of_ok hr rfl) written⟩
  obtain ⟨reason, refused⟩ := refused
  obtain ⟨answer, book⟩ :=
    Book.execute_again computed.isEmpty_eq_false refused recorded (by rw [identified]; rfl)
  refine ⟨⟨answer, book⟩, ?_⟩
  rw [identified] at recorded ⊢
  obtain ⟨t, ht, same, found⟩ := recorded.findTransaction?
  refine ⟨t, ht, same, ?_, book⟩
  dsimp only [Book.submit]
  rw [answer, book, identified]
  exact congrArg Except.ok found

namespace Session

/-- The new contract after Alice's token was entered. -/
def minted : Session := opening.run (lending.take 1)

/-- Alice lists her token at terms of her own. -/
def offering : Action := .deposit [.nft cat] (some (.ofNat (stars 500) 50 10)) none none

/-- The session after a transaction was applied to it and Alice took her first listing back. -/
def returned (s : Session) (p : Pending) : Session :=
  (s.withBook (s.book.execute p).book).run
    [.compute (alice []) (.withdraw (.int 0)), .execute 0]

end Session

/-- Alice lists her token and takes the listing back; her first transaction is not applied a second
time. -/
theorem applied_once_returned : ∃ p,
    Session.minted.book.transact (Session.alice []) Session.offering = .ok p ∧
    (Session.minted.book.execute p).answer = .ok .applied ∧
    ((Session.minted.returned p).book.execute p).answer = .ok .alreadyApplied ∧
    ∃ t ∈ (Session.minted.returned p).book.log, t.intentId = p.intentId ∧
      ((Session.minted.returned p).book.submit p).answer = .ok (some t) := by
  have sent : ∃ p ∈ (Session.minted.book.transact (Session.alice [])
        Session.offering).toOption,
      (Session.minted.book.execute p).answer.toOption = some .applied := by decide +kernel
  obtain ⟨p, sent, applied⟩ := sent
  have sent := toOption_eq_some_iff.1 sent
  have applied := toOption_eq_some_iff.1 applied
  have run : Reaches (fun _ _ => True) Session.opening Session.minted :=
    Reaches.start.run ⟨trivial, trivial⟩
  have onward : Reaches (fun _ _ => True)
      (Session.minted.withBook (Session.minted.book.execute p).book)
      (Session.minted.returned p) :=
    Reaches.start.run ⟨trivial, trivial, trivial⟩
  obtain ⟨⟨again, -⟩, t, ht, same, submitted, -⟩ :=
    applied_once Session.isFresh_opening run sent rfl .start applied onward
  exact ⟨p, sent, applied, again, t, ht, same, submitted⟩

end Pawnbook
