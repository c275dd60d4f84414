import Mathlib.Algebra.Ring.Nat
import Pawnbook.Proofs.Atomicity
import Pawnbook.Proofs.Reasons
import Pawnbook.Proofs.Replay

/-! # Calls succeed as a whole or leave the book alone

A call computes its transaction and applies it at once. What is computed on a book fits that book,
so only its transfers can be refused (`Book.Orderly.transact_ends`, `Computed.carriedOut_or_left`).
After every run of proper calls a further one is applied as a whole, or it leaves the book alone,
for a reason that `Book.Refuses` lists, or it stalls where the id of its execution cannot be written
(`applied_or_refused`). Not every reason is a rule of the contract: `shortfall_unrefused` is a call
that fails since the sum that is due is too long to be named. -/

namespace Pawnbook

/-! ### Computed calls -/

theorem Draft.exists_fundsIn {d : Draft} {contract : Key} (h : (d.sender == contract) = false) :
    ∃ ss, d.fundsIn contract = .ok ss := by
  refine exists_mapM_ok_iff.2 fun c hc => ?_
  have positive : c.amount ≠ 0 := by simpa using (List.mem_filter.1 hc).2
  exact ⟨_, toError_of_ok (BankSend.make_of h positive)⟩

theorem Offer.Recorded.writable_lender {o : Offer} {id : Key} {address : Key}
    (h : o.Recorded address id) : o.lender.value.Writable := by
  obtain ⟨t, -, lender⟩ := h.lender
  rw [lender]
  exact Key.writable_text t

theorem Action.Configures.writable {b : Book} {e : Envelope} {a : Action} {c : Config}
    {as : Attributes} (h : Configures b e a c as) (proper : a.isProper = true) :
    ∀ x ∈ as, x.2.Writable := by
  cases h with
  | @owner p =>
      rw [List.forall_mem_singleton]
      cases p with
      | none => exact ⟨_, rfl⟩
      | some k => exact Value.writable_of_isTextual proper
  | claim =>
      rw [List.forall_mem_singleton]
      exact Value.writable_text _
  | distributor =>
      rw [List.forall_mem_singleton]
      exact Value.writable_of_isTextual proper
  | rate =>
      rw [List.forall_mem_singleton]
      exact ⟨_, rfl⟩

/-- A plan that cannot be described leads to a number that is too long. -/
theorem Action.Plan.unwieldy {b : Book} {e : Envelope} {a : Action} {cs : List Change}
    {ss : List BankSend} {ms : List Message} {as : Attributes} (plan : Plan b e a cs ss ms as)
    (hb : b.Recorded) (proper : a.isProper = true) (long : ¬ ∀ x ∈ as, x.2.Writable) :
    a.Unwieldy b e := by
  have listed : ∀ {key : ListingKey} {l : Listing}, b.listings.get? key = some (.listing l) →
      key.isProper = true → ∀ x ∈ listingAttributes key, x.2.Writable := fun stored proper =>
    writable_listingAttributes_iff.2 (hb.writable_key (Book.listing?_of_get? stored) proper)
  cases plan with
  | deposit filled shown next =>
      exact .id next fun written =>
        long (writable_listingAttributes_iff.2 ⟨Key.writable_text _, written⟩)
  | modify stored =>
      simp only [isProper, Bool.and_eq_true] at proper
      exact absurd (listed stored (Bool.and_eq_true_iff.2 ⟨rfl, proper.1.1.1⟩)) long
  | withdraw stored =>
      exact absurd (listed stored (Bool.and_eq_true_iff.2 ⟨rfl, proper⟩)) long
  | makeOffer stored =>
      simp only [isProper, Bool.and_eq_true] at proper
      refine absurd (List.forall_mem_append.2 ⟨listed stored proper.1.1, ?_⟩) long
      rw [List.forall_mem_singleton]
      exact Value.writable_text _
  | acceptLoan stored =>
      simp only [isProper, Bool.and_eq_true] at proper
      obtain ⟨borrower, number⟩ := hb.writable_key (Book.listing?_of_get? stored) proper.1
      exact absurd (writable_loanAttributes_iff.2
        ⟨borrower, Key.writable_text _, number, Value.writable_text _⟩) long
  | acceptOffer offer =>
      have made := hb.offer _ _ offer
      obtain ⟨borrower, number⟩ := made.written
      exact absurd (writable_loanAttributes_iff.2
        ⟨borrower, made.writable_lender, number, Value.writable_of_isTextual proper⟩) long
  | cancel | refuse | recover =>
      refine absurd ?_ long
      rw [List.forall_mem_singleton]
      exact Value.writable_of_isTextual proper
  | repay stored started active offer running agreed funds denom whole enough split =>
      obtain ⟨made, hmade, rfl⟩ := Book.requireOffer_ok offer
      have listed := Book.listing?_of_get? stored
      have lender := (hb.offer _ _ hmade).writable_lender
      have named := (hb.listing _ _ listed).active _ active
      obtain ⟨borrower, number⟩ := hb.writable_key listed (Bool.and_eq_true_iff.2 ⟨rfl, proper⟩)
      refine .parts listed active hmade agreed funds split fun parts => long ?_
      rw [List.forall_mem_append, List.forall_mem_cons, List.forall_mem_singleton]
      exact ⟨writable_loanAttributes_iff.2 ⟨borrower, lender, number, named⟩, parts⟩
  | claim stored started active offer =>
      obtain ⟨made, hmade, rfl⟩ := Book.requireOffer_ok offer
      have listed := Book.listing?_of_get? stored
      have lender := (hb.offer _ _ hmade).writable_lender
      have named := (hb.listing _ _ listed).active _ active
      obtain ⟨borrower, number⟩ := hb.writable_key listed proper
      exact absurd (writable_loanAttributes_iff.2 ⟨borrower, lender, number, named⟩) long
  | configure made => exact absurd (made.writable proper) long

/-- The numbers that a plan adds to those that are given can be written, unless that is unwieldy. -/
theorem Action.Plan.numbersShort {b : Book} {e : Envelope} {a : Action} {cs : List Change}
    {ss : List BankSend} {ms : List Message} {as : Attributes} (plan : Plan b e a cs ss ms as)
    (handy : ¬ a.Unwieldy b e) : a.NumbersShort b e := by
  have height : ∀ {key : ListingKey}, a.loan? b = some key →
      (Value.ofNumber b.height).isShort = true := fun lends =>
    Bool.eq_true_of_not_eq_false fun long => handy (.height lends long)
  cases plan with
  | makeOffer => exact Classical.byContradiction fun long => handy (.place rfl rfl long)
  | acceptLoan =>
      exact ⟨Classical.byContradiction fun long => handy (.place rfl rfl long), height rfl⟩
  | acceptOffer offer => exact height (by rw [loan?, offer]; rfl)
  | @repay loanId l id o terms interest share payment ss ps ts fs _ _ _ _ _ _ funds =>
      have short := (short_or_unwieldy (a := .repay loanId) (b := b) (e := e)
        (v := payment.toValue) (by simp [funds, Tender.toValue])).resolve_right handy
      rw [NumbersShort, funds, List.forall_mem_singleton]
      exact Coin.legible_iff.2 (Coin.isShort_iff.1 short)
  | deposit | modify | withdraw | cancel | refuse | recover | claim => trivial
  | configure made => cases made <;> trivial

/-- A transaction that cannot be put into texts is refused for that. -/
theorem Draft.pending_error {d : Draft} {b : Book} {ss : List BankSend} {error : Error}
    (funds : d.fundsIn b.address = .ok ss) (h : d.pending b = .error error) :
    ∃ failure, error = .calculation failure := by
  unfold pending at h
  rw [funds] at h
  cases identified : (do
    let attributes ← d.attributeTexts
    Pending.identified
      { changes := Change.merge d.changes, fundsIn := ss.map .send, messages := d.messages,
        origin := ⟨d.kind, d.sender, d.action⟩, date := some b.time, attributes,
        intentId := "" } : Except Decimal.Failure Pending) with
  | ok p =>
      have h := (congrArg (Except.mapError Error.calculation) identified).symm.trans h
      cases h
  | error failure =>
      have h := (congrArg (Except.mapError Error.calculation) identified).symm.trans h
      cases h
      exact ⟨failure, rfl⟩

/-- A proper call of someone else than the contract is computed, or refused for a reason. -/
theorem Book.Orderly.transact_ends {b : Book} {e : Envelope} {a : Action} (h : b.Orderly)
    (allowed : Proper b (.compute e a)) :
    Ends (b.transact e a) (fun _ => True) (b.Declines e a) := by
  obtain ⟨stranger, given⟩ := allowed
  obtain ⟨funds, proper⟩ := Bool.and_eq_true_iff.1 given
  have drafted := Action.effects_ends h (a := a) funds
  cases sent : b.transact e a with
  | ok p => trivial
  | error error =>
      cases made : a.effects b e with
      | error error' =>
          have same : b.transact e a = .error error' := bind_of_error (bind_of_error made)
          cases sent.symm.trans same
          exact drafted.of_error made
      | ok d =>
          rw [made] at drafted
          have sender : d.sender = e.sender := drafted
          have stranger : (d.sender == b.address) = false := sender ▸ stranger
          obtain ⟨ss, brought⟩ := Draft.exists_fundsIn stranger
          obtain ⟨plan, -⟩ := Action.effects_plan made brought
          have unwieldy : a.Unwieldy b e := Classical.byContradiction fun handy => by
            have short : ∀ v ∈ a.given, v.isShort = true := fun v hv =>
              (Action.short_or_unwieldy (List.mem_append_left _ hv)).resolve_right handy
            have written := Classical.byContradiction fun long =>
              handy (plan.unwieldy h.recorded proper long)
            obtain ⟨p, computed⟩ := plan.transact_ok h.coherent h.legible
              (Action.legible_of_isProper proper short) (plan.numbersShort handy) written
            cases sent.symm.trans computed
          have named : a.draft b e = .ok { d with action := .text a.name } := bind_of_ok made rfl
          have pending : { d with action := .text a.name }.pending b = .error error := by
            rw [← sent, Book.transact, named]
            rfl
          obtain ⟨failure, rfl⟩ :=
            Draft.pending_error (d := { d with action := .text a.name }) brought pending
          exact .unwieldy unwieldy failure

/-! ### Computed transactions are carried out or left -/

section changes
variable {b : Book} {e : Envelope} {a : Action} {cs : List Change} {ss : List BankSend}
  {ms : List Message} {as : Attributes}

theorem Change.isTyped_borrower (name : Key) (old : Option Borrower) (new : Borrower) :
    (borrower name old new).isTyped = true := by cases old <;> rfl

theorem Change.isTyped_listing (key : ListingKey) (old : Option Listing) (new : Listing) :
    (listing key old new).isTyped = true := by cases old <;> rfl

theorem Action.Plan.typed (plan : Plan b e a cs ss ms as) : ∀ c ∈ cs, c.isTyped = true := by
  have borrower := Change.isTyped_borrower
  have listing := Change.isTyped_listing
  cases plan with
  | deposit =>
      rw [List.forall_mem_cons, List.forall_mem_singleton]
      exact ⟨borrower .., listing ..⟩
  | modify | withdraw | repay | claim =>
      rw [List.forall_mem_singleton]
      exact listing ..
  | makeOffer | acceptLoan =>
      rw [List.forall_mem_cons, List.forall_mem_cons, List.forall_mem_singleton]
      exact ⟨rfl, listing .., rfl⟩
  | acceptOffer =>
      rw [List.forall_mem_cons, List.forall_mem_singleton]
      exact ⟨listing .., rfl⟩
  | cancel | refuse | recover | configure =>
      rw [List.forall_mem_singleton]
      rfl

theorem Action.Plan.apart (plan : Plan b e a cs ss ms as) :
    cs.Pairwise fun c d => (c.slot == d.slot) = false := by
  cases plan with
  | modify | withdraw | repay | claim | cancel | refuse | recover | configure =>
      exact List.pairwise_singleton _ _
  | deposit | acceptOffer => exact List.pairwise_pair.2 rfl
  | makeOffer | acceptLoan =>
      rw [List.pairwise_cons, List.forall_mem_cons, List.forall_mem_singleton]
      exact ⟨⟨rfl, rfl⟩, List.pairwise_pair.2 rfl⟩

theorem Change.keepsParties_config {old new : Config} : (config old new).KeepsParties := by
  intro _ _ _ new
  cases new

theorem Change.keepsParties_borrower {name : Key} {old : Option Borrower} {new : Borrower} :
    (borrower name old new).KeepsParties := by
  intro _ _ _ new
  cases new

theorem Change.keepsParties_listing {key : ListingKey} {old : Option Listing} {new : Listing} :
    (listing key old new).KeepsParties := by
  intro _ _ _ new
  cases new

theorem Change.keepsParties_newOffer {id : Key} {o : Offer} : (offer id none o).KeepsParties := by
  intro _ _ old
  cases old

theorem Change.keepsParties_offer {id : Key} {o new : Offer} (lender : new.lender = o.lender)
    (listing : new.listing = o.listing) : (offer id (some o) new).KeepsParties := by
  rintro _ _ ⟨⟩ ⟨⟩
  rw [lender, listing]
  exact ⟨BEq.rfl, BEq.rfl⟩

theorem Action.Plan.keepsParties (plan : Plan b e a cs ss ms as) : ∀ c ∈ cs, c.KeepsParties := by
  have config := @Change.keepsParties_config
  have listing := @Change.keepsParties_listing
  have made := @Change.keepsParties_newOffer
  have kept := @Change.keepsParties_offer
  cases plan with
  | deposit =>
      rw [List.forall_mem_cons, List.forall_mem_singleton]
      exact ⟨Change.keepsParties_borrower, listing⟩
  | modify | withdraw | repay | claim =>
      rw [List.forall_mem_singleton]
      exact listing
  | makeOffer | acceptLoan =>
      rw [List.forall_mem_cons, List.forall_mem_cons, List.forall_mem_singleton]
      exact ⟨config, listing, made⟩
  | acceptOffer =>
      rw [List.forall_mem_cons, List.forall_mem_singleton]
      exact ⟨listing, kept rfl rfl⟩
  | cancel | refuse | recover =>
      rw [List.forall_mem_singleton]
      exact kept rfl rfl
  | configure =>
      rw [List.forall_mem_singleton]
      exact config

end changes

/-- A computed transaction is carried out, or a book whose records it does not match or that cannot
cover it answers so and is left alone, or says so in words that cannot be written. Where the id of
the execution cannot be written, a place in the log is given out for nothing. -/
theorem Computed.carriedOut_or_left {b₀ b : Book} {e : Envelope} {a : Action} {p : Pending}
    {ss : List BankSend} {as : Attributes} (computed : Computed b₀ e a p ss as)
    (h₀ : b₀.Coherent) (hb : b.Coherent) :
    ((b.execute p).answer = .ok .applied ∧ (b.execute p).book = b.posted p ∧
        b.CarriedOut p (b.posted p)) ∨
      (((b.execute p).answer = .ok .alreadyApplied ∨ (b.execute p).answer = .ok .rejected) ∧
        (b.execute p).book = b) ∨
      (∃ o f, b.objection? p = .ok (some o) ∧ o.written = .error f ∧
        b.execute p = { book := b, answer := .error (.calculation f) }) ∨
      ∃ f, b.requireExecId = .error f ∧
        b.execute p = { book := b.numbered, answer := .error (.calculation f) } := by
  have filled := computed.isEmpty_eq_false
  obtain ⟨reason, fits⟩ := Book.changesRefusal?_ok computed.plan h₀ hb
  have objection : b.objection? p = .ok (reason.or (b.transferRefusal? p.transfers)) :=
    bind_of_ok fits rfl
  cases objected : reason.or (b.transferRefusal? p.transfers) with
  | none =>
      rw [objected] at objection
      have unrefused : b.refusal? p = .ok none := bind_of_ok objection rfl
      cases id : b.requireExecId with
      | ok =>
          exact .inl (Book.execute_of_unrefused id filled computed.plan.typed computed.fundsIn
            computed.plan.apart computed.plan.keepsParties (fun _ => computed.printable) unrefused)
      | error f =>
          exact .inr (.inr (.inr ⟨f, rfl, Book.execute_of_unwritable filled unrefused id⟩))
  | some o =>
      rw [objected] at objection
      cases written : o.written with
      | ok words =>
          have refused := Book.refusal?_of_objection objection written
          obtain ⟨text, intentId⟩ := computed.intentId
          have repeated : ∃ lines, Book.repetitionLines p = .ok lines := by
            rw [Book.repetitionLines, intentId]
            exact ⟨_, rfl⟩
          refine .inr (.inl ?_)
          unfold Book.execute
          rw [if_neg (by simp [filled]), refused]
          dsimp only
          split
          · exact ⟨.inl (Book.answer_announce _ fun _ => repeated), Book.book_announce ..⟩
          · exact ⟨.inr (Book.answer_announce _ fun _ => ⟨_, rfl⟩), Book.book_announce ..⟩
      | error f =>
          refine .inr (.inr (.inl ⟨o, f, objection, written, ?_⟩))
          have refused : b.refusal? p = .error (.calculation f) :=
            bind_of_ok objection
              (bind_of_error (congrArg (Except.mapError Error.calculation) written))
          unfold Book.execute
          rw [if_neg (by simp [filled]), refused]

theorem Computed.rejected_declined {b₀ b : Book} {e : Envelope} {a : Action} {p : Pending}
    {ss : List BankSend} {as : Attributes} (computed : Computed b₀ e a p ss as) :
    b.Declines e a (.rejected p.origin.action b.name) := by
  refine .naming rfl rfl ?_
  rw [Error.named, List.forall_mem_cons, List.forall_mem_singleton]
  refine ⟨.inl computed.legible.origin.action, ?_⟩
  cases long : b.name.isShort with
  | true => exact .inl rfl
  | false => exact .inr (.name long)

/-- What a book objects to in words that cannot be written is a transfer. -/
theorem Computed.transferRefusal?_of_unwritten {b₀ b : Book} {e : Envelope} {a : Action}
    {p : Pending} {ss : List BankSend} {as : Attributes} (computed : Computed b₀ e a p ss as)
    {o : Objection} {f : Decimal.Failure} (objected : b.objection? p = .ok (some o))
    (written : o.written = .error f) : b.transferRefusal? p.transfers = some o := by
  obtain ⟨reason, fits, objected⟩ := bind_ok objected
  cases reason with
  | none => exact Except.ok.inj objected
  | some o' =>
      cases objected
      obtain ⟨words, found⟩ := Book.written_of_changesRefusal? computed.legible.changes fits
      cases written.symm.trans found

/-! ### Calls -/

/-- A proper call after any run of proper moves is applied as a whole, and then answers the
transaction that it appended to the log, or it leaves the book alone, and any error that is raised
is one of the reasons to refuse it. Where the id of an execution cannot be written, that is raised,
and nothing was done but that a place in the log is spent. -/
theorem applied_or_refused {s₀ s : Session} {e : Envelope} {a : Action} (fresh : s₀.IsFresh)
    (plain : s₀.IsPlain) (run : Reaches Proper s₀ s)
    (allowed : Proper s.book (.compute e a)) :
    (∃ p, s.book.transact e a = .ok p ∧ s.book.CarriedOut p (s.book.handle e a).book ∧
        (s.book.handle e a).answer = .ok (some (s.book.nextTransaction p)) ∧
        (s.book.handle e a).book.log = s.book.log ++ [s.book.nextTransaction p]) ∨
      ((s.book.handle e a).book = s.book ∧
        ∀ error, (s.book.handle e a).answer = .error error → s.book.Refuses e a error.raised) ∨
      ∃ f, s.book.requireExecId = .error f ∧ (s.book.handle e a).book = s.book.numbered ∧
        (s.book.handle e a).answer = .error (.calculation f) := by
  have orderly := run.orderly fresh plain
  have ends := orderly.transact_ends allowed
  cases sent : s.book.transact e a with
  | error error =>
      obtain ⟨book, answer⟩ := Book.raises_of_transact sent
      refine .inr (.inl ⟨book, fun error' raised => ?_⟩)
      cases answer.symm.trans raised
      exact ends.of_error sent
  | ok p =>
      obtain ⟨ss, as, computed⟩ := transact_plan sent
      have handled : s.book.handle e a = s.book.submit p := by
        rw [Book.handle, sent]
      rw [handled]
      dsimp only [Book.submit]
      rcases computed.carriedOut_or_left orderly.coherent orderly.coherent with
        ⟨applied, posted, carried⟩ | ⟨left, book⟩ | ⟨o, f, objected, long, ended⟩ | ⟨f, id, ended⟩
      · refine .inl ⟨p, rfl, ?_⟩
        rw [applied, posted]
        exact ⟨carried, congrArg Except.ok (s.book.findTransaction?_posted p), s.book.log_posted p⟩
      · refine .inr (.inl ⟨book, fun error raised => ?_⟩)
        rcases left with again | rejected
        · rw [again] at raised
          cases raised
        · rw [rejected] at raised
          cases raised
          exact computed.rejected_declined
      · rw [ended]
        refine .inr (.inl ⟨rfl, ?_⟩)
        rintro _ ⟨⟩
        have transfers := computed.transferRefusal?_of_unwritten objected long
        exact .unwieldy (.objection sent transfers long) f
      · rw [ended]
        exact .inr (.inr ⟨f, id, rfl, rfl⟩)

/-- Alice repays Carol's loan. -/
theorem applied_or_refused_repaid : ∃ p,
    Session.repayable.book.transact (Session.alice [.coin (Session.stars 550)])
      (.repay (.int 0)) = .ok p ∧
    Session.repayable.book.CarriedOut p (Session.repayable.book.handle
      (Session.alice [.coin (Session.stars 550)]) (.repay (.int 0))).book ∧
    (Session.repayable.book.handle (Session.alice [.coin (Session.stars 550)])
      (.repay (.int 0))).answer = .ok (some (Session.repayable.book.nextTransaction p)) := by
  have run : Reaches Proper Session.opening Session.repayable :=
    Reaches.start.run (by decide +kernel)
  have logged : (Session.repayable.book.handle (Session.alice [.coin (Session.stars 550)])
      (.repay (.int 0))).book.log.length ≠ Session.repayable.book.log.length := by decide +kernel
  have unlogged : ∀ b : Book, b.numbered.log.length = b.log.length := fun _ => rfl
  rcases applied_or_refused Session.isFresh_opening Session.isPlain_opening run
    (e := Session.alice [.coin (Session.stars 550)]) (a := .repay (.int 0)) (by decide +kernel) with
    ⟨p, sent, carried, answer, -⟩ | ⟨book, -⟩ | ⟨f, -, book, -⟩
  · exact ⟨p, sent, carried, answer⟩
  · exact absurd (congrArg (·.log.length) book) logged
  · exact absurd ((congrArg (·.log.length) book).trans (unlogged _)) logged

namespace Session

/-- Alice lists her token for one coin, at an interest of 4300 digits, and Carol lends it to her. -/
def indebting : List Move :=
  [.mint (.nft cat) "alice",
   .compute (alice []) (.deposit [.nft cat] (some (.ofNat (stars 1) (10 ^ 4300 - 1) 10)) none none),
   .execute 0,
   .fund "carol" "stars" (.whole 1),
   .compute (carol [.coin (stars 1)]) (.acceptLoan ⟨"alice", .int 0⟩ none),
   .execute 1]

/-- Alice's loan runs. -/
def indebted : Session := opening.run indebting

end Session

/-- What is due for a loan can be too long to be named. A payment below it is then not refused as
such, but with an error that the rules of the contract do not know. -/
theorem shortfall_unrefused :
    Reaches Proper Session.opening Session.indebted ∧
    Proper Session.indebted.book
      (.compute (Session.alice [.coin (Session.stars 1)]) (.repay (.int 0))) ∧
    Ends (Session.indebted.book.handle (Session.alice [.coin (Session.stars 1)])
      (.repay (.int 0))).answer (fun _ => False) fun error => error.family? = none :=
  ⟨Reaches.start.run (by decide +kernel), by decide +kernel, by decide +kernel⟩

end Pawnbook
