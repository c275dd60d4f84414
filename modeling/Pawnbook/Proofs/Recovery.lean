import Pawnbook.Proofs.Application
import Pawnbook.Proofs.Ledger
import Pawnbook.Proofs.Recorded

/-! # Deposits can be recovered

As long as interests have at most fifty digits, no repayment takes from the contract more than it
brings, so the contract holds at least what its offers have deposited (`Book.Solvent`). Of the two
ways to take a deposit back the other one is refused, and the one that the state of the offer calls
for is applied (`escrow_recoverable`), as long as the height can be written: at a height that has
become too long the deposit is stuck (`escrow_stuck`). -/

namespace Pawnbook

/-! ### What a call does at once -/

namespace Book

/-- The call is refused by the rules of the contract, and leaves the book alone. -/
def Denies (b : Book) (e : Envelope) (a : Action) : Prop :=
  ∃ error, b.Raises e a error ∧ error.family?.isSome = true

/-- The call is applied, and brings the coin to its sender and nothing else. -/
def Returns (b : Book) (e : Envelope) (a : Action) (c : Coin) : Prop :=
  ∃ p, b.transact e a = .ok p ∧ (b.execute p).answer = .ok .applied ∧
    ∀ d n, (b.bank.balance e.sender d).whole? = some n →
      ((b.execute p).book.bank.balance e.sender d).whole? = some (n + c.amountIn d)

/-! ### Solvency -/

/-- The contract holds at least what its offers have deposited. -/
def Solvent (b : Book) : Prop :=
  ∀ d, ∃ n, (b.bank.balance b.address d).whole? = some n ∧ (b.deposited d : Int) ≤ n

theorem depositIn_le_deposited {b : Book} {id : Key} {o : Offer}
    (h : b.storedOffer? id = some o) (d : Key) : o.depositIn d ≤ b.deposited d := by
  have put := deposited_put_stored h b rfl (some o) { o with deposit := none } d
  have cleared : ({ o with deposit := none } : Offer).depositIn d = 0 := Offer.depositIn_none rfl d
  omega

end Book

/-- Balances of others are set, and interests are modest. -/
structure Prudent (b : Book) (m : Move) : Prop where
  others : FundsOthers b m
  modest : b.Modest

instance (b : Book) (m : Move) : Decidable (Prudent b m) :=
  decidable_of_iff (FundsOthers b m ∧ b.Modest) ⟨fun ⟨h, h'⟩ => ⟨h, h'⟩, fun h => ⟨h.1, h.2⟩⟩

theorem Transaction.Repays.retainedIn_nonneg {t : Transaction} {contract distributor : Key}
    {payment : Coin} {payback : Int} (h : t.Repays contract distributor payment payback)
    (covered : payback ≤ payment.amount) (d : Key) : 0 ≤ t.retainedIn contract d := by
  rw [h.retainedIn_eq]
  split <;> omega

theorem Computed.retainedIn_nonneg {b b₀ : Book} {c : Config} {e : Envelope} {a : Action}
    {p : Pending} {ss : List BankSend} {as : Attributes} (computed : Computed b₀ e a p ss as)
    (posting : Action.Posting b c e a p.changes ss p.messages as) (modest : b.Modest) (d : Key) :
    0 ≤ (b.nextTransaction p).retainedIn b.address d := by
  by_cases hr : (b.nextTransaction p).isRepayment = true
  · obtain ⟨loanId, rfl⟩ := (Transaction.isRepayment_iff computed.action).1 hr
    obtain ⟨-, payment, payback, repays, covered⟩ := computed.repays posting
    exact repays.retainedIn_nonneg (covered modest) d
  · exact Int.le_of_eq (Transaction.retainedIn_of_other (Bool.eq_false_iff.2 hr) b.address d).symm

theorem Book.Moved.solvent {P : Book → Move → Prop} {b b' : Book} {m : Move}
    (h : b.Moved P m b') (prudent : Prudent b m) (hb : b.Solvent) : b'.Solvent := by
  cases h with
  | still | number | advance | mint | transfer => exact hb
  | fund =>
      intro d
      obtain ⟨n, hn, hle⟩ := hb d
      have ha : (_ == b.address) = false := prudent.others
      refine ⟨n, ?_, hle⟩
      show ((b.bank.write _ _ _).balance b.address d).whole? = _
      rw [Bank.balance_write, ha]
      exact hn
  | @post place p b₀ e a ss as source posting honoured covered =>
      intro d
      obtain ⟨n, hn, hle⟩ := hb d
      have deposited : (b.posted p).deposited d = (b.putAll p.changes).deposited d := by
        rw [Book.deposited, Book.deposited, storedOffers, storedOffers, offers_posted]
      have flow := source.computed.flowAll_eq posting d
      have retained := source.computed.retainedIn_nonneg posting prudent.modest d
      refine ⟨n + Message.flowAll b.address d p.transfers, ?_, by omega⟩
      rw [address_posted, bank_posted]
      exact Bank.whole?_carryAll hn

/-! ### The two ways back -/

section ways
variable {b : Book} {e : Envelope} {id : Key} {o : Offer}

/-- A transaction that pays a deposit back to the lender is applied by a solvent book, or stalls. -/
theorem Computed.returns {p : Pending} {a : Action} {as : Attributes} {new : Offer} {c : Coin}
    {ss : List BankSend} (computed : Computed b e a p [] as) (sent : b.transact e a = .ok p)
    (hb : b.Coherent) (solvent : b.Solvent) (offer : b.storedOffer? id = some o)
    (deposit : o.deposit = some (.coin c)) (changes : p.changes = [.offer id (some o) new])
    (messages : p.messages = ss.map .send) (refund : Conveys b.address e.sender c ss) :
    b.Achieves e a (b.Returns e a c) := by
  have transfers : p.transfers = ss.map .send := by
    rw [Pending.transfers, computed.fundsIn, messages]
    rfl
  have covered : b.bank.Covers p.transfers := by
    obtain ⟨n, hn, hle⟩ := solvent c.denom
    have held := Book.depositIn_le_deposited offer c.denom
    rw [Offer.depositIn_coin deposit, Coin.amountIn, if_pos BEq.rfl] at held
    rw [transfers]
    exact Bank.covers_of_conveys refund hn (by omega)
  have honoured : b.registry.Honours p.transfers := by
    rw [transfers]
    exact Registry.honours_coins (by simp)
  have fits : b.changesRefusal? p.changes = .ok none := by
    rw [changes, Book.changesRefusal?_none_iff, List.forall_mem_singleton]
    exact Book.changeRefusal?_offer offer
  refine computed.achieves sent hb fits covered honoured fun applied book => ?_
  refine ⟨p, sent, applied, fun d n hn => ?_⟩
  rw [book, Book.bank_posted, Bank.whole?_carryAll hn, transfers, refund.flow_in]

theorem Offer.Recorded.legible_id (h : o.Recorded b.address id) : id.value.Legible := by
  obtain ⟨t, named⟩ := h.named
  rw [named]
  exact Key.legible_text t

theorem Offer.Recorded.exists_refund {c : Coin} (h : o.Recorded b.address id)
    (deposit : o.deposit = some (.coin c)) : ∃ ss, Conveys b.address o.lender c ss := by
  apply exists_conveys
  intro positive
  rw [BEq.comm]
  exact h.payable c deposit positive

/-- How a deposit goes back: nothing comes in, and the offer is all that changes. -/
structure Refunds (b : Book) (e : Envelope) (id : Key) (o : Offer) (c : Coin)
    (cs : List Change) (ss : List BankSend) (ms : List Message) (as : Attributes) : Prop where
  funds : ss = []
  changes : ∃ new, cs = [.offer id (some o) new]
  messages : ∃ ps, ms = ps.map .send ∧ Conveys b.address e.sender c ps
  attributes : as = ([("global_offer_id", id.value)] : Attributes)

/-- A call whose transactions pay the deposit back gives it back. -/
theorem recovers_of_refunds (hb : b.Coherent) (recorded : b.Recorded) (plain : b.Plain)
    (solvent : b.Solvent) {c : Coin} {a : Action} (offer : b.storedOffer? id = some o)
    (deposit : o.deposit = some (.coin c)) {cs : List Change} {ss : List BankSend}
    {ms : List Message} {as : Attributes} (plan : Action.Plan b e a cs ss ms as)
    (given : a.Legible) (numbers : a.NumbersShort b e)
    (refunds : ∀ {cs ss ms as}, Action.Plan b e a cs ss ms as → Refunds b e id o c cs ss ms as) :
    b.Achieves e a (b.Returns e a c) := by
  obtain ⟨t, rfl⟩ := (recorded.offer id o offer).named
  have written : ∀ x ∈ as, x.2.Writable := by
    rw [(refunds plan).attributes, List.forall_mem_singleton]
    exact Key.writable_text t
  obtain ⟨p, hp⟩ := plan.transact_ok hb (recorded.legible plain) given numbers written
  obtain ⟨ss, as, computed⟩ := transact_plan hp
  obtain ⟨rfl, ⟨new, changes⟩, ⟨ps, messages, refund⟩, -⟩ := refunds computed.plan
  exact computed.returns hp hb solvent offer deposit changes messages refund

section calls
variable {c : Coin} (hb : b.Coherent) (offer : b.storedOffer? id = some o)
  (mine : (o.lender == (e.sender : Key)) = true)
include hb offer mine

/-- The deposit of an offer that reads as published goes back when the offer is cancelled. -/
theorem cancelOffer_recovers (recorded : b.Recorded) (plain : b.Plain) (solvent : b.Solvent)
    (deposit : o.deposit = some (.coin c))
    (published : o.stateIf (b.closes o.listing) = .published) :
    b.Achieves e (.cancelOffer id) (b.Returns e (.cancelOffer id) c) := by
  have made := recorded.offer id o offer
  obtain ⟨l, hl⟩ := hb.listed offer
  obtain ⟨pending, opened⟩ := Offer.stateIf_eq_published_iff.1 published
  have opened := (Book.closes_eq_false_iff hl).1 opened
  obtain ⟨ps, refund⟩ := made.exists_refund deposit
  have plan : Action.Plan b e (.cancelOffer id) _ _ _ _ :=
    .cancel offer mine pending hl opened deposit refund
  have given : (Action.cancelOffer id).Legible := made.legible_id
  refine recovers_of_refunds hb recorded plain solvent offer deposit plan given trivial ?_
  intro cs ss ms as plan
  cases plan with
  | cancel offer' mine' pending' stored published' deposit' refund' =>
      cases offer.symm.trans offer'
      cases deposit.symm.trans deposit'
      rw [Key.eq_text_of_beq (BEq.symm mine)] at refund'
      exact ⟨rfl, ⟨_, rfl⟩, ⟨_, rfl, refund'⟩, rfl⟩
  | configure made => cases made

/-- The deposit of an offer that reads as refused goes back when it is asked for. -/
theorem withdrawRefused_recovers (recorded : b.Recorded) (plain : b.Plain) (solvent : b.Solvent)
    (deposit : o.deposit = some (.coin c))
    (refused : o.stateIf (b.closes o.listing) = .refused) :
    b.Achieves e (.withdrawRefused id) (b.Returns e (.withdrawRefused id) c) := by
  have made := recorded.offer id o offer
  obtain ⟨ps, refund⟩ := made.exists_refund deposit
  have plan : Action.Plan b e (.withdrawRefused id) _ _ _ _ :=
    .recover offer mine refused deposit refund
  have given : (Action.withdrawRefused id).Legible := made.legible_id
  refine recovers_of_refunds hb recorded plain solvent offer deposit plan given trivial ?_
  intro cs ss ms as plan
  cases plan with
  | recover offer' mine' refused' deposit' refund' =>
      cases offer.symm.trans offer'
      cases deposit.symm.trans deposit'
      rw [Key.eq_text_of_beq (BEq.symm mine)] at refund'
      exact ⟨rfl, ⟨_, rfl⟩, ⟨_, rfl, refund'⟩, rfl⟩
  | configure made => cases made

theorem cancelOffer_denied (other : o.stateIf (b.closes o.listing) ≠ .published) :
    b.Denies e (.cancelOffer id) := by
  obtain ⟨l, hl⟩ := hb.listed offer
  refine ⟨.cantChangeOffer (o.stateIf (b.closes o.listing)) .cancelled,
    Book.raises_of_effects ?_, rfl⟩
  refine bind_of_ok (Book.requireStoredOffer_of offer) ?_
  refine bind_of_ok (a := ()) (if_pos mine) ?_
  refine bind_of_ok (discard_of (Book.requireRecord_of hl)) ?_
  exact if_pos other

theorem withdrawRefused_denied
    (other : o.stateIf (b.closes o.listing) ≠ .refused ∨ o.deposit = none) :
    b.Denies e (.withdrawRefused id) := by
  obtain ⟨l, hl⟩ := hb.listed offer
  by_cases refused : o.stateIf (b.closes o.listing) = .refused
  · have empty : (o.readIf (b.closes o.listing)).deposit = none :=
      other.resolve_left (not_not_intro refused)
    refine ⟨.ofOfferState .noFundsToWithdraw (o.stateIf (b.closes o.listing)),
      Book.raises_of_effects ?_, rfl⟩
    refine bind_of_ok (Book.requireStoredOffer_of offer) ?_
    refine bind_of_ok (a := ()) (if_pos mine) ?_
    refine bind_of_ok (discard_of (Book.requireRecord_of hl)) ?_
    refine (if_neg (not_not_intro refused)).trans (bind_of_error ?_)
    unfold Offer.release
    rw [empty]
    rfl
  · refine ⟨.ofOfferState .notWithdrawable (o.stateIf (b.closes o.listing)),
      Book.raises_of_effects ?_, rfl⟩
    refine bind_of_ok (Book.requireStoredOffer_of offer) ?_
    refine bind_of_ok (a := ()) (if_pos mine) ?_
    refine bind_of_ok (discard_of (Book.requireRecord_of hl)) ?_
    exact if_pos refused

end calls

end ways

/-! ### After a run -/

/-- An offer with a deposit reads as published or as refused. -/
theorem Offer.Escrowed.reads_refused {o : Offer} {t : Terms} {d : Tender} {closed : Bool}
    (h : o.Escrowed t) (deposit : o.deposit = some d) (other : o.stateIf closed ≠ .published) :
    o.stateIf closed = .refused := by
  unfold Offer.stateIf at other ⊢
  split
  · rfl
  · rename_i opened
    rw [if_neg opened] at other
    cases state : o.state with
    | published => exact absurd state other
    | refused => rfl
    | accepted => cases (h.settled (.inl state)).symm.trans deposit
    | cancelled => cases (h.settled (.inr state)).symm.trans deposit

theorem Reaches.solvent {s₀ s : Session} (run : Reaches Prudent s₀ s) (fresh : s₀.IsFresh)
    (funded : ∀ d, ∃ n, (s₀.book.bank.balance s₀.book.address d).whole? = some n ∧ 0 ≤ n) :
    s.book.Solvent := by
  refine run.invariant fresh ?_ fun _ prudent moved hb => moved.solvent prudent hb
  intro d
  obtain ⟨n, hn, hpos⟩ := funded d
  have empty : s₀.book.deposited d = 0 := by
    rw [Book.deposited, Book.storedOffers, fresh.offers]
    rfl
  exact ⟨n, hn, by omega⟩

/-- In every session that a new contract reaches, the lender of an offer with a deposit gets exactly
the principal back at once: by cancelling the offer if it reads as published, by asking for the
deposit if it reads as refused, and the other call is refused. Only where the height or the name of
the book is too long to be written in the id of an execution, the call that should give it back
stalls. Of an offer without a deposit both calls are refused. -/
theorem escrow_recoverable {s₀ s : Session} (fresh : s₀.IsFresh) (plain : s₀.IsPlain)
    (funded : ∀ d, ∃ n, (s₀.book.bank.balance s₀.book.address d).whole? = some n ∧ 0 ≤ n)
    (run : Reaches Prudent s₀ s) {id : Key} {o : Offer} (read : s.book.offer? id = some o) :
    (∃ t : String, Text.isBlank t = false ∧ o.lender = t) ∧
      ∀ e : Envelope, (o.lender == (e.sender : Key)) = true →
        (o.deposit = none →
          s.book.Denies e (.cancelOffer id) ∧ s.book.Denies e (.withdrawRefused id)) ∧
        ∀ d, o.deposit = some d → ∃ t, o.terms = some t ∧ d = .coin t.principal ∧
          (o.state = .published ∧
              s.book.Achieves e (.cancelOffer id)
                (s.book.Returns e (.cancelOffer id) t.principal) ∧
              s.book.Denies e (.withdrawRefused id) ∨
            o.state = .refused ∧
              s.book.Achieves e (.withdrawRefused id)
                (s.book.Returns e (.withdrawRefused id) t.principal) ∧
              s.book.Denies e (.cancelOffer id)) := by
  obtain ⟨stored, offer, rfl⟩ := Option.map_eq_some_iff.1 read
  have coherent := (run.sound fresh).book
  have recorded := (run.recorded fresh).2
  have plain := run.plain fresh plain
  have solvent := run.solvent fresh funded
  refine ⟨(recorded.offer id stored offer).lender, ?_⟩
  intro e mine
  constructor
  · intro empty
    obtain ⟨t, -, escrowed⟩ := (coherent.offer id stored offer).escrow
    have settled : stored.stateIf (s.book.closes stored.listing) ≠ .published := by
      intro published
      have held := escrowed.published (Offer.stateIf_eq_published_iff.1 published).1
      cases held.symm.trans empty
    exact ⟨cancelOffer_denied coherent offer mine settled,
      withdrawRefused_denied coherent offer mine (.inr empty)⟩
  · intro d deposit
    obtain ⟨t, terms, escrowed⟩ := (coherent.offer id stored offer).escrow
    obtain rfl := escrowed.coin deposit
    refine ⟨t, terms, rfl, ?_⟩
    by_cases published : stored.stateIf (s.book.closes stored.listing) = .published
    · refine .inl ⟨published,
        cancelOffer_recovers coherent offer mine recorded plain solvent deposit published,
        withdrawRefused_denied coherent offer mine (.inl ?_)⟩
      rw [published]
      decide
    · have refused := escrowed.reads_refused deposit published
      exact .inr ⟨refused,
        withdrawRefused_recovers coherent offer mine recorded plain solvent deposit refused,
        cancelOffer_denied coherent offer mine published⟩

theorem escrow_recoverable_lent :
    Session.lent.book.Returns (Session.bob []) (.withdrawRefused "1")
        (Session.stars 1000) ∧
      Session.lent.book.Denies (Session.bob []) (.cancelOffer "1") := by
  have run : Reaches Prudent Session.opening Session.lent :=
    Session.reaches_lent (by decide +kernel)
  have read : ∃ o, Session.lent.book.offer? "1" = some o ∧ o.lender = "bob" ∧
      o.deposit = some (.coin (Session.stars 1000)) ∧ o.state = .refused := by
    have any : (Session.lent.book.offer? "1").any (fun o => o.lender = Key.text "bob" ∧
        o.deposit = some (.coin (Session.stars 1000)) ∧ o.state = .refused) = true := by
      decide +kernel
    simpa [Option.any_eq_true] using any
  obtain ⟨o, read, lender, deposit, refused⟩ := read
  obtain ⟨-, recoverable⟩ := escrow_recoverable Session.isFresh_opening Session.isPlain_opening
    (fun d => ⟨0, rfl, Int.le_refl 0⟩) run read
  obtain ⟨t, terms, principal, h⟩ :=
    (recoverable (Session.bob []) (by rw [lender]; rfl)).2 _ deposit
  obtain ⟨published, -⟩ | ⟨-, h⟩ := h
  · cases published.symm.trans refused
  · rw [Tender.coin.inj principal]
    exact ⟨h.1.outcome (by decide +kernel), h.2⟩

/-- Bob's deposit is stuck: his offer reads as refused, and no call of his is applied any more. -/
theorem escrow_stuck :
    Reaches Prudent Session.opening Session.aged ∧
      (Session.aged.book.offer? "1").any (fun o => o.lender = Key.text "bob" ∧
        o.deposit = some (.coin (Session.stars 1000)) ∧ o.state = .refused) = true ∧
      Session.aged.book.Stalls (Session.bob []) (.withdrawRefused "1") ∧
      ∀ a c, ¬ Session.aged.book.Returns (Session.bob []) a c := by
  have run : Reaches Prudent Session.opening Session.aged :=
    (Session.reaches_lent (by decide +kernel)).run (by decide +kernel)
  obtain ⟨f, id⟩ : ∃ f, Session.aged.book.requireExecId = .error f :=
    toOption_eq_none_iff.1 (by decide +kernel)
  have sent : ∃ p ∈ (Session.aged.book.transact (Session.bob []) (.withdrawRefused "1")).toOption,
      (Session.aged.book.refusal? p).toOption = some none := by decide +kernel
  refine ⟨run, by decide +kernel, ?_, ?_⟩
  · obtain ⟨p, sent, fits⟩ := sent
    exact Book.stalls_of_transact (toOption_eq_some_iff.1 sent) id (toOption_eq_some_iff.1 fits)
  · rintro a c ⟨p, sent, applied, -⟩
    exact Book.not_applied_of_transact sent id applied

end Pawnbook
