import Pawnbook.Proofs.Application
import Pawnbook.Proofs.Ledger

/-! # Repayments and the escrow of others

A repayment brings the payment in and pays the lender and the fee distributor out of it. The
contract is left with what it had before, less what the lender gets beyond the payment, and that is
nothing as long as the interests of the stored offers have at most fifty digits
(`repayment_outcome`). An interest of more digits is rounded when it is split, and may be rounded
up: at a fee rate of zero the lender of `Session.overdrawn` gets four coins more than was paid,
which another lender had deposited (`repayment_overdraws`). -/

namespace Pawnbook

/-- The contract is not its own fee distributor. -/
def Stranger (b : Book) (_ : Move) : Prop := (b.config.feeDistributor == b.address) = false

instance (b : Book) (m : Move) : Decidable (Stranger b m) := inferInstanceAs (Decidable (_ = false))

/-- What a repayment leaves with the contract is what the lender's part lacks of the payment. -/
theorem Transaction.Repays.retainedIn_eq_min {t : Transaction} {contract distributor : Key}
    {payment : Coin} {payback : Int} (h : t.Repays contract distributor payment payback)
    (stranger : (distributor == contract) = false) (d : Key) :
    t.retainedIn contract d =
      if (payment.denom : Key) == d then min 0 (payment.amount - payback) else 0 := by
  rw [h.retainedIn_eq]
  obtain ⟨-, -, -, -, nonneg, zero, -, -, -⟩ := h
  by_cases hd : ((payment.denom : Key) == d) = true
  · simp only [hd, stranger, true_and, Bool.false_eq_true, and_false, or_false, ↓reduceIte]
    split <;> omega
  · simp [hd]

/-- An applied repayment takes from the contract what the lender gets beyond the payment, and
nothing if the interests of the stored offers have at most fifty digits. -/
theorem repayment_outcome {s₀ s : Session} (fresh : s₀.IsFresh) (run : Reaches Stranger s₀ s)
    {p : Pending} (kept : p ∈ s.kept)
    (repays : p.origin.action = .text "repay_borrowed_funds")
    (applied : (s.book.execute p).answer = .ok .applied) :
    ∃ distributor payment payback,
      (s.book.nextTransaction p).Repays s.book.address distributor payment payback ∧
      (s.book.Modest → payback ≤ payment.amount) ∧
      ∀ d n, (s.book.bank.balance s.book.address d).whole? = some n →
        ((s.book.execute p).book.bank.balance s.book.address d).whole? =
          some (n +
            if (payment.denom : Key) == d then min 0 (payment.amount - payback) else 0) := by
  have sound := run.sound fresh
  obtain ⟨b₀, e, a, ss, as, source⟩ := sound.kept p kept
  obtain ⟨posting, -, -, posted⟩ :=
    source.computed.posted_of_applied source.coherent source.since sound.book applied
  have repayment : (s.book.nextTransaction p).isRepayment = true := decide_eq_true repays
  obtain ⟨loanId, rfl⟩ := (Transaction.isRepayment_iff source.computed.action).1 repayment
  obtain ⟨-, payment, payback, logged, covered⟩ := source.computed.repays posting
  have stranger : (b₀.config.feeDistributor == s.book.address) = false := by
    rw [source.since.address]
    exact source.allowed
  refine ⟨_, payment, payback, logged, covered, ?_⟩
  intro d n hn
  have flow : Message.flowAll s.book.address d p.transfers =
      (s.book.nextTransaction p).retainedIn s.book.address d := logged.flowAll_eq d
  rw [posted, Book.bank_posted, Bank.whole?_carryAll hn, flow, logged.retainedIn_eq_min stranger]

namespace Session

/-- The owner sets the fee rate to zero. Alice lists her token and asks for a loan at an interest
of `10 ^ 50 + 6`. Bob makes her another offer, Carol takes her terms, and Alice computes the
repayment of exactly what she owes. -/
def overdrawing : List Move :=
  [.compute owner (.setFeeRate (.decimal (.finite false 0 0))),
   .execute 0,
   .mint (.nft cat) "alice",
   .compute (alice [])
    (.deposit [.nft cat] (some (.ofNat (stars 500) (10 ^ 50 + 6) 10)) none none),
   .execute 1,
   .fund "bob" "stars" (.whole 1000),
   .compute (bob [.coin (stars 1000)])
    (.makeOffer ⟨"alice", .int 0⟩ (some (.ofNat (stars 1000) 120 100)) none),
   .execute 2,
   .fund "carol" "stars" (.whole 1000),
   .compute (carol [.coin (stars 500)]) (.acceptLoan ⟨"alice", .int 0⟩ none),
   .execute 3,
   .fund "alice" "stars" (.whole (10 ^ 50 + 506)),
   .compute (alice [.coin (stars (10 ^ 50 + 506))]) (.repay (.int 0))]

/-- The new contract before Alice repays: it holds the thousand coins that Bob deposited. -/
def overdrawn : Session := opening.run overdrawing

theorem reaches_overdrawn : Reaches Stranger opening overdrawn :=
  Reaches.start.run (by decide +kernel)

/-- The repayment that Alice computed is applied with a cut of minus four, and the contract is left
with four coins less. -/
theorem overdrawn_repayment : ∃ p ∈ overdrawn.kept,
    p.origin.action = .text "repay_borrowed_funds" ∧
      (overdrawn.book.execute p).answer = .ok .applied ∧
      (overdrawn.book.nextTransaction p).cut? = some (-4) ∧
      (overdrawn.book.bank.balance overdrawn.book.address "stars").whole? = some 1000 ∧
      ((overdrawn.book.execute p).book.bank.balance overdrawn.book.address "stars").whole? =
        some 996 := by
  have last : overdrawn.kept[4]?.any (fun p =>
      p.origin.action = .text "repay_borrowed_funds" ∧
      (overdrawn.book.execute p).answer.toOption = some .applied ∧
      (overdrawn.book.nextTransaction p).cut? = some (-4) ∧
      (overdrawn.book.bank.balance overdrawn.book.address "stars").whole? = some 1000 ∧
      ((overdrawn.book.execute p).book.bank.balance overdrawn.book.address "stars").whole? =
        some 996) = true := by decide +kernel
  obtain ⟨p, kept, facts⟩ := (Option.any_eq_true _ _).1 last
  obtain ⟨repays, applied, facts⟩ := of_decide_eq_true facts
  exact ⟨p, List.mem_of_getElem? kept, repays, toOption_eq_some_iff.1 applied, facts⟩

end Session

theorem repayment_outcome_overdrawn : ∃ p ∈ Session.overdrawn.kept, ∃ distributor payment payback,
    (Session.overdrawn.book.nextTransaction p).Repays Session.overdrawn.book.address distributor
        payment payback ∧
      ((Session.overdrawn.book.execute p).book.bank.balance Session.overdrawn.book.address
          "stars").whole? =
        some (1000 +
          if (payment.denom : Key) == "stars" then min 0 (payment.amount - payback) else 0) := by
  obtain ⟨p, kept, repays, applied, -, before, -⟩ := Session.overdrawn_repayment
  obtain ⟨distributor, payment, payback, logged, -, after⟩ := repayment_outcome
    Session.isFresh_opening Session.reaches_overdrawn kept repays applied
  exact ⟨p, kept, distributor, payment, payback, logged, after _ _ before⟩

/-- Four of the coins that Bob deposited go to Carol when Alice repays exactly what she owes, though
the contract is not its own fee distributor. -/
theorem repayment_overdraws : Reaches Stranger Session.opening Session.overdrawn ∧
    ∃ p ∈ Session.overdrawn.kept, p.origin.action = .text "repay_borrowed_funds" ∧
      (Session.overdrawn.book.execute p).answer = .ok .applied ∧
      (Session.overdrawn.book.nextTransaction p).cut? = some (-4) ∧
      (Session.overdrawn.book.bank.balance Session.overdrawn.book.address "stars").whole? =
        some 1000 ∧
      ((Session.overdrawn.book.execute p).book.bank.balance Session.overdrawn.book.address
        "stars").whole? = some 996 :=
  ⟨Session.reaches_overdrawn, Session.overdrawn_repayment⟩

end Pawnbook
