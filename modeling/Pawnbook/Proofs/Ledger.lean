import Pawnbook.Book.EscrowAudit
import Pawnbook.Proofs.Flow
import Pawnbook.Proofs.Numeral
import Pawnbook.Proofs.Payback
import Pawnbook.Proofs.Session

/-! # The escrow ledger

The contract holds what its offers have deposited, and what repayments have left with it: a
treasury's cut that is below zero, which nobody pays, and a fee that it pays to itself. Both are
read off the log (`Transaction.retainedIn`). Every posting moves as much to or from the contract
as it changes deposits and retained cuts (`Computed.flowAll_eq`), so the equation holds after every
run (`escrow_ledger`). -/

namespace Pawnbook

/-! ### Deposits -/

def Offer.depositIn (o : Offer) (d : Key) : Nat := (o.escrow?.map (·.amountIn d)).getD 0

theorem Offer.depositIn_coin {o : Offer} {c : Coin} (h : o.deposit = some (.coin c)) (d : Key) :
    o.depositIn d = c.amountIn d := by
  rw [depositIn, escrow?, h]
  rfl

theorem Offer.depositIn_none {o : Offer} (h : o.deposit = none) (d : Key) : o.depositIn d = 0 := by
  rw [depositIn, escrow?, h]
  rfl

namespace Book

/-- What all stored offers hold in a denomination. -/
def deposited (b : Book) (d : Key) : Nat := (b.storedOffers.map (·.depositIn d)).sum

section stored
variable {b : Book} {id : Key} {o : Offer}

theorem deposited_put_offer (b : Book) (id : Key) (old : Option Offer) (new : Offer) (d : Key) :
    (b.put (.offer id old new)).deposited d +
        ((b.storedOffer? id).map (·.depositIn d)).getD 0 =
      b.deposited d + new.depositIn d := by
  cases old with
  | none => exact Table.sum_insert (·.depositIn d) b.offers.offers id new
  | some o => exact Table.sum_insert (·.depositIn d) b.offers.offers id new

theorem deposited_put_new (fresh : b.storedOffer? id = none) (b' : Book)
    (hb : b'.offers = b.offers) (d : Key) :
    (b'.put (.offer id none o)).deposited d = b.deposited d + o.depositIn d := by
  have h := b'.deposited_put_offer id none o d
  rw [storedOffer?, hb, show b.offers.get? id = none from fresh, deposited, deposited,
    storedOffers, storedOffers, hb] at h
  exact h

theorem deposited_put_stored (stored : b.storedOffer? id = some o) (b' : Book)
    (hb : b'.offers = b.offers) (old : Option Offer) (new : Offer) (d : Key) :
    (b'.put (.offer id old new)).deposited d + o.depositIn d =
      b.deposited d + new.depositIn d := by
  have h := b'.deposited_put_offer id old new d
  rw [storedOffer?, hb, show b.offers.get? id = some o from stored, deposited, deposited,
    storedOffers, storedOffers, hb] at h
  exact h

end stored

theorem escrowed_get? (b : Book) (d : Key) : (b.escrowed.get? d).getD 0 = b.deposited d := by
  have fold : ∀ (cs : List Coin) (t : Table Key Nat),
      ((cs.foldl (fun t c => t.insert c.denom ((t.get? c.denom).getD 0 + c.amount)) t).get?
        d).getD 0 = (t.get? d).getD 0 + (cs.map (·.amountIn d)).sum := by
    intro cs
    induction cs with
    | nil => intro t; rfl
    | cons c cs ih =>
        intro t
        rw [List.foldl_cons, ih, List.map_cons, List.sum_cons, Table.get?_insert]
        unfold Coin.amountIn
        split
        · rename_i hd
          rw [Table.get?_congr t hd, Option.getD_some, Nat.add_assoc]
        · rw [Nat.zero_add]
  have sums : ∀ os : List Offer, ((os.filterMap (·.escrow?)).map (·.amountIn d)).sum =
      (os.map (·.depositIn d)).sum := by
    intro os
    induction os with
    | nil => rfl
    | cons o os ih =>
        rw [List.map_cons, List.sum_cons, ← ih, Offer.depositIn]
        cases ho : o.escrow? with
        | none => simp [ho]
        | some c => simp [ho]
  rw [escrowed, Offer.escrowTotals, fold, sums]
  exact Nat.zero_add _

end Book

/-! ### What repayments leave behind -/

/-- The message brings a coin of the denomination. -/
def Message.isSendIn (d : Key) : Message → Bool
  | .send s => (s.coin.denom : Key) == d
  | .transfer _ | .fee _ | .other _ => false

/-- The message is a fee paid to the address. -/
def Message.isFeeTo (address : Key) : Message → Bool
  | .fee f => f.recipient == address
  | .send _ | .transfer _ | .other _ => false

namespace Transaction

/-- The treasury's cut that the transaction is described with. -/
def cut? (t : Transaction) : Option Int :=
  match t.attributes.get? "treasury_cut" with
  | some (.text s) => (Text.readInt s).toOption
  | _ => none

def isRepayment (t : Transaction) : Bool := t.origin.action = .text "repay_borrowed_funds"

/-- A coin of the denomination comes in with the transaction. -/
def isPaidIn (t : Transaction) (d : Key) : Bool := t.fundsIn.any (·.isSendIn d)

def paysFeeTo (t : Transaction) (address : Key) : Bool := t.messages.any (·.isFeeTo address)

/-- What the transaction leaves with the contract: the treasury's cut of a repayment if it is below
zero or paid to the contract itself. -/
def retainedIn (t : Transaction) (contract d : Key) : Int :=
  if t.isRepayment && t.isPaidIn d then
    match t.cut? with
    | some cut => if cut < 0 ∨ t.paysFeeTo contract = true then cut else 0
    | none => 0
  else 0

theorem isRepayment_iff {t : Transaction} {a : Action} (action : t.origin.action = .text a.name) :
    t.isRepayment = true ↔ ∃ loanId, a = .repay loanId := by
  rw [isRepayment, action]
  cases a <;> simp [Action.name]

theorem retainedIn_of_other {t : Transaction} (h : t.isRepayment = false) (contract d : Key) :
    t.retainedIn contract d = 0 := by
  rw [retainedIn, h]
  rfl

end Transaction

/-- What the logged repayments have left with the contract. -/
def Book.retained (b : Book) (d : Key) : Int := (b.log.map (·.retainedIn b.address d)).sum

/-! ### Reading the cut -/

theorem find?_texts {key k : Key} {v : Value} : ∀ {as texts : Attributes},
    as.mapM (fun (k, v) => do return (k, Value.text (← v.written))) =
      (.ok texts : Except Decimal.Failure _) →
    as.find? (·.1 == key) = some (k, v) →
    ∃ s, v.written = .ok s ∧ texts.find? (·.1 == key) = some (k, .text s)
  | [], _, _, h => by cases h
  | (k', v') :: as, texts, hm, h => by
      rw [List.mapM_cons] at hm
      obtain ⟨x, hx, hm⟩ := bind_ok hm
      obtain ⟨rest, hrest, hm⟩ := bind_ok hm
      obtain ⟨s, hs, hx⟩ := bind_ok hx
      cases hx
      cases hm
      cases hk : k' == key with
      | true =>
          simp only [List.find?_cons, hk] at h ⊢
          cases h
          exact ⟨s, hs, rfl⟩
      | false =>
          simp only [List.find?_cons, hk] at h ⊢
          exact find?_texts hrest h

theorem cut?_of_repay {t : Transaction} {key : ListingKey} {lender : Key} {id : Value}
    {payback cut : Int} {texts : Attributes}
    (ht : ((Action.loanAttributes key lender id ++
        ([("lender_payback", .int payback), ("treasury_cut", .int cut)] : Attributes)).filter
          fun x => x.2 != .null).mapM (fun (k, v) => do return (k, Value.text (← v.written))) =
      (.ok texts : Except Decimal.Failure _))
    (ha : t.attributes = (("action" : Key), Value.text "repay_borrowed_funds") :: texts) :
    t.cut? = some cut := by
  have hf : ((Action.loanAttributes key lender id ++
      ([("lender_payback", .int payback), ("treasury_cut", .int cut)] : Attributes)).filter
        fun x => x.2 != .null).find? (·.1 == ("treasury_cut" : Key)) =
      some (("treasury_cut" : Key), Value.int cut) := by
    simp [Action.loanAttributes, List.find?_filter]
  obtain ⟨s, hs, htexts⟩ := find?_texts ht hf
  obtain ⟨short, rfl⟩ := Value.written_ok_iff.1 hs
  have hget : t.attributes.get? "treasury_cut" = some (.text (Text.ofInt cut)) := by
    have hne : (("action" : Key) == ("treasury_cut" : Key)) = false := by simp
    simp only [ha, Attributes.get?, List.find?_cons, hne, htexts]
    rfl
  rw [Transaction.cut?, hget]
  dsimp only
  rw [Text.readInt_ofInt short]
  rfl

/-! ### What a posting moves -/

theorem Number.toDecimal_of_whole? {a : Number} {n : Int} (h : a.whole? = some n) :
    a.toDecimal = .ofInt n := by
  cases a with
  | whole | truth => cases h; rfl
  | floating => cases h

theorem Terms.interest_nonneg (t : Terms) {n : Int} (h : t.interest.whole? = some n) : 0 ≤ n := by
  have hv := t.interest_valid
  unfold Number.isNegative Number.isBelow at hv
  rw [h, Number.whole?_whole] at hv
  simpa using hv

theorem any_isFeeTo_sends (address : Key) (ss : List BankSend) :
    (ss.map Message.send).any (·.isFeeTo address) = false := by
  simp [Message.isFeeTo]

theorem any_isFeeTo_transfers (address : Key) (ts : List NftTransfer) :
    (ts.map Message.transfer).any (·.isFeeTo address) = false := by
  simp [Message.isFeeTo]

/-- The lender's share of an interest that a repayment settles. -/
theorem share_bounds {terms : Terms} {interest share : Int} {rate : Decimal}
    (whole : terms.interest.whole? = some interest) (hr : rate.IsRate)
    (split : Repayment.lenderInterest terms.interest.toDecimal rate = .ok share) :
    0 ≤ share ∧ (interest < 10 ^ 50 → share ≤ interest) := by
  rw [Number.toDecimal_of_whole? whole] at split
  exact Repayment.lenderInterest_bounds (terms.interest_nonneg whole) hr split

/-- The transaction repays a loan: the payment comes in, the lender's part of it goes out, and so
does the rest as a fee. -/
inductive Transaction.Repays (t : Transaction) (contract distributor : Key) (payment : Coin)
    (payback : Int) : Prop
  | intro {sender lender : Key} {ss ps : List BankSend} {ts : List NftTransfer}
      {fs : List FeeDeposit} (action : t.isRepayment = true) (funds : t.fundsIn = ss.map .send)
      (messages : t.messages = ps.map .send ++ ts.map .transfer ++ fs.map .fee)
      (cut : t.cut? = some (payment.amount - payback)) (nonneg : 0 ≤ payback)
      (zero : payment.amount = 0 → payback = 0) (escrow : Conveys sender contract payment ss)
      (payout : Conveys contract lender (payment.withAmount payback.toNat) ps)
      (fees : Charges contract distributor
        (payment.withAmount (payment.amount - payback).toNat) fs)

namespace Transaction.Repays
variable {t : Transaction} {contract distributor : Key} {payment : Coin} {payback : Int}

theorem isPaidIn_eq (h : t.Repays contract distributor payment payback) (d : Key) :
    t.isPaidIn d = (payment.amount != 0 && (payment.denom : Key) == d) := by
  obtain ⟨-, funds, -, -, -, -, escrow, -, -⟩ := h
  unfold isPaidIn
  rw [funds]
  cases escrow with
  | nothing hz => simp [hz]
  | send hd hp => simp [hp, Message.isSendIn]

theorem paysFeeTo_eq (h : t.Repays contract distributor payment payback) :
    t.paysFeeTo contract = (decide (payback < payment.amount) && distributor == contract) := by
  obtain ⟨-, -, messages, -, -, -, -, -, fees⟩ := h
  unfold paysFeeTo
  rw [messages, List.any_append, List.any_append, any_isFeeTo_sends, any_isFeeTo_transfers]
  cases fees with
  | nothing hz =>
      have hz : (payment.amount - payback).toNat = 0 := hz
      have hn : ¬ payback < payment.amount := by omega
      simp [hn]
  | fee addresses hp =>
      have hp : (payment.amount - payback).toNat ≠ 0 := hp
      have hn : payback < payment.amount := by omega
      simp [hn, Message.isFeeTo]

theorem retainedIn_eq (h : t.Repays contract distributor payment payback) (d : Key) :
    t.retainedIn contract d =
      if payment.amount ≠ 0 ∧ ((payment.denom : Key) == d) = true ∧
          (payment.amount < payback ∨
            payback < payment.amount ∧ (distributor == contract) = true)
      then payment.amount - payback else 0 := by
  have paid := h.isPaidIn_eq d
  have charged := h.paysFeeTo_eq
  obtain ⟨action, -, -, cut, -, -, -, -, -⟩ := h
  have negative : (payment.amount : Int) - payback < 0 ↔ payment.amount < payback := by omega
  rw [retainedIn, action, cut, paid, charged]
  simp only [Bool.true_and, Bool.and_eq_true, bne_iff_ne, decide_eq_true_eq, negative]
  by_cases hz : payment.amount ≠ 0 <;> by_cases hd : ((payment.denom : Key) == d) = true
  · rw [if_pos ⟨hz, hd⟩]
    simp only [hz, hd, true_and, ne_eq, not_false_eq_true]
  all_goals simp [hz, hd]

theorem flowAll_eq (h : t.Repays contract distributor payment payback) (d : Key) :
    Message.flowAll contract d t.transfers = t.retainedIn contract d := by
  rw [h.retainedIn_eq]
  obtain ⟨-, funds, messages, -, nonneg, zero, escrow, payout, fees⟩ := h
  rw [transfers, funds, messages]
  simp only [Message.flowAll_append, Message.flowAll_transfers, escrow.flow_in, payout.flow_out,
    fees.flow_out, Coin.amountIn, Coin.withAmount]
  by_cases hd : ((payment.denom : Key) == d) = true
  · simp only [hd, Int.toNat_of_nonneg nonneg, ↓reduceIte, true_and]
    cases hr : distributor == contract with
    | true =>
        simp only [and_true, ↓reduceIte]
        split <;> omega
    | false =>
        simp only [Bool.false_eq_true, and_false, or_false, ↓reduceIte]
        split <;> omega
  · simp [hd]

/-- Nothing is left of a repayment that covers the lender's part and pays its fee to someone
else. -/
theorem retainedIn_eq_zero (h : t.Repays contract distributor payment payback)
    (covered : payback ≤ payment.amount) (stranger : (distributor == contract) = false) (d : Key) :
    t.retainedIn contract d = 0 := by
  rw [h.retainedIn_eq, if_neg]
  rintro ⟨-, -, hlt | ⟨-, hs⟩⟩
  · omega
  · cases stranger.symm.trans hs

end Transaction.Repays

section postings
variable {b b₀ : Book} {c : Config} {e : Envelope} {a : Action} {cs : List Change}
  {ss : List BankSend} {ms : List Message} {as : Attributes}

/-- Every other posting moves to the contract what it adds to the deposits. -/
theorem Action.Posting.flowAll_eq (h : Posting b c e a cs ss ms as)
    (other : ∀ loanId, a ≠ .repay loanId) (d : Key) :
    Message.flowAll b.address d (ss.map .send ++ ms) =
      ((b.putAll cs).deposited d : Int) - b.deposited d := by
  rw [Message.flowAll_append]
  cases h with
  | deposit | modify | withdraw | configure => exact (Int.sub_self _).symm
  | makeOffer _ _ _ _ _ fresh escrow =>
      rw [Book.putAll_cons, Book.putAll_cons, Book.putAll_cons, Book.putAll_nil,
        Book.deposited_put_new fresh ((b.put (.config _ _)).put (.listing _ _ _)) rfl,
        escrow.flow_in, Offer.depositIn_coin rfl, Message.flowAll_nil]
      omega
  | acceptLoan _ _ _ _ _ _ _ fresh escrow payout =>
      rw [Book.putAll_cons, Book.putAll_cons, Book.putAll_cons, Book.putAll_nil,
        Book.deposited_put_new fresh ((b.put (.config _ _)).put (.listing _ _ _)) rfl,
        escrow.flow_in, Message.flowAll_append, payout.flow_out, Message.flowAll_transfers,
        Offer.depositIn_none rfl]
      omega
  | @acceptOffer id o l old new t start height ps ts as offer _ _ _ _ _ _ _ deposit payout =>
      have hd := Book.deposited_put_stored offer (b.put (.listing o.listing (some old) new)) rfl
        (some o) { o with deposit := none, state := .accepted } d
      rw [Offer.depositIn_coin deposit, Offer.depositIn_none rfl] at hd
      rw [Message.flowAll_append, payout.flow_out, Message.flowAll_transfers, List.map_nil,
        Message.flowAll_nil, Book.putAll_cons, Book.putAll_cons, Book.putAll_nil]
      omega
  | @cancel id o t ss as offer _ deposit refund =>
      have hd := Book.deposited_put_stored offer b rfl (some o)
        { o with deposit := none, state := .cancelled } d
      rw [Offer.depositIn_coin deposit, Offer.depositIn_none rfl] at hd
      rw [refund.flow_out, List.map_nil, Message.flowAll_nil, Book.putAll_cons, Book.putAll_nil]
      omega
  | @recover id o t ss as offer _ deposit refund =>
      have hd := Book.deposited_put_stored offer b rfl (some o)
        { o with deposit := none, state := .refused } d
      rw [Offer.depositIn_coin deposit, Offer.depositIn_none rfl] at hd
      rw [refund.flow_out, List.map_nil, Message.flowAll_nil, Book.putAll_cons, Book.putAll_nil]
      omega
  | @refuse id o as offer =>
      have hd := Book.deposited_put_stored offer b rfl (some o) { o with state := .refused } d
      have hsame : Offer.depositIn { o with state := .refused } d = o.depositIn d := rfl
      rw [List.map_nil, Message.flowAll_nil, Book.putAll_cons, Book.putAll_nil]
      omega
  | repay => exact absurd rfl (other _)
  | claim =>
      rw [List.map_nil, Message.flowAll_nil, Message.flowAll_transfers]
      exact (Int.sub_self _).symm

/-- Every interest that a stored offer asks for has at most fifty digits. -/
def Book.Modest (b : Book) : Prop :=
  ∀ o ∈ b.storedOffers, ∀ t ∈ o.terms, ∀ interest ∈ t.interest.whole?, interest < 10 ^ 50

instance (b : Book) : Decidable b.Modest :=
  inferInstanceAs (Decidable (∀ o ∈ b.storedOffers, _))

/-- The posting of a repayment is logged as one. It covers the lender's part if the interest is not
too large. -/
theorem Computed.repays {p : Pending} {loanId : Key}
    (computed : Computed b₀ e (.repay loanId) p ss as)
    (posting : Action.Posting b c e (.repay loanId) p.changes ss p.messages as) :
    (∀ d, (b.putAll p.changes).deposited d = b.deposited d) ∧
      ∃ payment payback, (b.nextTransaction p).Repays b.address c.feeDistributor payment payback ∧
        (b.Modest → payback ≤ payment.amount) := by
  obtain ⟨texts, ht, attributes⟩ := computed.attributes
  have repays : (b.nextTransaction p).isRepayment = true :=
    (Transaction.isRepayment_iff computed.action).2 ⟨loanId, rfl⟩
  have messages : (b.nextTransaction p).messages = p.messages := rfl
  generalize p.changes = cs, p.messages = ms at posting messages ⊢
  cases posting with
  | configure made => cases made
  | @repay _ l old new id o terms interest share payment ss ps ts fs _ _ _ _ offer agreed _ whole
      enough sound split escrow payout _ fees =>
      obtain ⟨nonneg, hle⟩ := share_bounds whole sound.rate split
      have hi := terms.interest_nonneg whole
      have cut : (b.nextTransaction p).cut? =
          some (payment.amount - (terms.principal.amount + share)) := cut?_of_repay ht attributes
      have hpayback : 0 ≤ (terms.principal.amount + share : Int) := by omega
      -- a payment of nothing covers no interest, and then the share of it is nothing too
      have zero : payment.amount = 0 → (terms.principal.amount + share : Int) = 0 := by
        intro hz
        have hzero : interest = 0 := by omega
        have hshare : share ≤ interest := by
          apply hle
          rw [hzero]
          decide
        omega
      refine ⟨fun d => rfl, payment, terms.principal.amount + share, ?_, ?_⟩
      · exact .intro repays computed.fundsIn messages cut hpayback zero escrow payout fees
      · intro modest
        have hmem : o ∈ b.storedOffers := Table.mem_values_of_get? offer
        have hshare := hle (modest o hmem terms agreed interest whole)
        omega

theorem Computed.flowAll_eq {p : Pending} (computed : Computed b₀ e a p ss as)
    (posting : Action.Posting b c e a p.changes ss p.messages as) (d : Key) :
    Message.flowAll b.address d p.transfers =
      ((b.putAll p.changes).deposited d : Int) - b.deposited d +
        (b.nextTransaction p).retainedIn b.address d := by
  by_cases hr : (b.nextTransaction p).isRepayment = true
  · obtain ⟨loanId, rfl⟩ := (Transaction.isRepayment_iff computed.action).1 hr
    obtain ⟨kept, payment, payback, repays, -⟩ := computed.repays posting
    have hflow : Message.flowAll b.address d p.transfers =
        (b.nextTransaction p).retainedIn b.address d := repays.flowAll_eq d
    rw [kept, Int.sub_self, Int.zero_add, hflow]
  · have other : ∀ loanId, a ≠ .repay loanId := fun loanId h =>
      hr ((Transaction.isRepayment_iff computed.action).2 ⟨loanId, h⟩)
    rw [Transaction.retainedIn_of_other (Bool.eq_false_iff.2 hr), Pending.transfers,
      computed.fundsIn, posting.flowAll_eq other d, Int.add_zero]

end postings

/-! ### The ledger over a run -/

/-- What happens to balances from outside happens to those of others. -/
def FundsOthers (b : Book) : Move → Prop
  | .fund address _ _ => (address == b.address) = false
  | .compute _ _ | .execute _ | .advance _ _ | .mint _ _ | .transfer _ _ _ => True

instance (b : Book) : ∀ m, Decidable (FundsOthers b m)
  | .fund _ _ _ => inferInstanceAs (Decidable (_ = false))
  | .compute _ _ | .execute _ | .advance _ _ | .mint _ _ | .transfer _ _ _ => .isTrue trivial

/-- The contract holds the deposits of its offers, and what repayments have left with it. -/
def Book.Balanced (b : Book) : Prop :=
  ∀ d, (b.bank.balance b.address d).whole? = some (b.deposited d + b.retained d)

/-- No repayment has left anything with the contract. -/
def Book.Settled (b : Book) : Prop := ∀ t ∈ b.log, ∀ d, t.retainedIn b.address d = 0

/-- Balances of others are set, loans are repaid at modest interests, and the contract is not its
own fee distributor. -/
structure Ordinary (b : Book) (m : Move) : Prop where
  others : FundsOthers b m
  modest : b.Modest
  stranger : (b.config.feeDistributor == b.address) = false

instance (b : Book) (m : Move) : Decidable (Ordinary b m) :=
  decidable_of_iff
    (FundsOthers b m ∧ b.Modest ∧ (b.config.feeDistributor == b.address) = false)
    ⟨fun ⟨h, h', h''⟩ => ⟨h, h', h''⟩, fun h => ⟨h.others, h.modest, h.stranger⟩⟩

namespace Book
variable {P : Book → Move → Prop} {b b' : Book} {m : Move}

theorem Moved.balanced (h : b.Moved P m b') (others : FundsOthers b m) (hb : b.Balanced) :
    b'.Balanced := by
  cases h with
  | still => exact hb
  | number | advance | mint | transfer => exact hb
  | fund =>
      intro d
      have ha : (_ == b.address) = false := others
      show ((b.bank.write _ _ _).balance b.address d).whole? = _
      rw [Bank.balance_write, ha]
      exact hb d
  | @post place p b₀ e a ss as source posting honoured covered =>
      intro d
      have hd : (b.posted p).deposited d = (b.putAll p.changes).deposited d := by
        rw [deposited, deposited, storedOffers, storedOffers, offers_posted]
      have hr : (b.posted p).retained d =
          b.retained d + (b.nextTransaction p).retainedIn b.address d := by
        rw [retained, retained, address_posted, log_posted]
        simp
      rw [address_posted, bank_posted, Bank.whole?_carryAll (hb d),
        source.computed.flowAll_eq posting, hd, hr]
      congr 1
      omega

theorem Moved.settled (h : b.Moved Ordinary m b') (modest : b.Modest) (hb : b.Settled) :
    b'.Settled := by
  cases h with
  | still => exact hb
  | number | advance | fund | mint | transfer => exact hb
  | @post place p b₀ e a ss as source posting honoured covered =>
      intro t ht d
      rw [address_posted]
      rw [log_posted, List.mem_append, List.mem_singleton] at ht
      rcases ht with ht | rfl
      · exact hb t ht d
      · by_cases hr : (b.nextTransaction p).isRepayment = true
        · obtain ⟨loanId, rfl⟩ := (Transaction.isRepayment_iff source.computed.action).1 hr
          obtain ⟨-, payment, payback, repays, covered⟩ := source.computed.repays posting
          refine repays.retainedIn_eq_zero (covered modest) ?_ d
          rw [source.since.address]
          exact source.allowed.stranger
        · exact Transaction.retainedIn_of_other (Bool.eq_false_iff.2 hr) b.address d

theorem Settled.retained_eq_zero (h : b.Settled) (d : Key) : b.retained d = 0 := by
  have hz : b.log.map (·.retainedIn b.address d) = b.log.map fun _ => 0 :=
    List.map_congr_left fun t ht => h t ht d
  rw [retained, hz, List.map_const', List.sum_replicate_int, Int.mul_zero]

/-- With nothing retained the audit finds no discrepancy. -/
theorem Balanced.isValid (h : b.Balanced) (settled : b.Settled) :
    b.auditEscrow.isValid = true := by
  rw [EscrowAudit.isValid, auditEscrow, List.isEmpty_iff, List.filterMap_eq_nil_iff]
  intro d _
  have hd := h d
  rw [settled.retained_eq_zero, Int.add_zero] at hd
  rw [escrowed_get?, if_pos]
  unfold Number.same
  rw [hd]
  simp

end Book

/-- After every run from a new contract without a balance, the contract holds the deposits of its
offers and what repayments have left with it, in every denomination. The audit of the escrow is
valid if interests have at most fifty digits and the contract is not its own fee distributor. -/
theorem escrow_ledger {s₀ : Session} (fresh : s₀.IsFresh)
    (empty : ∀ d, (s₀.book.bank.balance s₀.book.address d).whole? = some 0) :
    (∀ s, Reaches FundsOthers s₀ s → s.book.Balanced) ∧
      ∀ s, Reaches Ordinary s₀ s → s.book.auditEscrow.isValid = true := by
  have start : s₀.book.Balanced := by
    intro d
    have hd : s₀.book.deposited d = 0 := by
      rw [Book.deposited, Book.storedOffers, fresh.offers]
      rfl
    have hr : s₀.book.retained d = 0 := by
      rw [Book.retained, fresh.log]
      rfl
    rw [empty d, hd, hr]
    rfl
  have settled : s₀.book.Settled := by
    intro t ht
    rw [fresh.log] at ht
    cases ht
  constructor
  · intro s run
    apply run.invariant fresh start
    intro b m b' _ others moved hb
    exact moved.balanced others hb
  · intro s run
    have hs : s.book.Balanced ∧ s.book.Settled := by
      apply run.invariant (I := fun b => b.Balanced ∧ b.Settled) fresh ⟨start, settled⟩
      intro b m b' _ ordinary moved hb
      exact ⟨moved.balanced ordinary.others hb.1, moved.settled ordinary.modest hb.2⟩
    exact hs.1.isValid hs.2

theorem escrow_ledger_lent : Session.lent.book.Balanced ∧
    Session.lent.book.auditEscrow.isValid = true ∧ Session.lent.book.deposited "stars" = 1000 := by
  obtain ⟨balanced, valid⟩ := escrow_ledger Session.isFresh_opening fun d => rfl
  have run : Reaches FundsOthers Session.opening Session.lent :=
    Session.reaches_lent (by decide +kernel)
  have ordinary : Reaches Ordinary Session.opening Session.lent :=
    Session.reaches_lent (by decide +kernel)
  exact ⟨balanced _ run, valid _ ordinary, by decide +kernel⟩

end Pawnbook
