import Pawnbook.Proofs.Application
import Pawnbook.Proofs.Custody
import Pawnbook.Proofs.Ledger
import Pawnbook.Proofs.Recorded

/-! # Loans can be settled

A loan that runs can be settled at every height that can be written, and by one party: by the
borrower, who repays, until its default block comes, and by the lender, who claims the assets, from
then on (`loan_settleable`). No other step of a settlement can fail, as the contract holds every
pledged token for one loan only, is neither borrower nor lender, and owes nothing (`Book.Ready`). At
a height that is too long to be written nobody can settle a loan any more (`loan_stuck`). -/

namespace Pawnbook

/-! ### What settlements rest on -/

/-- Others than the contract compute transactions, and no token that the contract holds is touched
from outside. -/
def Apart (b : Book) : Move → Prop
  | .compute e _ => ((e.sender : Key) == b.address) = false
  | .mint asset _ => ∀ t ∈ tokensIn [asset], ¬ b.Holds t
  | .transfer token _ _ => ¬ b.Holds token
  | .fund _ _ _ | .execute _ | .advance _ _ => True

instance (b : Book) : ∀ m, Decidable (Apart b m)
  | .compute _ _ => inferInstanceAs (Decidable (_ = false))
  | .mint _ _ => inferInstanceAs (Decidable (∀ t ∈ tokensIn _, ¬ _))
  | .transfer _ _ _ => inferInstanceAs (Decidable (¬ _))
  | .fund _ _ _ | .execute _ | .advance _ _ => .isTrue trivial

/-- Moves are `Apart`, and balances are set for others than the contract only. -/
def Untouched (b : Book) (m : Move) : Prop := Apart b m ∧ FundsOthers b m

instance (b : Book) (m : Move) : Decidable (Untouched b m) := inferInstanceAs (Decidable (_ ∧ _))

/-- What is pledged is in custody, and the contract is neither borrower nor lender. -/
structure Book.Impartial (b : Book) : Prop where
  secured : b.Secured
  borrowers : b.Foreign
  lenders : ∀ id o, b.storedOffer? id = some o → (o.lender == b.address) = false

/-- The book is impartial, and the balances of the contract are whole numbers that are not below
zero. -/
structure Book.Ready (b : Book) : Prop extends b.Impartial where
  funded : ∀ d, ∃ n, (b.bank.balance b.address d).whole? = some n ∧ 0 ≤ n

theorem Registry.Holds.assign {r : Registry} {c o : Key} {t u : Token} (hu : r.Holds c u)
    (ht : ¬ r.Holds c t) : (r.assign t o).Holds c u := by
  rw [holds_assign, if_neg fun htu => ht (hu.congr (BEq.symm htu))]
  exact hu

theorem Action.Posting.lenders {b b' : Book} {c : Config} {e : Envelope} {a : Action}
    {cs : List Change} {ss : List BankSend} {ms : List Message} {as : Attributes}
    (h : Posting b c e a cs ss ms as)
    (hb : ∀ id o, b.storedOffer? id = some o → (o.lender == b.address) = false)
    (stranger : ((e.sender : Key) == b.address) = false)
    (offers : ∀ id, b'.storedOffer? id = (b.putAll cs).storedOffer? id) :
    ∀ id o, b'.storedOffer? id = some o → (o.lender == b.address) = false := by
  -- one offer is written, and all others are as they were
  have put : ∀ {b₁ : Book} {id : Key} {old : Option Offer} {new : Offer},
      b₁.offers = b.offers → (new.lender == b.address) = false →
      ∀ id' o, (b₁.put (.offer id old new)).storedOffer? id' = some o →
        (o.lender == b.address) = false := by
    intro b₁ id old new same foreign id' o ho
    rw [Book.storedOffer?_put_offer] at ho
    split at ho
    · cases ho
      exact foreign
    · rw [Book.storedOffer?, same] at ho
      exact hb id' o ho
  intro id o ho
  rw [offers] at ho
  cases h with
  | deposit | modify | withdraw | repay | claim | configure => exact hb id o ho
  | makeOffer | acceptLoan => exact put rfl stranger id o ho
  | acceptOffer offer | cancel offer | refuse offer | recover offer =>
      have kept := hb _ _ offer
      refine put rfl ?_ id o ho
      exact kept

theorem Book.Moved.impartial {b b' : Book} {m : Move} (h : b.Moved Apart m b') (apart : Apart b m)
    (hb : b.Impartial) : b'.Impartial := by
  obtain ⟨secured, borrowers, lenders⟩ := hb
  cases h with
  | still => exact ⟨secured, borrowers, lenders⟩
  | number | advance | fund =>
      exact ⟨secured.keep (fun _ _ => Iff.rfl) fun _ ht => ht, borrowers, lenders⟩
  | mint =>
      have free := apart _ List.mem_cons_self
      exact ⟨secured.keep (fun _ _ => Iff.rfl) fun _ ht => ht.assign free, borrowers, lenders⟩
  | transfer =>
      exact ⟨secured.keep (fun _ _ => Iff.rfl) fun _ ht => ht.assign apart, borrowers, lenders⟩
  | @post place p b₀ e a ss as source posting honoured covered =>
      have stranger : ((e.sender : Key) == b.address) = false := by
        rw [source.since.address]
        exact source.allowed
      have registry := b.registry_posted p
      rw [Pending.transfers, source.computed.fundsIn] at honoured registry
      constructor
      · exact secured.handover (posting.handover borrowers stranger (b.address_posted p)
          (b.listing?_posted p) registry honoured)
      · exact posting.foreign borrowers stranger (b.address_posted p) (b.listing?_posted p)
      · rw [b.address_posted]
        exact posting.lenders lenders stranger (b.storedOffer?_posted p)

theorem Session.IsFresh.impartial {s : Session} (fresh : s.IsFresh) : s.book.Impartial := by
  have unlisted : ∀ key, s.book.listing? key = none := by
    intro key
    rw [Book.listing?, fresh.listings]
    rfl
  have unoffered : ∀ id, s.book.storedOffer? id = none := by
    intro id
    rw [Book.storedOffer?, fresh.offers]
    rfl
  refine ⟨⟨?_, ?_, ?_⟩, ?_, ?_⟩
  · rintro key assets ⟨l, hl, -⟩
    cases (unlisted key).symm.trans hl
  · rintro key assets ⟨l, hl, -⟩
    cases (unlisted key).symm.trans hl
  · rintro key key' assets assets' ⟨l, hl, -⟩
    cases (unlisted key).symm.trans hl
  · intro key l hl
    cases (unlisted key).symm.trans hl
  · intro id o ho
    cases (unoffered id).symm.trans ho

theorem Reaches.impartial {s₀ s : Session} (run : Reaches Apart s₀ s) (fresh : s₀.IsFresh) :
    s.book.Impartial :=
  run.invariant fresh fresh.impartial fun _ apart moved hb => moved.impartial apart hb

theorem Book.Moved.ready {b b' : Book} {m : Move} (h : b.Moved Untouched m b')
    (untouched : Untouched b m) (hb : b.Ready) : b'.Ready := by
  refine ⟨(h.weaken fun _ _ h => h.1).impartial untouched.1 hb.toImpartial, fun d => ?_⟩
  have funded := hb.funded d
  cases h with
  | still | number | advance | mint | transfer => exact funded
  | fund =>
      have other : (_ == b.address) = false := untouched.2
      show ∃ n, ((b.bank.write _ _ _).balance b.address d).whole? = some n ∧ 0 ≤ n
      rw [Bank.balance_write, other]
      exact funded
  | post source posting honoured covered =>
      obtain ⟨n, hn, hpos⟩ := funded
      rw [b.address_posted, b.bank_posted]
      exact ⟨_, Bank.whole?_carryAll hn, Bank.nonneg_of_covers hn hpos covered⟩

/-! ### Running loans -/

/-- A loan: the listing of a borrower under a number, the offer of a lender under an id, its terms,
and the block in which it started. -/
structure Loan where
  borrower : String
  number : Int
  listing : Listing
  lender : String
  id : Key
  offer : Offer
  terms : Terms
  start : Int

namespace Loan

/-- The key of the loan's listing. -/
def key (x : Loan) : ListingKey := ⟨x.borrower, .int x.number⟩

/-- The first block in which the loan is in default. -/
def deadline (x : Loan) : Number := (Number.whole x.start).add x.terms.duration

/-- What an address gains by a repayment of the loan. -/
def gain (x : Loan) (distributor : Key) (payment : Coin) (payback : Int) (c d : Key) : Int :=
  if (payment.denom : Key) == d then
    (if (x.lender : Key) == c then payback else 0) +
        (if distributor == c then payment.amount - payback else 0) -
      (if (x.borrower : Key) == c then (payment.amount : Int) else 0)
  else 0

end Loan

/-- The loan runs: its listing has started, and names the offer and the start. -/
structure Book.Runs (b : Book) (x : Loan) : Prop where
  listing : b.listing? x.key = some x.listing
  started : x.listing.state = .started
  active : x.listing.activeOffer = some x.id
  start : x.listing.startBlock = some (.int x.start)
  offer : b.storedOffer? x.id = some x.offer
  lender : x.offer.lender = x.lender
  terms : x.offer.terms = some x.terms

/-- The call is applied: the listing of the loan goes into the state, all of its assets are tokens
that belong to the recipient then, and balances go up by what their addresses gain. -/
def Book.Settles (b : Book) (e : Envelope) (a : Action) (x : Loan) (state : LoanState)
    (recipient : Key) (gain : Key → Key → Int) : Prop :=
  ∃ p, b.transact e a = .ok p ∧ (b.execute p).answer = .ok .applied ∧
    (b.execute p).book.listing? x.key = some { x.listing with state } ∧
    (∀ asset ∈ x.listing.assets, ∃ nft, asset = .nft nft ∧
      (b.execute p).book.registry.Holds recipient nft.token) ∧
    ∀ c d n, (b.bank.balance c d).whole? = some n →
      ((b.execute p).book.bank.balance c d).whole? = some (n + gain c d)

theorem Book.exists_runs {b : Book} {key : ListingKey} {l : Listing} (hb : b.Coherent)
    (recorded : b.Recorded) (stored : b.listing? key = some l) (started : l.state = .started) :
    ∃ x : Loan, b.Runs x ∧ (key == x.key) = true ∧ x.listing = l := by
  obtain ⟨borrower, number, -, hkey, -⟩ := (recorded.listing key l stored).named
  obtain ⟨id, o, start, height, active, offer, -, -, since, -, -⟩ :=
    (hb.listing key l stored).lent (by rw [started]; rfl)
  obtain ⟨lender, -, hlender⟩ := (recorded.offer id o offer).lender
  obtain ⟨t, terms, -⟩ := (hb.offer id o offer).escrow
  refine ⟨⟨borrower, number, l, lender, id, o, t, start⟩, ?_, hkey, rfl⟩
  exact ⟨(b.listing?_congr hkey).symm.trans stored, started, active, since, offer, hlender, terms⟩

section settle
variable {b : Book} {x : Loan} {e : Envelope}

namespace Book.Runs

theorem requireOffer (runs : b.Runs x) :
    b.requireOffer x.id = .ok (x.offer.readIf (b.closes x.offer.listing)) :=
  Book.requireOffer_of_stored runs.offer

theorem isDefaulted_eq (runs : b.Runs x) (closed : Bool) (height : Number) :
    x.listing.isDefaulted (x.offer.readIf closed).terms height = x.deadline.isAtMost height := by
  have terms : (x.offer.readIf closed).terms = some x.terms := runs.terms
  unfold Listing.isDefaulted Listing.defaultBlock?
  rw [runs.started, terms, runs.start]
  rfl

theorem stored (runs : b.Runs x) : b.listings.get? x.key = some (.listing x.listing) :=
  Book.get?_of_listing? runs.listing

theorem number_writable (runs : b.Runs x) (recorded : b.Recorded) :
    (Value.int x.number).Writable := by
  obtain ⟨borrower, n, -, same, hn⟩ := (recorded.listing _ _ runs.listing).named
  have same := congrArg Key.value ((Key.beq_iff _ _).1 ((ListingKey.beq_iff _ _).1 same).2)
  cases same
  exact hn

theorem number_legible (runs : b.Runs x) (recorded : b.Recorded) : (Value.int x.number).Legible :=
  (Value.legible_int _).2 (Value.writable_iff.1 (runs.number_writable recorded))

theorem written (runs : b.Runs x) (recorded : b.Recorded) :
    ∀ v ∈ Action.loanAttributes x.key x.lender x.id.value, v.2.Writable := by
  have active := (recorded.listing _ _ runs.listing).active _ runs.active
  exact Action.writable_loanAttributes_iff.2
    ⟨Key.writable_text _, Key.writable_text _, runs.number_writable recorded, active⟩

end Book.Runs

theorem Listing.exists_moveAssets_ok {s r : Key} {refusal : Asset → Error} :
    ∀ {assets : List Asset}, (∀ a ∈ assets, ∃ n, a = .nft n) →
      ∃ ts, moveAssets s r refusal assets = .ok ts
  | [], _ => ⟨[], rfl⟩
  | a :: assets, h => by
      rw [List.forall_mem_cons] at h
      obtain ⟨⟨n, rfl⟩, rest⟩ := h
      obtain ⟨ts, hts⟩ := exists_moveAssets_ok rest
      exact ⟨⟨n, s, r⟩ :: ts, bind_of_ok hts rfl⟩

/-- What is pledged can be released, and is the contract's to hand over. -/
theorem Book.Secured.exists_released (h : b.Secured) (runs : b.Runs x) (recipient : Key) :
    ∃ ts, x.listing.outOfCustody b.address recipient = .ok ts ∧
      b.registry.Honours (ts.map .transfer) := by
  have pledged : b.Pledges x.key x.listing.assets := ⟨_, runs.listing, runs.started, rfl⟩
  have held := h.held _ _ pledged
  have releasable : ∃ ts, x.listing.outOfCustody b.address recipient = .ok ts :=
    Listing.exists_moveAssets_ok fun a ha => (held a ha).imp fun _ hn => hn.1
  obtain ⟨ts, released⟩ := releasable
  refine ⟨ts, released, ?_⟩
  obtain ⟨assets, moved⟩ := Listing.moveAssets_ok released
  apply Registry.honours_held fun t ht => (moved t ht).1
  · intro t ht
    have mem : Asset.nft t.nft ∈ x.listing.assets := by
      rw [assets]
      exact List.mem_map_of_mem ht
    obtain ⟨n, hn, hold⟩ := held _ mem
    cases hn
    exact hold
  · have once := h.once _ _ pledged
    rw [assets, tokensIn_map, List.pairwise_map] at once
    exact once

/-- A transaction that settles a running loan and moves no tokens but the assets is applied if its
coins are there, or stalls. -/
theorem Computed.settles {p : Pending} {a : Action} {ss : List BankSend} {as : Attributes}
    {state : LoanState} {recipient : Key} {ts : List NftTransfer}
    (computed : Computed b e a p ss as) (sent : b.transact e a = .ok p) (hb : b.Coherent)
    (runs : b.Runs x)
    (changes : p.changes = [.listing x.key (some x.listing) { x.listing with state }])
    (released : x.listing.outOfCustody b.address recipient = .ok ts)
    (registry : p.transfers.foldl Registry.carry b.registry =
      (ts.map .transfer).foldl Registry.carry b.registry)
    (covered : b.bank.Covers p.transfers) (honoured : b.registry.Honours p.transfers) :
    b.Achieves e a
      (b.Settles e a x state recipient fun c d => Message.flowAll c d p.transfers) := by
  have fits : b.changesRefusal? p.changes = .ok none := by
    rw [changes, Book.changesRefusal?_none_iff, List.forall_mem_singleton]
    exact Book.changeRefusal?_listing runs.stored
  refine computed.achieves sent hb fits covered honoured fun applied posted => ?_
  obtain ⟨assets, moved⟩ := Listing.moveAssets_ok released
  refine ⟨p, sent, applied, ?_, ?_, ?_⟩
  · rw [posted, Book.listing?_posted, changes, Book.putAll_cons, Book.putAll_nil,
      Book.listing?_put_listing, if_pos BEq.rfl]
  · intro asset mem
    rw [assets] at mem
    obtain ⟨t, ht, rfl⟩ := List.mem_map.1 mem
    refine ⟨t.nft, rfl, ?_⟩
    rw [posted, Book.registry_posted, registry]
    exact (Registry.holds_gather (fun t ht => (moved t ht).2) _).2 (.inr ⟨t, ht, BEq.rfl⟩)
  · intro c d n hn
    rw [posted, Book.bank_posted, Bank.whole?_carryAll hn]

/-! ### Repayments -/

/-- How a repayment of the loan comes out: the payment comes in, the lender's part of it goes out,
the assets go back, and the rest is charged. -/
structure Loan.Repaid (x : Loan) (b : Book) (payment : Coin) (payback : Int) (cs : List Change)
    (ss : List BankSend) (ms : List Message) (as : Attributes) : Prop where
  changes : cs = [.listing x.key (some x.listing) { x.listing with state := .ended }]
  escrow : Conveys x.borrower b.address payment ss
  messages : ∃ ps ts fs, ms = ps.map .send ++ ts.map .transfer ++ fs.map .fee ∧
    Conveys b.address x.lender (payment.withAmount payback.toNat) ps ∧
    x.listing.outOfCustody b.address x.borrower = .ok ts ∧
    Charges b.address b.config.feeDistributor
      (payment.withAmount (payment.amount - payback).toNat) fs
  attributes : as = Action.loanAttributes x.key x.lender x.id.value ++
    ([("lender_payback", .int payback), ("treasury_cut", .int (payment.amount - payback))] :
      Attributes)

section repay
variable {payment : Coin} {interest share : Int} (runs : b.Runs x) (sender : e.sender = x.borrower)
  (funds : e.funds = [.coin payment])
include runs sender funds

theorem Action.Plan.repaid {cs : List Change} {ss : List BankSend} {ms : List Message}
    {as : Attributes} (plan : Plan b e (.repay (.int x.number)) cs ss ms as)
    (split : Repayment.lenderInterest x.terms.interest.toDecimal b.config.feeRate = .ok share) :
    x.Repaid b payment (x.terms.principal.amount + share) cs ss ms as := by
  cases plan with
  | configure made => cases made
  | repay stored started active offer running agreed funds' denom whole enough split' escrow payout
      released fees tagged =>
      rw [sender] at stored escrow released ⊢
      cases runs.stored.symm.trans stored
      cases runs.active.symm.trans active
      cases runs.requireOffer.symm.trans offer
      cases runs.terms.symm.trans agreed
      cases funds.symm.trans funds'
      cases split.symm.trans split'
      have lender : (x.offer.readIf (b.closes x.offer.listing)).lender = x.lender := runs.lender
      rw [lender] at payout ⊢
      exact ⟨rfl, escrow, ⟨_, _, _, rfl, payout, released, fees⟩, rfl⟩

/-- A running loan can be repaid before its deadline. -/
theorem Book.Ready.exists_repay_plan (ready : b.Ready)
    (denom : payment.denom = x.terms.principal.denom)
    (whole : x.terms.interest.whole? = some interest)
    (enough : x.terms.principal.amount + interest ≤ (payment.amount : Int))
    (early : x.deadline.isAtMost b.height = false)
    (split : Repayment.lenderInterest x.terms.interest.toDecimal b.config.feeRate = .ok share) :
    ∃ cs ss ms as, Action.Plan b e (.repay (.int x.number)) cs ss ms as := by
  have key : (ListingKey.mk e.sender (.int x.number)) = x.key := by rw [sender]; rfl
  have borrower : ((e.sender : Key) == b.address) = false := by
    rw [sender]
    exact ready.borrowers _ _ runs.listing
  have lender : (x.offer.lender == b.address) = false := ready.lenders _ _ runs.offer
  have hi := x.terms.interest_nonneg whole
  obtain ⟨ss, escrow⟩ := exists_conveys (c := payment) fun _ => borrower
  obtain ⟨ps, payout⟩ := exists_conveys
    (c := payment.withAmount (x.terms.principal.amount + share).toNat)
    fun _ => (BEq.comm (a := b.address) (b := x.offer.lender)).trans lender
  obtain ⟨ts, released, -⟩ := ready.secured.exists_released runs e.sender
  obtain ⟨fs, fees, tagged⟩ := Listing.exists_tagged released b.address b.config.feeDistributor
    (payment.withAmount (payment.amount - (x.terms.principal.amount + share)).toNat)
  refine ⟨_, _, _, _, .repay (key ▸ runs.stored) runs.started runs.active runs.requireOffer ?_
    runs.terms funds denom whole (by omega) split escrow payout released fees
    tagged⟩
  rw [runs.isDefaulted_eq, early]

omit sender funds in
/-- What a repayment is described with can be written if its parts can. -/
theorem Loan.Repaid.written_iff {payback : Int} {cs : List Change} {ss : List BankSend}
    {ms : List Message} {as : Attributes} (repaid : x.Repaid b payment payback cs ss ms as)
    (recorded : b.Recorded) :
    (∀ v ∈ as, v.2.Writable) ↔ payment.PartsWritable payback := by
  rw [repaid.attributes, List.forall_mem_append, List.forall_mem_cons, List.forall_mem_singleton]
  exact and_iff_right (runs.written recorded)

/-- A repayment with coins that cannot be written is refused. -/
theorem Book.Runs.repay_refused
    (split : Repayment.lenderInterest x.terms.interest.toDecimal b.config.feeRate = .ok share)
    (long : Text.isShort payment.amount = false) :
    ∃ error, b.Raises e (.repay (.int x.number)) error := by
  cases sent : b.transact e (.repay (.int x.number)) with
  | error error => exact ⟨error, Book.raises_of_transact sent⟩
  | ok p =>
      obtain ⟨ss, as, computed⟩ := transact_plan sent
      have repaid := computed.plan.repaid runs sender funds split
      have paid : payment.toValue.Legible :=
        repaid.escrow.legible fun m hm => computed.legible.transfers m
          (List.mem_append_left _ (by rw [computed.fundsIn]; exact hm))
      cases (Coin.legible_iff.1 paid).symm.trans long

end repay

section repaid
variable {payment : Coin} {payback : Int} {cs : List Change} {ss : List BankSend}
  {ms : List Message} {as : Attributes}

/-- What a repayment brings to an address, whoever of the parties it is. -/
theorem Loan.Repaid.flowAll_eq (repaid : x.Repaid b payment payback cs ss ms as)
    (nonneg : 0 ≤ payback) (covered : payback ≤ payment.amount) (c d : Key) :
    Message.flowAll c d (ss.map .send ++ ms) =
      x.gain b.config.feeDistributor payment payback c d := by
  obtain ⟨ps, ts, fs, rfl, payout, -, fees⟩ := repaid.messages
  have cut : ((payment.amount - payback).toNat : Int) = payment.amount - payback :=
    Int.toNat_of_nonneg (by omega)
  simp only [Message.flowAll_append, Message.flowAll_transfers, repaid.escrow.flow, payout.flow,
    fees.flow, Coin.flow, Coin.amountIn, Coin.withAmount, Loan.gain]
  by_cases hd : ((payment.denom : Key) == d) = true
  · simp only [hd, ↓reduceIte, Int.toNat_of_nonneg nonneg, cut]
    -- what the contract gains by the payment it pays out again
    cases b.address == c <;> simp only [Bool.false_eq_true, ↓reduceIte] <;> omega
  · simp [hd]

/-- The payment is there, and what is paid out of it comes in first. -/
theorem Loan.Repaid.covers (repaid : x.Repaid b payment payback cs ss ms as)
    (nonneg : 0 ≤ payback) (covered : payback ≤ payment.amount) {n m : Int}
    (whole : (b.bank.balance x.borrower payment.denom).whole? = some n)
    (enough : (payment.amount : Int) ≤ n)
    (funded : (b.bank.balance b.address payment.denom).whole? = some m) (hm : 0 ≤ m) :
    b.bank.Covers (ss.map .send ++ ms) := by
  obtain ⟨ps, ts, fs, rfl, payout, -, fees⟩ := repaid.messages
  have paidIn := @Bank.whole?_carryAll _ _ (ss.map .send) _ _ funded
  have paidOut := @Bank.whole?_carryAll _ _ (ps.map .send) _ _ paidIn
  have moved := @Bank.whole?_carryAll _ _ (ts.map .transfer) _ _ paidOut
  have same : payment.amountIn payment.denom = payment.amount := if_pos BEq.rfl
  have part : (payment.withAmount payback.toNat).amountIn payment.denom = payback.toNat :=
    if_pos BEq.rfl
  rw [repaid.escrow.flow_in, same] at paidIn paidOut moved
  rw [payout.flow_out, part] at paidOut moved
  rw [Message.flowAll_transfers, Int.add_zero] at moved
  rw [List.append_assoc, Bank.covers_append, Bank.covers_append, Bank.covers_append]
  refine ⟨Bank.covers_of_conveys repaid.escrow whole enough,
    Bank.covers_of_conveys payout paidIn ?_, Bank.covers_transfers ts _,
    Bank.covers_of_charges fees moved ?_⟩
  · show (payback.toNat : Int) ≤ _
    omega
  · show ((payment.amount - payback).toNat : Int) ≤ _
    omega

end repaid

/-- Before the deadline the borrower's repayment is applied. -/
theorem Book.Ready.repay_settles {payment : Coin} {interest n : Int} (ready : b.Ready)
    (hb : b.Coherent) (recorded : b.Recorded) (plain : b.Plain) (runs : b.Runs x)
    (sender : e.sender = x.borrower) (funds : e.funds = [.coin payment])
    (denom : payment.denom = x.terms.principal.denom)
    (whole : x.terms.interest.whole? = some interest) (modest : interest < 10 ^ 50)
    (enough : x.terms.principal.amount + interest ≤ (payment.amount : Int))
    (balance : (b.bank.balance x.borrower payment.denom).whole? = some n)
    (held : (payment.amount : Int) ≤ n) (early : x.deadline.isAtMost b.height = false) :
    ∃ payback, Repayment.lenderPayback x.terms.principal.worth x.terms.interest.toDecimal
        b.config.feeRate = .ok (.whole payback) ∧ 0 ≤ payback ∧ payback ≤ payment.amount ∧
      (Text.isShort payment.amount = true → b.Achieves e (.repay (.int x.number))
        (b.Settles e (.repay (.int x.number)) x .ended x.borrower
          (x.gain b.config.feeDistributor payment payback))) ∧
      (Text.isShort payment.amount = false →
        ∃ error, b.Raises e (.repay (.int x.number)) error) := by
  have hi := x.terms.interest_nonneg whole
  have split := Repayment.exists_lenderInterest_ok (by decide) hi modest hb.config.rate
  rw [← Number.toDecimal_of_whole? whole] at split
  obtain ⟨share, split⟩ := split
  obtain ⟨hshare, hle⟩ := share_bounds whole hb.config.rate split
  have hle := hle modest
  have nonneg : 0 ≤ x.terms.principal.amount + share := by omega
  have covered : x.terms.principal.amount + share ≤ (payment.amount : Int) := by omega
  obtain ⟨cs, ss, ms, as, plan⟩ :=
    ready.exists_repay_plan runs sender funds denom whole enough early split
  have given : (Action.repay (.int x.number)).Legible := runs.number_legible recorded
  refine ⟨_, bind_of_ok (by rw [split]; rfl) rfl, nonneg, covered, fun short => ?_,
    runs.repay_refused sender funds split⟩
  have paid : (Action.repay (.int x.number)).NumbersShort b e := by
    intro t ht
    rw [funds, List.mem_singleton] at ht
    subst ht
    exact Coin.legible_iff.2 short
  have parts := Coin.partsWritable_of_writable nonneg covered (Value.writable_iff.2 short)
  obtain ⟨p, sent⟩ := plan.transact_ok hb (recorded.legible plain) given paid
    (((plan.repaid runs sender funds split).written_iff runs recorded).2 parts)
  obtain ⟨ss, as, computed⟩ := transact_plan sent
  have repaid := computed.plan.repaid runs sender funds split
  have flow := repaid.flowAll_eq nonneg covered
  obtain ⟨m, funded, hm⟩ := ready.funded payment.denom
  have covers := repaid.covers nonneg covered balance held funded hm
  have transfers : p.transfers = ss.map .send ++ p.messages := by
    rw [Pending.transfers, computed.fundsIn]
  rw [← transfers] at flow covers
  obtain ⟨ps, ts, fs, messages, -, released, -⟩ := repaid.messages
  rw [messages] at transfers
  obtain ⟨ts', released', honoured⟩ := ready.secured.exists_released runs x.borrower
  cases released.symm.trans released'
  rw [← funext₂ flow]
  refine computed.settles sent hb runs repaid.changes released ?_ covers ?_
  · rw [transfers, List.foldl_append, List.foldl_append, List.foldl_append,
      Registry.foldl_carry_sends, Registry.foldl_carry_sends, Registry.foldl_carry_fees]
  · rw [transfers, Registry.honours_append, Registry.honours_append, Registry.honours_append,
      Registry.foldl_carry_sends, List.foldl_append, Registry.foldl_carry_sends]
    exact ⟨Registry.honours_coins (by simp), ⟨Registry.honours_coins (by simp), honoured⟩,
      Registry.honours_coins (by simp)⟩

/-! ### Claims -/

theorem Book.Runs.repay_raises (runs : b.Runs x) (sender : e.sender = x.borrower)
    (late : x.deadline.isAtMost b.height = true) :
    b.Raises e (.repay (.int x.number)) (.ofLoanState .wrongLoanState .defaulted) := by
  have key : (ListingKey.mk e.sender (.int x.number)) = x.key := by rw [sender]; rfl
  apply Book.raises_of_effects
  refine bind_of_ok (Book.requireListing_of (key ▸ runs.stored)) ?_
  refine (if_pos runs.started).trans ?_
  refine bind_of_ok (Book.activeLoan_of runs.active runs.requireOffer) (bind_of_error ?_)
  unfold Listing.requireRepayable
  rw [runs.isDefaulted_eq, late]
  rfl

theorem Book.Runs.claim_raises (runs : b.Runs x) (early : x.deadline.isAtMost b.height = false) :
    b.Raises e (.claimDefault x.key) (.ofLoanState .wrongLoanState .started) := by
  apply Book.raises_of_effects
  refine bind_of_ok (Book.requireListing_of runs.stored) ?_
  have lent : x.listing.activeOffer.mapM b.requireOffer =
      .ok (some (x.offer.readIf (b.closes x.offer.listing))) := by
    rw [runs.active]
    exact bind_of_ok runs.requireOffer rfl
  refine bind_of_ok lent (bind_of_error ?_)
  unfold Listing.requireDefaulted
  rw [Option.bind_some, runs.isDefaulted_eq, early, runs.started]
  rfl

/-- From the deadline on the lender's claim is applied, and moves no coins. -/
theorem Book.Ready.claim_settles (ready : b.Ready) (hb : b.Coherent) (recorded : b.Recorded)
    (plain : b.Plain) (runs : b.Runs x) (sender : e.sender = x.lender)
    (late : x.deadline.isAtMost b.height = true) :
    b.Achieves e (.claimDefault x.key)
      (b.Settles e (.claimDefault x.key) x .defaulted x.lender fun _ _ => 0) := by
  -- every claim of the loan comes out in the same way
  have claimed : ∀ {cs ss ms as}, Action.Plan b e (.claimDefault x.key) cs ss ms as →
      cs = [.listing x.key (some x.listing) { x.listing with state := .defaulted }] ∧ ss = [] ∧
        as = Action.loanAttributes x.key x.lender x.id.value ∧
        ∃ ts, ms = ts.map .transfer ∧ x.listing.outOfCustody b.address x.lender = .ok ts := by
    intro cs ss ms as plan
    cases plan with
    | configure made => cases made
    | claim stored started active offer mine overdue released =>
        cases runs.stored.symm.trans stored
        cases runs.active.symm.trans active
        cases runs.requireOffer.symm.trans offer
        have lender : (x.offer.readIf (b.closes x.offer.listing)).lender = x.lender := runs.lender
        rw [lender] at released ⊢
        exact ⟨rfl, rfl, rfl, _, rfl, released⟩
  obtain ⟨ts, released, honoured⟩ := ready.secured.exists_released runs x.lender
  have mine : (x.offer.lender == (e.sender : Key)) = true := by
    rw [runs.lender, sender]
    exact BEq.rfl
  have plan : Action.Plan b e (.claimDefault x.key) _ _ _ _ :=
    .claim runs.stored runs.started runs.active runs.requireOffer mine
      ((runs.isDefaulted_eq _ _).trans late) (runs.lender ▸ released)
  have given : (Action.claimDefault x.key).Legible :=
    ⟨Value.legible_text _, runs.number_legible recorded⟩
  obtain ⟨p, sent⟩ := plan.transact_ok hb (recorded.legible plain) given trivial <| by
    rw [(claimed plan).2.2.1]
    exact runs.written recorded
  obtain ⟨ss, as, computed⟩ := transact_plan sent
  obtain ⟨changes, rfl, -, ts', messages, released'⟩ := claimed computed.plan
  cases released.symm.trans released'
  have transfers : p.transfers = ts.map .transfer := by
    rw [Pending.transfers, computed.fundsIn, messages]
    rfl
  have settles := computed.settles sent hb runs changes released (by rw [transfers])
    (transfers ▸ Bank.covers_transfers ts b.bank) (transfers ▸ honoured)
  simp only [transfers, Message.flowAll_transfers] at settles
  exact settles

end settle

/-! ### After a run -/

/-- In every session that a new contract reaches, a started listing is that of a running loan, and
the loan can be settled at once, unless the height or the name of the book is too long to be written
in the id of an execution: then the call that should settle it stalls. Before the deadline it is the
borrower's to settle, with any payment that is enough, that the borrower has and that can be
written; nobody can claim the assets. From the deadline on it is the lender's, and the borrower
cannot repay. -/
theorem loan_settleable {s₀ s : Session} (fresh : s₀.IsFresh) (plain : s₀.IsPlain)
    (funded : ∀ d, ∃ n, (s₀.book.bank.balance s₀.book.address d).whole? = some n ∧ 0 ≤ n)
    (run : Reaches Untouched s₀ s) {key : ListingKey} {l : Listing}
    (stored : s.book.listing? key = some l) (started : l.state = .started) :
    ∃ x : Loan, s.book.Runs x ∧ (key == x.key) = true ∧ x.listing = l ∧
      (x.deadline.isAtMost s.book.height = false →
        (∀ (e : Envelope) (payment : Coin) (interest n : Int), e.sender = x.borrower →
          e.funds = [.coin payment] → payment.denom = x.terms.principal.denom →
          x.terms.interest.whole? = some interest → interest < 10 ^ 50 →
          x.terms.principal.amount + interest ≤ (payment.amount : Int) →
          (s.book.bank.balance x.borrower payment.denom).whole? = some n →
          (payment.amount : Int) ≤ n →
          ∃ payback, Repayment.lenderPayback x.terms.principal.worth x.terms.interest.toDecimal
              s.book.config.feeRate = .ok (.whole payback) ∧
            0 ≤ payback ∧ payback ≤ payment.amount ∧
            (Text.isShort payment.amount = true → s.book.Achieves e (.repay (.int x.number))
              (s.book.Settles e (.repay (.int x.number)) x .ended x.borrower
                (x.gain s.book.config.feeDistributor payment payback))) ∧
            (Text.isShort payment.amount = false →
              ∃ error, s.book.Raises e (.repay (.int x.number)) error)) ∧
        ∀ e, s.book.Raises e (.claimDefault x.key) (.ofLoanState .wrongLoanState .started)) ∧
      (x.deadline.isAtMost s.book.height = true →
        (∀ e : Envelope, e.sender = x.lender → s.book.Achieves e (.claimDefault x.key)
          (s.book.Settles e (.claimDefault x.key) x .defaulted x.lender fun _ _ => 0)) ∧
        ∀ e : Envelope, e.sender = x.borrower →
          s.book.Raises e (.repay (.int x.number)) (.ofLoanState .wrongLoanState .defaulted)) := by
  have coherent := (run.sound fresh).book
  have recorded := (run.recorded fresh).2
  have plain := run.plain fresh plain
  have ready : s.book.Ready := run.invariant fresh ⟨fresh.impartial, funded⟩
    fun _ untouched moved hb => moved.ready untouched hb
  obtain ⟨x, runs, hkey, hl⟩ := Book.exists_runs coherent recorded stored started
  refine ⟨x, runs, hkey, hl, ?_, ?_⟩
  · intro early
    refine ⟨?_, fun e => runs.claim_raises early⟩
    intro e payment interest n sender funds denom whole modest enough balance held
    exact ready.repay_settles coherent recorded plain runs sender funds denom whole modest enough
      balance held early
  · intro late
    exact ⟨fun e sender => ready.claim_settles coherent recorded plain runs sender late,
      fun e sender => runs.repay_raises sender late⟩

theorem loan_settleable_lent : ∃ x : Loan, Session.repayable.book.Runs x ∧ ∃ payback,
    Session.repayable.book.Settles (Session.alice [.coin (Session.stars 550)])
      (.repay (.int x.number)) x .ended x.borrower
      (x.gain Session.repayable.book.config.feeDistributor (Session.stars 550) payback) := by
  have run : Reaches Untouched Session.opening Session.repayable :=
    Reaches.start.run (by decide +kernel)
  have listed : (Session.repayable.book.listing? ⟨"alice", .int 0⟩).any (fun l =>
      l.state = .started ∧ l.activeOffer = some (Key.text "2") ∧
        l.startBlock = some (.int 12345)) = true := by
    decide +kernel
  have offered : (Session.repayable.book.storedOffer? "2").any (fun o =>
      o.terms = some (.ofNat (Session.stars 500) 50 10)) = true := by
    decide +kernel
  obtain ⟨l, stored, facts⟩ := (Option.any_eq_true _ _).1 listed
  obtain ⟨o, offer, agreed⟩ := (Option.any_eq_true _ _).1 offered
  obtain ⟨started, active, since⟩ := of_decide_eq_true facts
  obtain ⟨x, runs, hkey, rfl, before, -⟩ := loan_settleable Session.isFresh_opening
    Session.isPlain_opening (fun d => ⟨0, rfl, Int.le_refl 0⟩) run stored started
  have borrower : x.borrower = "alice" := by
    have same := Key.eq_text_of_beq ((ListingKey.beq_iff _ _).1 hkey).1
    exact Value.text.inj (congrArg Key.value same)
  have terms : x.terms = .ofNat (Session.stars 500) 50 10 := by
    have id : x.id = "2" := Option.some.inj (runs.active.symm.trans active)
    have same := runs.offer
    rw [id] at same
    cases offer.symm.trans same
    exact Option.some.inj (runs.terms.symm.trans (of_decide_eq_true agreed))
  have start : x.start = 12345 :=
    Value.int.inj (Option.some.inj (runs.start.symm.trans since))
  have balance : (Session.repayable.book.bank.balance "alice" "stars").whole? = some 600 := by
    decide +kernel
  have early : x.deadline.isAtMost Session.repayable.book.height = false := by
    rw [Loan.deadline, terms, start]
    decide +kernel
  obtain ⟨payback, -, -, -, settles, -⟩ := (before early).1
    (Session.alice [.coin (Session.stars 550)]) (Session.stars 550) 50 600 borrower.symm rfl
    (by rw [terms]; rfl) (by rw [terms]; rfl) (by decide) (by rw [terms]; decide)
    (by rw [borrower]; exact balance) (by decide)
  exact ⟨x, runs, payback, (settles rfl).outcome (by decide +kernel)⟩

/-- Carol's loan is stuck: it is in default, her claim stalls, and no call settles a loan any
more. -/
theorem loan_stuck :
    Reaches Untouched Session.opening Session.aged ∧
      (Session.aged.book.listing? ⟨"alice", .int 0⟩).any (fun l => l.state = .started ∧
        l.activeOffer = some (Key.text "2")) = true ∧
      Session.aged.book.Stalls (Session.carol []) (.claimDefault ⟨"alice", .int 0⟩) ∧
      ∀ e a x state recipient gain, ¬ Session.aged.book.Settles e a x state recipient gain := by
  have run : Reaches Untouched Session.opening Session.aged :=
    (Session.reaches_lent (by decide +kernel)).run (by decide +kernel)
  obtain ⟨f, id⟩ : ∃ f, Session.aged.book.requireExecId = .error f :=
    toOption_eq_none_iff.1 (by decide +kernel)
  have sent : ∃ p ∈ (Session.aged.book.transact (Session.carol [])
        (.claimDefault ⟨"alice", .int 0⟩)).toOption,
      (Session.aged.book.refusal? p).toOption = some none := by decide +kernel
  refine ⟨run, by decide +kernel, ?_, ?_⟩
  · obtain ⟨p, sent, fits⟩ := sent
    exact Book.stalls_of_transact (toOption_eq_some_iff.1 sent) id (toOption_eq_some_iff.1 fits)
  · rintro e a x state recipient gain ⟨p, sent, applied, -⟩
    exact Book.not_applied_of_transact sent id applied

end Pawnbook
