import Pawnbook.Proofs.Ledger

/-! # Escrow in the log

A transaction that is logged shows in its changes which offer it makes and whose deposit it lets go
of, and in its transfers what moves. Every posting does one of five things to an offer
(`Transaction.Handles`): nothing, refuse it, take it in, take it in and pay it out at once, or pay
it out. So the log of an offer has one entry that takes its principal in, and one that pays it out
as soon as its deposit is gone (`Offer.Traced`). -/

namespace Pawnbook

/-! ### What a transaction shows -/

/-- The transfers of coins among some messages. -/
def Message.sends (ms : List Message) : List BankSend :=
  ms.filterMap fun
    | .send s => some s
    | .transfer _ | .fee _ | .other _ => none

namespace Message

@[simp] theorem sends_append (ms ns : List Message) : sends (ms ++ ns) = sends ms ++ sends ns :=
  List.filterMap_append

@[simp] theorem sends_sends (ss : List BankSend) : sends (ss.map .send) = ss := by
  unfold sends
  rw [List.filterMap_map]
  exact List.filterMap_some

@[simp] theorem sends_transfers (ts : List NftTransfer) : sends (ts.map .transfer) = [] := by
  simp [sends]

end Message

/-- The record is an offer with a deposit. -/
def Stored.holdsDeposit : Stored → Bool
  | .offer o => o.deposit.isSome
  | .config _ | .borrower _ | .listing _ | .other _ => false

namespace Change

def inserts (id : Key) (c : Change) : Bool := c.slot == .offer id && c.old.isNone

/-- The change leaves the offer without a deposit, and it had one before or is only now made. -/
def releases (id : Key) (c : Change) : Bool :=
  c.slot == .offer id && !c.new.any Stored.holdsDeposit && c.old.all Stored.holdsDeposit

@[simp] theorem inserts_offer (id id' : Key) (old : Option Offer) (new : Offer) :
    (offer id' old new).inserts id = (id' == id && old.isNone) := by
  cases old <;> rfl

@[simp] theorem releases_offer (id id' : Key) (old : Option Offer) (new : Offer) :
    (offer id' old new).releases id =
      (id' == id && !new.deposit.isSome && old.all (·.deposit.isSome)) := by
  cases old <;> rfl

end Change

namespace Transaction

def inserts (t : Transaction) (id : Key) : Bool := t.changes.any (·.inserts id)

/-- The transaction lets go of the deposit of the offer. -/
def releases (t : Transaction) (id : Key) : Bool := t.changes.any (·.releases id)

/-- The coins that the transaction brings in. -/
def sendsIn (t : Transaction) : List BankSend := Message.sends t.fundsIn

/-- The coins that the transaction sends out. -/
def sendsOut (t : Transaction) : List BankSend := Message.sends t.messages

/-- The transaction makes the offer in one of two ways, and brings the principal of its terms from
the lender to the contract. -/
structure TakesIn (t : Transaction) (contract : Key) (o : Offer) (terms : Terms) : Prop where
  agreed : o.terms = some terms
  action : t.origin.action = .text "make_offer" ∨ t.origin.action = .text "accept_loan"
  escrow : Conveys o.lender contract terms.principal t.sendsIn

end Transaction

/-- Who gets the principal when it is paid out: the borrower of an accepted offer, and the lender of
any other. -/
def Offer.payee (o : Offer) : Key := if o.state = .accepted then o.borrower else o.lender

/-! ### The entries of an offer -/

/-- What the log has of an offer: the entries that make it, and those that pay it out. -/
inductive Offer.Traced (contract : Key) :
    List Transaction → List Transaction → Option Offer → Prop
  | unseen : Traced contract [] [] none
  | held {t : Transaction} {o : Offer} {terms : Terms} (entry : t.TakesIn contract o terms)
      (deposit : o.deposit = some (.coin terms.principal)) : Traced contract [t] [] (some o)
  | settled {t t' : Transaction} {o : Offer} {terms : Terms} (entry : t.TakesIn contract o terms)
      (spent : o.deposit = none)
      (payout : Conveys contract o.payee terms.principal t'.sendsOut) :
      Traced contract [t] [t'] (some o)

/-- What a transaction does to an offer, by whether it makes the offer and whether it lets go of its
deposit. -/
inductive Transaction.Handles (t : Transaction) (contract : Key) :
    Bool → Bool → Option Offer → Option Offer → Prop
  | skips (o : Option Offer) : Handles t contract false false o o
  | refuses {o : Offer} (pending : o.state = .published) :
      Handles t contract false false (some o) (some { o with state := .refused })
  | takes {o : Offer} {terms : Terms} (entry : t.TakesIn contract o terms)
      (deposit : o.deposit = some (.coin terms.principal)) :
      Handles t contract true false none (some o)
  | passes {o : Offer} {terms : Terms} (entry : t.TakesIn contract o terms)
      (spent : o.deposit = none)
      (payout : Conveys contract o.payee terms.principal t.sendsOut) :
      Handles t contract true true none (some o)
  | pays {o : Offer} {state : OfferState} {c : Coin} (deposit : o.deposit = some (.coin c))
      (payout : Conveys contract { o with deposit := none, state := state }.payee c t.sendsOut) :
      Handles t contract false true (some o) (some { o with deposit := none, state := state })

theorem Offer.Traced.append {contract : Key} {ins outs : List Transaction} {old new : Option Offer}
    {t : Transaction} {i r : Bool} (h : Traced contract ins outs old)
    (handles : t.Handles contract i r old new) :
    Traced contract (ins ++ if i then [t] else []) (outs ++ if r then [t] else []) new := by
  cases handles with
  | skips =>
      simp only [Bool.false_eq_true, ↓reduceIte, List.append_nil]
      exact h
  | refuses pending =>
      simp only [Bool.false_eq_true, ↓reduceIte, List.append_nil]
      cases h with
      | held entry deposit => exact .held ⟨entry.agreed, entry.action, entry.escrow⟩ deposit
      | settled entry spent payout =>
          refine .settled ⟨entry.agreed, entry.action, entry.escrow⟩ spent ?_
          rw [payee, if_neg (by rw [pending]; simp)] at payout
          exact payout
  | takes entry deposit =>
      cases h
      exact .held entry deposit
  | passes entry spent payout =>
      cases h
      exact .settled entry spent payout
  | pays deposit payout =>
      cases h with
      | held entry held =>
          cases deposit.symm.trans held
          exact .settled ⟨entry.agreed, entry.action, entry.escrow⟩ rfl payout
      | settled entry spent => cases deposit.symm.trans spent

/-! ### What a posting does to an offer -/

section postings
variable {b : Book} {c : Config} {e : Envelope} {a : Action} {cs : List Change}
  {ss : List BankSend} {ms : List Message} {as : Attributes} {t : Transaction}

/-- A transaction that changes one offer, after changes that spare the offers, lets go of the
deposit of that one only. -/
theorem Transaction.releases_of_offer (pre : List Change) {one : Key} {old : Option Offer}
    {new : Offer} (changes : t.changes = pre ++ [.offer one old new])
    (spares : ∀ id, pre.any (·.releases id) = false) (id : Key) :
    t.releases id = (one == id && (!new.deposit.isSome && old.all (·.deposit.isSome))) := by
  rw [Transaction.releases, changes, List.any_append, spares]
  simp [Bool.and_assoc]

theorem Transaction.releases_eq_beq (pre : List Change) {one : Key} {old : Option Offer}
    {new : Offer} (changes : t.changes = pre ++ [.offer one old new])
    (spares : ∀ id, pre.any (·.releases id) = false) (spent : new.deposit = none)
    (held : old.all (·.deposit.isSome) = true) (id : Key) : t.releases id = (one == id) := by
  rw [releases_of_offer pre changes spares, spent, held]
  exact Bool.and_true _

/-- What a transaction does to the one offer that it changes, after changes that spare the offers,
is what it does to all of them. -/
theorem Transaction.handles_of_offer (pre : List Change) {contract id' : Key} {old : Option Offer}
    {new : Offer} (changes : t.changes = pre ++ [.offer id' old new])
    (spares : ∀ id, pre.any (·.inserts id) = false ∧ pre.any (·.releases id) = false ∧
      (b.putAll pre).storedOffer? id = b.storedOffer? id)
    (stored : b.storedOffer? id' = old)
    (h : t.Handles contract old.isNone (!new.deposit.isSome && old.all (·.deposit.isSome)) old
      (some new)) (id : Key) :
    t.Handles contract (t.inserts id) (t.releases id) (b.storedOffer? id)
      ((b.putAll (pre ++ [.offer id' old new])).storedOffer? id) := by
  obtain ⟨inserts, -, kept⟩ := spares id
  have hi : t.inserts id = (id' == id && old.isNone) := by
    rw [Transaction.inserts, changes, List.any_append, inserts]
    simp
  have hs : (b.putAll (pre ++ [.offer id' old new])).storedOffer? id =
      if id' == id then some new else b.storedOffer? id := by
    rw [Book.putAll, List.foldl_append, ← kept]
    exact Book.storedOffer?_put_offer (b.putAll pre) id' id old new
  rw [hi, releases_of_offer pre changes fun id => (spares id).2.1, hs]
  cases hid : id' == id with
  | true =>
      rw [← b.storedOffer?_congr hid, stored]
      exact h
  | false => exact .skips _

theorem Action.Posting.handles (h : Posting b c e a cs ss ms as) (changes : t.changes = cs)
    (funds : t.fundsIn = ss.map .send) (messages : t.messages = ms)
    (action : t.origin.action = .text a.name) (id : Key) :
    t.Handles b.address (t.inserts id) (t.releases id) (b.storedOffer? id)
      ((b.putAll cs).storedOffer? id) := by
  have sendsIn : t.sendsIn = ss := by rw [Transaction.sendsIn, funds, Message.sends_sends]
  have sendsOut : t.sendsOut = Message.sends ms := by rw [Transaction.sendsOut, messages]
  cases h with
  | deposit | modify | withdraw | repay | claim | configure =>
      unfold Transaction.inserts Transaction.releases
      rw [changes]
      exact .skips _
  | makeOffer _ _ _ _ _ fresh escrow =>
      refine Transaction.handles_of_offer [_, _] changes (fun _ => ⟨rfl, rfl, rfl⟩) fresh ?_ id
      exact .takes ⟨rfl, .inl action, sendsIn ▸ escrow⟩ rfl
  | acceptLoan _ _ _ _ _ _ _ fresh escrow payout =>
      rw [Message.sends_append, Message.sends_sends, Message.sends_transfers,
        List.append_nil] at sendsOut
      refine Transaction.handles_of_offer [_, _] changes (fun _ => ⟨rfl, rfl, rfl⟩) fresh ?_ id
      exact .passes ⟨rfl, .inr action, sendsIn ▸ escrow⟩ rfl (sendsOut ▸ payout)
  | acceptOffer offer _ _ _ _ _ _ _ deposit payout =>
      rw [Message.sends_append, Message.sends_sends, Message.sends_transfers,
        List.append_nil] at sendsOut
      refine Transaction.handles_of_offer [_] changes (fun _ => ⟨rfl, rfl, rfl⟩) offer ?_ id
      rw [Option.all_some, deposit]
      exact .pays deposit (sendsOut ▸ payout)
  | cancel offer _ deposit refund | recover offer _ deposit refund =>
      rw [Message.sends_sends] at sendsOut
      refine Transaction.handles_of_offer [] changes (fun _ => ⟨rfl, rfl, rfl⟩) offer ?_ id
      rw [Option.all_some, deposit]
      exact .pays deposit (sendsOut ▸ refund)
  | refuse offer pending =>
      refine Transaction.handles_of_offer [] changes (fun _ => ⟨rfl, rfl, rfl⟩) offer ?_ id
      rw [Option.all_some, Bool.not_and_self]
      exact .refuses pending

theorem Conveys.mem_sender {s r : Key} {coin : Coin} (h : Conveys s r coin ss) :
    ∀ m ∈ ss, (m.sender == r) = false := by
  cases h with
  | nothing => exact fun m hm => by cases hm
  | send hd =>
      intro m hm
      rw [List.mem_singleton] at hm
      rw [hm]
      exact hd

/-- Coins leave the contract with a repayment, or with the deposit of one offer. -/
structure Transaction.Attributed (t : Transaction) (contract : Key) : Prop where
  outgoing : ∀ s ∈ t.sendsIn ++ t.sendsOut, (s.sender == contract) = true →
    t.isRepayment = true ∨ ∃ id, t.releases id = true
  single : ∀ id id', t.releases id = true → t.releases id' = true → (id == id') = true
  apart : t.isRepayment = true → ∀ id, t.releases id = false

/-- A posting other than a repayment lets go of one deposit, or of none and sends nothing out. -/
theorem Action.Posting.releases_cases (h : Posting b c e a cs ss ms as) (changes : t.changes = cs) :
    (∀ id, t.releases id = false) ∧ (Message.sends ms = [] ∨ ∃ loanId, a = .repay loanId) ∨
      ∃ one, (∀ id, t.releases id = (one == id)) ∧ ∀ loanId, a ≠ .repay loanId := by
  have spared : (∀ id, cs.any (·.releases id) = false) → ∀ id, t.releases id = false := by
    intro hn id
    rw [Transaction.releases, changes, hn]
  cases h with
  | deposit | modify | withdraw | configure => exact .inl ⟨spared fun _ => rfl, .inl rfl⟩
  | claim => exact .inl ⟨spared fun _ => rfl, .inl (Message.sends_transfers _)⟩
  | @repay loanId => exact .inl ⟨spared fun _ => rfl, .inr ⟨loanId, rfl⟩⟩
  | makeOffer =>
      refine .inl ⟨?_, .inl rfl⟩
      intro id
      rw [Transaction.releases_of_offer [_, _] changes fun _ => rfl]
      simp [Envelope.offer]
  | refuse =>
      refine .inl ⟨?_, .inl rfl⟩
      intro id
      rw [Transaction.releases_of_offer [] changes fun _ => rfl, Option.all_some,
        Bool.not_and_self, Bool.and_false]
  | acceptLoan =>
      exact .inr ⟨_, Transaction.releases_eq_beq [_, _] changes (fun _ => rfl) rfl rfl, by simp⟩
  | acceptOffer _ _ _ _ _ _ _ _ deposit =>
      have held := congrArg Option.isSome deposit
      exact .inr ⟨_, Transaction.releases_eq_beq [_] changes (fun _ => rfl) rfl held, by simp⟩
  | cancel _ _ deposit | recover _ _ deposit =>
      have held := congrArg Option.isSome deposit
      exact .inr ⟨_, Transaction.releases_eq_beq [] changes (fun _ => rfl) rfl held, by simp⟩

theorem Action.Posting.sender_ne (h : Posting b c e a cs ss ms as) :
    ∀ s ∈ ss, (s.sender == b.address) = false := by
  cases h with
  | deposit | modify | withdraw | configure | acceptOffer | cancel | refuse | recover | claim =>
      exact fun s hs => by cases hs
  | makeOffer _ _ _ _ _ _ escrow | acceptLoan _ _ _ _ _ _ _ _ escrow =>
      exact escrow.mem_sender
  | repay _ _ _ _ _ _ _ _ _ _ _ escrow => exact escrow.mem_sender

theorem Action.Posting.attributed (h : Posting b c e a cs ss ms as) (changes : t.changes = cs)
    (funds : t.fundsIn = ss.map .send) (messages : t.messages = ms)
    (action : t.origin.action = .text a.name) : t.Attributed b.address := by
  have sendsIn : t.sendsIn = ss := by rw [Transaction.sendsIn, funds, Message.sends_sends]
  have sendsOut : t.sendsOut = Message.sends ms := by rw [Transaction.sendsOut, messages]
  have repays := t.isRepayment_iff action
  have incoming := h.sender_ne
  rcases h.releases_cases changes with ⟨spared, out⟩ | ⟨one, released, other⟩
  · constructor
    · intro s hs hc
      left
      rw [sendsIn, sendsOut, List.mem_append] at hs
      rcases hs with hs | hs
      · cases (incoming s hs).symm.trans hc
      · apply repays.2
        apply out.resolve_left
        intro hnil
        rw [hnil] at hs
        cases hs
    · intro id id' hid
      cases (spared id).symm.trans hid
    · intro _ id
      exact spared id
  · have hone : t.releases one = true := by
      rw [released]
      exact BEq.rfl
    constructor
    · intro s hs hc
      exact .inr ⟨one, hone⟩
    · intro id id' hid hid'
      rw [released] at hid hid'
      exact BEq.trans (BEq.symm hid) hid'
    · intro hr
      obtain ⟨loanId, ha⟩ := repays.1 hr
      exact absurd ha (other loanId)

end postings

/-! ### The log over a run -/

/-- In the log of a book the offer is made once, by a transaction that brings its principal to the
contract. Its deposit is paid out once, to the borrower if it is accepted and to the lender
otherwise, and not at all while it is there. -/
structure Offer.SettlesOnce (b : Book) (id : Key) (o : Offer) (terms : Terms) : Prop where
  made : ∃ t, b.log.filter (·.inserts id) = [t] ∧ t.TakesIn b.address o terms
  once : (b.log.filter (·.releases id)).length ≤ 1
  accepted : o.state = .accepted → ∃ t, b.log.filter (·.releases id) = [t] ∧
    Conveys b.address o.borrower terms.principal t.sendsOut
  returned : o.state = .cancelled ∨ o.state = .refused ∧ o.deposit = none →
    ∃ t, b.log.filter (·.releases id) = [t] ∧
      Conveys b.address o.lender terms.principal t.sendsOut
  held : o.deposit ≠ none → b.log.filter (·.releases id) = []

/-- The log has of every offer what it should. -/
def Book.Traced (b : Book) : Prop :=
  ∀ id, Offer.Traced b.address (b.log.filter (·.inserts id)) (b.log.filter (·.releases id))
    (b.storedOffer? id)

/-- Every transfer out of the contract has its reason. -/
def Book.Attributed (b : Book) : Prop := ∀ t ∈ b.log, t.Attributed b.address

theorem Book.Moved.traced {P : Book → Move → Prop} {b b' : Book} {m : Move} (h : b.Moved P m b')
    (hb : b.Traced ∧ b.Attributed) : b'.Traced ∧ b'.Attributed := by
  obtain ⟨traced, attributed⟩ := hb
  cases h with
  | still | number | advance | fund | mint | transfer => exact ⟨traced, attributed⟩
  | @post place p b₀ e a ss as source posting honoured covered =>
      have action : (b.nextTransaction p).origin.action = .text a.name := source.computed.action
      have funds : (b.nextTransaction p).fundsIn = ss.map .send := source.computed.fundsIn
      constructor
      · intro id
        have handles := posting.handles (t := b.nextTransaction p) rfl funds rfl action id
        rw [address_posted, log_posted, storedOffer?_posted, List.filter_append,
          List.filter_append]
        have single : ∀ f : Transaction → Bool, [b.nextTransaction p].filter f =
            if f (b.nextTransaction p) then [b.nextTransaction p] else [] := by
          intro f
          rw [List.filter_cons, List.filter_nil]
        rw [single, single]
        exact (traced id).append handles
      · intro t ht
        rw [address_posted]
        rw [log_posted, List.mem_append, List.mem_singleton] at ht
        rcases ht with ht | rfl
        · exact attributed t ht
        · exact posting.attributed rfl funds rfl action

theorem Offer.Traced.settlesOnce {b : Book} {id : Key} {o : Offer}
    (h : Traced b.address (b.log.filter (·.inserts id)) (b.log.filter (·.releases id)) (some o))
    (sound : o.Sound b id) : ∃ terms, o.terms = some terms ∧ o.SettlesOnce b id terms := by
  obtain ⟨terms', -, escrowed⟩ := sound.escrow
  generalize hi : b.log.filter (·.inserts id) = ins at h
  generalize hr : b.log.filter (·.releases id) = outs at h
  cases h with
  | @held t _ terms entry deposit =>
      have pending : ¬ (o.state = .accepted ∨ o.state = .cancelled) := by
        intro hs
        cases deposit.symm.trans (escrowed.settled hs)
      refine ⟨terms, entry.agreed, ?_⟩
      constructor
      · exact ⟨t, hi, entry⟩
      · rw [hr]
        exact Nat.zero_le 1
      · intro hs
        exact absurd (.inl hs) pending
      · rintro (hs | ⟨-, hd⟩)
        · exact absurd (.inr hs) pending
        · cases deposit.symm.trans hd
      · intro _
        exact hr
  | @settled t t' _ terms entry spent payout =>
      refine ⟨terms, entry.agreed, ?_⟩
      constructor
      · exact ⟨t, hi, entry⟩
      · rw [hr]
        exact Nat.le_refl 1
      · intro hs
        rw [payee, if_pos hs] at payout
        exact ⟨t', hr, payout⟩
      · intro hs
        have unaccepted : o.state ≠ .accepted := by
          intro ha
          rcases hs with hs | ⟨hs, -⟩ <;> cases ha.symm.trans hs
        rw [payee, if_neg unaccepted] at payout
        exact ⟨t', hr, payout⟩
      · intro hd
        exact absurd spent hd

theorem Book.Traced.unseen {b : Book} {id : Key} (h : b.Traced) (new : b.storedOffer? id = none) :
    ∀ t ∈ b.log, t.inserts id = false ∧ t.releases id = false := by
  have h := h id
  rw [new] at h
  generalize hi : b.log.filter (·.inserts id) = ins at h
  generalize hr : b.log.filter (·.releases id) = outs at h
  cases h with
  | unseen =>
      intro t ht
      exact ⟨Bool.eq_false_iff.2 (List.filter_eq_nil_iff.1 hi t ht),
        Bool.eq_false_iff.2 (List.filter_eq_nil_iff.1 hr t ht)⟩

/-- After every run every stored offer is made once and paid out at most once, to the right party.
No other offer is made or paid out, and the contract sends coins for no other reason than a
repayment. -/
theorem escrow_settles_once {P : Book → Move → Prop} {s₀ s : Session} (fresh : s₀.IsFresh)
    (run : Reaches P s₀ s) :
    (∀ id o, s.book.storedOffer? id = some o →
      ∃ terms, o.terms = some terms ∧ o.SettlesOnce s.book id terms) ∧
    (∀ id, s.book.storedOffer? id = none →
      ∀ t ∈ s.book.log, t.inserts id = false ∧ t.releases id = false) ∧
    s.book.Attributed := by
  have start : s₀.book.Traced ∧ s₀.book.Attributed := by
    constructor
    · intro id
      rw [fresh.log, Book.storedOffer?, fresh.offers]
      exact .unseen
    · intro t ht
      rw [fresh.log] at ht
      cases ht
  obtain ⟨traced, attributed⟩ := run.invariant (I := fun b => b.Traced ∧ b.Attributed) fresh start
    fun _ _ moved => moved.traced
  have sound := run.sound fresh
  refine ⟨?_, ?_, attributed⟩
  · intro id o ho
    have h := traced id
    rw [ho] at h
    exact h.settlesOnce (sound.book.offer id o ho)
  · intro id new
    exact traced.unseen new

theorem escrow_settles_once_lent :
    (∃ o terms, Session.lent.book.storedOffer? "1" = some o ∧ o.state = .published ∧
      o.SettlesOnce Session.lent.book "1" terms) ∧
    (∃ o terms, Session.lent.book.storedOffer? "2" = some o ∧ o.state = .accepted ∧
      o.SettlesOnce Session.lent.book "2" terms) ∧
    Session.lent.book.Attributed := by
  have run : Reaches (fun _ _ => True) Session.opening Session.lent :=
    Session.reaches_lent (by decide +kernel)
  obtain ⟨settles, -, attributed⟩ := escrow_settles_once Session.isFresh_opening run
  have stored : ∀ id state, (Session.lent.book.storedOffer? id).any (·.state = state) = true →
      ∃ o terms, Session.lent.book.storedOffer? id = some o ∧ o.state = state ∧
        o.SettlesOnce Session.lent.book id terms := by
    intro id state h
    obtain ⟨o, ho, hs⟩ := (Option.any_eq_true _ _).1 h
    obtain ⟨terms, -, once⟩ := settles id o ho
    exact ⟨o, terms, ho, of_decide_eq_true hs, once⟩
  exact ⟨stored "1" .published (by decide +kernel), stored "2" .accepted (by decide +kernel),
    attributed⟩

end Pawnbook
