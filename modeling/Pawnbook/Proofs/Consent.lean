import Mathlib.Algebra.Ring.Nat
import Pawnbook.Proofs.Lateness

/-! # Nobody's assets move without consent

The transfers of a transaction are built from stored records, and they are carried out later than
they were built. Still they take from nobody but the sender and the contract: of coins the sender
pays what is attached at most, and all others only gain (`Plan.flow_sender`, `Plan.flow_others`).
Of tokens, those that an owner loses are the assets of a listing of the owner's whose loan starts,
for the whole principal and at the owner's terms, or by the owner's own message; and those that the
contract gives up go to the borrower that repays, or to the lender that claims a default
(`Book.parts`).

A token leaves its owner only by a transfer in the owner's name (`Registry.leaves`), so all that is
to be known of a transaction is in whose name its transfers are made. -/

namespace Pawnbook

/-! ### Who pays -/

namespace Message
variable {c d : Key} {m : Message} {ms : List Message}

/-- All payments among the messages are made by the address. -/
def PaidBy (k : Key) (ms : List Message) : Prop :=
  ∀ m ∈ ms, ∀ x, m.outlay? = some x → x.1 = k

theorem paidBy_append {k : Key} {ns : List Message} :
    PaidBy k (ms ++ ns) ↔ PaidBy k ms ∧ PaidBy k ns := List.forall_mem_append

theorem paidBy_nil {k : Key} : PaidBy k [] := fun _ h => by cases h

theorem paidBy_transfers {k : Key} (ts : List NftTransfer) : PaidBy k (ts.map .transfer) := by
  intro m hm x hx
  obtain ⟨t, -, rfl⟩ := List.mem_map.1 hm
  cases hx

theorem flow_nonneg (h : ∀ x, m.outlay? = some x → (x.1 == c) = false) : 0 ≤ m.flow c d := by
  have gain : ∀ {coin : Coin} {s r : Key}, (s == c) = false → 0 ≤ coin.flow s r c d := by
    intro coin s r hs
    unfold Coin.flow
    rw [hs]
    split <;> simp
  cases m with
  | send s => exact gain (h _ rfl)
  | fee f => exact gain (h _ rfl)
  | transfer | other => exact Int.le_refl 0

theorem flowAll_nonneg {k : Key} (h : PaidBy k ms) (hk : (k == c) = false) :
    0 ≤ flowAll c d ms := by
  induction ms with
  | nil => exact Int.le_refl 0
  | cons m ms ih =>
      have first : 0 ≤ m.flow c d := by
        refine flow_nonneg fun x hx => ?_
        rw [h m List.mem_cons_self x hx]
        exact hk
      have rest := ih fun m hm => h m (List.mem_cons_of_mem _ hm)
      rw [flowAll_cons]
      omega

end Message

theorem Conveys.paidBy {s r : Key} {c : Coin} {ss : List BankSend} (h : Conveys s r c ss) :
    Message.PaidBy s (ss.map .send) := by
  cases h with
  | nothing => exact Message.paidBy_nil
  | send =>
      intro m hm x hx
      rw [List.map_singleton, List.mem_singleton] at hm
      subst hm
      cases hx
      rfl

theorem Charges.paidBy {s r : Key} {c : Coin} {fs : List FeeDeposit} (h : Charges s r c fs) :
    Message.PaidBy s (fs.map .fee) := by
  cases h with
  | nothing => exact Message.paidBy_nil
  | fee =>
      intro m hm x hx
      rw [List.map_singleton, List.mem_singleton] at hm
      subst hm
      cases hx
      rfl

/-- The coins of a denomination that are attached to a message. -/
def Envelope.attached (e : Envelope) (d : Key) : Nat :=
  ((e.funds.filterMap Tender.coin?).map (·.amountIn d)).sum

section plans
variable {b : Book} {e : Envelope} {a : Action} {cs : List Change} {ss : List BankSend}
  {ms : List Message} {as : Attributes} {d : Key}

theorem Action.Plan.paidBy (plan : Plan b e a cs ss ms as) : Message.PaidBy b.address ms := by
  cases plan with
  | deposit | modify | withdraw | makeOffer | refuse | configure => exact Message.paidBy_nil
  | acceptLoan _ _ _ _ _ _ _ payout | acceptOffer _ _ _ _ _ _ payout =>
      exact Message.paidBy_append.2 ⟨payout.paidBy, Message.paidBy_transfers _⟩
  | cancel _ _ _ _ _ _ refund | recover _ _ _ _ refund => exact refund.paidBy
  | repay _ _ _ _ _ _ _ _ _ _ _ _ payout _ fees =>
      exact Message.paidBy_append.2
        ⟨Message.paidBy_append.2 ⟨payout.paidBy, Message.paidBy_transfers _⟩, fees.paidBy⟩
  | claim => exact Message.paidBy_transfers _

theorem Action.Plan.escrow (plan : Plan b e a cs ss ms as) :
    ss = [] ∨ ∃ c, e.funds = [.coin c] ∧ Conveys e.sender b.address c ss := by
  cases plan with
  | deposit | modify | withdraw | acceptOffer | cancel | refuse | recover | claim | configure =>
      exact .inl rfl
  | makeOffer _ _ funds _ _ escrow | acceptLoan _ _ _ funds _ _ escrow
  | repay _ _ _ _ _ _ funds _ _ _ _ escrow => exact .inr ⟨_, funds, escrow⟩

theorem Action.Plan.flow_others (plan : Plan b e a cs ss ms as) {x : Key}
    (sender : ((e.sender : Key) == x) = false) (contract : (b.address == x) = false) :
    0 ≤ Message.flowAll x d (ss.map .send ++ ms) := by
  have gains := Message.flowAll_nonneg (d := d) plan.paidBy contract
  have funds : 0 ≤ Message.flowAll x d (ss.map .send) := by
    rcases plan.escrow with rfl | ⟨c, -, escrow⟩
    · exact Int.le_refl 0
    · exact Message.flowAll_nonneg escrow.paidBy sender
  rw [Message.flowAll_append]
  omega

theorem Action.Plan.flow_sender (plan : Plan b e a cs ss ms as)
    (stranger : ((e.sender : Key) == b.address) = false) :
    -(e.attached d : Int) ≤ Message.flowAll e.sender d (ss.map .send ++ ms) := by
  have contract : (b.address == (e.sender : Key)) = false := by rw [BEq.comm, stranger]
  have gains := Message.flowAll_nonneg (d := d) plan.paidBy contract
  have funds : -(e.attached d : Int) ≤ Message.flowAll e.sender d (ss.map .send) := by
    rcases plan.escrow with rfl | ⟨c, attached, escrow⟩
    · exact Int.neg_nonpos_of_nonneg (Int.natCast_nonneg _)
    · have sum : e.attached d = c.amountIn d := by
        rw [Envelope.attached, attached]
        simp [Tender.coin?]
      exact Int.le_of_eq (by rw [escrow.flow_out, sum])
  rw [Message.flowAll_append]
  omega

end plans

/-! ### In whose name tokens are handed over -/

namespace Registry
variable {r : Registry} {a k c : Key} {u : Token}

theorem Holds.carryAll : ∀ {ms : List Message} {r : Registry}, r.Holds c u →
    (∀ t, .transfer t ∈ ms → t.recipient = c) → (ms.foldl carry r).Holds c u
  | [], _, h, _ => h
  | m :: ms, r, h, moved => by
      have first : (r.carry m).Holds c u := by
        cases m with
        | transfer t =>
            show (r.assign t.nft.token t.recipient).Holds c u
            rw [holds_assign, moved t List.mem_cons_self]
            split
            · exact BEq.rfl
            · exact h
        | send | fee | other => exact h
      have rest := first.carryAll fun t ht => moved t (List.mem_cons_of_mem m ht)
      exact rest

/-- A token leaves its owner only by a transfer in the owner's name, and goes where the transfer
brings it. -/
theorem leaves : ∀ {ms : List Message} {r : Registry},
    (∀ t, .transfer t ∈ ms → t.sender = k ∧ t.recipient = c) → r.Honours ms → r.Holds a u →
    ¬ (ms.foldl carry r).Holds a u →
    ∃ t, .transfer t ∈ ms ∧ (t.nft.token == u) = true ∧ (k == a) = true ∧
      (ms.foldl carry r).Holds c u
  | [], _, _, _, held, gone => absurd held gone
  | m :: ms, r, moved, ⟨honoured, rest⟩, held, gone => by
      have later := fun t ht => moved t (List.mem_cons_of_mem m ht)
      by_cases stays : (r.carry m).Holds a u
      · obtain ⟨t, ht, same, name, after⟩ := leaves later rest stays gone
        exact ⟨t, List.mem_cons_of_mem _ ht, same, name, after⟩
      · cases m with
        | send | fee | other => exact absurd held stays
        | transfer t =>
            obtain ⟨sender, recipient⟩ := moved t List.mem_cons_self
            rw [carry, holds_assign] at stays
            split at stays
            · rename_i same
              have owner := (held.congr (BEq.symm same)).holder
              have name : (k == a) = true := by
                rw [← sender]
                exact BEq.trans (BEq.symm (honoured t rfl)) owner
              have arrived : (r.carry (.transfer t)).Holds c u := by
                rw [carry, holds_assign, if_pos same, recipient]
                exact BEq.rfl
              exact ⟨t, List.mem_cons_self, same, name,
                arrived.carryAll fun t ht => (later t ht).2⟩
            · exact absurd held stays

end Registry

/-- A token that leaves its owner when assets are moved is one of them, and was the mover's. -/
theorem Listing.leaves_of_moveAssets {sender recipient owner : Key} {refusal : Asset → Error}
    {assets : List Asset} {ts : List NftTransfer} {ms : List Message} {r : Registry} {u : Token}
    (moved : moveAssets sender recipient refusal assets = .ok ts)
    (only : ∀ t, .transfer t ∈ ms → t ∈ ts) (honoured : r.Honours ms) (held : r.Holds owner u)
    (gone : ¬ (ms.foldl Registry.carry r).Holds owner u) :
    (∃ t ∈ tokensIn assets, (t == u) = true) ∧ (sender == owner) = true ∧
      (ms.foldl Registry.carry r).Holds recipient u := by
  obtain ⟨rfl, route⟩ := moveAssets_ok moved
  obtain ⟨t, ht, same, name, arrived⟩ :=
    Registry.leaves (fun t ht => route t (only t ht)) honoured held gone
  refine ⟨?_, name, arrived⟩
  rw [tokensIn_map]
  exact ⟨_, List.mem_map_of_mem (only t ht), same⟩

theorem Conveys.sends {s r : Key} {c : Coin} {ss : List BankSend} (h : Conveys s r c ss)
    (positive : c.amount ≠ 0) : ∃ m ∈ ss, m.sender = s ∧ m.recipient = r ∧ m.coin = c := by
  cases h with
  | nothing hz => exact absurd hz positive
  | send => exact ⟨_, List.mem_cons_self, rfl, rfl, rfl⟩

namespace Book

/-- Between two books, with the messages of an envelope's sender, a token of an owner's has come
into custody: it is an asset of a listing of the owner's, and the loan on the listing has started.
The owner is paid the whole principal, and has either sent the message or put these terms on the
listing. -/
inductive Taken (b b' : Book) (e : Envelope) (ms : List Message) (owner : Key) (u : Token) : Prop
  | lent {key : ListingKey} {l l' : Listing} {id : Key} {o : Offer} {terms : Terms}
      (borrower : (key.borrower == owner) = true) (before : b.listing? key = some l)
      (published : l.state = .published) (listed : ∃ t ∈ tokensIn l.assets, (t == u) = true)
      (after : b'.listing? key = some l') (started : l'.state = .started)
      (active : l'.activeOffer = some id) (offer : b'.storedOffer? id = some o)
      (accepted : o.state = .accepted) (agreed : o.terms = some terms) (held : b'.Holds u)
      (paid : terms.principal.amount ≠ 0 → ∃ s, .send s ∈ ms ∧ s.sender = b.address ∧
        (s.recipient == owner) = true ∧ s.coin = terms.principal)
      (consent : ((e.sender : Key) == owner) = true ∨
        ∃ proposed, l.terms = some proposed ∧ proposed.agrees terms = true)

/-- Between two books, by a message of an envelope's sender, a token has come out of custody: it is
an asset of a listing whose loan is over, and who receives it has sent the message, as the borrower
of the listing that is repaid, or as the lender of one that is in default. -/
inductive Released (b b' : Book) (e : Envelope) (recipient : Key) (u : Token) : Prop
  | repaid {key : ListingKey} {l l' : Listing} (before : b.listing? key = some l)
      (started : l.state = .started) (listed : ∃ t ∈ tokensIn l.assets, (t == u) = true)
      (after : b'.listing? key = some l') (ended : l'.state = .ended)
      (borrower : (key.borrower == recipient) = true)
      (sender : ((e.sender : Key) == recipient) = true)
  | claimed {key : ListingKey} {l l' : Listing} {id : Key} {o : Offer}
      (before : b.listing? key = some l) (started : l.state = .started)
      (listed : ∃ t ∈ tokensIn l.assets, (t == u) = true) (after : b'.listing? key = some l')
      (defaulted : l'.state = .defaulted) (active : l.activeOffer = some id)
      (offer : b.storedOffer? id = some o) (lender : (o.lender == recipient) = true)
      (sender : ((e.sender : Key) == recipient) = true)

/-- What a message of an envelope's sender may do to assets when it makes one book of another, its
transaction sending the messages `ms`. Balances are amounts of coins, whole numbers; a bank that
was given a floating one rounds, and the sender can lose more than is attached. -/
structure Consensual (b b' : Book) (e : Envelope) (ms : List Message) : Prop where
  others : ∀ x d n, ((e.sender : Key) == x) = false → (b.address == x) = false →
    (b.bank.balance x d).whole? = some n →
      ∃ n', (b'.bank.balance x d).whole? = some n' ∧ n ≤ n'
  sender : ∀ d n, (b.bank.balance e.sender d).whole? = some n →
    ∃ n', (b'.bank.balance e.sender d).whole? = some n' ∧ n ≤ n' + e.attached d
  taken : ∀ owner u, (b.address == owner) = false → b.registry.Holds owner u →
    ¬ b'.registry.Holds owner u → b.Taken b' e ms owner u
  released : ∀ u, b.Holds u → ¬ b'.Holds u →
    ∃ x, b'.registry.Holds x u ∧ b.Released b' e x u

section parts
variable {b₀ b b' : Book} {e : Envelope} {a : Action} {cs : List Change} {ss : List BankSend}
  {ms : List Message} {as : Attributes} {owner : Key} {u : Token}

/-- What comes into custody when a loan starts is its owner's, who is paid. -/
theorem taken_of_lending {key : ListingKey} {l l' : Listing} {id : Key} {o : Offer} {terms : Terms}
    {ps : List BankSend} {ts : List NftTransfer} (messages : ms = ps.map .send ++ ts.map .transfer)
    (registry : b'.registry = (ss.map Message.send ++ ms).foldl Registry.carry b.registry)
    (honoured : b.registry.Honours (ss.map .send ++ ms))
    (held : b.registry.Holds owner u) (gone : ¬ b'.registry.Holds owner u)
    (address : b'.address = b.address) (before : b.listing? key = some l)
    (published : l.state = .published)
    (custody : l.intoCustody key.borrower b.address = .ok ts) (after : b'.listing? key = some l')
    (started : l'.state = .started) (active : l'.activeOffer = some id)
    (offer : b'.storedOffer? id = some o) (accepted : o.state = .accepted)
    (agreed : o.terms = some terms) (payout : Conveys b.address key.borrower terms.principal ps)
    (consent : (key.borrower == owner) = true → ((e.sender : Key) == owner) = true ∨
      ∃ proposed, l.terms = some proposed ∧ proposed.agrees terms = true) :
    b.Taken b' e ms owner u := by
  have only : ∀ t, .transfer t ∈ ss.map Message.send ++ ms → t ∈ ts := by simp [messages]
  rw [registry] at gone
  obtain ⟨listed, borrower, arrived⟩ :=
    Listing.leaves_of_moveAssets custody only honoured held gone
  have inside : b'.Holds u := by
    rw [Holds, address, registry]
    exact arrived
  refine .lent borrower before published listed after started active offer accepted agreed inside
    ?_ (consent borrower)
  intro positive
  obtain ⟨s, hs, sender, recipient, coin⟩ := payout.sends positive
  refine ⟨s, ?_, sender, ?_, coin⟩
  · rw [messages]
    exact List.mem_append_left _ (List.mem_map_of_mem hs)
  · rw [recipient]
    exact borrower

/-- A token that leaves its owner with a transaction comes into custody, or it comes out of it. -/
theorem parts (plan : Action.Plan b₀ e a cs ss ms as) (order : b₀.Precedes b)
    (fits : ∀ c ∈ cs, b.Fits c) (left : (b.putAll cs).Alike b')
    (registry : b'.registry = (ss.map Message.send ++ ms).foldl Registry.carry b.registry)
    (honoured : b.registry.Honours (ss.map .send ++ ms)) (held : b.registry.Holds owner u)
    (gone : ¬ b'.registry.Holds owner u) :
    b.Taken b' e ms owner u ∨ (b.address == owner) = true ∧
      ∃ x, b'.registry.Holds x u ∧ b.Released b' e x u := by
  have address : b.address = b₀.address := order.since.address
  have address' : b'.address = b.address := left.address.trans (address_putAll b cs)
  -- a plan without transfers of tokens moves none
  have idle : (∀ t, .transfer t ∉ ss.map Message.send ++ ms) → False := by
    intro none
    rw [registry] at gone
    obtain ⟨t, ht, -⟩ := Registry.leaves (k := owner) (c := owner)
      (fun t ht => absurd ht (none t)) honoured held gone
    exact none t ht
  cases plan with
  | deposit | modify | withdraw | makeOffer | cancel | refuse | recover | configure =>
      exact (idle (by simp)).elim
  | @acceptLoan key comment l₀ terms last count ss ps ts present published proposed funds next
      counted escrow payout custody =>
      rw [List.forall_mem_cons, List.forall_mem_cons, List.forall_mem_singleton] at fits
      obtain ⟨l, kept, core, agrees⟩ := order.listing present fits.2.1
      have state : l.state = l₀.state := congrArg Listing.Core.state core
      have own := (Listing.agrees_iff.1 agrees).terms
      rw [proposed] at own
      have after := (left.listing? key).trans (listing?_put_self ..)
      have offer := (left.storedOffer? (.text last.label)).trans (storedOffer?_put_self ..)
      exact .inl (taken_of_lending rfl registry honoured held gone address' (listing?_of_get? kept)
        (state.trans published) (Action.intoCustody_of_core core address custody) after rfl rfl
        offer rfl rfl (address ▸ payout) fun _ => .inr (Value.optionsAgree_some own))
  | @acceptOffer id o l₀ c ps ts offer mine present published pending deposit payout custody =>
      rw [List.forall_mem_cons, List.forall_mem_singleton] at fits
      obtain ⟨l, kept, core, -⟩ := order.listing present fits.1
      have state : l.state = l₀.state := congrArg Listing.Core.state core
      obtain ⟨terms, agreed, escrow⟩ := (order.before.offer id o offer).escrow
      obtain rfl : c = terms.principal :=
        Tender.coin.inj (Option.some.inj (deposit.symm.trans (escrow.published pending)))
      have after := (left.listing? o.listing).trans (listing?_put_self ..)
      have offer' := (left.storedOffer? id).trans (storedOffer?_put_self ..)
      exact .inl (taken_of_lending rfl registry honoured held gone address'
        (listing?_of_get? kept) (state.trans published)
        (Action.intoCustody_of_core core address custody) after rfl rfl offer' rfl agreed
        (address ▸ payout) fun same => .inl (BEq.trans (BEq.symm mine) same))
  | @repay loanId l₀ id o terms interest share payment ss ps ts fs present started active offer
      running agreed funds denom whole enough split escrow payout released =>
      rw [List.forall_mem_singleton] at fits
      obtain ⟨l, kept, core, -⟩ := order.listing present fits
      have state : l.state = l₀.state := congrArg Listing.Core.state core
      have only : ∀ t, .transfer t ∈ ss.map Message.send ++
          (ps.map .send ++ ts.map .transfer ++ fs.map .fee) → t ∈ ts := by simp
      rw [registry] at gone
      obtain ⟨listed, contract, arrived⟩ := Listing.leaves_of_moveAssets
        (Action.outOfCustody_of_core core address released) only honoured held gone
      have after := (left.listing? ⟨e.sender, loanId⟩).trans (listing?_put_self ..)
      exact .inr ⟨contract, e.sender, registry ▸ arrived,
        .repaid (listing?_of_get? kept) (state.trans started) listed after rfl BEq.rfl BEq.rfl⟩
  | @claim key l₀ id o₀ ts present started active offer mine overdue released =>
      rw [List.forall_mem_singleton] at fits
      obtain ⟨l, kept, core, -⟩ := order.listing present fits
      have state : l.state = l₀.state := congrArg Listing.Core.state core
      have active' : l.activeOffer = l₀.activeOffer := congrArg Listing.Core.activeOffer core
      obtain ⟨-, o, -, offer', -, lender, -, -⟩ := order.read offer
      have only : ∀ t, .transfer t ∈ ([] : List BankSend).map Message.send ++ ts.map .transfer →
          t ∈ ts := by simp
      rw [registry] at gone
      obtain ⟨listed, contract, arrived⟩ := Listing.leaves_of_moveAssets
        (Action.outOfCustody_of_core core address released) only honoured held gone
      have after := (left.listing? key).trans (listing?_put_self ..)
      exact .inr ⟨contract, o₀.lender, registry ▸ arrived,
        .claimed (listing?_of_get? kept) (state.trans started) listed after rfl
          (active'.trans active) offer' (lender ▸ BEq.rfl) (BEq.symm mine)⟩

end parts
end Book

/-! ### Over a run -/

/-- Whatever was computed for a sender other than the contract after some run of a new contract, and
is applied later, moves nobody's assets without consent. -/
theorem assets_consented {P : Book → Move → Prop} {s₀ s₁ s : Session} {e : Envelope} {a : Action}
    {p : Pending} (fresh : s₀.IsFresh) (run : Reaches P s₀ s₁)
    (sent : s₁.book.transact e a = .ok p)
    (stranger : ((e.sender : Key) == s₁.book.address) = false) (later : Reaches P s₁ s)
    (applied : (s.book.execute p).answer = .ok .applied) :
    s.book.Consensual (s.book.execute p).book e p.messages := by
  obtain ⟨ss, as, computed, order, fits, transfers, posted⟩ :=
    run.posted_later fresh sent later applied
  obtain ⟨-, honoured, -⟩ := Book.transferRefusal?_eq_none_iff.1 transfers
  have bank := s.book.bank_posted p
  have registry := s.book.registry_posted p
  rw [Pending.transfers, computed.fundsIn] at honoured bank registry
  have stranger : ((e.sender : Key) == s.book.address) = false := by
    rw [order.since.address]
    exact stranger
  have parts := fun owner u (held : s.book.registry.Holds owner u)
      (gone : ¬ (s.book.posted p).registry.Holds owner u) =>
    Book.parts computed.plan order fits (s.book.alike_posted p) registry honoured held gone
  rw [posted]
  refine ⟨?_, ?_, ?_, ?_⟩
  · intro x d n other outside whole
    have gain := computed.plan.flow_others (d := d) other (order.since.address ▸ outside)
    refine ⟨_, by rw [bank]; exact Bank.whole?_carryAll whole, by omega⟩
  · intro d n whole
    have loss := computed.plan.flow_sender (d := d) (order.since.address ▸ stranger)
    refine ⟨_, by rw [bank]; exact Bank.whole?_carryAll whole, by omega⟩
  · intro owner u outside held gone
    exact (parts owner u held gone).resolve_right fun h => by cases outside.symm.trans h.1
  · intro u held gone
    rw [Book.Holds, Book.address_posted] at gone
    rcases parts _ u held gone with taken | ⟨-, released⟩
    · cases taken with
      | lent _ _ _ _ _ _ _ _ _ _ inside =>
          rw [Book.Holds, Book.address_posted] at inside
          exact absurd inside gone
    · exact released

/-- Carol's message takes Alice's token into custody, for the principal and at the terms that Alice
has put on her listing. -/
theorem assets_consented_courted : ∃ p,
    Session.courted.book.transact Session.funding (.acceptLoan ⟨"alice", .int 0⟩ none) = .ok p ∧
    (Session.courted.book.execute p).answer = .ok .applied ∧
    Session.courted.book.Taken (Session.courted.book.execute p).book Session.funding p.messages
      "alice" Session.cat.token := by
  have run : Reaches (fun _ _ => True) Session.opening Session.courted :=
    Reaches.start.run (by decide +kernel)
  have owned : Session.courted.book.registry.Holds "alice" Session.cat.token := by decide +kernel
  have taken : ∃ p ∈ (Session.courted.book.transact Session.funding
        (.acceptLoan ⟨"alice", .int 0⟩ none)).toOption,
      (Session.courted.book.execute p).answer.toOption = some .applied ∧
        ¬ (Session.courted.book.execute p).book.registry.Holds "alice" Session.cat.token := by
    decide +kernel
  obtain ⟨p, sent, applied, gone⟩ := taken
  have sent := toOption_eq_some_iff.1 sent
  have applied := toOption_eq_some_iff.1 applied
  have consented := assets_consented Session.isFresh_opening run sent (by decide +kernel) .start
    applied
  exact ⟨p, sent, applied, consented.taken _ _ (by decide +kernel) owned gone⟩

end Pawnbook
