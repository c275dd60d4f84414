import Pawnbook.Proofs.Lateness

/-! # Lending directly

A loan on the borrower's own terms can be made in one transaction, which computes the acceptance of
an offer that is not stored yet and merges what it writes twice, or in two: the lender makes the
offer, and the borrower accepts it. The two ways are the same. A book passes the transaction of
the direct way if and only if it passes the offer, and the book after the offer passes its
acceptance (`Book.Offered.passes_iff`); and the changes and the transfers leave the same behind,
since the second record in a slot replaces the first (`Book.after_offering`).

Whether a transaction is applied rests on its plan and on the records, the bank and the registry
(`Book.Passes`), and not on the log, so books are compared without their logs (`Book.unlogged`). -/

namespace Pawnbook

/-! ### Books without their logs -/

namespace Book
variable {b b' : Book} {e : Envelope} {a : Action}

/-- The book without its log: nothing was applied, and no intent is remembered. -/
def unlogged (b : Book) : Book := { b with seen := [], log := [], nextSequence := 0 }

/-- The book after some changes and some transfers. -/
def after (b : Book) (cs : List Change) (ts : List Message) : Book := (b.putAll cs).carryAll ts

theorem unlogged_putAll (b : Book) (cs : List Change) :
    (b.putAll cs).unlogged = b.unlogged.putAll cs := by
  refine Eq.trans ?_ (putAll_amid b.unlogged cs b).symm
  rw [putAll_eq]
  rfl

theorem unlogged_after (b : Book) (cs : List Change) (ts : List Message) :
    (b.after cs ts).unlogged = b.unlogged.after cs ts := by
  unfold after
  rw [← unlogged_putAll, carryAll_eq, carryAll_eq]
  rfl

theorem unlogged_posted (b : Book) (p : Pending) :
    (b.posted p).unlogged = b.unlogged.after p.changes p.transfers := by
  rw [← unlogged_after, after, posted, carryAll_eq, carryAll_eq]
  rfl

/-! ### Actions that are applied -/

/-- The action of the envelope is computed, and its transaction is applied at once; this leaves the
second book behind. -/
def Applies (b : Book) (e : Envelope) (a : Action) (b' : Book) : Prop :=
  ∃ p, b.transact e a = .ok p ∧ (b.execute p).answer = .ok .applied ∧ (b.execute p).book = b'

theorem Applies.unique {b'' : Book} (h : b.Applies e a b') (h' : b.Applies e a b'') : b' = b'' := by
  obtain ⟨p, sent, -, rfl⟩ := h
  obtain ⟨p', sent', -, rfl⟩ := h'
  cases sent.symm.trans sent'
  rfl

/-- The changes fit the book, the transfers are covered and made by the holders, and all of it can
be put into texts, the attributes and the id of the execution as well. -/
structure Passes (b : Book) (cs : List Change) (ts : List Message) (as : Attributes) : Prop where
  id : b.requireExecId = .ok ()
  fits : b.changesRefusal? cs = .ok none
  covered : b.bank.Covers ts
  honoured : b.registry.Honours ts
  changes : ∀ c ∈ cs, c.Legible
  transfers : ∀ m ∈ ts, m.toValue.Legible
  written : ∀ x ∈ as, x.2.Writable

/-- What is applied had a plan that the book passes. -/
theorem Applies.planned (h : b.Applies e a b') (hb : b.Coherent) :
    ∃ cs ss ms as, Action.Plan b e a cs ss ms as ∧ b.Passes cs (ss.map .send ++ ms) as ∧
      b'.Coherent ∧ b'.unlogged = b.unlogged.after cs (ss.map .send ++ ms) := by
  obtain ⟨p, sent, applied, rfl⟩ := h
  obtain ⟨ss, as, computed⟩ := transact_plan sent
  obtain ⟨id, -⟩ := unrefused_of_applied computed.isEmpty_eq_false applied
  obtain ⟨posting, fits, transfers, posted⟩ :=
    computed.posted_of_applied hb (.refl b) hb applied
  obtain ⟨covered, honoured, -⟩ := transferRefusal?_eq_none_iff.1 transfers
  have legible := computed.legible.transfers
  have left := b.unlogged_posted p
  rw [Pending.transfers, computed.fundsIn] at covered honoured legible left
  rw [posted]
  exact ⟨_, ss, _, as, computed.plan,
    ⟨id, fits, covered, honoured, computed.legible.changes, legible, computed.written⟩,
    ((posting.edit hb).coherent hb).alike (b.alike_posted p), left⟩

end Book

theorem Action.Plan.applies {b : Book} {e : Envelope} {a : Action} {cs : List Change}
    {ss : List BankSend} {ms : List Message} {as : Attributes} (plan : Plan b e a cs ss ms as)
    (hb : b.Coherent) (passes : b.Passes cs (ss.map .send ++ ms) as) :
    ∃ b', b.Applies e a b' ∧ b'.Coherent ∧
      b'.unlogged = b.unlogged.after cs (ss.map .send ++ ms) := by
  obtain ⟨funds, messages⟩ := List.forall_mem_append.1 passes.transfers
  have sent : ∃ p, b.transact e a = .ok p := by
    refine Book.transact_ok (plan.drafts hb) fun _ _ _ _ plan' => ?_
    obtain ⟨rfl, rfl, rfl, rfl⟩ := plan.unique plan'
    exact ⟨passes.changes, funds, messages, passes.written⟩
  obtain ⟨p, sent⟩ := sent
  obtain ⟨ss', as', computed⟩ := transact_plan sent
  obtain ⟨rfl, rfl, rfl, rfl⟩ := plan.unique computed.plan
  have transfers : p.transfers = ss.map .send ++ p.messages := by
    rw [Pending.transfers, computed.fundsIn]
  obtain ⟨applied, -⟩ := computed.applied hb passes.id passes.fits (transfers ▸ passes.covered)
    (transfers ▸ passes.honoured)
  have applies : b.Applies e a (b.execute p).book := ⟨p, sent, applied, rfl⟩
  obtain ⟨_, _, _, _, plan', -, coherent, left⟩ := applies.planned hb
  obtain ⟨rfl, rfl, rfl, rfl⟩ := plan.unique plan'
  exact ⟨_, applies, coherent, left⟩

/-! ### Records that are written twice -/

namespace Book

section twice
variable (b : Book) (key : ListingKey) (id : Key)

theorem put_listing_twice (old old' : Option Listing) (new new' : Listing) :
    (b.put (.listing key old new)).put (.listing key old' new') =
      b.put (.listing key old new') :=
  congrArg (fun listings => { b with listings }) (b.listings.insert_insert _ _ _)

theorem put_offer_twice {o o' : Offer} (lender : o'.lender = o.lender)
    (listing : o'.listing = o.listing) (old : Offer) :
    (b.put (.offer id none o)).put (.offer id (some old) o') = b.put (.offer id none o') :=
  congrArg (fun offers => { b with offers }) (b.offers.replace_add id lender listing)

theorem put_offer_put_listing (old : Option Offer) (o : Offer) (old' : Option Listing)
    (l : Listing) : (b.put (.offer id old o)).put (.listing key old' l) =
      (b.put (.listing key old' l)).put (.offer id old o) := rfl

end twice

/-! ### The two ways -/

section ways
variable (b : Book) (key : ListingKey) (l : Listing) (count last : Value) (o : Offer)

/-- What is written when an offer is made. -/
def offering : List Change :=
  [.config b.config { b.config with lastOffer := last },
   .listing key (some l) { l with offerCount := count },
   .offer last.label none o]

/-- What is written when that offer is accepted. -/
def accepting : List Change :=
  [.listing key (some { l with offerCount := count })
    (Listing.begun { l with offerCount := count } b.height (.text last.label)),
   .offer last.label (some o) { o with deposit := none, state := .accepted }]

/-- What is written when an offer is made and accepted at once. -/
def lending : List Change :=
  [.config b.config { b.config with lastOffer := last },
   .listing key (some l)
    (Listing.begun { l with offerCount := count } b.height (.text last.label)),
   .offer last.label none { o with deposit := none, state := .accepted }]

/-- An acceptance on top of its offer leaves behind what both leave behind at once. -/
theorem after_offering (fs ts : List Message) :
    (b.after (b.offering key l count last o) fs).after (b.accepting key l count last o) ts =
      b.after (b.lending key l count last o) (fs ++ ts) := by
  have records : (b.putAll (b.offering key l count last o)).putAll
      (b.accepting key l count last o) = b.putAll (b.lending key l count last o) := by
    simp only [offering, accepting, lending, putAll_cons, putAll_nil]
    rw [put_offer_put_listing, put_listing_twice, put_offer_twice]
    · rfl
    · rfl
  unfold after
  rw [putAll_carryAll, records, carryAll_append]

end ways

/-- What the second book has of the first one after the offer was made: all that its acceptance
reads. -/
structure Offered (b b' : Book) (key : ListingKey) (l : Listing) (count last : Value) (o : Offer)
    (ss : List BankSend) : Prop where
  address : b'.address = b.address
  name : b'.name = b.name
  height : b'.height = b.height
  bank : b'.bank = (ss.map .send).foldl Bank.carry b.bank
  registry : b'.registry = b.registry
  counted : b'.config.lastOffer = last
  listing : b'.listings.get? key = some (.listing { l with offerCount := count })
  offer : b'.storedOffer? last.label = some o

section ways
variable {b b' : Book} {key : ListingKey} {l : Listing} {count last : Value} {o : Offer}
  {ss : List BankSend}

theorem offered_of_unlogged
    (left : b'.unlogged = b.unlogged.after (b.offering key l count last o) (ss.map .send)) :
    Offered b b' key l count last o ss := by
  rw [after, carryAll_eq] at left
  refine ⟨(congrArg address left :), (congrArg name left :), (congrArg height left :),
    (congrArg bank left :), ?_,
    (congrArg (·.config.lastOffer) left :), ?_, ?_⟩
  · exact (congrArg registry left).trans (Registry.foldl_carry_sends ss _)
  · exact get?_of_listing? ((congrArg (·.listing? key) left).trans (listing?_put_self ..))
  · exact (congrArg (·.storedOffer? last.label) left).trans (storedOffer?_put_self ..)

/-- What is written at once can be put into texts if both of the others can. -/
theorem legible_lending_iff {t : Terms} (agreed : o.terms = some t)
    (deposit : o.deposit = some (.coin t.principal)) :
    (∀ c ∈ b.lending key l count last o, c.Legible) ↔
      (∀ c ∈ b.offering key l count last o, c.Legible) ∧
        ∀ c ∈ b.accepting key l count last o, c.Legible := by
  simp only [lending, offering, accepting, List.forall_mem_cons, List.not_mem_nil, false_implies,
    implies_true, and_true, Change.legible_config, Change.legible_listing, Change.legible_offer,
    Option.mem_some_iff, forall_eq']
  constructor
  · -- the records in between are not written at once, but each part of them is
    rintro ⟨config, ⟨named, old, begun⟩, id, -, accepted⟩
    have counted : ({ l with offerCount := count } : Listing).toValue.Legible := by
      obtain ⟨assets, terms, -, rest⟩ := Listing.legible_iff.1 old
      exact Listing.legible_iff.2 ⟨assets, terms, (Listing.legible_iff.1 begun).2.2.1, rest⟩
    have offer : o.toValue.Legible := by
      obtain ⟨lender, borrower, loanId, position, terms, -, comment⟩ :=
        Offer.legible_iff.1 accepted
      have paid : t.principal.toValue.Legible := (Terms.legible_iff.1 (terms t agreed)).1
      refine Offer.legible_iff.2 ⟨lender, borrower, loanId, position, terms, ?_, comment⟩
      rw [deposit]
      rintro _ ⟨⟩
      exact paid
    exact ⟨⟨config, ⟨named, old, counted⟩, id, by simp, offer⟩, ⟨named, counted, begun⟩, id, offer,
      accepted⟩
  · rintro ⟨⟨config, ⟨named, old, -⟩, id, -⟩, ⟨-, -, begun⟩, -, -, accepted⟩
    exact ⟨config, ⟨named, old, begun⟩, id, by simp, accepted⟩

theorem written_offering {lender : Key} {id : Value}
    (h : ∀ x ∈ Action.loanAttributes key lender id, x.2.Writable) :
    ∀ x ∈ Action.listingAttributes key ++ ([("global_offer_id", id)] : Attributes),
      x.2.Writable := by
  obtain ⟨borrower, -, number, made⟩ := Action.writable_loanAttributes_iff.1 h
  rw [List.forall_mem_append, List.forall_mem_singleton]
  exact ⟨Action.writable_listingAttributes_iff.2 ⟨borrower, number⟩, made⟩

/-- A book passes an offer that is accepted at once if and only if it passes the offer, and the book
after the offer passes its acceptance. -/
theorem Offered.passes_iff (offered : Offered b b' key l count last o ss) {t : Terms}
    (agreed : o.terms = some t) (deposit : o.deposit = some (.coin t.principal))
    {ts : List Message} {lender : Key} :
    b.Passes (b.lending key l count last o) (ss.map .send ++ ts)
        (Action.loanAttributes key lender (.text last.label)) ↔
      b.Passes (b.offering key l count last o) (ss.map .send)
          (Action.listingAttributes key ++
            ([("global_offer_id", .text last.label)] : Attributes)) ∧
        b'.Passes (b.accepting key l count last o) ts
          (Action.loanAttributes key lender (.text last.label)) := by
  have covers : b.bank.Covers (ss.map .send ++ ts) ↔
      b.bank.Covers (ss.map .send) ∧ b'.bank.Covers ts := by
    rw [Bank.covers_append, offered.bank]
  have honours : b.registry.Honours (ss.map .send ++ ts) ↔
      b.registry.Honours (ss.map .send) ∧ b'.registry.Honours ts := by
    rw [Registry.honours_append, Registry.foldl_carry_sends, offered.registry]
  have id : b'.requireExecId = b.requireExecId := by
    rw [requireExecId, requireExecId, offered.name, offered.height]
  constructor
  · rintro ⟨passed, fits, covered, honoured, changes, transfers, written⟩
    obtain ⟨made, accepted⟩ := (legible_lending_iff agreed deposit).1 changes
    obtain ⟨funds, messages⟩ := List.forall_mem_append.1 transfers
    refine ⟨⟨passed, fits, (covers.1 covered).1, (honours.1 honoured).1, made, funds,
      written_offering written⟩, id.trans passed, changesRefusal?_none_iff.2 ?_,
      (covers.1 covered).2, (honours.1 honoured).2, accepted, messages, written⟩
    -- the acceptance is computed against what the offer has just written
    rw [accepting, List.forall_mem_cons, List.forall_mem_singleton]
    exact ⟨changeRefusal?_listing offered.listing, changeRefusal?_offer offered.offer⟩
  · rintro ⟨made, accepted⟩
    exact ⟨made.id, made.fits, covers.2 ⟨made.covered, accepted.covered⟩,
      honours.2 ⟨made.honoured, accepted.honoured⟩,
      (legible_lending_iff agreed deposit).2 ⟨made.changes, accepted.changes⟩,
      List.forall_mem_append.2 ⟨made.transfers, accepted.transfers⟩, accepted.written⟩

end ways
end Book

theorem Action.requireOwned_congr {b b' : Book} (h : b'.registry = b.registry) (k : Key) :
    ∀ ts, requireOwned b' k ts = requireOwned b k ts
  | [] => rfl
  | t :: ts => by rw [requireOwned, requireOwned, h, requireOwned_congr h k ts]

namespace Book
variable {b b' b₁ b₂ : Book} {lender borrower : Envelope} {key : ListingKey}
  {comment : Option Value} {l : Listing} {t : Terms}

/-- What is lent directly can be offered and accepted. -/
theorem Applies.staged (direct : b.Applies lender (.acceptLoan key comment) b₁) (hb : b.Coherent)
    (mine : (key.borrower == (borrower.sender : Key)) = true) (listed : b.listing? key = some l)
    (proposed : l.terms = some t) :
    ∃ b' b₂, b.Applies lender (.makeOffer key (some t) comment) b' ∧
      b'.Applies borrower (.acceptOffer b'.config.lastOffer.label) b₂ := by
  obtain ⟨cs, ss, ms, as, plan, passes, -⟩ := direct.planned hb
  cases plan with
  | configure made => cases made
  | @acceptLoan _ _ _ _ last count ss ps ts stored published own funds next counted escrow payout
      custody owned numbered =>
      cases listed.symm.trans (listing?_of_get? stored)
      cases proposed.symm.trans own
      -- the offer is one half of what was passed, read on the book that it would leave behind
      have made : b.Passes (b.offering key l count last (lender.offer b.time key t count comment))
          (ss.map .send) _ :=
        (((offered_of_unlogged (unlogged_after b _ _)).passes_iff rfl rfl).1 passes).1
      have offer : Action.Plan b lender (.makeOffer key (some t) comment) _ ss [] _ :=
        .makeOffer stored published funds next counted escrow numbered
      rw [← List.append_nil (ss.map Message.send)] at made
      obtain ⟨b', makes, hb', left⟩ := offer.applies hb made
      rw [List.append_nil] at left
      have offered := offered_of_unlogged left
      have accepted := ((offered.passes_iff rfl rfl).1 passes).2
      have acceptance : Action.Plan b' borrower (.acceptOffer last.label) _ [] _ _ :=
        .acceptOffer offered.offer mine offered.listing published rfl rfl
          (offered.address.symm ▸ payout) (offered.address.symm ▸ custody)
          ((Action.requireOwned_congr offered.registry _ _).trans owned)
      rw [offered.height] at acceptance
      obtain ⟨b₂, accepts, -⟩ := acceptance.applies hb' accepted
      rw [← offered.counted] at accepts
      exact ⟨b', b₂, makes, accepts⟩

/-- What is offered at the terms of the listing and accepted can be lent directly, and the books are
the same then. -/
theorem Applies.direct (makes : b.Applies lender (.makeOffer key (some t) comment) b')
    (accepts : b'.Applies borrower (.acceptOffer b'.config.lastOffer.label) b₂) (hb : b.Coherent)
    (listed : b.listing? key = some l) (proposed : l.terms = some t) :
    ∃ b₁, b.Applies lender (.acceptLoan key comment) b₁ ∧ b₂.unlogged = b₁.unlogged := by
  obtain ⟨cs, ss, ms, as, plan, made, hb', left⟩ := makes.planned hb
  cases plan with
  | configure made => cases made
  | @makeOffer _ _ _ _ last count ss stored published funds next counted escrow numbered =>
      cases listed.symm.trans (listing?_of_get? stored)
      rw [List.append_nil] at made left
      have offered := offered_of_unlogged left
      rw [offered.counted] at accepts
      obtain ⟨cs', ss', ms', as', plan', accepted, -, left'⟩ := accepts.planned hb'
      cases plan' with
      | configure made => cases made
      | @acceptOffer id o l' c ps ts offer mine stored' published' pending deposit payout custody
          owned =>
          -- what is accepted is the offer that was just stored, on the listing that counts it
          cases offered.offer.symm.trans offer
          cases offered.listing.symm.trans stored'
          cases deposit
          rw [offered.address] at payout custody
          rw [Action.requireOwned_congr offered.registry] at owned
          rw [offered.height] at accepted left'
          have plan : Action.Plan b lender (.acceptLoan key comment) _ ss _ _ :=
            .acceptLoan stored published proposed funds next counted escrow payout custody owned
              numbered
          obtain ⟨b₁, direct, -, left₁⟩ :=
            plan.applies hb ((offered.passes_iff rfl rfl).2 ⟨made, accepted⟩)
          refine ⟨b₁, direct, ?_⟩
          rw [left', left, left₁]
          exact after_offering b.unlogged key l count last _ _ _

end Book

/-- On every book of a run of a new contract, a listing with proposed terms can be lent on directly
if and only if an offer can be made at these terms and then accepted by the borrower. The books
that the two ways leave behind differ in their logs only. -/
theorem acceptLoan_iff_makeOffer_acceptOffer {P : Book → Move → Prop} {s₀ s : Session}
    {lender borrower : Envelope} {key : ListingKey} {comment : Option Value} {l : Listing}
    {t : Terms} (fresh : s₀.IsFresh) (run : Reaches P s₀ s)
    (listed : s.book.listing? key = some l) (proposed : l.terms = some t)
    (mine : (key.borrower == (borrower.sender : Key)) = true) :
    ((∃ b₁, s.book.Applies lender (.acceptLoan key comment) b₁) ↔
      ∃ b' b₂, s.book.Applies lender (.makeOffer key (some t) comment) b' ∧
        b'.Applies borrower (.acceptOffer b'.config.lastOffer.label) b₂) ∧
    ∀ b₁ b' b₂, s.book.Applies lender (.acceptLoan key comment) b₁ →
      s.book.Applies lender (.makeOffer key (some t) comment) b' →
      b'.Applies borrower (.acceptOffer b'.config.lastOffer.label) b₂ →
      b₂.unlogged = b₁.unlogged := by
  have hb := (run.sound fresh).book
  refine ⟨⟨?_, ?_⟩, ?_⟩
  · rintro ⟨b₁, direct⟩
    exact direct.staged hb mine listed proposed
  · rintro ⟨b', b₂, makes, accepts⟩
    obtain ⟨b₁, direct, -⟩ := makes.direct accepts hb listed proposed
    exact ⟨b₁, direct⟩
  · intro b₁ b' b₂ direct makes accepts
    obtain ⟨b₁', direct', same⟩ := makes.direct accepts hb listed proposed
    rw [direct.unique direct']
    exact same

/-- Carol lends to Alice on Alice's terms, at once or by an offer that Alice accepts. -/
theorem acceptLoan_iff_makeOffer_acceptOffer_courted : ∃ b₁ b' b₂,
    Session.courted.book.Applies Session.funding (.acceptLoan ⟨"alice", .int 0⟩ none) b₁ ∧
    Session.courted.book.Applies Session.funding
      (.makeOffer ⟨"alice", .int 0⟩ (some (.ofNat (Session.stars 500) 50 10)) none) b' ∧
    b'.Applies (Session.alice []) (.acceptOffer b'.config.lastOffer.label) b₂ ∧
    b₂.unlogged = b₁.unlogged := by
  have run : Reaches (fun _ _ => True) Session.opening Session.courted :=
    Reaches.start.run (by decide +kernel)
  have listed : ∃ l ∈ Session.courted.book.listing? ⟨"alice", .int 0⟩,
      l.terms = some (.ofNat (Session.stars 500) 50 10) := by decide +kernel
  have lent : ∃ p ∈ (Session.courted.book.transact Session.funding
        (.acceptLoan ⟨"alice", .int 0⟩ none)).toOption,
      (Session.courted.book.execute p).answer.toOption = some .applied := by decide +kernel
  obtain ⟨l, listed, proposed⟩ := listed
  obtain ⟨p, sent, applied⟩ := lent
  have direct : Session.courted.book.Applies Session.funding
      (.acceptLoan ⟨"alice", .int 0⟩ none) (Session.courted.book.execute p).book :=
    ⟨p, toOption_eq_some_iff.1 sent, toOption_eq_some_iff.1 applied, rfl⟩
  have mine : (("alice" : Key) == ((Session.alice []).sender : Key)) = true := by decide
  obtain ⟨ways, books⟩ := acceptLoan_iff_makeOffer_acceptOffer Session.isFresh_opening run listed
    proposed mine
  obtain ⟨b', b₂, makes, accepts⟩ := ways.1 ⟨_, direct⟩
  exact ⟨_, b', b₂, direct, makes, accepts, books _ _ _ direct makes accepts⟩

end Pawnbook
