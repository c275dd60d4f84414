import Pawnbook.Proofs.Application
import Pawnbook.Proofs.Counting
import Pawnbook.Proofs.Custody
import Pawnbook.Proofs.Ledger
import Pawnbook.Proofs.Order

/-! # Transactions that are applied late

The guards of an action are passed when its transaction is computed. When the transaction is
carried out, the records that it writes are compared with the stored ones, and its coins and tokens
must be there; what the guards had read besides is not looked at again. For most actions this is
enough: the action could be computed on the later book as well (`Plan.renewed`). The others are
overtaken (`Action.Overtaken`): an offer can be cancelled or refused after its listing was closed,
and a loan be repaid after its deadline, or at a fee rate that is no longer the current one.
`applied_late` says that these are all. -/

namespace Pawnbook

/-! ### What stays so -/

/-- The listing is there and takes no more offers. -/
def Book.Closed (b : Book) (key : ListingKey) : Prop :=
  ∃ l, b.listing? key = some l ∧ l.state ≠ .published

theorem Book.closed_iff {b : Book} {key : ListingKey} {l : Listing}
    (stored : b.listings.get? key = some (.listing l)) : b.Closed key ↔ b.closes key = true := by
  rw [← Bool.not_eq_false, closes_eq_false_iff stored]
  constructor
  · rintro ⟨l', hl, shut⟩
    cases hl.symm.trans (listing?_of_get? stored)
    exact shut
  · exact fun shut => ⟨l, listing?_of_get? stored, shut⟩

theorem Book.Closed.closes {b : Book} {key : ListingKey} (h : b.Closed key) :
    b.closes key = true := by
  obtain ⟨l, hl, shut⟩ := h
  exact (closed_iff (get?_of_listing? hl)).1 ⟨l, hl, shut⟩

theorem LoanState.Edge.ne_published {s s' : LoanState} (h : Edge s s') : s' ≠ .published := by
  cases h <;> decide

theorem Book.Follows.closed {b b' : Book} (h : b.Follows b') {key : ListingKey}
    (closed : b.Closed key) : b'.Closed key := by
  obtain ⟨l, hl, hs⟩ := closed
  obtain ⟨l', hl', follows⟩ := h.listing key l hl
  refine ⟨l', hl', ?_⟩
  rcases follows.state with same | edge
  · rw [same]
    exact hs
  · exact edge.ne_published

/-- Two coherent books, one at a later time than the other: no listing was opened again. -/
structure Book.Precedes (b₀ b : Book) : Prop where
  before : b₀.Coherent
  after : b.Coherent
  since : b₀.Since b
  closed : ∀ key, b₀.Closed key → b.Closed key

theorem Reaches.precedes {P : Book → Move → Prop} {s₁ s : Session} (run : Reaches P s₁ s)
    (sound : s₁.Sound P) : s.Sound P ∧ s₁.book.Precedes s.book := by
  induction run with
  | start => exact ⟨sound, sound.book, sound.book, .refl _, fun _ closed => closed⟩
  | step m run allowed ih =>
      obtain ⟨later, -, -, since, closed⟩ := ih
      have follows := (later.moved m).follows later.book
      have after := later.after allowed
      exact ⟨after, sound.book, after.book, since.trans follows.since,
        fun key h => follows.closed (closed key h)⟩

/-- What was computed after a run of a new contract and is applied later fits its book, and is
posted. -/
theorem Reaches.posted_later {P : Book → Move → Prop} {s₀ s₁ s : Session} {e : Envelope}
    {a : Action} {p : Pending} (run : Reaches P s₀ s₁) (fresh : s₀.IsFresh)
    (sent : s₁.book.transact e a = .ok p) (later : Reaches P s₁ s)
    (applied : (s.book.execute p).answer = .ok .applied) :
    ∃ ss as, Computed s₁.book e a p ss as ∧ s₁.book.Precedes s.book ∧
      (∀ c ∈ p.changes, s.book.Fits c) ∧ s.book.transferRefusal? p.transfers = none ∧
      (s.book.execute p).book = s.book.posted p := by
  obtain ⟨ss, as, computed⟩ := transact_plan sent
  obtain ⟨-, order⟩ := later.precedes (run.sound fresh)
  obtain ⟨-, fits, transfers, posted⟩ :=
    computed.posted_of_applied order.before order.since order.after applied
  exact ⟨ss, as, computed, order, Book.fits_of_changesRefusal? fits, transfers, posted⟩

/-! ### Tokens that their owner hands over -/

namespace Registry

/-- Tokens that one owner can hand over one after the other are all the owner's before that. -/
theorem holder_of_honours {k c : Key} : ∀ {ts : List NftTransfer} {r : Registry},
    (∀ t ∈ ts, t.sender = k ∧ t.recipient = c) → r.Honours (ts.map .transfer) →
    ∀ t ∈ ts, (r.holder t.nft.token == k) = true
  | [], _, _, _ => by simp
  | t :: ts, r, moved, ⟨mine, honours⟩ => by
      rw [List.forall_mem_cons] at moved ⊢
      obtain ⟨⟨sender, recipient⟩, moved⟩ := moved
      have first : (r.holder t.nft.token == k) = true := sender ▸ mine t rfl
      refine ⟨first, fun u hu => ?_⟩
      have later := holder_of_honours moved honours u hu
      have owner : (r.assign t.nft.token t.recipient).owner? u.nft.token =
          if t.nft.token == u.nft.token then some t.recipient else r.owner? u.nft.token :=
        owner?_assign ..
      by_cases same : (t.nft.token == u.nft.token) = true
      · unfold holder owner? at first ⊢
        rw [← Table.get?_congr r.owners same]
        exact first
      · rw [if_neg same] at owner
        unfold holder at later ⊢
        rw [← owner]
        exact later

end Registry

theorem Action.requireOwned_of {b : Book} {k : Key} : ∀ {ts : List NftTransfer},
    (∀ t ∈ ts, (b.registry.holder t.nft.token == k) = true) → requireOwned b k ts = .ok ()
  | [], _ => rfl
  | t :: ts, h => by
      rw [List.forall_mem_cons] at h
      exact (if_pos h.1).trans (requireOwned_of h.2)

/-! ### What was given with an action -/

/-- What was given with an action can be put into texts if the changes that it makes can. -/
theorem Action.Plan.given {b : Book} {e : Envelope} {a : Action} {cs : List Change}
    {ss : List BankSend} {ms : List Message} {as : Attributes} (plan : Plan b e a cs ss ms as)
    (legible : ∀ c ∈ cs, c.Legible) : a.Legible := by
  cases plan with
  | deposit =>
      rw [List.forall_mem_cons, List.forall_mem_singleton] at legible
      obtain ⟨assets, terms, -, -, -, rest⟩ :=
        Listing.legible_iff.1 (Change.legible_listing.1 legible.2).2.2
      exact ⟨assets, terms, rest⟩
  | @modify loanId terms comment preview =>
      rw [List.forall_mem_singleton] at legible
      obtain ⟨key, -, new⟩ := Change.legible_listing.1 legible
      obtain ⟨-, agreed, -, -, -, commented, shown⟩ := Listing.legible_iff.1 new
      refine ⟨key.2, ?_, ?_, ?_⟩
      · rintro t rfl
        exact agreed t rfl
      · rintro v rfl
        exact commented v rfl
      · rintro a rfl
        exact shown a rfl
  | withdraw | repay =>
      rw [List.forall_mem_singleton] at legible
      exact (Change.legible_listing.1 legible).1.2
  | makeOffer =>
      rw [List.forall_mem_cons, List.forall_mem_cons, List.forall_mem_singleton] at legible
      obtain ⟨-, listing, offer⟩ := legible
      have parts := Offer.legible_iff.1 (Change.legible_offer.1 offer).2.2
      obtain ⟨-, -, -, -, terms, -, comment⟩ := parts
      exact ⟨(Change.legible_listing.1 listing).1, terms, comment⟩
  | acceptLoan =>
      rw [List.forall_mem_cons, List.forall_mem_cons, List.forall_mem_singleton] at legible
      obtain ⟨-, listing, offer⟩ := legible
      obtain ⟨-, -, -, -, -, -, comment⟩ := Offer.legible_iff.1 (Change.legible_offer.1 offer).2.2
      exact ⟨(Change.legible_listing.1 listing).1, comment⟩
  | acceptOffer =>
      rw [List.forall_mem_cons, List.forall_mem_singleton] at legible
      exact (Change.legible_offer.1 legible.2).1
  | cancel | refuse | recover =>
      rw [List.forall_mem_singleton] at legible
      exact (Change.legible_offer.1 legible).1
  | claim =>
      rw [List.forall_mem_singleton] at legible
      exact (Change.legible_listing.1 legible).1
  | configure made =>
      rw [List.forall_mem_singleton] at legible
      obtain ⟨-, -, proposed, distributor, rate, -⟩ :=
        Config.legible_iff.1 (Change.legible_config.1 legible).2
      cases made with
      | owner => exact proposed
      | claim => trivial
      | distributor => exact distributor
      | rate owns valid =>
          intro rate' valid'
          cases valid.symm.trans valid'
          exact rate

/-! ### Actions that are overtaken -/

/-- A payment cannot be parted in this way: the lender is the contract, which pays itself nothing,
or a part is too long to be written. -/
def Unpayable (lender contract : Key) (payment : Coin) (payback : Int) : Prop :=
  (lender == contract) = true ∧ 0 < payback ∨ ¬ payment.PartsWritable payback

theorem not_unpayable_iff {lender contract : Key} {payment : Coin} {payback : Int} :
    ¬ Unpayable lender contract payment payback ↔
      (∃ ps, Conveys contract lender (payment.withAmount payback.toNat) ps) ∧
        payment.PartsWritable payback := by
  have payout : (∃ ps, Conveys contract lender (payment.withAmount payback.toNat) ps) ↔
      ¬ ((lender == contract) = true ∧ 0 < payback) := by
    constructor
    · rintro ⟨ps, payout⟩ ⟨same, positive⟩
      cases payout with
      | nothing hz =>
          have hz : payback.toNat = 0 := hz
          omega
      | send hd => cases (BEq.symm same).symm.trans hd
    · intro h
      refine exists_conveys fun positive => Bool.eq_false_iff.2 fun same => h ⟨BEq.symm same, ?_⟩
      have positive : payback.toNat ≠ 0 := positive
      omega
  rw [payout, Unpayable, not_or, Classical.not_not]

/-- An action that was computed under a configuration is overtaken on a later book: the offer that
it cancels or refuses is on a listing that has been closed; the loan that it repays is in default;
or the fee rate is another one, at which the lender cannot be paid, being the contract itself, or
the parts of the payment are too long to be written. -/
inductive Action.Overtaken (c : Config) (b : Book) (e : Envelope) : Action → Prop
  | cancel {id : Key} {o : Offer} (offer : b.storedOffer? id = some o)
      (closed : b.Closed o.listing) : Overtaken c b e (.cancelOffer id)
  | refuse {id : Key} {o : Offer} (offer : b.storedOffer? id = some o)
      (closed : b.Closed o.listing) : Overtaken c b e (.refuseOffer id)
  | overdue {loanId : Key} {l : Listing} {id : Key} {o : Offer}
      (stored : b.listing? ⟨e.sender, loanId⟩ = some l) (active : l.activeOffer = some id)
      (offer : b.storedOffer? id = some o) (late : l.isDefaulted o.terms b.height = true) :
      Overtaken c b e (.repay loanId)
  | repriced {loanId : Key} {l : Listing} {id : Key} {o : Offer} {terms : Terms} {payment : Coin}
      {share : Int} (stored : b.listing? ⟨e.sender, loanId⟩ = some l)
      (active : l.activeOffer = some id) (offer : b.storedOffer? id = some o)
      (agreed : o.terms = some terms) (funds : e.funds = [.coin payment])
      (changed : b.config.feeRate ≠ c.feeRate)
      (split : Repayment.lenderInterest terms.interest.toDecimal b.config.feeRate = .ok share)
      (unpayable : Unpayable o.lender b.address payment (terms.principal.amount + share)) :
      Overtaken c b e (.repay loanId)

/-- The action has a plan on the book that can be described. -/
def Action.Planned (b : Book) (e : Envelope) (a : Action) : Prop :=
  ∃ cs ss ms as, Plan b e a cs ss ms as ∧ ∀ x ∈ as, x.2.Writable

/-- An action that is overtaken has no plan that can be described. -/
theorem Action.Overtaken.not_planned {c : Config} {b : Book} {e : Envelope} {a : Action}
    (h : a.Overtaken c b e) : ¬ a.Planned b e := by
  rintro ⟨cs, ss, ms, as, plan, written⟩
  cases h with
  | cancel offer closed =>
      obtain ⟨l, hl, hs⟩ := closed
      cases plan with
      | cancel offer' mine pending stored published =>
          cases offer.symm.trans offer'
          cases hl.symm.trans (Book.listing?_of_get? stored)
          exact hs published
      | configure made => cases made
  | refuse offer closed =>
      obtain ⟨l, hl, hs⟩ := closed
      cases plan with
      | refuse offer' mine stored published =>
          cases offer.symm.trans offer'
          cases hl.symm.trans (Book.listing?_of_get? stored)
          exact hs published
      | configure made => cases made
  | overdue stored active offer late =>
      cases plan with
      | repay stored' started active' read running =>
          cases stored.symm.trans (Book.listing?_of_get? stored')
          cases active.symm.trans active'
          obtain ⟨o', offer', rfl⟩ := Book.requireOffer_ok read
          cases offer.symm.trans offer'
          cases late.symm.trans running
      | configure made => cases made
  | repriced stored active offer agreed funds changed split unpayable =>
      cases plan with
      | repay stored' started active' read running agreed' funds' denom whole enough split' escrow
          payout =>
          cases stored.symm.trans (Book.listing?_of_get? stored')
          cases active.symm.trans active'
          obtain ⟨o', offer', rfl⟩ := Book.requireOffer_ok read
          cases offer.symm.trans offer'
          cases agreed.symm.trans agreed'
          cases funds.symm.trans funds'
          cases split.symm.trans split'
          rw [List.forall_mem_append, List.forall_mem_cons, List.forall_mem_singleton] at written
          exact not_unpayable_iff.2 ⟨⟨_, payout⟩, written.2⟩ unpayable
      | configure made => cases made

/-! ### Plans that are made again -/

section renewal
variable {b₀ b : Book} {e : Envelope} {a : Action} {cs : List Change} {ss : List BankSend}
  {ms : List Message} {as : Attributes}

namespace Book.Precedes

/-- A listing that was read earlier and fits: what is stored has its core, and agrees with it. -/
theorem listing (order : b₀.Precedes b) {key : ListingKey} {l₀ new : Listing}
    (stored : b₀.listings.get? key = some (.listing l₀))
    (fits : b.Fits (.listing key (some l₀) new)) :
    ∃ l, b.listings.get? key = some (.listing l) ∧ l.core = l₀.core ∧ l.agrees l₀ = true := by
  obtain ⟨l, hl, agrees⟩ := fits.listing
  obtain ⟨l', hl', core⟩ :=
    order.since.listing_of_fits order.before (listing?_of_get? stored) fits
  cases hl'.symm.trans (listing?_of_get? hl)
  exact ⟨l, hl, core, agrees⟩

theorem read (order : b₀.Precedes b) {id : Key} {o₀ : Offer} (h : b₀.requireOffer id = .ok o₀) :
    ∃ o stored, b.requireOffer id = .ok o ∧ b.storedOffer? id = some stored ∧
      o.lender = o₀.lender ∧ stored.lender = o₀.lender ∧ o.terms = o₀.terms ∧
      stored.terms = o₀.terms := by
  obtain ⟨o, offer, lender, terms⟩ := Action.offer_of_read order.since h
  exact ⟨_, o, requireOffer_of_stored offer, offer, lender, lender, terms, terms⟩

theorem refused (order : b₀.Precedes b) {id : Key} {o : Offer} (offer : b₀.storedOffer? id = some o)
    (h : o.stateIf (b₀.closes o.listing) = .refused) :
    o.stateIf (b.closes o.listing) = .refused := by
  obtain ⟨l, stored⟩ := order.before.listed offer
  cases before : b₀.closes o.listing with
  | false =>
      rw [before] at h
      have state : o.state = .refused := h
      simp [Offer.stateIf, state]
  | true =>
      have shut := order.closed _ ((closed_iff stored).2 before)
      rw [shut.closes, ← before]
      exact h

theorem isDefaulted (order : b₀.Precedes b) {l₀ l : Listing} {terms : Option Terms}
    (core : l.core = l₀.core) (h : l₀.isDefaulted terms b₀.height = true) :
    l.isDefaulted terms b.height = true := by
  obtain ⟨m, hm⟩ := order.before.height
  obtain ⟨n, hn, hle⟩ := order.since.height m hm
  have state : l.state = l₀.state := congrArg Listing.Core.state core
  have start : l.startBlock = l₀.startBlock := congrArg Listing.Core.startBlock core
  have block : l.defaultBlock? = l₀.defaultBlock? := by
    funext t
    rw [Listing.defaultBlock?, Listing.defaultBlock?, start]
  unfold Listing.isDefaulted at h ⊢
  rw [hm] at h
  rw [hn, state, block]
  split at h
  · split at h
    · exact Number.isAtMost_mono h hle
    · exact h
  · exact h
  · cases h

end Book.Precedes

theorem Action.requireOwned_of_honours {k c : Key} {l : Listing} (ss : List BankSend)
    {ps : List BankSend} {ts : List NftTransfer} (custody : l.intoCustody k c = .ok ts)
    (honours : b.registry.Honours (ss.map .send ++ (ps.map .send ++ ts.map .transfer))) :
    requireOwned b k ts = .ok () := by
  rw [Registry.honours_append, Registry.honours_append, Registry.foldl_carry_sends,
    Registry.foldl_carry_sends] at honours
  obtain ⟨-, moved⟩ := Listing.moveAssets_ok custody
  exact requireOwned_of (Registry.holder_of_honours moved honours.2.2)

/-- The owner of the contract, or its proposed owner, can set on a later book what can be set on an
earlier one if the configuration fits. -/
theorem Action.Configures.renewed {c : Config} (made : Configures b₀ e a c as)
    (misfit : b.misfit = none) (fits : b.Fits (.config b₀.config c)) :
    ∃ c', Configures b e a c' as := by
  obtain ⟨owner, proposed⟩ := fits.config misfit
  cases made with
  | owner owns => exact ⟨_, .owner (BEq.trans owner owns)⟩
  | distributor owns => exact ⟨_, .distributor (BEq.trans owner owns)⟩
  | rate owns valid => exact ⟨_, .rate (BEq.trans owner owns) valid⟩
  | claim mine =>
      obtain ⟨k, hk, same⟩ := (Option.any_eq_true _ _).1 mine
      rw [hk] at proposed
      obtain ⟨k', hk', agrees⟩ := Value.optionsAgree_some proposed
      refine ⟨_, .claim ((Option.any_eq_true _ _).2 ⟨k', hk', BEq.trans agrees same⟩)⟩

/-- An interest can be split at every rate if the parts into which a payment was split at some rate
can be written. -/
theorem Repayment.exists_lenderInterest_of_written {interest principal share payment : Int}
    {rate : Decimal} (nonneg : 0 ≤ interest) (lent : 0 ≤ principal)
    (enough : principal + interest ≤ payment) (paid : (Value.int (principal + share)).Writable)
    (kept : (Value.int (payment - (principal + share))).Writable) (hr : rate.IsRate) :
    ∃ share', lenderInterest (.ofInt interest) rate = .ok share' := by
  have hpaid := Text.isShort_iff.1 (Value.writable_iff.1 paid)
  have hkept := Text.isShort_iff.1 (Value.writable_iff.1 kept)
  refine exists_lenderInterest_ok (k := Text.maxDigits + 1) (by decide) nonneg ?_ hr
  have digit : (10 : Int) ^ (Text.maxDigits + 1) = ((10 ^ Text.maxDigits : Nat) : Int) * 10 := by
    push_cast
    exact pow_succ ..
  rw [digit]
  omega

/-- A repayment that fits a later book can be computed there, or it is overtaken. -/
theorem Action.Plan.repay_renewed {loanId : Key} (plan : Plan b₀ e (.repay loanId) cs ss ms as)
    (order : b₀.Precedes b) (written : ∀ x ∈ as, x.2.Writable)
    (fits : ∀ c ∈ cs, b.Fits c) :
    (Action.repay loanId).Planned b e ∨ (Action.repay loanId).Overtaken b₀.config b e := by
  cases plan with
  | configure made => cases made
  | @repay _ l₀ id o₀ terms interest share payment ss ps ts fs stored started active offer running
      agreed funds denom whole enough split escrow payout released fees tagged =>
      have address := order.since.address
      obtain ⟨l, stored', core, -⟩ := order.listing stored (fits _ List.mem_cons_self)
      obtain ⟨o, kept, read, offer', lender, lender', terms', agreed'⟩ := order.read offer
      have state := congrArg Listing.Core.state core
      have active' := (congrArg Listing.Core.activeOffer core).trans active
      rw [agreed] at terms' agreed'
      rw [List.forall_mem_append, List.forall_mem_cons, List.forall_mem_singleton] at written
      cases late : l.isDefaulted kept.terms b.height with
      | true => exact .inr (.overdue (Book.listing?_of_get? stored') active' offer' late)
      | false =>
          have running' : l.isDefaulted o.terms b.height = false := by
            rw [terms', ← agreed', late]
          have nonneg := terms.interest_nonneg whole
          -- the share at the rate of the later book
          have covered : (terms.principal.amount : Int) + interest ≤ payment.amount := by omega
          obtain ⟨share', split'⟩ := Repayment.exists_lenderInterest_of_written nonneg
            (Int.natCast_nonneg _) covered written.2.1 written.2.2 order.after.config.rate
          rw [← Number.toDecimal_of_whole? whole] at split'
          by_cases unpayable : Unpayable kept.lender b.address payment
              (terms.principal.amount + share')
          · refine .inr (.repriced (Book.listing?_of_get? stored') active' offer' agreed' funds ?_
              split' unpayable)
            intro same
            rw [same, split] at split'
            cases split'
            rw [lender', address] at unpayable
            exact not_unpayable_iff.2 ⟨⟨_, payout⟩, written.2⟩ unpayable
          · obtain ⟨⟨ps', payout'⟩, written'⟩ := not_unpayable_iff.1 unpayable
            rw [lender', ← lender] at payout'
            have released' := outOfCustody_of_core core address released
            obtain ⟨fs', fees', tagged'⟩ := Listing.exists_tagged released' b.address
              b.config.feeDistributor
              (payment.withAmount (payment.amount - (terms.principal.amount + share')).toNat)
            refine .inl ⟨_, _, _, _, .repay stored' (state.trans started) active' read running'
              terms' funds denom whole enough split' (address ▸ escrow) payout' released' fees'
              tagged', ?_⟩
            rw [List.forall_mem_append, List.forall_mem_cons, List.forall_mem_singleton, lender]
            exact ⟨written.1, written'⟩

/-- An action whose transaction fits a later book and hands over tokens that are there can be
computed on that book, or it is overtaken. -/
theorem Action.Plan.renewed (plan : Plan b₀ e a cs ss ms as) (order : b₀.Precedes b)
    (recorded₀ : b₀.Recorded) (recorded : b.Recorded) (written : ∀ x ∈ as, x.2.Writable)
    (fits : ∀ c ∈ cs, b.Fits c) (honours : b.registry.Honours (ss.map .send ++ ms)) :
    a.Planned b e ∨ a.Overtaken b₀.config b e := by
  have address := order.since.address
  have label : ∀ t : String, (Value.text t).Writable := fun t => ⟨t, rfl⟩
  cases plan with
  | deposit filled shown next =>
      rw [List.forall_mem_cons] at fits
      have next' := (Book.nextId_of_fits recorded₀ recorded fits.1).trans next
      exact .inl ⟨_, _, _, _, .deposit filled shown next', written⟩
  | modify stored published shown =>
      obtain ⟨l, stored', core, -⟩ := order.listing stored (fits _ List.mem_cons_self)
      have state := congrArg Listing.Core.state core
      have assets := congrArg Listing.Core.assets core
      have shown' := (congrArg (Listing.requirePreview · _) assets).trans shown
      exact .inl ⟨_, _, _, _, .modify stored' (state.trans published) shown', written⟩
  | withdraw stored published =>
      obtain ⟨l, stored', core, -⟩ := order.listing stored (fits _ List.mem_cons_self)
      have state := congrArg Listing.Core.state core
      exact .inl ⟨_, _, _, _, .withdraw stored' (state.trans published), written⟩
  | makeOffer stored published funds next counted escrow numbered =>
      rw [List.forall_mem_cons, List.forall_mem_cons] at fits
      obtain ⟨n, hn, rfl, -⟩ := fits.1.recounted order.after order.before.config next
      have next' := (congrArg Value.next hn).trans (Value.next_int n)
      obtain ⟨l, stored', core, -⟩ := order.listing stored fits.2.1
      have state := congrArg Listing.Core.state core
      have count := congrArg Listing.Core.offerCount core
      have counted' := (congrArg Value.next count).trans counted
      refine .inl ⟨_, _, _, _, .makeOffer stored' (state.trans published) funds next' counted'
        (address ▸ escrow) numbered, ?_⟩
      rw [List.forall_mem_append, List.forall_mem_singleton] at written ⊢
      exact ⟨written.1, label _⟩
  | @acceptLoan key comment l₀ terms last₀ count₀ ss ps ts stored published proposed funds next
      counted escrow payout custody owned numbered =>
      rw [List.forall_mem_cons, List.forall_mem_cons] at fits
      obtain ⟨n, hn, rfl, -⟩ := fits.1.recounted order.after order.before.config next
      have next' := (congrArg Value.next hn).trans (Value.next_int n)
      obtain ⟨l, stored', core, agrees⟩ := order.listing stored fits.2.1
      have state := congrArg Listing.Core.state core
      have count := congrArg Listing.Core.offerCount core
      have counted' := (congrArg Value.next count).trans counted
      obtain ⟨terms', proposed', principal⟩ := Listing.exists_terms_of_agrees agrees proposed
      rw [← principal, ← address] at escrow payout
      rw [← principal] at funds
      have custody' := intoCustody_of_core core address custody
      refine .inl ⟨_, _, _, _, .acceptLoan stored' (state.trans published) proposed' funds next'
        counted' escrow payout custody' (requireOwned_of_honours ss custody' honours) numbered, ?_⟩
      obtain ⟨borrower, lender, number, -⟩ := writable_loanAttributes_iff.1 written
      exact writable_loanAttributes_iff.2 ⟨borrower, lender, number, label _⟩
  | acceptOffer offer mine stored published pending deposit payout custody owned =>
      rw [List.forall_mem_cons, List.forall_mem_singleton] at fits
      obtain ⟨l, stored', core, -⟩ := order.listing stored fits.1
      have offer' := order.since.offer_of_fits order.before offer fits.2
      have state := congrArg Listing.Core.state core
      have custody' := intoCustody_of_core core address custody
      have owned' := requireOwned_of_honours [] custody' honours
      exact .inl ⟨_, _, _, _, .acceptOffer offer' mine stored' (state.trans published) pending
        deposit (address ▸ payout) custody' owned', written⟩
  | cancel offer mine pending stored published deposit refund =>
      have offer' := order.since.offer_of_fits order.before offer (fits _ List.mem_cons_self)
      obtain ⟨l, stored'⟩ := order.after.listed offer'
      by_cases hs : l.state = .published
      · exact .inl ⟨_, _, _, _, .cancel offer' mine pending stored' hs deposit (address ▸ refund),
          written⟩
      · exact .inr (.cancel offer' ⟨l, Book.listing?_of_get? stored', hs⟩)
  | refuse offer mine stored published pending =>
      have offer' := order.since.offer_of_fits order.before offer (fits _ List.mem_cons_self)
      obtain ⟨l, stored'⟩ := order.after.listed offer'
      by_cases hs : l.state = .published
      · exact .inl ⟨_, _, _, _, .refuse offer' mine stored' hs pending, written⟩
      · exact .inr (.refuse offer' ⟨l, Book.listing?_of_get? stored', hs⟩)
  | recover offer mine refused deposit refund =>
      have offer' := order.since.offer_of_fits order.before offer (fits _ List.mem_cons_self)
      exact .inl ⟨_, _, _, _, .recover offer' mine (order.refused offer refused) deposit
        (address ▸ refund), written⟩
  | repay stored started active offer running agreed funds denom whole enough split escrow payout
      released fees tagged =>
      exact repay_renewed (.repay stored started active offer running agreed funds denom whole
        enough split escrow payout released fees tagged) order written fits
  | claim stored started active offer mine overdue released =>
      obtain ⟨l, stored', core, -⟩ := order.listing stored (fits _ List.mem_cons_self)
      obtain ⟨o, -, read, -, lender, -, terms, -⟩ := order.read offer
      have state := congrArg Listing.Core.state core
      have active' := congrArg Listing.Core.activeOffer core
      have overdue' := order.isDefaulted core overdue
      rw [← terms] at overdue'
      rw [← lender] at mine released written
      exact .inl ⟨_, _, _, _, .claim stored' (state.trans started) (active'.trans active) read mine
        overdue' (outOfCustody_of_core core address released), written⟩
  | configure made =>
      obtain ⟨c', made'⟩ := made.renewed order.after.misfit (fits _ List.mem_cons_self)
      exact .inl ⟨_, _, _, _, .configure made', written⟩

/-- What an action counts on a listing that fits is counted as before. -/
theorem Book.Precedes.countShort (order : b₀.Precedes b) {key : ListingKey} {l₀ new : Listing}
    {count : Value} (stored : b₀.listings.get? key = some (.listing l₀))
    (counted : l₀.offerCount.next = .ok count) (short : count.isShort = true)
    (fits : b.Fits (.listing key (some l₀) new)) : b.CountShort key := by
  obtain ⟨l, stored', core, -⟩ := order.listing stored fits
  intro l' count' hl' counted'
  cases hl'.symm.trans (Book.listing?_of_get? stored')
  rw [show l.offerCount = l₀.offerCount from congrArg Listing.Core.offerCount core, counted]
    at counted'
  cases counted'
  exact short

/-- The numbers of a transaction that has a text can be written on a later book that it fits, if the
height there can. -/
theorem Action.Plan.numbers_renewed (plan : Plan b₀ e a cs ss ms as) (order : b₀.Precedes b)
    (fits : ∀ c ∈ cs, b.Fits c) (legible : ∀ c ∈ cs, c.Legible)
    (paid : ∀ m ∈ ss.map Message.send, m.toValue.Legible)
    (height : (Value.ofNumber b.height).isShort = true) : a.NumbersShort b e := by
  cases plan with
  | makeOffer stored published funds next counted =>
      rw [List.forall_mem_cons, List.forall_mem_cons] at fits legible
      obtain ⟨-, -, count, -⟩ := Listing.legible_iff.1 (Change.legible_listing.1 legible.2.1).2.2
      exact order.countShort stored counted count.isShort fits.2.1
  | acceptLoan stored published proposed funds next counted =>
      rw [List.forall_mem_cons, List.forall_mem_cons] at fits legible
      obtain ⟨-, -, count, -⟩ := Listing.legible_iff.1 (Change.legible_listing.1 legible.2.1).2.2
      exact ⟨order.countShort stored counted count.isShort fits.2.1, height⟩
  | acceptOffer => exact height
  | repay stored started active offer running agreed funds denom whole enough split escrow =>
      intro t ht
      rw [funds, List.mem_singleton] at ht
      subst ht
      exact escrow.legible paid
  | configure made => cases made <;> trivial
  | deposit | modify | withdraw | cancel | refuse | recover | claim => trivial

end renewal

/-! ### After a run -/

/-- A transaction that was computed in one session of a new contract and is applied in a later one
could be computed in the later one as well, unless its action has been overtaken. -/
theorem applied_late {P : Book → Move → Prop} {s₀ s₁ s : Session} {e : Envelope} {a : Action}
    {p : Pending} (fresh : s₀.IsFresh) (plain : s₀.IsPlain) (run : Reaches P s₀ s₁)
    (sent : s₁.book.transact e a = .ok p) (later : Reaches P s₁ s)
    (applied : (s.book.execute p).answer = .ok .applied) :
    (∃ p', s.book.transact e a = .ok p') ↔ ¬ a.Overtaken s₁.book.config s.book e := by
  obtain ⟨ss, as, computed⟩ := transact_plan sent
  obtain ⟨sound, order⟩ := later.precedes (run.sound fresh)
  constructor
  · rintro ⟨p', sent'⟩ overtaken
    obtain ⟨ss', as', computed'⟩ := transact_plan sent'
    exact overtaken.not_planned ⟨_, _, _, _, computed'.plan, computed'.written⟩
  · intro current
    obtain ⟨id, fits, transfers, -⟩ := Book.unrefused_of_applied computed.isEmpty_eq_false applied
    have fits := Book.fits_of_changesRefusal? fits
    obtain ⟨-, honours, -⟩ := Book.transferRefusal?_eq_none_iff.1 transfers
    rw [Pending.transfers, computed.fundsIn] at honours
    have whole := run.trans later
    have recorded := (whole.recorded fresh).2
    obtain ⟨cs, ss', ms, as', plan, written⟩ := (computed.plan.renewed order (run.recorded fresh).2
      recorded computed.written fits honours).resolve_right current
    have paid : ∀ m ∈ ss.map Message.send, m.toValue.Legible := fun m hm =>
      computed.legible.transfers m
        (List.mem_append_left _ (by rw [computed.fundsIn]; exact hm))
    exact plan.transact_ok order.after (recorded.legible (whole.plain fresh plain))
      (computed.plan.given computed.legible.changes)
      (computed.plan.numbers_renewed order fits computed.legible.changes paid
        (Book.requireExecId_ok_iff.1 id).2) written

namespace Session

/-- The transaction of an action can be computed, and is applied after some moves, when it cannot be
computed any more. -/
def Overtakes (s : Session) (between : List Move) (e : Envelope) (a : Action) : Prop :=
  ∃ p error, s.book.transact e a = .ok p ∧
    ((s.run between).book.execute p).answer = .ok .applied ∧
    (s.run between).book.transact e a = .error error

instance (s : Session) (between : List Move) (e : Envelope) (a : Action) :
    Decidable (s.Overtakes between e a) :=
  decidable_of_iff
    ((∃ p ∈ (s.book.transact e a).toOption,
        ((s.run between).book.execute p).answer.toOption = some .applied) ∧
      ((s.run between).book.transact e a).toOption = none) <| by
    simp only [Option.mem_def, toOption_eq_some_iff, toOption_eq_none_iff, Overtakes]
    constructor
    · rintro ⟨⟨p, sent, applied⟩, error, refused⟩
      exact ⟨p, error, sent, applied, refused⟩
    · rintro ⟨p, error, sent, applied, refused⟩
      exact ⟨⟨p, sent, applied⟩, error, refused⟩

/-- Alice pays what she owes for Carol's loan. -/
def repayment : Envelope := alice [.coin (stars 550)]

/-- Carol pays the principal of the terms that Alice has put on her listing. -/
def funding : Envelope := carol [.coin (stars 500)]

/-- Bob's offer waits, and Carol has not taken Alice's terms yet. -/
def courted : Session := opening.run (lending.take 7)

/-- The contract lends Alice nothing at an interest of fifty coins; the fee rate is 99 percent. -/
def selfLending : List Move :=
  [.mint (.nft cat) "alice",
   .compute (alice [])
    (.deposit [.nft cat] (some (.ofNat (stars 0) 50 10)) none none),
   .execute 0,
   .compute ⟨"contract", [.coin (stars 0)], by decide⟩ (.acceptLoan ⟨"alice", .int 0⟩ none),
   .execute 1,
   .compute owner (.setFeeRate (.decimal (.finite false 99 (-2)))),
   .execute 2,
   .fund "alice" "stars" (.whole 50)]

end Session

/-- Alice's repayment is applied nine blocks after it was computed, and could be computed then; it
is applied as well after ten blocks, when it is overtaken. -/
theorem applied_late_repaid :
    (¬ (Action.repay (.int 0)).Overtaken Session.repayable.book.config
        (Session.repayable.run [.advance 9 (.whole 5)]).book Session.repayment) ∧
      (Action.repay (.int 0)).Overtaken Session.repayable.book.config
        (Session.repayable.run [.advance 10 (.whole 5)]).book Session.repayment := by
  have run : Reaches (fun _ _ => True) Session.opening Session.repayable :=
    Reaches.start.run (by decide +kernel)
  have later : ∀ ms, Session.repayable.Allows (fun _ _ => True) ms →
      Reaches (fun _ _ => True) Session.repayable (Session.repayable.run ms) :=
    fun _ allowed => Reaches.start.run allowed
  constructor
  · have early : ∃ p ∈ (Session.repayable.book.transact Session.repayment
          (.repay (.int 0))).toOption,
        ((Session.repayable.run [.advance 9 (.whole 5)]).book.execute p).answer.toOption =
          some .applied := by decide +kernel
    have again : ((Session.repayable.run [.advance 9 (.whole 5)]).book.transact Session.repayment
        (.repay (.int 0))).toOption.isSome = true := by decide +kernel
    obtain ⟨p, sent, applied⟩ := early
    obtain ⟨p', sent'⟩ := Option.isSome_iff_exists.1 again
    exact (applied_late Session.isFresh_opening Session.isPlain_opening run
      (toOption_eq_some_iff.1 sent) (later _ (by decide +kernel))
      (toOption_eq_some_iff.1 applied)).1 ⟨p', toOption_eq_some_iff.1 sent'⟩
  · have late : Session.repayable.Overtakes [.advance 10 (.whole 5)] Session.repayment
        (.repay (.int 0)) := by decide +kernel
    obtain ⟨p, error, sent, applied, refused⟩ := late
    refine Classical.byContradiction fun current => ?_
    obtain ⟨p', sent'⟩ := (applied_late Session.isFresh_opening Session.isPlain_opening run sent
      (later _ (by decide +kernel)) applied).2 current
    cases refused.symm.trans sent'

/-- Guards are overtaken: Alice's repayment is applied in the block in which her loan goes into
default; Bob cancels his offer, and Alice refuses it, after Carol's has been taken; and Alice repays
the contract itself at a fee rate that is no longer the current one, under which it would have to
pay itself. -/
theorem guards_overtaken :
    (Reaches (fun _ _ => True) Session.opening Session.repayable ∧
      Session.repayable.Overtakes [.advance 10 (.whole 5)] Session.repayment
        (.repay (.int 0))) ∧
    (Reaches (fun _ _ => True) Session.opening Session.courted ∧
      Session.courted.Overtakes (Session.lending.drop 7) (Session.bob [])
        (.cancelOffer "1") ∧
      Session.courted.Overtakes (Session.lending.drop 7) (Session.alice [])
        (.refuseOffer "1")) ∧
    Reaches (fun _ _ => True) Session.opening (Session.opening.run Session.selfLending) ∧
      (Session.opening.run Session.selfLending).Overtakes
        [.compute Session.owner (.setFeeRate (.decimal (.finite false 5 (-2)))),
         .execute 3]
        (Session.alice [.coin (Session.stars 50)]) (.repay (.int 0)) := by
  exact ⟨⟨Reaches.start.run (by decide +kernel), by decide +kernel⟩,
    ⟨Reaches.start.run (by decide +kernel), by decide +kernel, by decide +kernel⟩,
    Reaches.start.run (by decide +kernel), by decide +kernel⟩

end Pawnbook
