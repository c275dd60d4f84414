import Pawnbook.Proofs.Edit
import Pawnbook.Proofs.Plan

/-! # Transactions that fit

A transaction is computed on one book and carried out on another, later one. `Posting` restates a
plan in terms of the book that it is carried out on: the records that it was computed against are
still there (`Plan.posting`), up to what a borrower may have written into a listing in between.
Every posting edits the records in one of the known shapes (`Posting.edit`), so carrying it out
runs to the end (`Computed.execute`). -/

namespace Pawnbook

namespace Action

theorem Configures.sound {b : Book} {e : Envelope} {a : Action} {c : Config} {as : Attributes}
    (h : Configures b e a c as) (hb : b.config.Sound) : c.Sound := by
  cases h with
  | owner | claim | distributor => exact ⟨hb.rate, hb.count⟩
  | rate owns valid => exact ⟨Config.checkFeeRate_ok valid, hb.count⟩

/-- What an action in an envelope, computed under the configuration `c`, writes and moves on the
book `b` that it fits: its changes, the coins it brings in, the messages it sends and its
attributes. -/
inductive Posting (b : Book) (c : Config) (e : Envelope) :
    Action → List Change → List BankSend → List Message → Attributes → Prop
  | deposit {assets : List Asset} {terms : Option Terms} {comment : Option Value}
      {preview : Option Asset} {before : Option Borrower} {id : Value} {new : Listing}
      {as : Attributes} (fresh : b.listing? ⟨e.sender, ⟨id⟩⟩ = none)
      (core : new.core = ⟨assets, .published, .int 0, none, none⟩) :
      Posting b c e (.deposit assets terms comment preview)
        [.borrower e.sender before ⟨id⟩, .listing ⟨e.sender, ⟨id⟩⟩ none new] [] [] as
  | modify {loanId : Key} {terms : Option Terms} {comment : Option Value} {preview : Option Asset}
      {l old new : Listing} {as : Attributes} (stored : b.listing? ⟨e.sender, loanId⟩ = some l)
      (core : new.core = l.core) :
      Posting b c e (.modify loanId terms comment preview)
        [.listing ⟨e.sender, loanId⟩ (some old) new] [] [] as
  | withdraw {loanId : Key} {l old new : Listing} {as : Attributes}
      (stored : b.listing? ⟨e.sender, loanId⟩ = some l) (published : l.state = .published)
      (core : new.core = { l.core with state := .assetWithdrawn }) :
      Posting b c e (.withdraw loanId) [.listing ⟨e.sender, loanId⟩ (some old) new] [] [] as
  | makeOffer {key : ListingKey} {terms : Terms} {comment : Option Value} {config config' : Config}
      {l old new : Listing} {n : Int} {id : Key} {date : Time} {ss : List BankSend}
      {as : Attributes} (sound : config'.Sound) (stored : b.listing? key = some l)
      (published : l.state = .published) (count : l.offerCount = .int n)
      (core : new.core = { l.core with offerCount := .int (n + 1) })
      (fresh : b.storedOffer? id = none)
      (escrow : Conveys e.sender b.address terms.principal ss) :
      Posting b c e (.makeOffer key (some terms) comment)
        [.config config config', .listing key (some old) new,
         .offer id none (e.offer date key terms (.int (n + 1)) comment)]
        ss [] as
  | acceptLoan {key : ListingKey} {terms : Terms} {comment : Option Value}
      {config config' : Config} {l old new : Listing} {n start height : Int} {id : Key}
      {date : Time} {ss ps : List BankSend} {ts : List NftTransfer} {as : Attributes}
      (sound : config'.Sound) (stored : b.listing? key = some l)
      (published : l.state = .published) (count : l.offerCount = .int n)
      (core : new.core = ⟨l.assets, .started, .int (n + 1), some id, some (.int start)⟩)
      (stands : b.height = .whole height) (began : start ≤ height)
      (fresh : b.storedOffer? id = none)
      (escrow : Conveys e.sender b.address terms.principal ss)
      (payout : Conveys b.address key.borrower terms.principal ps)
      (custody : l.intoCustody key.borrower b.address = .ok ts) :
      Posting b c e (.acceptLoan key comment)
        [.config config config', .listing key (some old) new,
         .offer id none
          { e.offer date key terms (.int (n + 1)) comment with
            state := .accepted, deposit := none }]
        ss (ps.map .send ++ ts.map .transfer) as
  | acceptOffer {id : Key} {o : Offer} {l old new : Listing} {t : Coin} {start height : Int}
      {ps : List BankSend} {ts : List NftTransfer} {as : Attributes}
      (offer : b.storedOffer? id = some o) (mine : (o.borrower == (e.sender : Key)) = true)
      (stored : b.listing? o.listing = some l) (published : l.state = .published)
      (core : new.core = ⟨l.assets, .started, l.offerCount, some id, some (.int start)⟩)
      (stands : b.height = .whole height) (began : start ≤ height)
      (pending : o.state = .published) (deposit : o.deposit = some (.coin t))
      (payout : Conveys b.address o.borrower t ps)
      (custody : l.intoCustody o.borrower b.address = .ok ts) :
      Posting b c e (.acceptOffer id)
        [.listing o.listing (some old) new,
         .offer id (some o) { o with deposit := none, state := .accepted }]
        [] (ps.map .send ++ ts.map .transfer) as
  | cancel {id : Key} {o : Offer} {t : Coin} {ss : List BankSend} {as : Attributes}
      (offer : b.storedOffer? id = some o) (pending : o.state = .published)
      (deposit : o.deposit = some (.coin t)) (refund : Conveys b.address o.lender t ss) :
      Posting b c e (.cancelOffer id)
        [.offer id (some o) { o with deposit := none, state := .cancelled }]
        [] (ss.map .send) as
  | refuse {id : Key} {o : Offer} {as : Attributes} (offer : b.storedOffer? id = some o)
      (pending : o.state = .published) :
      Posting b c e (.refuseOffer id) [.offer id (some o) { o with state := .refused }] [] [] as
  | recover {id : Key} {o : Offer} {t : Coin} {ss : List BankSend} {as : Attributes}
      (offer : b.storedOffer? id = some o) (refused : o.state = .refused ∨ o.state = .published)
      (deposit : o.deposit = some (.coin t)) (refund : Conveys b.address o.lender t ss) :
      Posting b c e (.withdrawRefused id)
        [.offer id (some o) { o with deposit := none, state := .refused }]
        [] (ss.map .send) as
  | repay {loanId : Key} {l old new : Listing} {id : Key} {o : Offer} {terms : Terms}
      {interest share : Int} {payment : Coin} {ss ps : List BankSend} {ts : List NftTransfer}
      {fs : List FeeDeposit} (stored : b.listing? ⟨e.sender, loanId⟩ = some l)
      (started : l.state = .started) (core : new.core = { l.core with state := .ended })
      (active : l.activeOffer = some id) (offer : b.storedOffer? id = some o)
      (agreed : o.terms = some terms) (denom : payment.denom = terms.principal.denom)
      (whole : terms.interest.whole? = some interest)
      (enough : terms.principal.amount + interest.toNat ≤ payment.amount) (sound : c.Sound)
      (split : Repayment.lenderInterest terms.interest.toDecimal c.feeRate = .ok share)
      (escrow : Conveys e.sender b.address payment ss)
      (payout : Conveys b.address o.lender
        (payment.withAmount (terms.principal.amount + share).toNat) ps)
      (released : l.outOfCustody b.address e.sender = .ok ts)
      (fees : Charges b.address c.feeDistributor
        (payment.withAmount (payment.amount - (terms.principal.amount + share)).toNat) fs) :
      Posting b c e (.repay loanId) [.listing ⟨e.sender, loanId⟩ (some old) new]
        ss (ps.map .send ++ ts.map .transfer ++ fs.map .fee)
        (loanAttributes ⟨e.sender, loanId⟩ o.lender id.value ++
          ([("lender_payback", .int (terms.principal.amount + share)),
            ("treasury_cut", .int (payment.amount - (terms.principal.amount + share)))] :
              Attributes))
  | claim {key : ListingKey} {l old new : Listing} {id : Key} {o : Offer} {ts : List NftTransfer}
      {as : Attributes} (stored : b.listing? key = some l) (started : l.state = .started)
      (core : new.core = { l.core with state := .defaulted }) (active : l.activeOffer = some id)
      (offer : b.storedOffer? id = some o) (mine : (o.lender == (e.sender : Key)) = true)
      (released : l.outOfCustody b.address o.lender = .ok ts) :
      Posting b c e (.claimDefault key) [.listing key (some old) new] [] (ts.map .transfer) as
  | configure {b₀ : Book} {a : Action} {config config' : Config} {as : Attributes}
      (made : Configures b₀ e a config' as) (sound : config'.Sound) :
      Posting b c e a [.config config config'] [] [] as

section
variable {b b₀ : Book} {c : Config} {e : Envelope} {a : Action} {cs : List Change}
  {ss : List BankSend} {ms : List Message} {as : Attributes}

theorem Posting.edit (h : Posting b c e a cs ss ms as) (hb : b.Coherent) : b.Edit cs := by
  cases h with
  | deposit fresh core => exact .list fresh core
  | modify stored core => exact .relist stored core rfl (.inl rfl)
  | withdraw stored published core =>
      exact .relist stored core (published ▸ rfl) (.inr (published ▸ .withdraw))
  | makeOffer sound stored published count core fresh =>
      exact .offer sound stored published count core fresh rfl rfl rfl rfl
  | acceptLoan sound stored published count core stands began fresh =>
      exact .lend sound stored published count core stands began fresh rfl rfl rfl rfl
  | acceptOffer offer mine stored published core stands began pending =>
      exact .accept stored published core stands began offer rfl pending
  | @cancel id o t ss as offer pending =>
      obtain ⟨terms, ht, -⟩ := (hb.offer id o offer).escrow
      exact .settle offer (.inr (pending ▸ .cancel)) (by simp) ht
        (Offer.escrowed_of_settled (by simp) rfl)
  | @refuse id o as offer pending =>
      obtain ⟨terms, ht, he⟩ := (hb.offer id o offer).escrow
      refine .settle offer (.inr (pending ▸ .refuse)) (by simp) ht ⟨?_, ?_, ?_⟩
      · simp
      · simp
      · intro _
        exact .inl (he.published pending)
  | @recover id o t ss as offer refused =>
      obtain ⟨terms, ht, -⟩ := (hb.offer id o offer).escrow
      refine .settle offer ?_ (by simp) ht (Offer.escrowed_of_settled (by simp) rfl)
      rcases refused with h | h
      · exact .inl h.symm
      · exact .inr (h ▸ .refuse)
  | repay stored started core =>
      exact .relist stored core (started ▸ rfl) (.inr (started ▸ .finish))
  | claim stored started core =>
      exact .relist stored core (started ▸ rfl) (.inr (started ▸ .default))
  | configure made sound => exact .configure sound

/-! ### From plans to postings -/

theorem intoCustody_of_core {l l₀ : Listing} (h : l.core = l₀.core) (hb : b.address = b₀.address)
    {sender : Key} {ts : List NftTransfer} (hts : l₀.intoCustody sender b₀.address = .ok ts) :
    l.intoCustody sender b.address = .ok ts := by
  have hassets : l.assets = l₀.assets := congrArg Listing.Core.assets h
  rw [hb, Listing.intoCustody, hassets]
  exact hts

theorem outOfCustody_of_core {l l₀ : Listing} (h : l.core = l₀.core)
    (hb : b.address = b₀.address) {recipient : Key} {ts : List NftTransfer}
    (hts : l₀.outOfCustody b₀.address recipient = .ok ts) :
    l.outOfCustody b.address recipient = .ok ts := by
  have hassets : l.assets = l₀.assets := congrArg Listing.Core.assets h
  rw [hb, Listing.outOfCustody, hassets]
  exact hts

theorem next_of_int {v w : Value} {n : Int} (hv : v = .int n) (h : v.next = .ok w) :
    w = .int (n + 1) := by
  rw [hv, Value.next_int] at h
  exact (Except.ok.inj h).symm

theorem offer_of_read (since : b₀.Since b) {id : Key} {o₀ : Offer}
    (h : b₀.requireOffer id = .ok o₀) :
    ∃ o, b.storedOffer? id = some o ∧ o.lender = o₀.lender ∧ o.terms = o₀.terms := by
  obtain ⟨read, hread, rfl⟩ := Book.requireOffer_ok h
  obtain ⟨o, ho, he⟩ := since.offer id read hread
  exact ⟨o, ho, he.lender, he.terms⟩

theorem Plan.posting (plan : Plan b₀ e a cs ss ms as) (h₀ : b₀.Coherent) (since : b₀.Since b)
    (fits : ∀ c ∈ cs, b.Fits c) : Posting b b₀.config e a cs ss ms as := by
  obtain ⟨last₀, hlast⟩ := h₀.config.count
  obtain ⟨start, hstart⟩ := h₀.height
  obtain ⟨height, hheight, hle⟩ := since.height start hstart
  have haddress := since.address
  cases plan with
  | deposit filled shown next =>
      have hn := (fits _ (List.mem_cons_of_mem _ List.mem_cons_self)).newListing
      refine .deposit ?_ rfl
      rw [Book.listing?, hn]
      rfl
  | modify stored published shown =>
      obtain ⟨l, hl, hc⟩ := since.listing_of_fits h₀ (Book.listing?_of_get? stored)
        (fits _ List.mem_cons_self)
      exact .modify hl hc.symm
  | withdraw stored published =>
      obtain ⟨l, hl, hc⟩ := since.listing_of_fits h₀ (Book.listing?_of_get? stored)
        (fits _ List.mem_cons_self)
      have hstate := congrArg Listing.Core.state hc
      apply Posting.withdraw hl (hstate.trans published)
      rw [hc]
      rfl
  | @makeOffer key terms comment l₀ last count ss stored published funds next counted escrow =>
      have stored := Book.listing?_of_get? stored
      have fits₂ := fits _ (List.mem_cons_of_mem _ List.mem_cons_self)
      have fits₃ := fits _ (List.mem_cons_of_mem _ (List.mem_cons_of_mem _ List.mem_cons_self))
      obtain ⟨l, hl, hc⟩ := since.listing_of_fits h₀ stored fits₂
      obtain ⟨n, hn⟩ := (h₀.listing _ l₀ stored).count
      obtain rfl := next_of_int hn counted
      obtain rfl := next_of_int hlast next
      have hstate := congrArg Listing.Core.state hc
      have hcount := congrArg Listing.Core.offerCount hc
      refine .makeOffer ⟨h₀.config.rate, _, rfl⟩ hl (hstate.trans published)
        (hcount.trans hn) ?_ fits₃.newOffer (haddress ▸ escrow)
      rw [hc]
      rfl
  | @acceptLoan key comment l₀ terms last count ss ps ts stored published proposed funds next
      counted escrow payout custody owned =>
      have stored := Book.listing?_of_get? stored
      have fits₂ := fits _ (List.mem_cons_of_mem _ List.mem_cons_self)
      have fits₃ := fits _ (List.mem_cons_of_mem _ (List.mem_cons_of_mem _ List.mem_cons_self))
      obtain ⟨l, hl, hc⟩ := since.listing_of_fits h₀ stored fits₂
      obtain ⟨n, hn⟩ := (h₀.listing _ l₀ stored).count
      obtain rfl := next_of_int hn counted
      obtain rfl := next_of_int hlast next
      have hstate := congrArg Listing.Core.state hc
      have hcount := congrArg Listing.Core.offerCount hc
      have hassets : l.assets = l₀.assets := congrArg Listing.Core.assets hc
      refine .acceptLoan ⟨h₀.config.rate, _, rfl⟩ hl (hstate.trans published)
        (hcount.trans hn) ?_ hheight hle fits₃.newOffer (haddress ▸ escrow) (haddress ▸ payout)
        (intoCustody_of_core hc haddress custody)
      rw [hstart, hassets]
      rfl
  | @acceptOffer id o l₀ t ps ts offer mine stored published pending deposit payout custody =>
      have stored := Book.listing?_of_get? stored
      have fits₂ := fits _ (List.mem_cons_of_mem _ List.mem_cons_self)
      obtain ⟨l, hl, hc⟩ := since.listing_of_fits h₀ stored (fits _ List.mem_cons_self)
      have ho := since.offer_of_fits h₀ offer fits₂
      have hstate := congrArg Listing.Core.state hc
      have hcount : l.offerCount = l₀.offerCount := congrArg Listing.Core.offerCount hc
      have hassets : l.assets = l₀.assets := congrArg Listing.Core.assets hc
      refine .acceptOffer ho mine hl (hstate.trans published) ?_ hheight hle pending deposit
        (haddress ▸ payout) (intoCustody_of_core hc haddress custody)
      rw [hstart, hassets, hcount]
      rfl
  | cancel offer mine pending stored published deposit refund =>
      have ho := since.offer_of_fits h₀ offer (fits _ List.mem_cons_self)
      exact .cancel ho pending deposit (haddress ▸ refund)
  | refuse offer mine stored published pending =>
      have ho := since.offer_of_fits h₀ offer (fits _ List.mem_cons_self)
      exact .refuse ho pending
  | @recover id o t ss offer mine refused deposit refund =>
      have ho := since.offer_of_fits h₀ offer (fits _ List.mem_cons_self)
      refine .recover ho ?_ deposit (haddress ▸ refund)
      unfold Offer.stateIf at refused
      split at refused
      · rename_i hs
        simp only [Bool.and_eq_true, decide_eq_true_eq] at hs
        exact .inr hs.2
      · exact .inl refused
  | @repay loanId l₀ id o terms interest share payment ss ps ts fs stored started active offer
      running agreed funds denom whole enough split escrow payout released fees tagged =>
      obtain ⟨l, hl, hc⟩ := since.listing_of_fits h₀ (Book.listing?_of_get? stored)
        (fits _ List.mem_cons_self)
      obtain ⟨o', ho, hlender, hterms⟩ := offer_of_read since offer
      have hstate := congrArg Listing.Core.state hc
      have hactive := congrArg Listing.Core.activeOffer hc
      rw [← hlender] at payout ⊢
      refine .repay hl (hstate.trans started) ?_ (hactive.trans active) ho
        (hterms.trans agreed) denom whole enough h₀.config split (haddress ▸ escrow)
        (haddress ▸ payout) (outOfCustody_of_core hc haddress released) (haddress ▸ fees)
      rw [hc]
      rfl
  | @claim key l₀ id o ts stored started active offer mine overdue released =>
      obtain ⟨l, hl, hc⟩ := since.listing_of_fits h₀ (Book.listing?_of_get? stored)
        (fits _ List.mem_cons_self)
      obtain ⟨o', ho, hlender, -⟩ := offer_of_read since offer
      have hstate := congrArg Listing.Core.state hc
      have hactive := congrArg Listing.Core.activeOffer hc
      rw [← hlender] at mine released
      refine .claim hl (hstate.trans started) ?_ (hactive.trans active) ho mine
        (outOfCustody_of_core hc haddress released)
      rw [hc]
      rfl
  | configure made => exact .configure made (made.sound h₀.config)

end
end Action

/-! ### Executions -/

/-- Carrying out a transaction that was computed earlier leaves the book alone, spends a place in
the log, or posts it: it is never carried out in part. -/
theorem Computed.execute {b₀ b : Book} {e : Envelope} {a : Action} {p : Pending}
    {ss : List BankSend} {as : Attributes} (computed : Computed b₀ e a p ss as)
    (h₀ : b₀.Coherent) (since : b₀.Since b) (hb : b.Coherent) :
    (b.execute p).book = b ∨
      (∃ f, b.requireExecId = .error f) ∧ (b.execute p).book = b.numbered ∨
      b.requireExecId = .ok () ∧ b.changesRefusal? p.changes = .ok none ∧
        Action.Posting b b₀.config e a p.changes ss p.messages as ∧ b.registry.Honours p.transfers ∧
        b.bank.Covers p.transfers ∧ (b.execute p).book = b.posted p := by
  rcases b.execute_book p with h | h | ⟨id, hc, ht, hafter⟩
  · exact .inl h
  · exact .inr (.inl h)
  · right; right
    have posting := computed.plan.posting h₀ since (Book.fits_of_changesRefusal? hc)
    obtain ⟨covered, honoured, -⟩ := Book.transferRefusal?_eq_none_iff.1 ht
    refine ⟨id, hc, posting, honoured, covered, hafter _ ?_⟩
    exact Book.commit_eq_posted id (fun b' h => (posting.edit hb).writeAll h) computed.fundsIn ht

end Pawnbook
