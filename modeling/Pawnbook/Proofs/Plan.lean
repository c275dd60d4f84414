import Pawnbook.Proofs.Legible

/-! # What a computed transaction writes and moves

`Plan b e a cs ss ms as` lists the ways in which an action `a` in an envelope `e`, computed on a
book `b`, can come out: the changes `cs`, the coins `ss` brought in, the messages `ms` sent out and
the attributes `as`, each case with the guards that it passed. `transact_plan` is the one place
where the drafts are taken apart; all else that is proved of computed transactions splits on the
plan. -/

namespace Pawnbook

/-! ### Transfers that are left out for a zero amount -/

/-- Transfers that bring a coin from one address to another: one, or none for a zero amount. -/
inductive Conveys (sender recipient : Key) (c : Coin) : List BankSend → Prop
  | nothing (h : c.amount = 0) : Conveys sender recipient c []
  | send (hd : (sender == recipient) = false) (hp : c.amount ≠ 0) :
      Conveys sender recipient c [⟨sender, recipient, c, hd, hp⟩]

theorem exists_conveys {sender recipient : Key} {c : Coin}
    (h : c.amount ≠ 0 → (sender == recipient) = false) : ∃ ss, Conveys sender recipient c ss := by
  by_cases hz : c.amount = 0
  · exact ⟨[], .nothing hz⟩
  · exact ⟨_, .send (h hz) hz⟩

/-- Fees that bring a coin to the fee distributor: one, or none for a zero amount. -/
inductive Charges (sender recipient : Key) (c : Coin) : List FeeDeposit → Prop
  | nothing (h : c.amount = 0) : Charges sender recipient c []
  | fee (addresses : List Key) (hp : c.amount ≠ 0) :
      Charges sender recipient c [⟨sender, recipient, addresses, FeeDeposit.fundsKind, c, hp⟩]

theorem exists_charges (sender recipient : Key) (c : Coin) (addresses : List Key) :
    ∃ fs, Charges sender recipient c fs ∧ ∀ f ∈ fs, f.addresses = addresses := by
  by_cases hz : c.amount = 0
  · exact ⟨[], .nothing hz, by simp⟩
  · exact ⟨_, .fee addresses hz, by simp⟩

theorem BankSend.make_ok {sender recipient : Key} {c : Coin} {s : BankSend}
    (h : make sender recipient c = .ok s) :
    ∃ hd hp, s = ⟨sender, recipient, c, hd, hp⟩ := by
  unfold make at h
  split at h
  · rename_i hd
    split at h
    · cases h
    · rename_i hp
      cases h
      exact ⟨hd, hp, rfl⟩
  · cases h

theorem FeeDeposit.make_ok {sender recipient : Key} {addresses : List Key} {kind : Value}
    {c : Coin} {f : FeeDeposit} (h : make sender recipient addresses kind c = .ok f) :
    ∃ hp, f = ⟨sender, recipient, addresses, kind, c, hp⟩ := by
  unfold make at h
  split at h
  · cases h
  · rename_i hp
    cases h
    exact ⟨hp, rfl⟩

theorem Offer.release_ok {contract recipient : Key} {o cleared : Offer} {ss : List BankSend}
    (h : o.release contract recipient = .ok (cleared, ss)) :
    ∃ c, o.deposit = some (.coin c) ∧ cleared = { o with deposit := none } ∧
      Conveys contract recipient c ss := by
  unfold release at h
  split at h
  · cases h
  · rename_i t ht
    obtain ⟨c, hc, hr⟩ := bind_ok h
    obtain rfl : t = .coin c := by
      cases t with
      | other v => cases hc
      | coin c' => cases hc; rfl
    dsimp only at hr
    split at hr
    · rename_i hz
      cases hr
      exact ⟨c, ht, rfl, .nothing hz⟩
    · obtain ⟨s, hs, hr⟩ := bind_ok hr
      obtain ⟨hd, hp, rfl⟩ := BankSend.make_ok (toError_ok hs)
      cases hr
      exact ⟨c, ht, rfl, .send hd hp⟩

theorem Draft.fundsIn_single {d : Draft} {contract : Key} {c : Coin} {ss : List BankSend}
    (hf : d.funds = [c]) (h : d.fundsIn contract = .ok ss) : Conveys d.sender contract c ss := by
  unfold fundsIn at h
  rw [hf] at h
  by_cases hz : c.amount = 0
  · have : [c].filter (·.amount != 0) = [] := by simp [hz]
    rw [this] at h
    cases h
    exact .nothing hz
  · have : [c].filter (·.amount != 0) = (some c).toList := by simp [hz]
    rw [this] at h
    rcases mapM_toList_ok h with ⟨hn, _⟩ | ⟨c', s, hc, rfl, hs⟩
    · cases hn
    · cases hc
      obtain ⟨hd, hp, rfl⟩ := BankSend.make_ok (toError_ok hs)
      exact .send hd hp

theorem Draft.fundsIn_nil {d : Draft} {contract : Key} {ss : List BankSend} (hf : d.funds = [])
    (h : d.fundsIn contract = .ok ss) : ss = [] := by
  unfold fundsIn at h
  rw [hf] at h
  cases h
  rfl

theorem Listing.moveAssets_ok {sender recipient : Key} {refusal : Asset → Error} :
    ∀ {assets : List Asset} {ts : List NftTransfer},
      moveAssets sender recipient refusal assets = .ok ts →
      assets = ts.map (fun t => .nft t.nft) ∧ ∀ t ∈ ts, t.sender = sender ∧ t.recipient = recipient
  | [], ts, h => by
      cases h
      exact ⟨rfl, by simp⟩
  | a :: assets, ts, h => by
      unfold moveAssets at h
      split at h
      · cases h
      · rename_i n hn
        obtain ⟨rest, hr, h⟩ := bind_ok h
        cases h
        obtain ⟨hassets, hrest⟩ := moveAssets_ok hr
        refine ⟨?_, ?_⟩
        · cases a with
          | nft m =>
              cases hn
              rw [List.map_cons, ← hassets]
          | cw1155 | cw20 | native => cases hn
        · intro t ht
          rcases List.mem_cons.1 ht with rfl | ht
          · exact ⟨rfl, rfl⟩
          · exact hrest t ht

/-! ### The plans -/

/-- The listing of a loan that has started. -/
def Listing.begun (l : Listing) (height : Number) (id : Key) : Listing :=
  { l with state := .started, startBlock := some (.ofNumber height), activeOffer := some id }

/-- A new offer of an envelope's sender. -/
def Envelope.offer (e : Envelope) (date : Time) (key : ListingKey) (terms : Terms)
    (position : Value) (comment : Option Value) : Offer where
  lender := e.sender
  borrower := key.borrower
  loanId := key.id
  position := position
  terms := some terms
  state := .published
  date := some date
  deposit := some (.coin terms.principal)
  comment := comment

namespace Action

/-- An action that makes an offer. -/
def offers : Action → Bool
  | makeOffer .. | acceptLoan .. => true
  | _ => false

/-- The configurations that the owner of the contract, or its proposed owner, can make, with the
attributes that describe what was set. -/
inductive Configures (b : Book) (e : Envelope) : Action → Config → Attributes → Prop
  | owner {p : Option Key} (owns : (b.config.ownership.owner == (e.sender : Key)) = true) :
      Configures b e (.proposeOwner p)
        { b.config with ownership := { b.config.ownership with proposed := p } }
        [("proposed_owner", .ofOption Key.value p)]
  | claim (proposed : b.config.ownership.proposed.any (· == (e.sender : Key)) = true) :
      Configures b e .claimOwnership { b.config with ownership := { owner := e.sender } }
        [("new_owner", .text e.sender)]
  | distributor {address : Key}
      (owns : (b.config.ownership.owner == (e.sender : Key)) = true) :
      Configures b e (.setFeeDistributor address) { b.config with feeDistributor := address }
        [("fee_distributor", address.value)]
  | rate {given : Value} {feeRate : Decimal}
      (owns : (b.config.ownership.owner == (e.sender : Key)) = true)
      (valid : Config.checkFeeRate given = .ok feeRate) :
      Configures b e (.setFeeRate given) { b.config with feeRate } [("fee_rate", .decimal feeRate)]

/-- How an action in an envelope comes out on a book: its changes, the coins it brings in, the
messages it sends and its attributes. -/
inductive Plan (b : Book) (e : Envelope) :
    Action → List Change → List BankSend → List Message → Attributes → Prop
  | deposit {assets : List Asset} {terms : Option Terms} {comment : Option Value}
      {preview : Option Asset} {id : Value} (filled : assets.isEmpty = false)
      (shown : Listing.requirePreview assets preview = .ok ())
      (next : Borrower.nextId (b.borrower? e.sender) = .ok id) :
      Plan b e (.deposit assets terms comment preview)
        [.borrower e.sender (b.borrower? e.sender) ⟨id⟩,
         .listing ⟨e.sender, ⟨id⟩⟩ none { assets, date := some b.time, terms, comment, preview }]
        [] [] (listingAttributes ⟨e.sender, ⟨id⟩⟩)
  | modify {loanId : Key} {terms : Option Terms} {comment : Option Value} {preview : Option Asset}
      {l : Listing} (stored : b.listings.get? (ListingKey.mk e.sender loanId) = some (.listing l))
      (published : l.state = .published)
      (shown : Listing.requirePreview l.assets preview = .ok ()) :
      Plan b e (.modify loanId terms comment preview)
        [.listing ⟨e.sender, loanId⟩ (some l)
          { l with
            terms := terms.or l.terms
            comment := comment.or l.comment
            preview := preview.or l.preview
            date := some b.time }]
        [] [] (listingAttributes ⟨e.sender, loanId⟩)
  | withdraw {loanId : Key} {l : Listing}
      (stored : b.listings.get? (ListingKey.mk e.sender loanId) = some (.listing l))
      (published : l.state = .published) :
      Plan b e (.withdraw loanId)
        [.listing ⟨e.sender, loanId⟩ (some l) { l with state := .assetWithdrawn }]
        [] [] (listingAttributes ⟨e.sender, loanId⟩)
  | makeOffer {key : ListingKey} {terms : Terms} {comment : Option Value} {l : Listing}
      {last count : Value} {ss : List BankSend}
      (stored : b.listings.get? key = some (.listing l)) (published : l.state = .published)
      (funds : e.funds = [.coin terms.principal]) (next : b.config.lastOffer.next = .ok last)
      (counted : l.offerCount.next = .ok count)
      (escrow : Conveys e.sender b.address terms.principal ss) (numbered : last.Writable) :
      Plan b e (.makeOffer key (some terms) comment)
        [.config b.config { b.config with lastOffer := last },
         .listing key (some l) { l with offerCount := count },
         .offer last.label none (e.offer b.time key terms count comment)]
        ss [] (listingAttributes key ++ ([("global_offer_id", .text last.label)] : Attributes))
  | acceptLoan {key : ListingKey} {comment : Option Value} {l : Listing} {terms : Terms}
      {last count : Value} {ss ps : List BankSend} {ts : List NftTransfer}
      (stored : b.listings.get? key = some (.listing l)) (published : l.state = .published)
      (proposed : l.terms = some terms) (funds : e.funds = [.coin terms.principal])
      (next : b.config.lastOffer.next = .ok last) (counted : l.offerCount.next = .ok count)
      (escrow : Conveys e.sender b.address terms.principal ss)
      (payout : Conveys b.address key.borrower terms.principal ps)
      (custody : l.intoCustody key.borrower b.address = .ok ts)
      (owned : requireOwned b key.borrower ts = .ok ()) (numbered : last.Writable) :
      Plan b e (.acceptLoan key comment)
        [.config b.config { b.config with lastOffer := last },
         .listing key (some l)
          (Listing.begun { l with offerCount := count } b.height (.text last.label)),
         .offer last.label none
          { e.offer b.time key terms count comment with state := .accepted, deposit := none }]
        ss (ps.map .send ++ ts.map .transfer) (loanAttributes key e.sender (.text last.label))
  | acceptOffer {id : Key} {o : Offer} {l : Listing} {c : Coin} {ps : List BankSend}
      {ts : List NftTransfer} (offer : b.storedOffer? id = some o)
      (mine : (o.borrower == (e.sender : Key)) = true)
      (stored : b.listings.get? o.listing = some (.listing l)) (published : l.state = .published)
      (pending : o.state = .published) (deposit : o.deposit = some (.coin c))
      (payout : Conveys b.address o.borrower c ps)
      (custody : l.intoCustody o.borrower b.address = .ok ts)
      (owned : requireOwned b o.borrower ts = .ok ()) :
      Plan b e (.acceptOffer id)
        [.listing o.listing (some l) (l.begun b.height id),
         .offer id (some o) { o with deposit := none, state := .accepted }]
        [] (ps.map .send ++ ts.map .transfer) (loanAttributes o.listing o.lender id.value)
  | cancel {id : Key} {o : Offer} {l : Listing} {c : Coin} {ss : List BankSend}
      (offer : b.storedOffer? id = some o) (mine : (o.lender == (e.sender : Key)) = true)
      (pending : o.state = .published) (stored : b.listings.get? o.listing = some (.listing l))
      (published : l.state = .published) (deposit : o.deposit = some (.coin c))
      (refund : Conveys b.address o.lender c ss) :
      Plan b e (.cancelOffer id)
        [.offer id (some o) { o with deposit := none, state := .cancelled }]
        [] (ss.map .send) [("global_offer_id", id.value)]
  | refuse {id : Key} {o : Offer} {l : Listing} (offer : b.storedOffer? id = some o)
      (mine : (o.borrower == (e.sender : Key)) = true)
      (stored : b.listings.get? o.listing = some (.listing l)) (published : l.state = .published)
      (pending : o.state = .published) :
      Plan b e (.refuseOffer id) [.offer id (some o) { o with state := .refused }]
        [] [] [("global_offer_id", id.value)]
  | recover {id : Key} {o : Offer} {c : Coin} {ss : List BankSend}
      (offer : b.storedOffer? id = some o) (mine : (o.lender == (e.sender : Key)) = true)
      (refused : o.stateIf (b.closes o.listing) = .refused) (deposit : o.deposit = some (.coin c))
      (refund : Conveys b.address o.lender c ss) :
      Plan b e (.withdrawRefused id)
        [.offer id (some o) { o with deposit := none, state := .refused }]
        [] (ss.map .send) [("global_offer_id", id.value)]
  | repay {loanId : Key} {l : Listing} {id : Key} {o : Offer} {terms : Terms} {interest share : Int}
      {payment : Coin} {ss ps : List BankSend} {ts : List NftTransfer} {fs : List FeeDeposit}
      (stored : b.listings.get? (ListingKey.mk e.sender loanId) = some (.listing l))
      (started : l.state = .started) (active : l.activeOffer = some id)
      (offer : b.requireOffer id = .ok o) (running : l.isDefaulted o.terms b.height = false)
      (agreed : o.terms = some terms) (funds : e.funds = [.coin payment])
      (denom : payment.denom = terms.principal.denom)
      (whole : terms.interest.whole? = some interest)
      (enough : terms.principal.amount + interest.toNat ≤ payment.amount)
      (split : Repayment.lenderInterest terms.interest.toDecimal b.config.feeRate = .ok share)
      (escrow : Conveys e.sender b.address payment ss)
      (payout : Conveys b.address o.lender
        (payment.withAmount (terms.principal.amount + share).toNat) ps)
      (released : l.outOfCustody b.address e.sender = .ok ts)
      (fees : Charges b.address b.config.feeDistributor
        (payment.withAmount (payment.amount - (terms.principal.amount + share)).toNat) fs)
      (tagged : ∀ f ∈ fs, l.collections = .ok f.addresses) :
      Plan b e (.repay loanId)
        [.listing ⟨e.sender, loanId⟩ (some l) { l with state := .ended }]
        ss (ps.map .send ++ ts.map .transfer ++ fs.map .fee)
        (loanAttributes ⟨e.sender, loanId⟩ o.lender id.value ++
          ([("lender_payback", .int (terms.principal.amount + share)),
            ("treasury_cut", .int (payment.amount - (terms.principal.amount + share)))] :
              Attributes))
  | claim {key : ListingKey} {l : Listing} {id : Key} {o : Offer} {ts : List NftTransfer}
      (stored : b.listings.get? key = some (.listing l)) (started : l.state = .started)
      (active : l.activeOffer = some id) (offer : b.requireOffer id = .ok o)
      (mine : (o.lender == (e.sender : Key)) = true)
      (overdue : l.isDefaulted o.terms b.height = true)
      (released : l.outOfCustody b.address o.lender = .ok ts) :
      Plan b e (.claimDefault key) [.listing key (some l) { l with state := .defaulted }]
        [] (ts.map .transfer) (loanAttributes key o.lender id.value)
  | configure {a : Action} {c : Config} {as : Attributes} (made : Configures b e a c as) :
      Plan b e a [.config b.config c] [] [] as

/-! ### The drafts taken apart -/

section drafts
variable {b : Book} {e : Envelope} {d : Draft} {ss : List BankSend}

theorem draftDeposit_plan {assets : List Asset} {terms : Option Terms} {comment : Option Value}
    {preview : Option Asset} (h : draftDeposit b e.sender assets terms comment preview = .ok d)
    (hf : d.fundsIn b.address = .ok ss) :
    Plan b e (.deposit assets terms comment preview) (Change.merge d.changes) ss d.messages
      d.attributes ∧ d.sender = e.sender := by
  obtain ⟨hne, h⟩ := unless_ok h
  obtain ⟨u, hp, h⟩ := bind_ok h
  obtain ⟨id, hid, h⟩ := bind_ok h
  cases h
  obtain rfl := Draft.fundsIn_nil rfl hf
  have filled := Bool.eq_false_iff.2 hne
  have next := toError_ok hid
  exact ⟨.deposit filled hp next, rfl⟩

theorem draftModify_plan {loanId : Key} {terms : Option Terms} {comment : Option Value}
    {preview : Option Asset} (h : draftModify b e.sender loanId terms comment preview = .ok d)
    (hf : d.fundsIn b.address = .ok ss) :
    Plan b e (.modify loanId terms comment preview) (Change.merge d.changes) ss d.messages
      d.attributes ∧ d.sender = e.sender := by
  obtain ⟨l, hl, h⟩ := bind_ok h
  obtain ⟨u, hs, h⟩ := bind_ok h
  obtain ⟨u', hp, h⟩ := bind_ok h
  cases h
  obtain rfl := Draft.fundsIn_nil rfl hf
  have stored := Book.requireListing_ok hl
  have published := Listing.requirePublished_ok hs
  exact ⟨.modify stored published hp, rfl⟩

theorem draftWithdraw_plan {loanId : Key} (h : draftWithdraw b e.sender loanId = .ok d)
    (hf : d.fundsIn b.address = .ok ss) :
    Plan b e (.withdraw loanId) (Change.merge d.changes) ss d.messages d.attributes ∧
      d.sender = e.sender := by
  obtain ⟨l, hl, h⟩ := bind_ok h
  obtain ⟨u, hs, h⟩ := bind_ok h
  cases h
  obtain rfl := Draft.fundsIn_nil rfl hf
  have stored := Book.requireListing_ok hl
  have published := Listing.requirePublished_ok hs
  exact ⟨.withdraw stored published, rfl⟩

theorem requireTerms_ok {key : ListingKey} {terms : Option Terms} {t : Terms}
    (h : requireTerms key terms = .ok t) : terms = some t := by
  cases terms with
  | none => cases h
  | some t' =>
      cases h
      rfl

theorem newOffer_ok {key : ListingKey} {terms : Option Terms} {comment : Option Value}
    {new : NewOffer} (h : newOffer b e key terms comment = .ok new) :
    ∃ l t last count, b.listings.get? key = some (.listing l) ∧ l.state = .published ∧
      terms = some t ∧ e.funds = [.coin t.principal] ∧ b.config.lastOffer.next = .ok last ∧
      last.Writable ∧ l.offerCount.next = .ok count ∧
      new =
        { id := last.label
          offer := e.offer b.time key t count comment
          deposit := t.principal
          listing := { l with offerCount := count }
          changes :=
            [.config b.config { b.config with lastOffer := last },
             .listing key (some l) { l with offerCount := count },
             .offer last.label none (e.offer b.time key t count comment)] } := by
  obtain ⟨l, hl, h⟩ := bind_ok h
  obtain ⟨u, hs, h⟩ := bind_ok h
  obtain ⟨u', -, h⟩ := bind_ok h
  obtain ⟨t, ht, h⟩ := bind_ok h
  obtain ⟨c, hc, h⟩ := bind_ok h
  obtain ⟨last, hlast, h⟩ := bind_ok h
  obtain ⟨id, hid, h⟩ := bind_ok h
  obtain ⟨count, hcount, h⟩ := bind_ok h
  obtain rfl := requireTerms_ok ht
  obtain ⟨hfunds, rfl⟩ := Offer.depositOf_ok hc
  have stored := Book.requireListing_ok hl
  have published := Listing.requirePublished_ok hs
  have next := toError_ok hlast
  have counted := toError_ok hcount
  have written : last.written = .ok id := mapError_ok hid
  obtain rfl := Value.label_of_written written
  cases h
  exact ⟨l, t, last, count, stored, published, rfl, hfunds, next, ⟨_, written⟩, counted, rfl⟩

theorem draftOffer_plan {key : ListingKey} {terms : Option Terms} {comment : Option Value}
    (h : draftOffer b e key terms comment = .ok d) (hf : d.fundsIn b.address = .ok ss) :
    Plan b e (.makeOffer key terms comment) (Change.merge d.changes) ss d.messages d.attributes ∧
      d.sender = e.sender := by
  obtain ⟨new, hn, h⟩ := bind_ok h
  obtain ⟨l, t, last, count, hl, hs, rfl, hfunds, hlast, numbered, hcount, rfl⟩ := newOffer_ok hn
  cases h
  have escrow := Draft.fundsIn_single rfl hf
  exact ⟨.makeOffer hl hs hfunds hlast hcount escrow numbered, rfl⟩

theorem accept_ok {id : Key} {o : Offer} {l : Listing} {cs : List Change} {ms : List Message}
    (h : accept b id o l = .ok (cs, ms)) :
    ∃ c ps ts, l.state = .published ∧ o.state = .published ∧ o.deposit = some (.coin c) ∧
      Conveys b.address o.borrower c ps ∧ l.intoCustody o.borrower b.address = .ok ts ∧
      requireOwned b o.borrower ts = .ok () ∧ ms = ps.map .send ++ ts.map .transfer ∧
      cs =
        [.listing o.listing (some l) (l.begun b.height id),
         .offer id (some o) { o with deposit := none, state := .accepted }] := by
  obtain ⟨u, hs, h⟩ := bind_ok h
  obtain ⟨ho, h⟩ := unless_ok h
  obtain ⟨⟨cleared, ps⟩, hr, h⟩ := bind_ok h
  obtain ⟨ts, hts, h⟩ := bind_ok h
  obtain ⟨u', hown, h⟩ := bind_ok h
  obtain ⟨c, hc, rfl, hps⟩ := Offer.release_ok hr
  have published := Listing.requirePublished_ok hs
  have pending := Decidable.of_not_not ho
  cases h
  exact ⟨c, ps, ts, published, pending, hc, hps, hts, hown, rfl, rfl⟩

/-- Making an offer and accepting it at once writes the configuration, the listing and the offer
once each. -/
theorem merge_acceptLoan (config config' : Config) (key : ListingKey) (l counted started : Listing)
    (id : Key) (o accepted : Offer) :
    Change.merge ([.config config config', .listing key (some l) counted, .offer id none o] ++
        [.listing key (some counted) started, .offer id (some o) accepted]) =
      [.config config config', .listing key (some l) started, .offer id none accepted] := by
  have hl : ((Slot.listing key) == Slot.listing key) = true := BEq.rfl
  have ho : ((Slot.offer id) == Slot.offer id) = true := BEq.rfl
  have hcl : (Slot.config == Slot.listing key) = false := rfl
  have hco : (Slot.config == Slot.offer id) = false := rfl
  have hlo : ((Slot.listing key) == Slot.offer id) = false := rfl
  simp only [Change.merge, Change.config, Change.listing, Change.offer, List.cons_append,
    List.nil_append, List.foldl_cons, List.foldl_nil, Change.mergeInto, hl, ho, hcl, hco, hlo,
    Bool.false_eq_true, ↓reduceIte]

theorem draftAcceptLoan_plan {key : ListingKey} {comment : Option Value}
    (h : draftAcceptLoan b e key comment = .ok d) (hf : d.fundsIn b.address = .ok ss) :
    Plan b e (.acceptLoan key comment) (Change.merge d.changes) ss d.messages d.attributes ∧
      d.sender = e.sender := by
  obtain ⟨l, hl, h⟩ := bind_ok h
  obtain ⟨t, ht, h⟩ := bind_ok h
  obtain ⟨new, hn, h⟩ := bind_ok h
  obtain ⟨⟨cs, ms⟩, ha, h⟩ := bind_ok h
  obtain ⟨l', t', last, count, hl', hs, hterms, hfunds, hlast, numbered, hcount, rfl⟩ :=
    newOffer_ok hn
  obtain ⟨c, ps, ts, -, -, hc, hps, hts, hown, rfl, rfl⟩ := accept_ok ha
  obtain rfl : l' = l := by
    have hsame := hl'.symm.trans (Book.requireListing_ok hl)
    cases hsame
    rfl
  cases hterms
  cases hc
  have proposed := requireTerms_ok ht
  have hm := merge_acceptLoan b.config { b.config with lastOffer := last } key l'
    { l' with offerCount := count }
    (Listing.begun { l' with offerCount := count } b.height (.text last.label)) (.text last.label)
    (e.offer b.time key t count comment)
    { e.offer b.time key t count comment with state := .accepted, deposit := none }
  cases h
  have escrow := Draft.fundsIn_single rfl hf
  have plan : Plan b e (.acceptLoan key comment) _ _ _ _ :=
    .acceptLoan hl' hs proposed hfunds hlast hcount escrow hps hts hown numbered
  rw [← hm] at plan
  exact ⟨plan, rfl⟩

theorem draftAcceptOffer_plan {id : Key} (h : draftAcceptOffer b e.sender id = .ok d)
    (hf : d.fundsIn b.address = .ok ss) :
    Plan b e (.acceptOffer id) (Change.merge d.changes) ss d.messages d.attributes ∧
      d.sender = e.sender := by
  obtain ⟨o, ho, h⟩ := bind_ok h
  obtain ⟨u, hm, h⟩ := bind_ok h
  obtain ⟨l, hl, h⟩ := bind_ok h
  obtain ⟨⟨cs, ms⟩, ha, h⟩ := bind_ok h
  obtain ⟨c, ps, ts, hs, hpub, hc, hps, hts, hown, rfl, rfl⟩ := accept_ok ha
  cases h
  obtain rfl := Draft.fundsIn_nil rfl hf
  have offer := Book.requireStoredOffer_ok ho
  have mine := Offer.requireBorrower_ok hm
  have stored := Book.requireListing_ok hl
  exact ⟨.acceptOffer offer mine stored hs hpub hc hps hts hown, rfl⟩

theorem draftCancel_plan {id : Key} (h : draftCancel b e.sender id = .ok d)
    (hf : d.fundsIn b.address = .ok ss) :
    Plan b e (.cancelOffer id) (Change.merge d.changes) ss d.messages d.attributes ∧
      d.sender = e.sender := by
  obtain ⟨o, ho, h⟩ := bind_ok h
  obtain ⟨u, hm, h⟩ := bind_ok h
  obtain ⟨u', -, h⟩ := bind_ok h
  obtain ⟨hpub, h⟩ := unless_ok h
  obtain ⟨l, hl, h⟩ := bind_ok h
  obtain ⟨u'', hs, h⟩ := bind_ok h
  obtain ⟨⟨cleared, refunds⟩, hr, h⟩ := bind_ok h
  obtain ⟨c, hc, rfl, hps⟩ := Offer.release_ok hr
  cases h
  obtain rfl := Draft.fundsIn_nil rfl hf
  have offer := Book.requireStoredOffer_ok ho
  have mine := Offer.requireLender_ok hm
  have stored := Book.requireListing_ok hl
  have published := Listing.requirePublished_ok hs
  have pending := (Offer.stateIf_eq_published_iff.1 (Decidable.of_not_not hpub)).1
  exact ⟨.cancel offer mine pending stored published hc hps, rfl⟩

theorem draftRefuse_plan {id : Key} (h : draftRefuse b e.sender id = .ok d)
    (hf : d.fundsIn b.address = .ok ss) :
    Plan b e (.refuseOffer id) (Change.merge d.changes) ss d.messages d.attributes ∧
      d.sender = e.sender := by
  obtain ⟨o, ho, h⟩ := bind_ok h
  obtain ⟨u, hm, h⟩ := bind_ok h
  obtain ⟨l, hl, h⟩ := bind_ok h
  obtain ⟨u', hr, h⟩ := bind_ok h
  cases h
  obtain rfl := Draft.fundsIn_nil rfl hf
  obtain ⟨hs, hpub⟩ := Offer.requireRefusable_ok hr
  have offer := Book.requireStoredOffer_ok ho
  have mine := Offer.requireBorrower_ok hm
  have stored := Book.requireListing_ok hl
  exact ⟨.refuse offer mine stored hs hpub, rfl⟩

theorem draftWithdrawRefused_plan {id : Key} (h : draftWithdrawRefused b e.sender id = .ok d)
    (hf : d.fundsIn b.address = .ok ss) :
    Plan b e (.withdrawRefused id) (Change.merge d.changes) ss d.messages d.attributes ∧
      d.sender = e.sender := by
  obtain ⟨o, ho, h⟩ := bind_ok h
  obtain ⟨u, hm, h⟩ := bind_ok h
  obtain ⟨u', -, h⟩ := bind_ok h
  obtain ⟨hstate, h⟩ := unless_ok h
  obtain ⟨⟨cleared, refunds⟩, hr, h⟩ := bind_ok h
  obtain ⟨c, hc, rfl, hps⟩ := Offer.release_ok hr
  have hstate : o.stateIf (b.closes o.listing) = .refused := Decidable.of_not_not hstate
  cases h
  obtain rfl := Draft.fundsIn_nil rfl hf
  have offer := Book.requireStoredOffer_ok ho
  have mine := Offer.requireLender_ok hm
  refine ⟨?_, rfl⟩
  simp only [Offer.readIf, hstate]
  exact .recover offer mine hstate hc hps

/-! ### Closing -/

theorem singleCoin_ok {funds : List Tender} {t : Tender} (h : singleCoin funds = .ok t) :
    funds = [t] := by
  unfold singleCoin at h
  split at h
  · cases h
    rfl
  · cases h

/-- The least repayment is a coin only if the interest is a whole number. -/
theorem totalDue_ok {t : Terms} {due : Coin} (h : t.totalDue = .ok due) :
    ∃ n, t.interest.whole? = some n ∧
      due = t.principal.withAmount (t.principal.amount + n.toNat) := by
  unfold Terms.totalDue at h
  split at h
  · rename_i n hn
    cases h
    exact ⟨n, hn, rfl⟩
  · split at h <;> cases h

theorem positiveCoin?_whole (c : Coin) (n : Int) :
    positiveCoin? c (.whole n) = if 0 < n then some (c.withAmount n.toNat) else none := by
  by_cases h : 0 < n <;> simp [positiveCoin?, Option.filter, h]

theorem conveys_of_positive {sender recipient : Key} {c : Coin} {n : Int} {ps : List BankSend}
    (h : (positiveCoin? c (.whole n)).toList.mapM (fun c =>
      Malformed.toError (BankSend.make sender recipient c)) = .ok ps) :
    Conveys sender recipient (c.withAmount n.toNat) ps := by
  rw [positiveCoin?_whole] at h
  rcases mapM_toList_ok h with ⟨hn, rfl⟩ | ⟨c', s, hc, rfl, hs⟩
  · split at hn
    · cases hn
    · exact .nothing (Int.toNat_of_nonpos (by omega))
  · split at hc
    · cases hc
      obtain ⟨hd, hp, rfl⟩ := BankSend.make_ok (toError_ok hs)
      exact .send hd hp
    · cases hc

theorem charges_of_positive {sender recipient : Key} {c : Coin} {n : Int} {fs : List FeeDeposit}
    {collections : Except Error (List Key)}
    (h : (positiveCoin? c (.whole n)).toList.mapM (fun c => do
      Malformed.toError (FeeDeposit.make sender recipient (← collections) FeeDeposit.fundsKind c)) =
        .ok fs) :
    Charges sender recipient (c.withAmount n.toNat) fs ∧
      ∀ f ∈ fs, collections = .ok f.addresses := by
  rw [positiveCoin?_whole] at h
  rcases mapM_toList_ok h with ⟨hn, rfl⟩ | ⟨c', f, hc, rfl, hf⟩
  · split at hn
    · cases hn
    · exact ⟨.nothing (Int.toNat_of_nonpos (by omega)), by simp⟩
  · split at hc
    · cases hc
      obtain ⟨addresses, ha, hf⟩ := bind_ok hf
      obtain ⟨hp, rfl⟩ := FeeDeposit.make_ok (toError_ok hf)
      refine ⟨.fee addresses hp, ?_⟩
      intro f hf
      rw [List.mem_singleton.1 hf]
      exact ha
    · cases hc

theorem lenderPayback_ok {principal : Nat} {interest rate : Decimal} {payback : Number}
    (h : Repayment.lenderPayback (.whole principal) interest rate = .ok payback) :
    ∃ share, Repayment.lenderInterest interest rate = .ok share ∧
      payback = .whole (principal + share) := by
  obtain ⟨share, hs, h⟩ := bind_ok h
  cases h
  exact ⟨share, mapError_ok hs, rfl⟩

theorem draftRepay_plan {loanId : Key} (h : draftRepay b e loanId = .ok d)
    (hf : d.fundsIn b.address = .ok ss) :
    Plan b e (.repay loanId) (Change.merge d.changes) ss d.messages d.attributes ∧
      d.sender = e.sender := by
  obtain ⟨l, hl, h⟩ := bind_ok h
  obtain ⟨hs, h⟩ := require_ok h
  obtain ⟨⟨id, o⟩, ha, h⟩ := bind_ok h
  obtain ⟨u, hr, h⟩ := bind_ok h
  obtain ⟨terms, ht, h⟩ := bind_ok h
  obtain ⟨tender, hc, h⟩ := bind_ok h
  obtain ⟨payment, hp, h'⟩ := bind_ok h
  clear h
  obtain rfl : tender = .coin payment := by
    cases tender with
    | coin c =>
        cases hp
        rfl
    | other v => cases hp
  obtain ⟨hdenom, h⟩ := unless_ok h'
  obtain ⟨due, hdue, h⟩ := bind_ok h
  obtain ⟨henough, h⟩ := unless_ok h
  obtain ⟨payback, hpay, h⟩ := bind_ok h
  obtain ⟨ps, hps, h⟩ := bind_ok h
  obtain ⟨ts, hts, h⟩ := bind_ok h
  obtain ⟨fs, hfs, h⟩ := bind_ok h
  obtain ⟨hactive, hoffer⟩ := Book.activeLoan_ok ha
  obtain ⟨n, hn, rfl⟩ := totalDue_ok (toError_ok hdue)
  obtain ⟨share, hshare, rfl⟩ := lenderPayback_ok hpay
  have stored := Book.requireListing_ok hl
  have running := (Listing.requireRepayable_ok hr).1
  have agreed := requireTerms_ok ht
  have funds := singleCoin_ok hc
  have denom := Decidable.of_not_not hdenom
  have enough := Nat.not_lt.1 henough
  have payout := conveys_of_positive hps
  obtain ⟨fees, tagged⟩ := charges_of_positive hfs
  cases h
  have escrow := Draft.fundsIn_single rfl hf
  exact ⟨.repay stored hs hactive hoffer running agreed funds denom hn enough hshare escrow payout
    hts fees tagged, rfl⟩

theorem draftClaimDefault_plan {key : ListingKey} (h : draftClaimDefault b e.sender key = .ok d)
    (hf : d.fundsIn b.address = .ok ss) :
    Plan b e (.claimDefault key) (Change.merge d.changes) ss d.messages d.attributes ∧
      d.sender = e.sender := by
  obtain ⟨l, hl, h⟩ := bind_ok h
  obtain ⟨active, hactive, h⟩ := bind_ok h
  obtain ⟨u, hr, h⟩ := bind_ok h
  obtain ⟨o, ho, h⟩ := bind_ok h
  obtain ⟨hne, h⟩ := unless_ok h
  obtain ⟨ts, hts, h'⟩ := bind_ok h
  obtain ⟨id, hid, hoffer, hm⟩ := Book.requireActiveLender_ok ho
  clear h
  obtain rfl : active = some o := by
    rw [hid] at hactive
    obtain ⟨o', ho', hactive⟩ := bind_ok hactive
    cases hactive
    cases hoffer.symm.trans ho'
    rfl
  have hd := Listing.requireDefaulted_ok hr
  cases h'
  obtain rfl := Draft.fundsIn_nil rfl hf
  refine ⟨?_, rfl⟩
  have has : loanAttributes key o.lender (.ofOption Key.value l.activeOffer) =
      loanAttributes key o.lender id.value := by
    rw [hid]
    rfl
  have stored := Book.requireListing_ok hl
  have started := (Listing.state_of_isDefaulted hd).resolve_right hne
  show Plan b e _ _ _ _ (loanAttributes key o.lender (.ofOption Key.value l.activeOffer))
  rw [has]
  exact .claim stored started hid hoffer hm hd hts

/-! ### The configuration -/

theorem draftConfig_plan {a : Action} {c : Config} {as : Attributes} (hc : Configures b e a c as)
    (hf : (draftConfig b e.sender c as).fundsIn b.address = .ok ss) :
    Plan b e a (Change.merge (draftConfig b e.sender c as).changes) ss
      (draftConfig b e.sender c as).messages (draftConfig b e.sender c as).attributes ∧
      (draftConfig b e.sender c as).sender = e.sender := by
  obtain rfl := Draft.fundsIn_nil rfl hf
  exact ⟨.configure hc, rfl⟩

theorem requireOwner_ok {sender : String} {u : Unit} (h : b.config.requireOwner sender = .ok u) :
    (b.config.ownership.owner == (sender : Key)) = true := (require_ok h).1

theorem effects_plan {a : Action} (h : a.effects b e = .ok d) (hf : d.fundsIn b.address = .ok ss) :
    Plan b e a (Change.merge d.changes) ss d.messages d.attributes ∧ d.sender = e.sender := by
  cases a with
  | deposit => exact draftDeposit_plan h hf
  | modify => exact draftModify_plan h hf
  | withdraw => exact draftWithdraw_plan h hf
  | makeOffer => exact draftOffer_plan h hf
  | acceptLoan => exact draftAcceptLoan_plan h hf
  | acceptOffer => exact draftAcceptOffer_plan h hf
  | cancelOffer => exact draftCancel_plan h hf
  | refuseOffer => exact draftRefuse_plan h hf
  | withdrawRefused => exact draftWithdrawRefused_plan h hf
  | repay => exact draftRepay_plan h hf
  | claimDefault => exact draftClaimDefault_plan h hf
  | proposeOwner p =>
      obtain ⟨u, ho, h⟩ := bind_ok h
      cases h
      exact draftConfig_plan (.owner (requireOwner_ok ho)) hf
  | claimOwnership =>
      obtain ⟨hp, h⟩ := require_ok h
      cases h
      exact draftConfig_plan (.claim hp) hf
  | setFeeDistributor address =>
      obtain ⟨u, ho, h⟩ := bind_ok h
      cases h
      exact draftConfig_plan (.distributor (requireOwner_ok ho)) hf
  | setFeeRate given =>
      obtain ⟨u, ho, h⟩ := bind_ok h
      obtain ⟨feeRate, hr, h⟩ := bind_ok h
      cases h
      exact draftConfig_plan (.rate (requireOwner_ok ho) hr) hf

end drafts
end Action

/-! ### Computed transactions -/

/-- A pending transaction that carries out an action of an envelope: its plan, the funds it brings
in, and its attributes in running text after the name of the action. All of it has a canonical
text, from which its id was made. -/
structure Computed (b : Book) (e : Envelope) (a : Action) (p : Pending) (ss : List BankSend)
    (as : Attributes) : Prop where
  plan : Action.Plan b e a p.changes ss p.messages as
  fundsIn : p.fundsIn = ss.map .send
  action : p.origin.action = .text a.name
  source : p.origin.source = e.sender
  attributes : ∃ texts, (as.filter fun x => x.2 != .null).mapM
    (fun (k, v) => do return (k, Value.text (← v.written))) = (.ok texts : Except _ _) ∧
      p.attributes = (("action" : Key), Value.text a.name) :: texts
  legible : p.Legible
  intentId : ∃ id : String, p.intentId = id

/-- A transaction without an id is given the one of its canonical text. -/
theorem Pending.identified_eq {p p' : Pending} (void : p.intentId.value.isVoid = true)
    (h : p.identified = .ok p') :
    ∃ text, p.intentText = .ok text ∧ p'.intentText = .ok text ∧
      p' = { p with intentId := .text (Intent.id text) } := by
  unfold identified at h
  rw [if_pos void] at h
  obtain ⟨text, ht, h⟩ := bind_ok h
  cases h
  exact ⟨text, ht, ht, rfl⟩

theorem Pending.identified_ok {p p' : Pending} (void : p.intentId.value.isVoid = true)
    (h : p.identified = .ok p') :
    p.Legible ∧ ∃ id : String, p' = { p with intentId := .text id } := by
  obtain ⟨text, ht, -, rfl⟩ := identified_eq void h
  exact ⟨Pending.intentText_ok_iff.1 ⟨text, ht⟩, _, rfl⟩

theorem transact_intentId {b : Book} {e : Envelope} {a : Action} {p : Pending}
    (h : b.transact e a = .ok p) :
    ∃ text, p.intentText = .ok text ∧ p.intentId = .text (Intent.id text) := by
  obtain ⟨d, -, h⟩ := bind_ok h
  obtain ⟨ss, -, h⟩ := bind_ok h
  obtain ⟨as, -, h⟩ := bind_ok (mapError_ok h)
  obtain ⟨text, -, ht, same⟩ := Pending.identified_eq rfl h
  exact ⟨text, ht, congrArg Pending.intentId same⟩

theorem transact_plan {b : Book} {e : Envelope} {a : Action} {p : Pending}
    (h : b.transact e a = .ok p) : ∃ ss as, Computed b e a p ss as := by
  obtain ⟨d', hd, h⟩ := bind_ok h
  obtain ⟨d, he, hd⟩ := bind_ok hd
  cases hd
  obtain ⟨ss, hf, h⟩ := bind_ok h
  obtain ⟨as, has, h⟩ := bind_ok (mapError_ok h)
  obtain ⟨texts, ht, has⟩ := bind_ok has
  cases has
  obtain ⟨legible, id, rfl⟩ := Pending.identified_ok rfl h
  obtain ⟨hplan, hsender⟩ := Action.effects_plan he hf
  exact ⟨ss, d.attributes, hplan, rfl, rfl, hsender, ⟨texts, ht, rfl⟩,
    ⟨legible.origin, legible.changes, legible.transfers⟩, id, rfl⟩

end Pawnbook
