import Pawnbook.Proofs.Coherent
import Pawnbook.Proofs.Plan

/-! # Plans that are drafted

`effects_plan` takes a draft apart into its plan; here a plan is put together into a draft. A plan
has passed every guard of its action, so the action can be drafted and its funds brought in
(`Plan.drafts`), and it is computed if all of it can be put into texts (`Book.transact_ok`). What
cannot be put into texts is a record of the book, the configuration among them, or it was given with
the action (`Plan.texts`). On one book a message has one plan at most (`Action.Plan.unique`). -/

namespace Pawnbook

section chains
variable {ε α β : Type} {x : Except ε α} {f : α → Except ε β} {a : α} {Q : β → Prop}

/-- The step succeeds with a result of the given kind. -/
def Yields (x : Except ε α) (Q : α → Prop) : Prop := ∃ a, x = .ok a ∧ Q a

theorem Yields.bind (hx : x = .ok a) (hf : Yields (f a) Q) : Yields (x >>= f) Q := by
  rw [hx]
  exact hf

theorem Yields.unless {c : Prop} [Decidable c] {e : ε} {y : Except ε β} (hc : ¬ c)
    (hy : Yields y Q) : Yields (if c then (throw e >>= f) else y) Q := by
  rw [if_neg hc]
  exact hy

theorem Yields.require {c : Prop} [Decidable c] {y z : Except ε β} (hc : c) (hy : Yields y Q) :
    Yields (if c then y else z) Q := by
  rw [if_pos hc]
  exact hy

theorem discard_of (hx : x = .ok a) : discard x = .ok () := by
  rw [hx]
  rfl

theorem toError_of_ok {x : Except Malformed α} (h : x = .ok a) : Malformed.toError x = .ok a := by
  rw [h]
  rfl

theorem exists_mapError_ok_iff {ε' : Type} {g : ε → ε'} :
    (∃ a, x.mapError g = .ok a) ↔ ∃ a, x = .ok a := by
  cases x <;> simp [Except.mapError]

end chains

namespace Listing
variable {l : Listing}

theorem requirePublished_of {family : Family} (h : l.state = .published) :
    l.requirePublished family = .ok () := if_pos h

theorem requireRepayable_of {terms : Option Terms} {height : Number} (started : l.state = .started)
    (running : l.isDefaulted terms height = false) : l.requireRepayable terms height = .ok () := by
  unfold requireRepayable
  rw [running, if_pos started]
  rfl

theorem requireDefaulted_of {terms : Option Terms} {height : Number}
    (overdue : l.isDefaulted terms height = true) : l.requireDefaulted terms height = .ok () :=
  if_pos overdue

theorem collections_ok {contract recipient : Key} {ts : List NftTransfer}
    (h : l.outOfCustody contract recipient = .ok ts) : ∃ ks, l.collections = .ok ks := by
  obtain ⟨assets, -⟩ := moveAssets_ok h
  refine exists_mapM_ok_iff.2 fun a ha => ?_
  rw [assets] at ha
  obtain ⟨t, -, rfl⟩ := List.mem_map.1 ha
  exact ⟨_, rfl⟩

/-- A coin can be charged with the collections of assets that can be released as its tags. -/
theorem exists_tagged {contract recipient : Key} {ts : List NftTransfer}
    (h : l.outOfCustody contract recipient = .ok ts) (sender distributor : Key) (c : Coin) :
    ∃ fs, Charges sender distributor c fs ∧ ∀ f ∈ fs, l.collections = .ok f.addresses := by
  obtain ⟨ks, tags⟩ := collections_ok h
  obtain ⟨fs, fees, tagged⟩ := exists_charges sender distributor c ks
  refine ⟨fs, fees, fun f hf => ?_⟩
  rw [tagged f hf, tags]

end Listing

theorem Offer.requireRefusable_of {o : Offer} {l : Listing} (published : l.state = .published)
    (pending : o.state = .published) : o.requireRefusable l = .ok () :=
  bind_of_ok (Listing.requirePublished_of published) (if_pos pending)

namespace Book
variable {b : Book}

theorem requireRecord_of {key : ListingKey} {r : Stored} (h : b.listings.get? key = some r) :
    b.requireRecord key.borrower key.id = .ok r := by
  unfold requireRecord
  rw [show b.listings.get? (.pair key.borrower key.id) = some r from h]

theorem requireListing_of {step : Family} {key : ListingKey} {l : Listing}
    (h : b.listings.get? key = some (.listing l)) : b.requireListing step key = .ok l :=
  bind_of_ok (requireRecord_of h) rfl

theorem requireStoredOffer_of {id : Key} {o : Offer} (h : b.storedOffer? id = some o) :
    b.requireStoredOffer id = .ok o := by
  unfold requireStoredOffer
  rw [h]

theorem activeLoan_of {l : Listing} {id : Key} {o : Offer} (active : l.activeOffer = some id)
    (offer : b.requireOffer id = .ok o) : b.activeLoan l = .ok (id, o) := by
  unfold activeLoan
  rw [active]
  exact bind_of_ok offer rfl

theorem requireActiveLender_of {l : Listing} {id : Key} {o : Offer} {sender : Key}
    (active : l.activeOffer = some id) (offer : b.requireOffer id = .ok o)
    (mine : (o.lender == sender) = true) : b.requireActiveLender sender l = .ok o :=
  bind_of_ok (activeLoan_of active offer) (if_pos mine)

theorem closes_of_get? {key : ListingKey} {l : Listing}
    (h : b.listings.get? key = some (.listing l)) : b.closes key = l.isClosed := by
  rw [closes, h]
  rfl

theorem closes_eq_false_iff {key : ListingKey} {l : Listing}
    (h : b.listings.get? key = some (.listing l)) :
    b.closes key = false ↔ l.state = .published := by
  rw [closes_of_get? h, Listing.isClosed]
  simp

end Book

/-! ### Coins that are paid out -/

theorem BankSend.make_of {s r : Key} {c : Coin} (hd : (s == r) = false) (hp : c.amount ≠ 0) :
    make s r c = .ok ⟨s, r, c, hd, hp⟩ := by
  unfold make
  rw [dif_pos hd, dif_neg hp]

theorem Offer.release_of {contract recipient : Key} {o : Offer} {c : Coin} {ss : List BankSend}
    (deposit : o.deposit = some (.coin c)) (payout : Conveys contract recipient c ss) :
    o.release contract recipient = .ok ({ o with deposit := none }, ss) := by
  unfold release
  rw [deposit]
  refine bind_of_ok (a := c) rfl ?_
  dsimp only
  cases payout with
  | nothing hz => rw [if_pos hz]; rfl
  | send hd hp =>
      rw [if_neg hp]
      exact bind_of_ok (toError_of_ok (BankSend.make_of hd hp)) rfl

theorem Draft.fundsIn_of_single {d : Draft} {contract : Key} {c : Coin} {ss : List BankSend}
    (hf : d.funds = [c]) (h : Conveys d.sender contract c ss) : d.fundsIn contract = .ok ss := by
  unfold fundsIn
  rw [hf]
  cases h with
  | nothing hz =>
      have : [c].filter (·.amount != 0) = [] := by simp [hz]
      rw [this]
      rfl
  | send hd hp =>
      have : [c].filter (·.amount != 0) = [c] := by simp [hp]
      rw [this, List.mapM_cons, BankSend.make_of hd hp]
      rfl

theorem Draft.fundsIn_of_nil {d : Draft} {contract : Key} (hf : d.funds = []) :
    d.fundsIn contract = .ok [] := by
  unfold fundsIn
  rw [hf]
  rfl

namespace Action

theorem positive_of_conveys {sender recipient : Key} {c : Coin} {n : Int} {ps : List BankSend}
    (h : Conveys sender recipient (c.withAmount n.toNat) ps) :
    (positiveCoin? c (.whole n)).toList.mapM (fun c =>
      Malformed.toError (BankSend.make sender recipient c)) = .ok ps := by
  rw [positiveCoin?_whole]
  cases h with
  | nothing hz =>
      have hz : n.toNat = 0 := hz
      rw [if_neg (by omega)]
      rfl
  | send hd hp =>
      have hp' : n.toNat ≠ 0 := hp
      rw [if_pos (by omega), Option.toList_some, List.mapM_cons, BankSend.make_of hd hp]
      rfl

theorem positive_charged (sender recipient : Key) (c : Coin) (n : Int)
    {collections : Except Error (List Key)} (h : ∃ ks, collections = .ok ks) :
    ∃ fs, (positiveCoin? c (.whole n)).toList.mapM (fun c => do
      Malformed.toError (FeeDeposit.make sender recipient (← collections) FeeDeposit.fundsKind c)) =
        .ok fs := by
  obtain ⟨ks, rfl⟩ := h
  rw [positiveCoin?_whole]
  refine exists_mapM_ok_iff.2 fun c' hc' => ?_
  split at hc'
  · rw [Option.toList_some, List.mem_singleton] at hc'
    subst hc'
    refine exists_bind_ok_iff.2 ⟨ks, rfl, ?_⟩
    have positive : (c.withAmount n.toNat).amount ≠ 0 := by
      show n.toNat ≠ 0
      omega
    unfold FeeDeposit.make
    rw [dif_neg positive]
    exact ⟨_, rfl⟩
  · cases hc'

theorem totalDue_of {t : Terms} {n : Int} (h : t.interest.whole? = some n) :
    t.totalDue = .ok (t.principal.withAmount (t.principal.amount + n.toNat)) := by
  unfold Terms.totalDue
  rw [h]

/-! ### From plans to drafts -/

/-- The action can be drafted, and its funds brought in. -/
def Drafts (b : Book) (e : Envelope) (a : Action) : Prop :=
  Yields (a.effects b e) fun d => ∃ ss, d.fundsIn b.address = .ok ss

section drafts
variable {b : Book} {e : Envelope} {a : Action} {cs : List Change} {ss : List BankSend}
  {ms : List Message} {as : Attributes}

theorem newOffer_of {key : ListingKey} {terms : Terms} {comment : Option Value} {l : Listing}
    {last count : Value} (stored : b.listings.get? key = some (.listing l))
    (published : l.state = .published) (funds : e.funds = [.coin terms.principal])
    (next : b.config.lastOffer.next = .ok last) (numbered : last.Writable)
    (counted : l.offerCount.next = .ok count) :
    newOffer b e key (some terms) comment = .ok
      { id := last.label
        offer := e.offer b.time key terms count comment
        deposit := terms.principal
        listing := { l with offerCount := count }
        changes :=
          [.config b.config { b.config with lastOffer := last },
           .listing key (some l) { l with offerCount := count },
           .offer last.label none (e.offer b.time key terms count comment)] } := by
  have single : singleCoin e.funds = .ok (.coin terms.principal) := by rw [funds]; rfl
  have deposit : Offer.depositOf e.funds terms = .ok terms.principal :=
    bind_of_ok single (if_pos rfl)
  refine bind_of_ok (Book.requireListing_of stored) ?_
  refine bind_of_ok (Listing.requirePublished_of published) ?_
  refine bind_of_ok (discard_of single) (bind_of_ok (a := terms) rfl ?_)
  refine bind_of_ok deposit (bind_of_ok (toError_of_ok next) ?_)
  obtain ⟨id, written⟩ := numbered
  obtain rfl := Value.label_of_written written
  refine bind_of_ok (a := last.label) (by dsimp only; rw [written]; rfl) ?_
  exact bind_of_ok (toError_of_ok counted) rfl

theorem accept_of {id : Key} {o : Offer} {l : Listing} {c : Coin} {ps : List BankSend}
    {ts : List NftTransfer} (published : l.state = .published) (pending : o.state = .published)
    (deposit : o.deposit = some (.coin c)) (payout : Conveys b.address o.borrower c ps)
    (custody : l.intoCustody o.borrower b.address = .ok ts)
    (owned : requireOwned b o.borrower ts = .ok ()) : ∃ r, accept b id o l = .ok r := by
  have accepted : Yields (accept b id o l) fun _ => True := by
    refine .bind (Listing.requirePublished_of published) ?_
    refine .unless (not_not_intro pending) ?_
    refine .bind (Offer.release_of deposit payout) (.bind custody ?_)
    exact .bind owned ⟨_, rfl, trivial⟩
  exact accepted.imp fun _ h => h.1

theorem drafted {d : Draft} (hf : d.funds = []) :
    Yields (.ok d : Except Error Draft) fun d => ∃ ss, d.fundsIn b.address = .ok ss :=
  ⟨d, rfl, [], Draft.fundsIn_of_nil hf⟩

theorem drafted_single {d : Draft} {c : Coin} (hf : d.funds = [c])
    (escrow : Conveys d.sender b.address c ss) :
    Yields (.ok d : Except Error Draft) fun d => ∃ ss, d.fundsIn b.address = .ok ss :=
  ⟨d, rfl, ss, Draft.fundsIn_of_single hf escrow⟩

/-- An action whose plan exists can be drafted. The recovery of a deposit looks for the listing of
the offer, which is there. -/
theorem Plan.drafts (plan : Plan b e a cs ss ms as) (hb : b.Coherent) : a.Drafts b e := by
  cases plan with
  | deposit filled shown next =>
      refine .unless (by rw [filled]; decide) (.bind shown ?_)
      exact .bind (toError_of_ok next) (drafted rfl)
  | modify stored published shown =>
      refine .bind (Book.requireListing_of stored) ?_
      exact .bind (Listing.requirePublished_of published) (.bind shown (drafted rfl))
  | withdraw stored published =>
      refine .bind (Book.requireListing_of stored) ?_
      exact .bind (Listing.requirePublished_of published) (drafted rfl)
  | makeOffer stored published funds next counted escrow numbered =>
      refine .bind (newOffer_of stored published funds next numbered counted) ?_
      exact drafted_single rfl escrow
  | @acceptLoan key comment l terms last count ss ps ts stored published proposed funds next counted
      escrow payout custody owned numbered =>
      obtain ⟨⟨cs, ms⟩, accepted⟩ := accept_of (b := b)
        (o := e.offer b.time key terms count comment)
        (l := { l with offerCount := count }) published rfl rfl payout custody owned
      refine .bind (Book.requireListing_of stored) ?_
      refine .bind (congrArg (requireTerms _) proposed) ?_
      refine .bind (newOffer_of stored published funds next numbered counted) ?_
      exact .bind accepted (drafted_single rfl escrow)
  | acceptOffer offer mine stored published pending deposit payout custody owned =>
      obtain ⟨⟨cs, ms⟩, accepted⟩ := accept_of published pending deposit payout custody owned
      refine .bind (Book.requireStoredOffer_of offer) (.bind (a := ()) (if_pos mine) ?_)
      refine .bind (Book.requireListing_of stored) ?_
      exact .bind accepted (drafted rfl)
  | @cancel id o l c refunds offer mine pending stored published deposit refund =>
      have effective : o.stateIf (b.closes o.listing) = .published := by
        rw [Book.closes_of_get? stored, Listing.isClosed, published]
        exact pending
      refine .bind (Book.requireStoredOffer_of offer) (.bind (a := ()) (if_pos mine) ?_)
      refine .bind (discard_of (Book.requireRecord_of stored)) ?_
      refine .unless (not_not_intro effective) ?_
      refine .bind (Book.requireListing_of stored) ?_
      refine .bind (Listing.requirePublished_of published) ?_
      exact .bind (Offer.release_of deposit refund) (drafted rfl)
  | refuse offer mine stored published pending =>
      refine .bind (Book.requireStoredOffer_of offer) (.bind (a := ()) (if_pos mine) ?_)
      refine .bind (Book.requireListing_of stored) ?_
      exact .bind (Offer.requireRefusable_of published pending) (drafted rfl)
  | @recover id o c refunds offer mine refused deposit refund =>
      obtain ⟨l, hl⟩ := hb.listed offer
      refine .bind (Book.requireStoredOffer_of offer) (.bind (a := ()) (if_pos mine) ?_)
      refine .bind (discard_of (Book.requireRecord_of hl)) ?_
      refine .unless (not_not_intro refused) ?_
      exact .bind (Offer.release_of (o := o.readIf _) deposit refund) (drafted rfl)
  | @repay loanId l id o terms interest share payment ss ps ts fs stored started active offer
      running agreed funds denom whole enough split escrow payout released fees tagged =>
      have payback : Repayment.lenderPayback terms.principal.worth terms.interest.toDecimal
          b.config.feeRate = .ok (.whole (terms.principal.amount + share)) :=
        bind_of_ok (by rw [split]; rfl) rfl
      obtain ⟨charged, hcharged⟩ := positive_charged b.address b.config.feeDistributor payment
        (payment.amount - (terms.principal.amount + share)) (Listing.collections_ok released)
      have single : singleCoin e.funds = .ok (.coin payment) := by rw [funds]; rfl
      refine .bind (Book.requireListing_of stored) (.require started ?_)
      refine .bind (Book.activeLoan_of active offer) ?_
      refine .bind (Listing.requireRepayable_of started running) ?_
      refine .bind (congrArg (requireTerms _) agreed) (.bind single ?_)
      refine .bind (a := payment) rfl (.unless (not_not_intro denom) ?_)
      refine .bind (toError_of_ok (totalDue_of whole)) ?_
      refine .unless (Nat.not_lt.2 enough) (.bind payback ?_)
      refine .bind (positive_of_conveys payout) (.bind released ?_)
      exact .bind hcharged (drafted_single rfl escrow)
  | @claim key l id o ts stored started active offer mine overdue released =>
      have lent : l.activeOffer.mapM b.requireOffer = .ok (some o) := by
        rw [active]
        exact bind_of_ok offer rfl
      refine .bind (Book.requireListing_of stored) (.bind lent ?_)
      refine .bind (Listing.requireDefaulted_of overdue) ?_
      refine .bind (Book.requireActiveLender_of active offer mine) ?_
      exact .unless (by rw [started]; decide) (.bind released (drafted rfl))
  | configure made =>
      cases made with
      | owner owns => exact .bind (a := ()) (if_pos owns) (drafted rfl)
      | claim proposed => exact .require proposed (drafted rfl)
      | distributor owns => exact .bind (a := ()) (if_pos owns) (drafted rfl)
      | rate owns valid => exact .bind (a := ()) (if_pos owns) (.bind valid (drafted rfl))

end drafts
end Action

/-! ### From drafts to transactions -/

theorem Value.legible_next {v w : Value} (h : v.next = .ok w) (short : w.isShort = true) :
    w.Legible := by
  unfold next at h
  split at h
  · cases h
    exact (legible_ofNumber _).2 short
  · cases h

theorem Borrower.legible_nextId {r : Option Borrower} {id : Value} (h : nextId r = .ok id)
    (short : id.isShort = true) : id.Legible := by
  cases r with
  | none =>
      cases h
      exact (Value.legible_int 0).2 short
  | some r => exact Value.legible_next h short

theorem forall_mem_or {α : Type} {P : α → Prop} {x y : Option α} (hx : ∀ a ∈ x, P a)
    (hy : ∀ a ∈ y, P a) : ∀ a ∈ x.or y, P a := by
  cases x with
  | none => exact hy
  | some a => exact hx

theorem Listing.legible_restate {l : Listing} (h : l.toValue.Legible) (s : LoanState) :
    ({ l with state := s } : Listing).toValue.Legible := legible_iff.2 (legible_iff.1 h :)

theorem Listing.legible_recount {l : Listing} (h : l.toValue.Legible) {count : Value}
    (counted : count.Legible) : ({ l with offerCount := count } : Listing).toValue.Legible := by
  obtain ⟨assets, terms, -, rest⟩ := legible_iff.1 h
  exact legible_iff.2 ⟨assets, terms, counted, rest⟩

theorem Listing.legible_begun {l : Listing} (h : l.toValue.Legible) {height : Number} {id : Key}
    (short : (Value.ofNumber height).isShort = true) (named : id.value.Legible) :
    (l.begun height id).toValue.Legible := by
  obtain ⟨assets, terms, count, -, -, rest⟩ := legible_iff.1 h
  exact legible_iff.2 ⟨assets, terms, count, by simpa [begun] using named,
    by simpa [begun] using short, rest⟩

theorem Offer.legible_restate {o : Offer} (h : o.toValue.Legible) (s : OfferState) :
    ({ o with state := s } : Offer).toValue.Legible := legible_iff.2 (legible_iff.1 h :)

theorem Offer.legible_settle {o : Offer} (h : o.toValue.Legible) (s : OfferState) :
    ({ o with deposit := none, state := s } : Offer).toValue.Legible := by
  obtain ⟨lender, borrower, loanId, position, terms, -, comment⟩ := legible_iff.1 h
  exact legible_iff.2 ⟨lender, borrower, loanId, position, terms, by simp, comment⟩

theorem Config.legible_recount {c : Config} (h : c.toValue.Legible) {last : Value}
    (next : c.lastOffer.next = .ok last) (numbered : last.Writable) :
    ({ c with lastOffer := last } : Config).toValue.Legible := by
  obtain ⟨name, owner, proposed, distributor, rate, -⟩ := legible_iff.1 h
  exact legible_iff.2 ⟨name, owner, proposed, distributor, rate,
    Value.legible_next next (Value.writable_iff.1 numbered)⟩

theorem Coin.legible_withAmount (c : Coin) {n : Int} (h : (Value.int n).Writable) :
    (c.withAmount n.toNat).toValue.Legible := by
  refine Coin.legible_iff.2 (Text.isShort_of_le ?_ (Value.writable_iff.1 h))
  show ((n.toNat : Nat) : Int).natAbs ≤ n.natAbs
  omega

theorem legible_of_charges {s r : Key} {c : Coin} {fs : List FeeDeposit} (h : Charges s r c fs)
    (hs : s.value.Legible) (hr : r.value.Legible) (hc : c.toValue.Legible)
    (tags : ∀ f ∈ fs, ∀ k ∈ f.addresses, k.value.Legible) :
    ∀ m ∈ fs.map Message.fee, m.toValue.Legible := by
  cases h with
  | nothing => simp
  | fee addresses hp =>
      rw [List.forall_mem_singleton] at tags
      rw [List.map_singleton, List.forall_mem_singleton]
      exact FeeDeposit.legible_iff.2 ⟨hs, hr, tags, Value.legible_text _, hc⟩

theorem legible_of_conveys {s r : Key} {c : Coin} {ss : List BankSend} (h : Conveys s r c ss)
    (hs : s.value.Legible) (hr : r.value.Legible) (hc : c.toValue.Legible) :
    ∀ m ∈ ss.map Message.send, m.toValue.Legible := by
  cases h with
  | nothing => simp
  | send hd hp => simpa [Message.toValue, BankSend.legible_iff] using ⟨hs, hr, hc⟩

theorem Conveys.legible {s r : Key} {c : Coin} {ss : List BankSend} (h : Conveys s r c ss)
    (legible : ∀ m ∈ ss.map Message.send, m.toValue.Legible) : c.toValue.Legible := by
  cases h with
  | nothing none => exact Coin.legible_iff.2 (by rw [none]; rfl)
  | send =>
      rw [List.map_singleton, List.forall_mem_singleton] at legible
      exact (BankSend.legible_iff.1 legible).2.2

theorem legible_of_moved {s r : Key} {refusal : Asset → Error} {assets : List Asset}
    {ts : List NftTransfer} (h : Listing.moveAssets s r refusal assets = .ok ts)
    (ha : ∀ a ∈ assets, a.toValue.Legible) (hs : s.value.Legible) (hr : r.value.Legible) :
    ∀ m ∈ ts.map Message.transfer, m.toValue.Legible := by
  obtain ⟨rfl, hts⟩ := Listing.moveAssets_ok h
  intro m hm
  obtain ⟨t, ht, rfl⟩ := List.mem_map.1 hm
  obtain ⟨rfl, rfl⟩ := hts t ht
  have shown : (Asset.nft t.nft).toValue.Legible := ha _ (List.mem_map_of_mem ht)
  exact NftTransfer.legible_iff.2 ⟨shown, hs, hr⟩

theorem Listing.legible_of_mem_collections {l : Listing} (h : l.toValue.Legible) {ks : List Key}
    (hks : l.collections = .ok ks) : ∀ k ∈ ks, k.value.Legible := by
  have shown := (Listing.legible_iff.1 h).1
  unfold collections at hks
  generalize l.assets = assets at shown hks
  induction assets generalizing ks with
  | nil =>
      cases hks
      simp
  | cons a assets ih =>
      rw [List.forall_mem_cons] at shown
      rw [List.mapM_cons] at hks
      obtain ⟨k, hk, hks⟩ := bind_ok hks
      obtain ⟨ks', hks', hks⟩ := bind_ok hks
      cases hks
      refine List.forall_mem_cons.2 ⟨?_, ih shown.2 hks'⟩
      cases a with
      | nft n =>
          cases hk
          have address :
              (Asset.nft n).toValue.field? "address" = some n.token.collection.value := rfl
          exact shown.1.field address
      | cw1155 | cw20 | native => cases hk

/-- The records of the book, its configuration and its address have canonical texts. -/
structure Book.Legible (b : Book) : Prop where
  address : b.address.value.Legible
  config : b.config.toValue.Legible
  borrower : ∀ name r, b.borrower? name = some r → r.lastId.Legible
  listing : ∀ key l, b.listing? key = some l → l.toValue.Legible
  offer : ∀ id o, b.storedOffer? id = some o → o.toValue.Legible

/-- The place of the next offer on a listing can be written. -/
def Book.CountShort (b : Book) (key : ListingKey) : Prop :=
  ∀ l count, b.listing? key = some l → l.offerCount.next = .ok count → count.isShort = true

namespace Action

/-- What is given with an action has canonical texts. -/
def Legible : Action → Prop
  | deposit assets terms comment preview =>
    (∀ a ∈ assets, a.toValue.Legible) ∧ (∀ t ∈ terms, t.toValue.Legible) ∧
      (∀ v ∈ comment, v.Legible) ∧ ∀ a ∈ preview, a.toValue.Legible
  | modify loanId terms comment preview =>
    loanId.value.Legible ∧ (∀ t ∈ terms, t.toValue.Legible) ∧ (∀ v ∈ comment, v.Legible) ∧
      ∀ a ∈ preview, a.toValue.Legible
  | makeOffer key terms comment =>
    (key.borrower.value.Legible ∧ key.id.value.Legible) ∧ (∀ t ∈ terms, t.toValue.Legible) ∧
      ∀ v ∈ comment, v.Legible
  | acceptLoan key comment =>
    (key.borrower.value.Legible ∧ key.id.value.Legible) ∧ ∀ v ∈ comment, v.Legible
  | claimDefault key => key.borrower.value.Legible ∧ key.id.value.Legible
  | withdraw id | acceptOffer id | cancelOffer id | refuseOffer id | withdrawRefused id
  | repay id | setFeeDistributor id => id.value.Legible
  | proposeOwner owner => ∀ k ∈ owner, k.value.Legible
  | setFeeRate given => ∀ rate, Config.checkFeeRate given = .ok rate → (Value.decimal rate).Legible
  | claimOwnership => True

/-- The numbers that an action adds to those recorded and given can be written: the place of an
offer on its listing, the height at which a loan begins, and the coins that repay it. -/
def NumbersShort (b : Book) (e : Envelope) : Action → Prop
  | makeOffer key _ _ => b.CountShort key
  | acceptLoan key _ => b.CountShort key ∧ (Value.ofNumber b.height).isShort = true
  | acceptOffer _ => (Value.ofNumber b.height).isShort = true
  | repay _ => ∀ t ∈ e.funds, t.toValue.Legible
  | _ => True

/-- All of a plan can be put into texts. -/
structure Texts (cs : List Change) (ss : List BankSend) (ms : List Message) (as : Attributes) :
    Prop where
  changes : ∀ c ∈ cs, c.Legible
  funds : ∀ m ∈ ss.map Message.send, m.toValue.Legible
  messages : ∀ m ∈ ms, m.toValue.Legible
  attributes : ∀ x ∈ as, x.2.Writable

theorem writable_listingAttributes_iff {key : ListingKey} :
    (∀ x ∈ listingAttributes key, x.2.Writable) ↔
      key.borrower.value.Writable ∧ key.id.value.Writable := by
  simp [listingAttributes]

theorem writable_loanAttributes_iff {key : ListingKey} {lender : Key} {id : Value} :
    (∀ x ∈ loanAttributes key lender id, x.2.Writable) ↔ key.borrower.value.Writable ∧
      lender.value.Writable ∧ key.id.value.Writable ∧ id.Writable := by
  simp [loanAttributes]

theorem Configures.legible {b : Book} {e : Envelope} {a : Action} {c : Config} {as : Attributes}
    (h : Configures b e a c as) (hb : b.config.toValue.Legible) (ha : a.Legible) :
    c.toValue.Legible := by
  obtain ⟨name, owner, proposed, distributor, rate, last⟩ := Config.legible_iff.1 hb
  cases h with
  | owner owns => exact Config.legible_iff.2 ⟨name, owner, ha, distributor, rate, last⟩
  | claim holds =>
      exact Config.legible_iff.2 ⟨name, Value.legible_text _, by simp, distributor, rate, last⟩
  | distributor owns => exact Config.legible_iff.2 ⟨name, owner, proposed, ha, rate, last⟩
  | rate owns valid =>
      exact Config.legible_iff.2 ⟨name, owner, proposed, distributor, ha _ valid, last⟩

section texts
variable {b : Book} {e : Envelope} {a : Action} {cs : List Change} {ss : List BankSend}
  {ms : List Message} {as : Attributes}

/-- A plan has canonical texts if the book has and what is given with the action. -/
theorem Plan.texts (plan : Plan b e a cs ss ms as) (hb : b.Legible) (ha : a.Legible)
    (numbers : a.NumbersShort b e) (written : ∀ x ∈ as, x.2.Writable) : Texts cs ss ms as := by
  have sender : (e.sender : Key).value.Legible := Value.legible_text _
  cases plan with
  | deposit filled shown next =>
      obtain ⟨assets, terms, comment, preview⟩ := ha
      have count := Borrower.legible_nextId next
        (Value.writable_iff.1 (written _ (List.mem_cons_of_mem _ List.mem_cons_self)))
      refine ⟨?_, by simp, by simp, written⟩
      rw [List.forall_mem_cons, List.forall_mem_singleton]
      exact ⟨Change.legible_borrower.2 ⟨sender, hb.borrower _, count⟩,
        Change.legible_listing.2 ⟨⟨sender, count⟩, by simp,
          Listing.legible_iff.2 ⟨assets, terms, (Value.legible_int 0).2 rfl, by simp, by simp,
            comment, preview⟩⟩⟩
  | @modify loanId terms comment preview l stored published shown =>
      obtain ⟨key, proposed, given, chosen⟩ := ha
      have old := hb.listing _ _ (Book.listing?_of_get? stored)
      obtain ⟨assets, terms, count, active, start, before, other⟩ := Listing.legible_iff.1 old
      refine ⟨?_, by simp, by simp, written⟩
      rw [List.forall_mem_singleton]
      exact Change.legible_listing.2 ⟨⟨sender, key⟩, by simpa using old,
        Listing.legible_iff.2 ⟨assets, forall_mem_or proposed terms, count, active, start,
          forall_mem_or given before, forall_mem_or chosen other⟩⟩
  | withdraw stored published =>
      have old := hb.listing _ _ (Book.listing?_of_get? stored)
      refine ⟨?_, by simp, by simp, written⟩
      rw [List.forall_mem_singleton]
      exact Change.legible_listing.2
        ⟨⟨sender, ha⟩, by simpa using old, Listing.legible_restate old _⟩
  | makeOffer stored published funds next counted escrow numbered =>
      obtain ⟨key, proposed, comment⟩ := ha
      have proposed := proposed _ rfl
      have old := hb.listing _ _ (Book.listing?_of_get? stored)
      have count := Value.legible_next counted (numbers _ _ (Book.listing?_of_get? stored) counted)
      have principal := (Terms.legible_iff.1 proposed).1
      refine ⟨?_, legible_of_conveys escrow sender hb.address principal, by simp, written⟩
      rw [List.forall_mem_cons, List.forall_mem_cons, List.forall_mem_singleton]
      exact ⟨Change.legible_config.2 ⟨hb.config, Config.legible_recount hb.config next numbered⟩,
        Change.legible_listing.2 ⟨key, by simpa using old, Listing.legible_recount old count⟩,
        Change.legible_offer.2 ⟨Value.legible_text _, by simp,
          Offer.legible_iff.2 ⟨sender, key.1, key.2, count,
            by simpa [Envelope.offer] using proposed,
            by simpa [Envelope.offer, Tender.toValue] using principal, comment⟩⟩⟩
  | acceptLoan stored published proposed funds next counted escrow payout custody owned numbered =>
      obtain ⟨key, comment⟩ := ha
      have old := hb.listing _ _ (Book.listing?_of_get? stored)
      obtain ⟨assets, terms, -⟩ := Listing.legible_iff.1 old
      have agreed := terms _ proposed
      have count := Value.legible_next counted
        (numbers.1 _ _ (Book.listing?_of_get? stored) counted)
      have principal := (Terms.legible_iff.1 agreed).1
      refine ⟨?_, legible_of_conveys escrow sender hb.address principal, ?_, written⟩
      · rw [List.forall_mem_cons, List.forall_mem_cons, List.forall_mem_singleton]
        exact ⟨Change.legible_config.2 ⟨hb.config, Config.legible_recount hb.config next numbered⟩,
          Change.legible_listing.2 ⟨key, by simpa using old,
            Listing.legible_begun (Listing.legible_recount old count) numbers.2
              (Value.legible_text _)⟩,
          Change.legible_offer.2 ⟨Value.legible_text _, by simp,
            Offer.legible_iff.2 ⟨sender, key.1, key.2, count,
              by simpa [Envelope.offer] using agreed, by simp, comment⟩⟩⟩
      · exact List.forall_mem_append.2 ⟨legible_of_conveys payout hb.address key.1 principal,
          legible_of_moved custody assets key.1 hb.address⟩
  | acceptOffer offer mine stored published pending deposit payout custody owned =>
      have old := hb.listing _ _ (Book.listing?_of_get? stored)
      obtain ⟨assets, -⟩ := Listing.legible_iff.1 old
      have made := hb.offer _ _ offer
      obtain ⟨-, borrower, loanId, -, -, escrowed, -⟩ := Offer.legible_iff.1 made
      refine ⟨?_, by simp, ?_, written⟩
      · rw [List.forall_mem_cons, List.forall_mem_singleton]
        exact ⟨Change.legible_listing.2 ⟨⟨borrower, loanId⟩, by simpa using old,
            Listing.legible_begun old numbers ha⟩,
          Change.legible_offer.2 ⟨ha, by simpa using made, Offer.legible_settle made _⟩⟩
      · exact List.forall_mem_append.2
          ⟨legible_of_conveys payout hb.address borrower (escrowed _ deposit),
            legible_of_moved custody assets borrower hb.address⟩
  | cancel offer mine pending stored published deposit refund =>
      have made := hb.offer _ _ offer
      obtain ⟨lender, -, -, -, -, escrowed, -⟩ := Offer.legible_iff.1 made
      refine ⟨?_, by simp, ?_, written⟩
      · rw [List.forall_mem_singleton]
        exact Change.legible_offer.2 ⟨ha, by simpa using made, Offer.legible_settle made _⟩
      · exact legible_of_conveys refund hb.address lender (escrowed _ deposit)
  | refuse offer mine stored published pending =>
      have made := hb.offer _ _ offer
      refine ⟨?_, by simp, by simp, written⟩
      rw [List.forall_mem_singleton]
      exact Change.legible_offer.2 ⟨ha, by simpa using made, Offer.legible_restate made _⟩
  | recover offer mine refused deposit refund =>
      have made := hb.offer _ _ offer
      obtain ⟨lender, -, -, -, -, escrowed, -⟩ := Offer.legible_iff.1 made
      refine ⟨?_, by simp, ?_, written⟩
      · rw [List.forall_mem_singleton]
        exact Change.legible_offer.2 ⟨ha, by simpa using made, Offer.legible_settle made _⟩
      · exact legible_of_conveys refund hb.address lender (escrowed _ deposit)
  | repay stored started active offer running agreed funds denom whole enough split escrow payout
      released fees tagged =>
      have old := hb.listing _ _ (Book.listing?_of_get? stored)
      obtain ⟨assets, -⟩ := Listing.legible_iff.1 old
      obtain ⟨made, hmade, rfl⟩ := Book.requireOffer_ok offer
      have lender := (Offer.legible_iff.1 (hb.offer _ _ hmade)).1
      obtain ⟨-, -, -, distributor, -⟩ := Config.legible_iff.1 hb.config
      have paid : (Tender.coin _).toValue.Legible := numbers _ (funds ▸ List.mem_singleton_self _)
      have parts := written
      rw [List.forall_mem_append, List.forall_mem_cons, List.forall_mem_singleton] at parts
      obtain ⟨-, share, cut⟩ := parts
      refine ⟨?_, legible_of_conveys escrow sender hb.address paid, ?_, written⟩
      · rw [List.forall_mem_singleton]
        exact Change.legible_listing.2
          ⟨⟨sender, ha⟩, by simpa using old, Listing.legible_restate old _⟩
      · refine List.forall_mem_append.2 ⟨List.forall_mem_append.2
          ⟨legible_of_conveys payout hb.address lender (Coin.legible_withAmount _ share),
            legible_of_moved released assets hb.address sender⟩, ?_⟩
        exact legible_of_charges fees hb.address distributor (Coin.legible_withAmount _ cut)
          fun f hf => Listing.legible_of_mem_collections old (tagged f hf)
  | claim stored started active offer mine overdue released =>
      have old := hb.listing _ _ (Book.listing?_of_get? stored)
      obtain ⟨assets, -⟩ := Listing.legible_iff.1 old
      obtain ⟨made, hmade, rfl⟩ := Book.requireOffer_ok offer
      have lender := (Offer.legible_iff.1 (hb.offer _ _ hmade)).1
      refine ⟨?_, by simp, legible_of_moved released assets hb.address lender, written⟩
      rw [List.forall_mem_singleton]
      exact Change.legible_listing.2 ⟨ha, by simpa using old, Listing.legible_restate old _⟩
  | configure made =>
      refine ⟨?_, by simp, by simp, written⟩
      rw [List.forall_mem_singleton]
      exact Change.legible_config.2 ⟨hb.config, made.legible hb.config ha⟩

end texts
end Action

theorem Pending.exists_identified_ok {p : Pending} (void : p.intentId.value.isVoid = true)
    (h : p.Legible) : ∃ p', p.identified = .ok p' := by
  obtain ⟨t, ht⟩ := intentText_ok_iff.2 h
  unfold identified
  rw [if_pos void]
  exact exists_bind_ok_iff.2 ⟨t, ht, _, rfl⟩

theorem Book.transact_ok {b : Book} {e : Envelope} {a : Action} (drafts : a.Drafts b e)
    (texts : ∀ cs ss ms as, Action.Plan b e a cs ss ms as → Action.Texts cs ss ms as) :
    ∃ p, b.transact e a = .ok p := by
  obtain ⟨d, hd, ss, hf⟩ := drafts
  obtain ⟨plan, sender⟩ := Action.effects_plan hd hf
  obtain ⟨changes, funds, messages, attributes⟩ := texts _ _ _ _ plan
  have hf : { d with action := Value.text a.name }.fundsIn b.address = .ok ss := hf
  have described : ∃ as, { d with action := Value.text a.name }.attributeTexts = .ok as := by
    refine exists_bind_ok_iff.2 (Exists.imp (fun texts ht => ⟨ht, _, rfl⟩)
      (exists_mapM_ok_iff.2 fun x hx => ?_))
    obtain ⟨t, ht⟩ := attributes x (List.mem_filter.1 hx).1
    exact exists_bind_ok_iff.2 ⟨t, ht, _, rfl⟩
  obtain ⟨as, described⟩ := described
  refine exists_bind_ok_iff.2 ⟨_, bind_of_ok hd rfl, exists_bind_ok_iff.2 ⟨ss, hf, ?_⟩⟩
  refine exists_mapError_ok_iff.2 (exists_bind_ok_iff.2 ⟨_, described, ?_⟩)
  have origin : Origin.IsShort ⟨d.kind, d.sender, .text a.name⟩ := ⟨by rw [sender]; rfl, rfl⟩
  exact Pending.exists_identified_ok rfl
    ⟨origin, changes, List.forall_mem_append.2 ⟨funds, messages⟩⟩

/-! ### One plan for an action -/

theorem Conveys.unique {s r : Key} {c : Coin} {ss ss' : List BankSend} (h : Conveys s r c ss)
    (h' : Conveys s r c ss') : ss = ss' := by
  cases h with
  | nothing hz =>
      cases h' with
      | nothing => rfl
      | send _ hp => exact absurd hz hp
  | send _ hp =>
      cases h' with
      | nothing hz => exact absurd hz hp
      | send => rfl

theorem Charges.unique {s r : Key} {c : Coin} {fs fs' : List FeeDeposit} (h : Charges s r c fs)
    (h' : Charges s r c fs') {x : Except Error (List Key)} (tags : ∀ f ∈ fs, x = .ok f.addresses)
    (tags' : ∀ f ∈ fs', x = .ok f.addresses) : fs = fs' := by
  cases h with
  | nothing hz =>
      cases h' with
      | nothing => rfl
      | fee _ hp => exact absurd hz hp
  | fee addresses hp =>
      cases h' with
      | nothing hz => exact absurd hz hp
      | fee addresses' =>
          rw [List.forall_mem_singleton] at tags tags'
          cases tags.symm.trans tags'
          rfl

theorem Action.Plan.unique {b : Book} {e : Envelope} {a : Action} {cs cs' : List Change}
    {ss ss' : List BankSend} {ms ms' : List Message} {as as' : Attributes}
    (plan : Plan b e a cs ss ms as) (plan' : Plan b e a cs' ss' ms' as') :
    cs = cs' ∧ ss = ss' ∧ ms = ms' ∧ as = as' := by
  cases plan with
  | deposit filled shown next =>
      cases plan' with
      | deposit filled' shown' next' =>
          cases next.symm.trans next'
          exact ⟨rfl, rfl, rfl, rfl⟩
      | configure made => cases made
  | modify stored =>
      cases plan' with
      | modify stored' =>
          cases stored.symm.trans stored'
          exact ⟨rfl, rfl, rfl, rfl⟩
      | configure made => cases made
  | withdraw stored =>
      cases plan' with
      | withdraw stored' =>
          cases stored.symm.trans stored'
          exact ⟨rfl, rfl, rfl, rfl⟩
      | configure made => cases made
  | makeOffer stored published funds next counted escrow =>
      cases plan' with
      | makeOffer stored' published' funds' next' counted' escrow' =>
          cases stored.symm.trans stored'
          cases next.symm.trans next'
          cases counted.symm.trans counted'
          cases escrow.unique escrow'
          exact ⟨rfl, rfl, rfl, rfl⟩
      | configure made => cases made
  | acceptLoan stored published proposed funds next counted escrow payout custody =>
      cases plan' with
      | acceptLoan stored' published' proposed' funds' next' counted' escrow' payout' custody' =>
          cases stored.symm.trans stored'
          cases proposed.symm.trans proposed'
          cases next.symm.trans next'
          cases counted.symm.trans counted'
          cases escrow.unique escrow'
          cases payout.unique payout'
          cases custody.symm.trans custody'
          exact ⟨rfl, rfl, rfl, rfl⟩
      | configure made => cases made
  | acceptOffer offer mine stored published pending deposit payout custody =>
      cases plan' with
      | acceptOffer offer' mine' stored' published' pending' deposit' payout' custody' =>
          cases offer.symm.trans offer'
          cases stored.symm.trans stored'
          cases deposit.symm.trans deposit'
          cases payout.unique payout'
          cases custody.symm.trans custody'
          exact ⟨rfl, rfl, rfl, rfl⟩
      | configure made => cases made
  | cancel offer mine pending stored published deposit refund =>
      cases plan' with
      | cancel offer' mine' pending' stored' published' deposit' refund' =>
          cases offer.symm.trans offer'
          cases deposit.symm.trans deposit'
          cases refund.unique refund'
          exact ⟨rfl, rfl, rfl, rfl⟩
      | configure made => cases made
  | refuse offer =>
      cases plan' with
      | refuse offer' =>
          cases offer.symm.trans offer'
          exact ⟨rfl, rfl, rfl, rfl⟩
      | configure made => cases made
  | recover offer mine refused deposit refund =>
      cases plan' with
      | recover offer' mine' refused' deposit' refund' =>
          cases offer.symm.trans offer'
          cases deposit.symm.trans deposit'
          cases refund.unique refund'
          exact ⟨rfl, rfl, rfl, rfl⟩
      | configure made => cases made
  | repay stored started active offer running agreed funds denom whole enough split escrow payout
      released fees tagged =>
      cases plan' with
      | repay stored' started' active' offer' running' agreed' funds' denom' whole' enough' split'
          escrow' payout' released' fees' tagged' =>
          cases stored.symm.trans stored'
          cases active.symm.trans active'
          cases offer.symm.trans offer'
          cases agreed.symm.trans agreed'
          cases funds.symm.trans funds'
          cases split.symm.trans split'
          cases escrow.unique escrow'
          cases payout.unique payout'
          cases released.symm.trans released'
          cases fees.unique fees' tagged tagged'
          exact ⟨rfl, rfl, rfl, rfl⟩
      | configure made => cases made
  | claim stored started active offer mine overdue released =>
      cases plan' with
      | claim stored' started' active' offer' mine' overdue' released' =>
          cases stored.symm.trans stored'
          cases active.symm.trans active'
          cases offer.symm.trans offer'
          cases released.symm.trans released'
          exact ⟨rfl, rfl, rfl, rfl⟩
      | configure made => cases made
  | configure made =>
      cases plan' with
      | configure made' =>
          cases made with
          | owner | claim | distributor =>
              cases made'
              exact ⟨rfl, rfl, rfl, rfl⟩
          | rate owns valid =>
              cases made' with
              | rate owns' valid' =>
                  cases valid.symm.trans valid'
                  exact ⟨rfl, rfl, rfl, rfl⟩
      | _ => cases made

theorem Action.Plan.transact_ok {b : Book} {e : Envelope} {a : Action} {cs : List Change}
    {ss : List BankSend} {ms : List Message} {as : Attributes} (plan : Plan b e a cs ss ms as)
    (hb : b.Coherent) (legible : b.Legible) (given : a.Legible) (numbers : a.NumbersShort b e)
    (written : ∀ x ∈ as, x.2.Writable) : ∃ p, b.transact e a = .ok p := by
  refine Book.transact_ok (plan.drafts hb) fun _ _ _ _ plan' => plan'.texts legible given numbers ?_
  rw [(plan'.unique plan).2.2.2]
  exact written

end Pawnbook
