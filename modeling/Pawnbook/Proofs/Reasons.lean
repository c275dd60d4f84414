import Pawnbook.Proofs.Regular
import Pawnbook.Proofs.Settlement

/-! # Reasons to refuse a call

Many steps of a call can fail in ways that its caller could do nothing about: the index of offers
may know an id already, a transfer may go from an address to itself, a loan may lack its offer. On
an orderly book (`Book.Orderly`) none of them does, and what is left are the rules of the contract
(`Book.Refuses`), one case of each draft after the other (`Action.effects_ends`). There is one more
way to fail: a number can be too long to be written (`Action.Unwieldy`), in a record, in an
attribute or in the very words of a refusal. -/

namespace Pawnbook

section chains
variable {ε α β : Type} {x : Except ε α} {f : α → Except ε β} {R : α → Prop} {S : β → Prop}
  {Q : ε → Prop}

/-- The step ends in a result of the one kind, or in an error of the other. -/
def Ends (x : Except ε α) (R : α → Prop) (Q : ε → Prop) : Prop :=
  match x with
  | .ok a => R a
  | .error e => Q e

instance [∀ a, Decidable (R a)] [∀ e, Decidable (Q e)] : Decidable (Ends x R Q) :=
  match x with
  | .ok a => inferInstanceAs (Decidable (R a))
  | .error e => inferInstanceAs (Decidable (Q e))

theorem Ends.bind (hx : Ends x R Q) (hf : ∀ a, x = .ok a → R a → Ends (f a) S Q) :
    Ends (x >>= f) S Q := by
  cases x with
  | error e => exact hx
  | ok a => exact hf a rfl hx

theorem Ends.follow {a : α} (hx : x = .ok a) (hf : Ends (f a) S Q) : Ends (x >>= f) S Q := by
  rw [hx]
  exact hf

theorem Ends.unless {c : Prop} [Decidable c] {e : ε} {y : Except ε β} (hc : c → Q e)
    (hy : ¬ c → Ends y S Q) : Ends (if c then (throw e >>= f) else y) S Q := by
  split
  · rename_i h
    exact hc h
  · rename_i h
    exact hy h

theorem Ends.require {c : Prop} [Decidable c] {e : ε} {y : Except ε β} (hc : ¬ c → Q e)
    (hy : c → Ends y S Q) : Ends (if c then y else .error e) S Q := by
  split
  · rename_i h
    exact hy h
  · rename_i h
    exact hc h

theorem Ends.of_error {e : ε} (h : Ends x R Q) (hx : x = .error e) : Q e := by
  rw [hx] at h
  exact h

end chains

/-! ### Reasons to refuse a call -/

/-- A family whose refusals say nothing about what is stored: no record is missing, no deposit has
been taken, and no transfer failed that had been rehearsed. -/
def Family.isOrdinary : Family → Bool
  | loanNotFound | offerNotFound | noFundsToWithdraw | unrecognizedAsset | insufficientFunds
  | assetTransferFailed => false
  | _ => true

namespace Action

/-- The offer that is given with an action. -/
def offer? : Action → Option Key
  | acceptOffer id | cancelOffer id | refuseOffer id | withdrawRefused id => some id
  | _ => none

/-- The listing that is given with an action, which is one of the sender's own if only its id is. -/
def listing? (e : Envelope) : Action → Option ListingKey
  | modify id _ _ _ | withdraw id | repay id => some ⟨e.sender, id⟩
  | makeOffer key _ _ | acceptLoan key _ | claimDefault key => some key
  | _ => none

/-- The listing that an action lends on. -/
def loan? (b : Book) : Action → Option ListingKey
  | acceptLoan key _ => some key
  | acceptOffer id => (b.storedOffer? id).map (·.listing)
  | _ => none

/-- A number has more digits than are written: one that is given with the call, the height where a
loan begins, a number in the name of the book, the id of a new listing or of a new offer, the place
of the offer on its listing, one that an objection would have to name, or what is due, the lender's
share, or a part of the payment when a loan is repaid. -/
inductive Unwieldy (b : Book) (e : Envelope) : Action → Prop
  | given {a : Action} {v : Value} (mem : v ∈ a.given ++ e.funds.map Tender.toValue)
      (long : v.isShort = false) : Unwieldy b e a
  | height {a : Action} {key : ListingKey} (lends : a.loan? b = some key)
      (long : (Value.ofNumber b.height).isShort = false) : Unwieldy b e a
  | name {a : Action} (long : b.name.isShort = false) : Unwieldy b e a
  | id {assets : List Asset} {terms : Option Terms} {comment : Option Value}
      {preview : Option Asset} {id : Value}
      (next : Borrower.nextId (b.borrower? e.sender) = .ok id) (long : ¬ id.Writable) :
      Unwieldy b e (.deposit assets terms comment preview)
  | offer {a : Action} {last : Value} (makes : a.offers = true)
      (next : b.config.lastOffer.next = .ok last) (long : ¬ last.Writable) : Unwieldy b e a
  | place {a : Action} {key : ListingKey} (makes : a.offers = true)
      (given : a.listing? e = some key) (long : ¬ b.CountShort key) : Unwieldy b e a
  | holder {a : Action} {key : ListingKey} {l : Listing} {n : Nft} (lends : a.loan? b = some key)
      (stored : b.listing? key = some l) (listed : .nft n ∈ l.assets)
      (long : (b.registry.holder n.token).value.isShort = false) : Unwieldy b e a
  | objection {a : Action} {p : Pending} {o : Objection} {failure : Decimal.Failure}
      (sent : b.transact e a = .ok p) (refused : b.transferRefusal? p.transfers = some o)
      (long : o.written = .error failure) : Unwieldy b e a
  | due {loanId id : Key} {l : Listing} {o : Offer} {terms : Terms} {due : Coin}
      (stored : b.listing? ⟨e.sender, loanId⟩ = some l) (active : l.activeOffer = some id)
      (offer : b.storedOffer? id = some o) (agreed : o.terms = some terms)
      (owed : terms.totalDue = .ok due) (long : due.toValue.isShort = false) :
      Unwieldy b e (.repay loanId)
  | share {loanId id : Key} {l : Listing} {o : Offer} {terms : Terms} {failure : Decimal.Failure}
      (stored : b.listing? ⟨e.sender, loanId⟩ = some l) (active : l.activeOffer = some id)
      (offer : b.storedOffer? id = some o) (agreed : o.terms = some terms)
      (long : Repayment.lenderInterest terms.interest.toDecimal b.config.feeRate =
        .error failure) : Unwieldy b e (.repay loanId)
  | parts {loanId id : Key} {l : Listing} {o : Offer} {terms : Terms} {payment : Coin} {share : Int}
      (stored : b.listing? ⟨e.sender, loanId⟩ = some l) (active : l.activeOffer = some id)
      (offer : b.storedOffer? id = some o) (agreed : o.terms = some terms)
      (funds : e.funds = [.coin payment])
      (split : Repayment.lenderInterest terms.interest.toDecimal b.config.feeRate = .ok share)
      (long : ¬ payment.PartsWritable (terms.principal.amount + share)) :
      Unwieldy b e (.repay loanId)

section given
variable {b : Book} {e : Envelope} {a : Action}

/-- What is given with a call can be written, or it is unwieldy. -/
theorem short_or_unwieldy {v : Value} (mem : v ∈ a.given ++ e.funds.map Tender.toValue) :
    v.isShort = true ∨ a.Unwieldy b e := by
  cases long : v.isShort with
  | true => exact .inl rfl
  | false => exact .inr (.given mem long)

theorem text_named (s : String) : ∀ v ∈ [(s : Key).value], v.isShort = true ∨ a.Unwieldy b e :=
  List.forall_mem_singleton.2 (.inl rfl)

theorem offer?_named {id : Key} (given : a.offer? = some id) :
    ∀ v ∈ [id.value], v.isShort = true ∨ a.Unwieldy b e := by
  rw [List.forall_mem_singleton]
  cases a <;> cases given <;> exact short_or_unwieldy List.mem_cons_self

theorem listing?_named {key : ListingKey} (given : a.listing? e = some key) :
    ∀ v ∈ [key.borrower.value, key.id.value], v.isShort = true ∨ a.Unwieldy b e := by
  rw [List.forall_mem_cons, List.forall_mem_singleton]
  cases a with
  | modify | withdraw | repay =>
      cases given
      exact ⟨.inl rfl, short_or_unwieldy List.mem_cons_self⟩
  | makeOffer | acceptLoan | claimDefault =>
      cases given
      exact ⟨short_or_unwieldy List.mem_cons_self,
        short_or_unwieldy (List.mem_cons_of_mem _ List.mem_cons_self)⟩
  | _ => cases given

end given
end Action

/-- The reasons for which a call is refused. A listing or an offer is missed only if it is the one
that was given, a deposit only by its lender, and an error outside the rules of the contract comes
from a number that is too long. -/
inductive Book.Refuses (b : Book) (e : Envelope) : Action → Error → Prop
  | rule {a : Action} {error : Error} {family : Family} (known : error.family? = some family)
      (ordinary : family.isOrdinary = true) : Refuses b e a error
  | missingOffer {a : Action} {id : Key} (given : a.offer? = some id)
      (missing : b.storedOffer? id = none) : Refuses b e a (.offerNotFound id)
  | missingLoan {a : Action} {key : ListingKey} (given : a.listing? e = some key)
      (missing : b.listing? key = none) : Refuses b e a (.loanNotFound key.borrower key.id)
  | nothingHeld {id : Key} {state : OfferState} :
      Refuses b e (.withdrawRefused id) (.ofOfferState .noFundsToWithdraw state)
  | unwieldy {a : Action} (long : a.Unwieldy b e) (failure : Decimal.Failure) :
      Refuses b e a (.calculation failure)

/-- What is raised for the cause is a reason to refuse the call. -/
def Book.Declines (b : Book) (e : Envelope) (a : Action) (cause : Error) : Prop :=
  b.Refuses e a cause.raised

namespace Book.Declines
variable {b : Book} {e : Envelope} {a : Action} {cause : Error}

/-- A cause is a reason if its words can be written, or else a number is unwieldy. -/
theorem of_named (named : ∀ v ∈ cause.named, v.isShort = true ∨ a.Unwieldy b e)
    (reason : cause.raised = cause → b.Refuses e a cause) : b.Declines e a cause := by
  unfold Declines
  cases written : Value.requireShort cause.named with
  | ok =>
      have same : cause.raised = cause := by rw [Error.raised, written]
      rw [same]
      exact reason same
  | error f =>
      have failed : cause.raised = .calculation f := by rw [Error.raised, written]
      rw [failed]
      by_cases unwieldy : a.Unwieldy b e
      · exact .unwieldy unwieldy f
      · have short := Value.requireShort_ok_iff.2 fun v hv => (named v hv).resolve_right unwieldy
        cases written.symm.trans short

theorem naming {family : Family} (own : cause.ownFamily? = some family)
    (ordinary : family.isOrdinary = true)
    (named : ∀ v ∈ cause.named, v.isShort = true ∨ a.Unwieldy b e) : b.Declines e a cause :=
  of_named named fun same => .rule (by rw [Error.family?, same, own]) ordinary

theorem rule {family : Family} (own : cause.ownFamily? = some family)
    (ordinary : family.isOrdinary = true) (unnamed : cause.named = []) : b.Declines e a cause :=
  naming own ordinary (by simp [unnamed])

theorem missingOffer {id : Key} (given : a.offer? = some id) (missing : b.storedOffer? id = none) :
    b.Declines e a (.offerNotFound id) :=
  of_named (Action.offer?_named given) fun _ => .missingOffer given missing

theorem missingLoan {key : ListingKey} (given : a.listing? e = some key)
    (missing : b.listing? key = none) : b.Declines e a (.loanNotFound key.borrower key.id) :=
  of_named (Action.listing?_named given) fun _ => .missingLoan given missing

theorem unwieldy (long : a.Unwieldy b e) (failure : Decimal.Failure) :
    b.Declines e a (.calculation failure) := Refuses.unwieldy long failure

end Book.Declines

/-! ### Orderly books -/

/-- Others than the contract send calls, with arguments of the right kinds, and no token that the
contract holds is touched from outside. -/
def Proper (b : Book) (m : Move) : Prop := Apart b m ∧ m.isProper = true

instance (b : Book) (m : Move) : Decidable (Proper b m) := inferInstanceAs (Decidable (_ ∧ _))

/-- All that is stored was stored by proper calls of others than the contract. -/
structure Book.Orderly (b : Book) : Prop where
  coherent : b.Coherent
  legible : b.Legible
  recorded : b.Recorded
  regular : b.Regular
  impartial : b.Impartial

theorem Reaches.orderly {s₀ s : Session} (run : Reaches Proper s₀ s) (fresh : s₀.IsFresh)
    (plain : s₀.IsPlain) : s.book.Orderly where
  coherent := (run.sound fresh).book
  legible := (run.recorded fresh).2.legible (run.plain fresh plain)
  recorded := (run.recorded fresh).2
  regular := run.regular fresh fun _ _ h => h.2
  impartial := (run.weaken fun _ _ h => h.1).impartial fresh

namespace Book
variable {b : Book} {Q : Error → Prop}

theorem Recorded.writable_key (h : b.Recorded) {key : ListingKey} {l : Listing}
    (stored : b.listing? key = some l) (proper : key.isProper = true) :
    key.borrower.value.Writable ∧ key.id.value.Writable := by
  rw [ListingKey.isProper, Bool.and_eq_true] at proper
  refine ⟨Value.writable_of_isTextual proper.1, ?_⟩
  obtain ⟨borrower, n, -, same, hn⟩ := (h.listing key l stored).named
  obtain ⟨borrower', ⟨id⟩⟩ := key
  obtain ⟨m, rfl⟩ := Value.isWhole_ok proper.2
  have same : (Key.int m == Key.int n) = true := ((ListingKey.beq_iff _ _).1 same).2
  rw [Key.int_beq_int, decide_eq_true_eq] at same
  rw [same]
  exact hn

theorem requireStoredOffer_ends {id : Key}
    (missing : b.storedOffer? id = none → Q (.offerNotFound id)) :
    Ends (b.requireStoredOffer id) (fun o => b.storedOffer? id = some o) Q := by
  unfold requireStoredOffer
  cases ho : b.storedOffer? id with
  | none => exact missing ho
  | some o => exact rfl

theorem Regular.requireListing_ends (h : b.Regular) {step : Family} {key : ListingKey}
    (missing : b.listing? key = none → Q (.loanNotFound key.borrower key.id)) :
    Ends (b.requireListing step key) (fun l => b.listings.get? key = some (.listing l)) Q := by
  unfold requireListing requireRecord
  cases hr : b.listings.get? (.pair key.borrower key.id) with
  | none =>
      refine missing ?_
      rw [listing?, ListingKey.toKey, hr]
      rfl
  | some r =>
      obtain ⟨l, rfl⟩ := h.kept _ _ hr
      exact hr

theorem Orderly.exists_loan (h : b.Orderly) {key : ListingKey} {l : Listing}
    (stored : b.listings.get? key = some (.listing l)) (lent : l.state.hasLoan = true) :
    ∃ id o terms n, l.activeOffer = some id ∧ b.storedOffer? id = some o ∧
      b.requireOffer id = .ok (o.readIf (b.closes o.listing)) ∧ o.terms = some terms ∧
      terms.interest.whole? = some n := by
  obtain ⟨id, o, -, -, active, offer, -⟩ :=
    (h.coherent.listing _ _ (listing?_of_get? stored)).lent lent
  obtain ⟨terms, agreed, -⟩ := (h.coherent.offer _ _ offer).escrow
  obtain ⟨n, whole⟩ := Option.isSome_iff_exists.1 (h.regular.offer _ _ offer terms agreed)
  exact ⟨id, o, terms, n, active, offer, requireOffer_of_stored offer, agreed, whole⟩

theorem Orderly.exists_released (h : b.Orderly) {key : ListingKey} {l : Listing}
    (stored : b.listings.get? key = some (.listing l)) (started : l.state = .started)
    (recipient : Key) : ∃ ts, l.outOfCustody b.address recipient = .ok ts := by
  have pledged : b.Pledges key l.assets := ⟨l, listing?_of_get? stored, started, rfl⟩
  exact Listing.exists_moveAssets_ok fun a ha =>
    (h.impartial.secured.held key l.assets pledged a ha).imp fun _ hn => hn.1

end Book

/-! ### Guards -/

section guards
variable {Q : Error → Prop}

theorem Listing.requirePublished_ends {family : Family} {l : Listing}
    (refused : Q (.ofLoanState family l.state)) :
    Ends (l.requirePublished family) (fun _ => l.state = .published) Q :=
  .require (fun _ => refused) id

theorem Listing.requirePreview_ends {assets : List Asset} {preview : Option Asset}
    (refused : ∀ p ∈ preview, Q (.previewNotListed p)) :
    Ends (Listing.requirePreview assets preview) (fun _ => True) Q := by
  cases preview with
  | none => trivial
  | some p => exact .require (fun _ => refused p rfl) fun _ => trivial

theorem Listing.moveAssets_ends {sender recipient : Key} {refusal : Asset → Error}
    {assets : List Asset} (refused : ∀ a ∈ assets, Q (refusal a)) :
    Ends (moveAssets sender recipient refusal assets) (fun _ => True) Q := by
  induction assets with
  | nil => trivial
  | cons a assets ih =>
      rw [List.forall_mem_cons] at refused
      unfold moveAssets
      split
      · exact refused.1
      · exact .bind (ih refused.2) fun _ _ _ => trivial

theorem Listing.requireRepayable_ends {l : Listing} {terms : Option Terms} {height : Number}
    (refused : ∀ s, Q (.ofLoanState .wrongLoanState s)) :
    Ends (l.requireRepayable terms height) (fun _ => True) Q := by
  unfold requireRepayable
  split
  · exact refused _
  · exact .require (fun _ => refused _) fun _ => trivial

theorem singleCoin_ends {funds : List Tender} (refused : ∀ n, Q (.notOneCoin n)) :
    Ends (singleCoin funds) (fun t => funds = [t]) Q := by
  unfold singleCoin
  split
  · rfl
  · exact refused _

theorem Offer.depositOf_ends {funds : List Tender} {terms : Terms} (count : ∀ n, Q (.notOneCoin n))
    (mismatch : ∀ sent, funds = [sent] → Q (.principalMismatch sent terms.principal)) :
    Ends (Offer.depositOf funds terms) (fun _ => True) Q := by
  refine .bind (singleCoin_ends count) fun sent _ single => ?_
  split
  · trivial
  · exact mismatch sent single

theorem Offer.requireRefusable_ends {o : Offer} {l : Listing}
    (listing : Q (.ofLoanState .notRefusable l.state))
    (offer : Q (.ofOfferState .notRefusable o.state)) :
    Ends (o.requireRefusable l) (fun _ => True) Q := by
  refine .bind (Listing.requirePublished_ends listing) fun _ _ _ => ?_
  split
  · trivial
  · exact offer

theorem discard_ends {α : Type} {x : Except Error α} {R : α → Prop} (h : Ends x R Q) :
    Ends (discard x) (fun _ => True) Q := by
  cases x with
  | ok => trivial
  | error => exact h

theorem Action.requireTerms_ends {key : ListingKey} {terms : Option Terms}
    (refused : Q (.noTerms key)) :
    Ends (requireTerms key terms) (fun t => terms = some t) Q := by
  cases terms with
  | none => exact refused
  | some t => rfl

theorem Action.requireOwned_ends {b : Book} {borrower : Key} {ts : List NftTransfer}
    (refused : ∀ t ∈ ts, Q (.notTokenOwner t.nft.token (b.registry.holder t.nft.token))) :
    Ends (requireOwned b borrower ts) (fun _ => True) Q := by
  induction ts with
  | nil => trivial
  | cons t ts ih =>
      rw [List.forall_mem_cons] at refused
      unfold requireOwned
      dsimp only
      split
      · exact ih refused.2
      · exact refused.1

theorem Value.written_ends {v : Value} (long : ∀ f, ¬ v.Writable → Q (.calculation f)) :
    Ends (v.written.mapError .calculation) (fun _ => True) Q := by
  cases written : v.written with
  | ok t => trivial
  | error f =>
      refine long f ?_
      rintro ⟨t, ht⟩
      cases written.symm.trans ht

theorem Action.lenderPayback_ends {principal : Nat} {interest rate : Decimal}
    (long : ∀ f, Repayment.lenderInterest interest rate = .error f → Q (.calculation f)) :
    Ends (Repayment.lenderPayback (.whole principal) interest rate)
      (fun payback => ∃ share : Int, payback = .whole (principal + share)) Q := by
  unfold Repayment.lenderPayback
  cases split : Repayment.lenderInterest interest rate with
  | error f => exact long f split
  | ok share => exact ⟨share, rfl⟩

end guards

/-! ### The drafts -/

namespace Action
section drafts
variable {b : Book} {e : Envelope} (h : b.Orderly)
include h

theorem draftDeposit_ends {assets : List Asset} {terms : Option Terms} {comment : Option Value}
    {preview : Option Asset} : Ends (draftDeposit b e.sender assets terms comment preview)
      (fun d => d.sender = e.sender) (b.Declines e (.deposit assets terms comment preview)) := by
  refine .unless (fun _ => .rule rfl rfl rfl) fun _ => ?_
  refine .bind (Listing.requirePreview_ends fun p hp => .naming rfl rfl ?_) fun _ _ _ => ?_
  · rw [Error.named, List.forall_mem_singleton]
    exact short_or_unwieldy (by simp [Action.given, show preview = some p from hp])
  obtain ⟨n, next⟩ := h.recorded.exists_nextId e.sender
  exact .follow (toError_of_ok next) rfl

theorem draftModify_ends {loanId : Key} {terms : Option Terms} {comment : Option Value}
    {preview : Option Asset} : Ends (draftModify b e.sender loanId terms comment preview)
      (fun d => d.sender = e.sender) (b.Declines e (.modify loanId terms comment preview)) := by
  refine .bind (h.regular.requireListing_ends fun missing => .missingLoan rfl missing)
    fun l _ _ => ?_
  refine .bind (Listing.requirePublished_ends (.rule rfl rfl rfl)) fun _ _ _ => ?_
  refine .bind (Listing.requirePreview_ends fun p hp => .naming rfl rfl ?_) fun _ _ _ => rfl
  rw [Error.named, List.forall_mem_singleton]
  exact short_or_unwieldy (by simp [Action.given, show preview = some p from hp])

theorem draftWithdraw_ends {loanId : Key} : Ends (draftWithdraw b e.sender loanId)
    (fun d => d.sender = e.sender) (b.Declines e (.withdraw loanId)) := by
  refine .bind (h.regular.requireListing_ends fun missing => .missingLoan rfl missing)
    fun l _ _ => ?_
  exact .bind (Listing.requirePublished_ends (.rule rfl rfl rfl)) fun _ _ _ => rfl

theorem newOffer_ends {a : Action} {key : ListingKey} {terms : Option Terms}
    {comment : Option Value} (given : a.listing? e = some key) (makes : a.offers = true)
    (proposed : ∀ t ∈ terms, t.toValue.isShort = true ∨ a.Unwieldy b e) :
    Ends (newOffer b e key terms comment) (fun _ => True) (b.Declines e a) := by
  refine .bind (h.regular.requireListing_ends fun missing => .missingLoan given missing)
    fun l _ stored => ?_
  refine .bind (Listing.requirePublished_ends (.rule rfl rfl rfl)) fun _ _ _ => ?_
  refine .bind (discard_ends (singleCoin_ends fun _ => .rule rfl rfl rfl)) fun _ _ _ => ?_
  refine .bind (requireTerms_ends (.naming rfl rfl (listing?_named given))) fun t _ ht => ?_
  refine .bind (Offer.depositOf_ends (fun _ => .rule rfl rfl rfl) fun sent single =>
    .naming rfl rfl ?_) fun _ _ _ => ?_
  · rw [Error.named, List.forall_mem_cons, List.forall_mem_singleton]
    refine ⟨short_or_unwieldy (by simp [single]), (proposed t ht).imp_left fun short => ?_⟩
    exact (Terms.legible_iff.1 (Terms.legible_of_isShort short)).1.isShort
  obtain ⟨n, last⟩ := h.coherent.config.count
  obtain ⟨m, count⟩ := (h.coherent.listing _ _ (Book.listing?_of_get? stored)).count
  have next : b.config.lastOffer.next = .ok (.int (n + 1)) := by rw [last]; rfl
  refine .follow (toError_of_ok next) ?_
  refine .bind (Value.written_ends fun failure long => .unwieldy (.offer makes next long) failure)
    fun _ _ _ => ?_
  exact .follow (toError_of_ok (a := .int (m + 1)) (by rw [count]; rfl)) trivial

theorem draftOffer_ends {key : ListingKey} {terms : Option Terms} {comment : Option Value} :
    Ends (draftOffer b e key terms comment) (fun d => d.sender = e.sender)
      (b.Declines e (.makeOffer key terms comment)) :=
  .bind (newOffer_ends h rfl rfl fun t ht => short_or_unwieldy
    (by simp [Action.given, show terms = some t from ht])) fun _ _ _ => rfl

/-- The tokens of a listing that is lent on can be named, and so can their holders, unless that is
unwieldy. -/
theorem tokens_named {a : Action} {key : ListingKey} {l : Listing} {n : Nft}
    (lends : a.loan? b = some key) (stored : b.listing? key = some l) (listed : .nft n ∈ l.assets) :
    ∀ v ∈ (Error.notTokenOwner n.token (b.registry.holder n.token)).named,
      v.isShort = true ∨ a.Unwieldy b e := by
  have legible := (Listing.legible_iff.1 (h.legible.listing _ _ stored)).1 _ listed
  simp only [Asset.toValue, Nft.toValue, Value.legible_record, List.forall_mem_cons] at legible
  rw [Error.named, List.forall_mem_cons, List.forall_mem_cons, List.forall_mem_singleton]
  refine ⟨.inl legible.1.isShort, .inl legible.2.1.isShort, ?_⟩
  cases long : (b.registry.holder n.token).value.isShort with
  | true => exact .inl rfl
  | false => exact .inr (.holder lends stored listed long)

/-- An acceptance can pay the deposit out, as the borrower is not the contract. -/
theorem accept_ends {a : Action} {key : ListingKey} {id : Key} {o : Offer} {l stored : Listing}
    (lends : a.loan? b = some key) (listed : b.listing? key = some stored)
    (same : l.assets = stored.assets) (foreign : (o.borrower == b.address) = false)
    (held : o.state = .published → ∃ c, o.deposit = some (.coin c)) :
    Ends (accept b id o l) (fun _ => True) (b.Declines e a) := by
  refine .bind (Listing.requirePublished_ends (.rule rfl rfl rfl)) fun _ _ _ => ?_
  refine .unless (fun _ => .rule rfl rfl rfl) fun pending => ?_
  obtain ⟨c, deposit⟩ := held (Decidable.of_not_not pending)
  obtain ⟨ps, payout⟩ := exists_conveys (c := c) fun _ => BEq.symm_false foreign
  refine .follow (Offer.release_of deposit payout) ?_
  refine .bind (Listing.moveAssets_ends fun a ha => .naming rfl rfl ?_) fun ts moved _ => ?_
  · rw [same] at ha
    rw [Error.named, List.forall_mem_singleton]
    exact .inl ((Listing.legible_iff.1 (h.legible.listing _ _ listed)).1 a ha).isShort
  · refine .bind (requireOwned_ends fun t ht => .naming rfl rfl ?_) fun _ _ _ => trivial
    refine tokens_named h lends listed ?_
    rw [← same, (Listing.moveAssets_ok moved).1]
    exact List.mem_map_of_mem ht

theorem draftAcceptLoan_ends {key : ListingKey} {comment : Option Value} :
    Ends (draftAcceptLoan b e key comment) (fun d => d.sender = e.sender)
      (b.Declines e (.acceptLoan key comment)) := by
  refine .bind (h.regular.requireListing_ends fun missing => .missingLoan rfl missing)
    fun l _ stored => ?_
  refine .bind (requireTerms_ends (.naming rfl rfl (listing?_named rfl))) fun t _ proposed => ?_
  have listed := Book.listing?_of_get? stored
  have terms := (Listing.legible_iff.1 (h.legible.listing _ _ listed)).2.1
  refine .bind (newOffer_ends h rfl rfl fun t' ht => .inl (terms t' ?_).isShort)
    fun new made _ => ?_
  · cases ht
    exact proposed
  obtain ⟨l', t', -, -, stored', -, -, -, -, -, -, rfl⟩ := newOffer_ok made
  cases stored.symm.trans stored'
  have foreign := h.impartial.borrowers _ _ listed
  exact .bind (accept_ends h rfl listed rfl foreign fun _ => ⟨t'.principal, rfl⟩)
    fun _ _ _ => rfl

theorem draftAcceptOffer_ends {id : Key} : Ends (draftAcceptOffer b e.sender id)
    (fun d => d.sender = e.sender) (b.Declines e (.acceptOffer id)) := by
  refine .bind (Book.requireStoredOffer_ends fun missing => .missingOffer rfl missing)
    fun o _ offer => ?_
  refine .bind (R := fun _ => True) (.require (fun _ => .naming rfl rfl (text_named _))
    fun _ => trivial) fun _ _ _ => ?_
  obtain ⟨l, stored⟩ := h.coherent.listed offer
  obtain ⟨terms, -, escrowed⟩ := (h.coherent.offer _ _ offer).escrow
  have foreign := h.impartial.borrowers _ _ (Book.listing?_of_get? stored)
  refine .follow (Book.requireListing_of stored) ?_
  have lends : (Action.acceptOffer id).loan? b = some o.listing := by rw [loan?, offer]; rfl
  exact .bind (accept_ends h lends (Book.listing?_of_get? stored) rfl foreign fun pending =>
    ⟨_, escrowed.published pending⟩) fun _ _ _ => rfl

theorem draftCancel_ends {id : Key} : Ends (draftCancel b e.sender id)
    (fun d => d.sender = e.sender) (b.Declines e (.cancelOffer id)) := by
  refine .bind (Book.requireStoredOffer_ends fun missing => .missingOffer rfl missing)
    fun o _ offer => ?_
  refine .bind (R := fun _ => True) (.require (fun _ => .naming rfl rfl (text_named _))
    fun _ => trivial) fun _ _ _ => ?_
  obtain ⟨l, stored⟩ := h.coherent.listed offer
  obtain ⟨terms, -, escrowed⟩ := (h.coherent.offer _ _ offer).escrow
  refine .follow (discard_of (Book.requireRecord_of stored)) ?_
  refine .unless (fun _ => .rule rfl rfl rfl) fun published => ?_
  obtain ⟨pending, -⟩ := Offer.stateIf_eq_published_iff.1 (Decidable.of_not_not published)
  refine .follow (Book.requireListing_of stored) ?_
  refine .bind (Listing.requirePublished_ends (.rule rfl rfl rfl)) fun _ _ _ => ?_
  obtain ⟨ss, refund⟩ := exists_conveys (c := terms.principal) fun _ =>
    BEq.symm_false (h.impartial.lenders _ _ offer)
  exact .follow (Offer.release_of (escrowed.published pending) refund) rfl

theorem draftRefuse_ends {id : Key} : Ends (draftRefuse b e.sender id)
    (fun d => d.sender = e.sender) (b.Declines e (.refuseOffer id)) := by
  refine .bind (Book.requireStoredOffer_ends fun missing => .missingOffer rfl missing)
    fun o _ offer => ?_
  refine .bind (R := fun _ => True) (.require (fun _ => .naming rfl rfl (text_named _))
    fun _ => trivial) fun _ _ _ => ?_
  obtain ⟨l, stored⟩ := h.coherent.listed offer
  refine .follow (Book.requireListing_of stored) ?_
  exact .bind (Offer.requireRefusable_ends (.rule rfl rfl rfl) (.rule rfl rfl rfl)) fun _ _ _ => rfl

theorem draftWithdrawRefused_ends {id : Key} : Ends (draftWithdrawRefused b e.sender id)
    (fun d => d.sender = e.sender) (b.Declines e (.withdrawRefused id)) := by
  refine .bind (Book.requireStoredOffer_ends fun missing => .missingOffer rfl missing)
    fun o _ offer => ?_
  refine .bind (R := fun _ => True) (.require (fun _ => .naming rfl rfl (text_named _))
    fun _ => trivial) fun _ _ _ => ?_
  obtain ⟨l, stored⟩ := h.coherent.listed offer
  obtain ⟨terms, -, escrowed⟩ := (h.coherent.offer _ _ offer).escrow
  refine .follow (discard_of (Book.requireRecord_of stored)) ?_
  refine .unless (fun _ => .rule rfl rfl rfl) fun _ => ?_
  cases deposit : o.deposit with
  | none =>
      -- the lender has the deposit already
      refine .bind (R := fun _ => True) ?_ fun _ _ _ => rfl
      unfold Offer.release
      rw [show (o.readIf (b.closes o.listing)).deposit = none from deposit]
      exact Book.Refuses.nothingHeld
  | some d =>
      cases escrowed.coin deposit
      obtain ⟨ss, refund⟩ := exists_conveys (c := terms.principal) fun _ =>
        BEq.symm_false (h.impartial.lenders _ _ offer)
      exact .follow (Offer.release_of (o := o.readIf _) deposit refund) rfl

omit h in
/-- A payment below what is due is refused as such, unless what is due is too long to be named. -/
theorem shortfall_declined {loanId id : Key} {l : Listing} {o : Offer} {terms : Terms}
    {due payment : Coin} (stored : b.listing? ⟨e.sender, loanId⟩ = some l)
    (active : l.activeOffer = some id) (offer : b.storedOffer? id = some o)
    (agreed : o.terms = some terms) (owed : terms.totalDue = .ok due)
    (single : e.funds = [.coin payment]) :
    b.Declines e (.repay loanId) (.insufficientRepayment due payment) := by
  refine .naming rfl rfl ?_
  rw [Error.named, List.forall_mem_cons, List.forall_mem_singleton]
  refine ⟨?_, short_or_unwieldy (by simp [single])⟩
  cases long : due.toValue.isShort with
  | true => exact .inl long
  | false => exact .inr (.due stored active offer agreed owed long)

theorem draftRepay_ends {loanId : Key} (funds : e.isProper = true) :
    Ends (draftRepay b e loanId) (fun d => d.sender = e.sender) (b.Declines e (.repay loanId)) := by
  refine .bind (h.regular.requireListing_ends fun missing => .missingLoan rfl missing)
    fun l _ stored => ?_
  refine .require (fun _ => .rule rfl rfl rfl) fun started => ?_
  have listed := Book.listing?_of_get? stored
  obtain ⟨id, o, terms, n, active, offer, read, agreed, whole⟩ :=
    h.exists_loan stored (by rw [started]; rfl)
  have owed := totalDue_of whole
  refine .follow (Book.activeLoan_of active read) ?_
  refine .bind (Listing.requireRepayable_ends fun _ => .rule rfl rfl rfl) fun _ _ _ => ?_
  refine .follow (congrArg (requireTerms _) agreed) ?_
  refine .bind (singleCoin_ends fun _ => .rule rfl rfl rfl) fun tender _ single => ?_
  obtain ⟨payment, rfl⟩ : ∃ c : Coin, tender = .coin c := by
    rw [Envelope.isProper, single] at funds
    cases tender with
    | coin c => exact ⟨c, rfl⟩
    | other v => cases funds
  refine .follow (a := payment) rfl (.unless (fun _ => .rule rfl rfl rfl) fun _ => ?_)
  refine .follow (toError_of_ok owed) ?_
  refine .unless (fun _ => shortfall_declined listed active offer agreed owed single) fun _ => ?_
  refine .bind (lenderPayback_ends fun f long =>
    .unwieldy (.share listed active offer agreed long) f) fun payback _ split => ?_
  obtain ⟨share, rfl⟩ := split
  obtain ⟨ps, payout⟩ := exists_conveys
    (c := payment.withAmount (terms.principal.amount + share).toNat) fun _ =>
      BEq.symm_false (h.impartial.lenders _ _ offer)
  obtain ⟨ts, released⟩ := h.exists_released stored started e.sender
  obtain ⟨fs, charged⟩ := positive_charged b.address b.config.feeDistributor payment
    (payment.amount - (terms.principal.amount + share)) (Listing.collections_ok released)
  refine .follow (positive_of_conveys payout) (.follow released ?_)
  exact .follow charged rfl

theorem draftClaimDefault_ends {key : ListingKey} : Ends (draftClaimDefault b e.sender key)
    (fun d => d.sender = e.sender) (b.Declines e (.claimDefault key)) := by
  refine .bind (h.regular.requireListing_ends fun missing => .missingLoan rfl missing)
    fun l _ stored => ?_
  have sound := h.coherent.listing _ _ (Book.listing?_of_get? stored)
  cases lent : l.state.hasLoan with
  | false =>
      -- a listing without a loan is not in default
      refine .follow (a := none) (by rw [(sound.idle lent).1]; rfl) ?_
      refine .bind (R := fun _ => False) (.require (fun _ => .rule rfl rfl rfl) fun overdue => ?_)
        fun _ _ absurd => absurd.elim
      rcases Listing.state_of_isDefaulted overdue with hs | hs <;> rw [hs] at lent <;> cases lent
  | true =>
      obtain ⟨id, o, terms, n, active, offer, read, -⟩ := h.exists_loan stored lent
      refine .follow (a := some (o.readIf (b.closes o.listing))) ?_ ?_
      · rw [active]
        exact bind_of_ok read rfl
      refine .bind (R := fun _ => l.state = .started ∨ l.state = .defaulted)
        (.require (fun _ => .rule rfl rfl rfl) fun overdue => Listing.state_of_isDefaulted overdue)
        fun _ _ overdue => ?_
      refine .bind (R := fun _ => True) (.follow (Book.activeLoan_of active read) ?_)
        fun o' _ _ => ?_
      · exact .require (fun _ => .naming rfl rfl (text_named _)) fun _ => trivial
      refine .unless (fun _ => .rule rfl rfl rfl) fun other => ?_
      obtain ⟨ts, released⟩ :=
        h.exists_released stored (overdue.resolve_right other) o'.lender
      exact .follow released rfl

omit h in
/-- A rate is read, unless it is no number or cannot be written to be read. -/
theorem readRate_ends {given : Value} :
    Ends (Config.readRate given) (fun _ => True) (b.Declines e (.setFeeRate given)) := by
  have named : given.isShort = true ∨ (Action.setFeeRate given).Unwieldy b e :=
    short_or_unwieldy List.mem_cons_self
  have text : Ends (given.written.mapError .calculation) (fun _ => True)
      (b.Declines e (.setFeeRate given)) := Value.written_ends fun f long =>
    .unwieldy (named.resolve_left fun short => long (Value.writable_iff.2 short)) f
  unfold Config.readRate
  split
  · trivial
  · refine .bind text fun t _ _ => ?_
    cases Decimal.read t with
    | ok => trivial
    | error => exact .naming rfl rfl (List.forall_mem_singleton.2 named)

/-- What an action comes to: a draft in the name of the sender, or one of the reasons to refuse. -/
theorem effects_ends {a : Action} (funds : e.isProper = true) :
    Ends (a.effects b e) (fun d => d.sender = e.sender) (b.Declines e a) := by
  have owns : ∀ {a : Action}, Ends (b.config.requireOwner e.sender) (fun _ => True)
      (b.Declines e a) := .require (fun _ => .rule rfl rfl rfl) fun _ => trivial
  cases a with
  | deposit => exact draftDeposit_ends h
  | modify => exact draftModify_ends h
  | withdraw => exact draftWithdraw_ends h
  | makeOffer => exact draftOffer_ends h
  | acceptLoan => exact draftAcceptLoan_ends h
  | acceptOffer => exact draftAcceptOffer_ends h
  | cancelOffer => exact draftCancel_ends h
  | refuseOffer => exact draftRefuse_ends h
  | withdrawRefused => exact draftWithdrawRefused_ends h
  | repay => exact draftRepay_ends h funds
  | claimDefault => exact draftClaimDefault_ends h
  | proposeOwner => exact .bind owns fun _ _ _ => rfl
  | claimOwnership => exact .require (fun _ => .rule rfl rfl rfl) fun _ => rfl
  | setFeeDistributor => exact .bind owns fun _ _ _ => rfl
  | setFeeRate given =>
      refine .bind owns fun _ _ _ => .bind (R := fun _ => True) ?_ fun _ _ _ => rfl
      refine .bind readRate_ends fun _ _ _ => ?_
      exact .require (fun _ => .rule rfl rfl rfl) fun _ => trivial

end drafts
end Action

end Pawnbook
