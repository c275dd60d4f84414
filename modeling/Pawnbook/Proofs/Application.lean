import Pawnbook.Proofs.Drafting
import Pawnbook.Proofs.Posting

/-! # Transactions that are applied

A transaction that is carried out on the very book it was computed on fits it, as records agree with
themselves (`Listing.agrees_refl`, `Offer.agrees_refl`). It is then applied if its coins are
covered and its tokens are there to be handed over (`Computed.applied`): it can be written to the
end, and a verbose book can print what it could put into a text. -/

namespace Pawnbook

/-! ### Records agree with themselves -/

theorem Value.same_refl (v : Value) : v.same v = true := (same_iff v v).2 rfl

theorem Value.optionsAgree_refl {α : Type} {r : α → α → Bool} (hr : ∀ a, r a a = true) :
    ∀ o : Option α, optionsAgree r o o = true
  | none => rfl
  | some a => hr a

theorem Tender.agrees_refl (t : Tender) : t.agrees t = true := by
  cases t with
  | coin c => exact decide_eq_true rfl
  | other v => exact v.same_refl

theorem Asset.agrees_refl (a : Asset) : a.agrees a = true := by
  cases a <;> simp [agrees, Value.same_refl, Tender.agrees_refl]

theorem Terms.agrees_refl (t : Terms) : t.agrees t = true := by simp [agrees]

theorem Listing.agrees_refl (l : Listing) : l.agrees l = true := by
  have assets : l.assets.isEqv l.assets Asset.agrees = true := by
    induction l.assets with
    | nil => rfl
    | cons a assets ih => simp [List.isEqv, a.agrees_refl, ih]
  simp [agrees, assets, Value.same_refl, Value.optionsAgree_refl, Terms.agrees_refl,
    Asset.agrees_refl]

theorem Offer.agrees_refl (o : Offer) : o.agrees o = true := by
  simp [agrees, Value.same_refl, Value.optionsAgree_refl, Terms.agrees_refl, Tender.agrees_refl]

namespace Book
variable {b : Book}

theorem changeRefusal?_listing {key : ListingKey} {l new : Listing}
    (h : b.listings.get? key = some (.listing l)) :
    b.changeRefusal? (.listing key (some l) new) = .ok none := by
  have same : Stored.equals? (b.listings.get? key) (some (.listing l)) = .ok true := by
    rw [h]
    exact congrArg Except.ok l.agrees_refl
  exact bind_of_ok (a := true) (congrArg (Except.mapError Error.calculation) same) rfl

theorem changeRefusal?_offer {id : Key} {o new : Offer} (h : b.storedOffer? id = some o) :
    b.changeRefusal? (.offer id (some o) new) = .ok none := by
  have same : Stored.equals? ((b.storedOffer? id).map .offer) (some (.offer o)) = .ok true := by
    rw [h]
    exact congrArg Except.ok o.agrees_refl
  exact bind_of_ok (a := true) (congrArg (Except.mapError Error.calculation) same) rfl

/-! ### Objections in words -/

theorem named_of_record?_error {s : Slot} {bad : BadSlot} (h : b.record? s = .error bad) :
    bad = .configKey s.key ∨ bad = .unknownKind s.kind.name := by
  obtain ⟨kind, key⟩ := s
  cases kind with
  | config =>
      dsimp only [record?] at h
      split at h
      · cases h
      · exact .inl (Except.error.inj h).symm
  | borrower | listing | offer => cases h
  | other name => exact .inr (Except.error.inj h).symm

/-- An objection against a change that has a text can be put into words. -/
theorem written_of_changeRefusal? {c : Change} {o : Objection} (hc : c.Legible)
    (h : b.changeRefusal? c = .ok (some o)) : ∃ words, o.written = .ok words := by
  have kind := hc.kind
  have key := hc.key.isShort
  have named : ∀ v ∈ o.named, v.isShort = true := by
    unfold changeRefusal? at h
    split at h
    · rename_i bad record
      cases h
      rcases named_of_record?_error record with rfl | rfl <;> simpa [Objection.named]
    · obtain ⟨same, -, h⟩ := bind_ok h
      cases same with
      | false =>
          cases h
          simp [Objection.named, kind, key]
      | true =>
          have h : (if c.new.isNone then some (Objection.deletion c.slot) else none) = some o :=
            Except.ok.inj h
          split at h
          · cases h
            simp [Objection.named, kind, key]
          · cases h
  exact ⟨_, bind_of_ok (Value.requireShort_ok_iff.2 named) rfl⟩

theorem written_of_changesRefusal? {o : Objection} : ∀ {cs : List Change},
    (∀ c ∈ cs, c.Legible) → b.changesRefusal? cs = .ok (some o) → ∃ words, o.written = .ok words
  | [], _, h => by cases h
  | c :: cs, hc, h => by
      rw [List.forall_mem_cons] at hc
      obtain ⟨first, hfirst, h⟩ := bind_ok h
      cases first with
      | some o' =>
          cases h
          exact written_of_changeRefusal? hc.1 hfirst
      | none => exact written_of_changesRefusal? hc.2 h

end Book

/-! ### Refused calls -/

namespace Book
variable {b : Book} {e : Envelope} {a : Action} {error : Error}

/-- The call fails with the error, and leaves the book alone. -/
def Raises (b : Book) (e : Envelope) (a : Action) (error : Error) : Prop :=
  (b.handle e a).book = b ∧ (b.handle e a).answer = .error error

theorem raises_of_transact (h : b.transact e a = .error error) : b.Raises e a error := by
  unfold Raises handle
  rw [h]
  exact ⟨rfl, rfl⟩

theorem raises_of_effects (h : a.effects b e = .error error) : b.Raises e a error := by
  apply raises_of_transact
  unfold transact Action.draft
  rw [h]
  rfl

end Book

/-! ### Application -/

/-- The transaction of the call is computed, but the id of its execution cannot be written: that is
raised, and nothing was done but that a place in the log is spent. -/
def Book.Stalls (b : Book) (e : Envelope) (a : Action) : Prop :=
  ∃ p f, b.transact e a = .ok p ∧ b.requireExecId = .error f ∧
    b.execute p = { book := b.numbered, answer := .error (.calculation f) }

/-- The call has the outcome, or stalls where the id of an execution cannot be written. -/
structure Book.Achieves (b : Book) (e : Envelope) (a : Action) (outcome : Prop) : Prop where
  outcome : b.requireExecId = .ok () → outcome
  stalls : ∀ f, b.requireExecId = .error f → b.Stalls e a

section plans
variable {b : Book} {e : Envelope} {a : Action} {p : Pending} {cs : List Change}
  {ss : List BankSend} {ms : List Message} {as : Attributes}

theorem Action.Plan.changes_ne_nil (plan : Plan b e a cs ss ms as) : cs ≠ [] := by
  cases plan <;> simp

theorem Action.Plan.ne_other (plan : Plan b e a cs ss ms as) :
    ∀ m ∈ ms, ∀ v, m ≠ .other v := by
  cases plan <;> simp [or_imp, forall_and]

theorem Computed.isEmpty_eq_false (computed : Computed b e a p ss as) : p.isEmpty = false := by
  have hne := computed.plan.changes_ne_nil
  simp [Pending.isEmpty, hne]

theorem Action.Plan.attributes_named (plan : Plan b e a cs ss ms as) :
    ∀ x ∈ as, ∃ t : String, x.1 = t := by
  cases plan with
  | configure made => cases made <;> simp
  | _ => simp [listingAttributes, loanAttributes]

theorem Computed.printable (computed : Computed b e a p ss as) : p.Printable := by
  obtain ⟨id, hid⟩ := computed.intentId
  obtain ⟨texts, ht, ha⟩ := computed.attributes
  refine computed.legible.printable (hid ▸ rfl) ?_
  rw [ha, List.forall_mem_cons]
  refine ⟨⟨rfl, rfl⟩, fun x hx => ?_⟩
  obtain ⟨y, hy, hx⟩ := mem_of_mapM_ok ht x hx
  obtain ⟨t, -, hx⟩ := bind_ok hx
  cases hx
  obtain ⟨name, named⟩ := computed.plan.attributes_named y (List.mem_filter.1 hy).1
  exact ⟨by rw [named]; rfl, rfl⟩

/-- What was applied had passed every check, under an id that can be written, and was committed. -/
theorem Book.unrefused_of_applied {b : Book} (filled : p.isEmpty = false)
    (h : (b.execute p).answer = .ok .applied) :
    b.requireExecId = .ok () ∧ b.changesRefusal? p.changes = .ok none ∧
      b.transferRefusal? p.transfers = none ∧
      ∀ after, b.commit p = .ok after → (b.execute p).book = after := by
  have fits : b.refusal? p = .ok none :=
    Classical.byContradiction fun unfit => (Book.execute_of_refused filled unfit).1 h
  obtain ⟨changes, transfers⟩ := Book.refusal?_eq_none_iff.1 fits
  refine ⟨?_, changes, transfers, fun after committed => ?_⟩
  · cases id : b.requireExecId with
    | ok => rfl
    | error f =>
        rw [Book.execute_of_unwritable filled fits id] at h
        cases h
  · rw [Book.execute_of_committed filled fits committed, Book.book_announce]

theorem Book.not_applied_of_transact (sent : b.transact e a = .ok p) {f : Decimal.Failure}
    (id : b.requireExecId = .error f) : (b.execute p).answer ≠ .ok .applied := fun h => by
  obtain ⟨ss, as, computed⟩ := transact_plan sent
  cases id.symm.trans (unrefused_of_applied computed.isEmpty_eq_false h).1

theorem Book.stalls_of_transact (sent : b.transact e a = .ok p) {f : Decimal.Failure}
    (id : b.requireExecId = .error f) (fits : b.refusal? p = .ok none) : b.Stalls e a := by
  obtain ⟨ss, as, computed⟩ := transact_plan sent
  exact ⟨p, f, sent, id, execute_of_unwritable computed.isEmpty_eq_false fits id⟩

/-- A transaction that was computed earlier and is applied is posted. -/
theorem Computed.posted_of_applied {b₀ : Book} (computed : Computed b₀ e a p ss as)
    (h₀ : b₀.Coherent) (since : b₀.Since b) (hb : b.Coherent)
    (h : (b.execute p).answer = .ok .applied) :
    Action.Posting b b₀.config e a p.changes ss p.messages as ∧
      b.changesRefusal? p.changes = .ok none ∧ b.transferRefusal? p.transfers = none ∧
      (b.execute p).book = b.posted p := by
  obtain ⟨id, fits, transfers, after⟩ := Book.unrefused_of_applied computed.isEmpty_eq_false h
  have posting := computed.plan.posting h₀ since (Book.fits_of_changesRefusal? fits)
  have committed : b.commit p = .ok (b.posted p) :=
    Book.commit_eq_posted id (fun b' h => (posting.edit hb).writeAll h) computed.fundsIn transfers
  exact ⟨posting, fits, transfers, after _ committed⟩

theorem Computed.transferRefusal?_eq_none {b₀ : Book} (computed : Computed b₀ e a p ss as)
    (covered : b.bank.Covers p.transfers) (honoured : b.registry.Honours p.transfers) :
    b.transferRefusal? p.transfers = none := by
  refine Book.transferRefusal?_eq_none_iff.2 ⟨covered, honoured, ?_⟩
  rw [Pending.transfers, computed.fundsIn]
  exact List.forall_mem_append.2 ⟨by simp, computed.plan.ne_other⟩

theorem Computed.refusal?_eq_none {b₀ : Book} (computed : Computed b₀ e a p ss as)
    (fits : b.changesRefusal? p.changes = .ok none) (covered : b.bank.Covers p.transfers)
    (honoured : b.registry.Honours p.transfers) : b.refusal? p = .ok none :=
  Book.refusal?_eq_none_iff.2 ⟨fits, computed.transferRefusal?_eq_none covered honoured⟩

/-- A transaction that fits the book it was computed on is applied, if the id of its execution can
be written. -/
theorem Computed.applied (computed : Computed b e a p ss as) (hb : b.Coherent)
    (id : b.requireExecId = .ok ()) (fits : b.changesRefusal? p.changes = .ok none)
    (covered : b.bank.Covers p.transfers) (honoured : b.registry.Honours p.transfers) :
    (b.execute p).answer = .ok .applied ∧ (b.execute p).book = b.posted p := by
  have unrefused := computed.refusal?_eq_none fits covered honoured
  have edit := (computed.plan.posting hb (.refl b) (Book.fits_of_changesRefusal? fits)).edit hb
  have committed : b.commit p = .ok (b.posted p) :=
    Book.commit_eq_posted id (fun b' h => edit.writeAll h) computed.fundsIn
      (computed.transferRefusal?_eq_none covered honoured)
  rw [Book.execute_of_committed computed.isEmpty_eq_false unrefused committed]
  exact ⟨Book.answer_announce _ fun _ => Book.linesWith_ok computed.printable id _,
    Book.book_announce ..⟩

/-- What a call achieves if it is applied. -/
theorem Computed.achieves (computed : Computed b e a p ss as) (sent : b.transact e a = .ok p)
    (hb : b.Coherent) (fits : b.changesRefusal? p.changes = .ok none)
    (covered : b.bank.Covers p.transfers) (honoured : b.registry.Honours p.transfers)
    {outcome : Prop} (h : (b.execute p).answer = .ok .applied →
      (b.execute p).book = b.posted p → outcome) : b.Achieves e a outcome where
  outcome := fun id =>
    have applied := computed.applied hb id fits covered honoured
    h applied.1 applied.2
  stalls := fun _ id =>
    Book.stalls_of_transact sent id (computed.refusal?_eq_none fits covered honoured)

end plans
end Pawnbook
