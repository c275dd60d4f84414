import Pawnbook.Proofs.Drafting
import Pawnbook.Proofs.PlainText
import Pawnbook.Proofs.Session

/-! # Where records come from

Every record was written by a transaction that had passed the guards of its action and could be put
into texts. So a listing is kept under a borrower's name and a whole number, an offer under a text,
its lender is a named sender, and all of it is legible (`Book.Recorded`). A transaction writes only
such records if the book it was computed on held only such (`Computed.records`); `Reaches.enrich`
hands the invariant to the books that transactions were computed on. -/

namespace Pawnbook

/-! ### Rates -/

namespace Decimal

theorem IsRate.legible {rate : Decimal} (hr : rate.IsRate) : (Value.decimal rate).Legible :=
  Value.legible_decimal.2 hr.exists_canonicalText

end Decimal

theorem Value.Writable.of_le {m n : Int} (h : (int n).Writable) (hm : 0 ≤ m) (hle : m ≤ n) :
    (int m).Writable := by
  rw [writable_iff] at h ⊢
  exact Text.isShort_of_le (by omega) h

/-- The parts of a payment, what the lender gets back and the rest, can be written. -/
def Coin.PartsWritable (payment : Coin) (payback : Int) : Prop :=
  (Value.int payback).Writable ∧ (Value.int (payment.amount - payback)).Writable

theorem Coin.partsWritable_of_writable {payment : Coin} {payback : Int} (nonneg : 0 ≤ payback)
    (covered : payback ≤ payment.amount) (h : (Value.int payment.amount).Writable) :
    payment.PartsWritable payback :=
  ⟨h.of_le nonneg covered, h.of_le (by omega) (by omega)⟩

/-! ### Records with an origin -/

/-- A borrower's name and a whole number that can be written. -/
def ListingKey.Named (key : ListingKey) : Prop :=
  ∃ (borrower : String) (n : Int), Text.isBlank borrower = false ∧
    (key == ⟨borrower, .int n⟩) = true ∧ (Value.int n).Writable

/-- The listing was made by a borrower, and what it names is legible. -/
structure Listing.Recorded (key : ListingKey) (l : Listing) : Prop where
  named : key.Named
  legible : l.toValue.Legible
  active : ∀ k ∈ l.activeOffer, k.value.Writable

/-- The offer was made by a lender, who is not the contract if there is anything to give back. -/
structure Offer.Recorded (address id : Key) (o : Offer) : Prop where
  named : ∃ t : String, id = t
  legible : o.toValue.Legible
  lender : ∃ t : String, Text.isBlank t = false ∧ o.lender = t
  written : o.borrower.value.Writable ∧ o.loanId.value.Writable
  payable : ∀ c, o.deposit = some (.coin c) → c.amount ≠ 0 → (o.lender == address) = false

namespace Book

/-- All records of the book were made by its transactions. -/
structure Recorded (b : Book) : Prop where
  borrower : ∀ name r, b.borrower? name = some r →
    ∃ n : Int, r.lastId = .int n ∧ Text.isShort n = true
  listing : ∀ key l, b.listing? key = some l → l.Recorded key
  offer : ∀ id o, b.storedOffer? id = some o → o.Recorded b.address id

/-- The address and the configuration of the book have canonical texts. -/
structure Plain (b : Book) : Prop where
  address : b.address.value.Legible
  config : b.config.toValue.Legible

theorem Recorded.legible {b : Book} (h : b.Recorded) (plain : b.Plain) : b.Legible where
  address := plain.address
  config := plain.config
  borrower name r hr := by
    obtain ⟨n, hn, short⟩ := h.borrower name r hr
    rw [hn]
    exact (Value.legible_int n).2 short
  listing key l hl := (h.listing key l hl).legible
  offer id o ho := (h.offer id o ho).legible

theorem Recorded.exists_nextId {b : Book} (h : b.Recorded) (name : Key) :
    ∃ n : Int, Borrower.nextId (b.borrower? name) = .ok (.int n) := by
  cases hr : b.borrower? name with
  | none => exact ⟨0, rfl⟩
  | some r =>
      obtain ⟨n, hn, -⟩ := h.borrower name r hr
      refine ⟨n + 1, ?_⟩
      rw [Borrower.nextId, hn]
      rfl

end Book

/-- The change writes a record that was made by a transaction. -/
inductive Change.Records (address : Key) : Change → Prop
  | config {old new : Config} : Records address (.config old new)
  | borrower {name : Key} {old : Option Borrower} {new : Borrower}
      (number : ∃ n : Int, new.lastId = .int n ∧ Text.isShort n = true) :
      Records address (.borrower name old new)
  | listing {key : ListingKey} {old : Option Listing} {new : Listing}
      (recorded : new.Recorded key) : Records address (.listing key old new)
  | offer {id : Key} {old : Option Offer} {new : Offer} (recorded : new.Recorded address id) :
      Records address (.offer id old new)

section put
variable {b : Book}

theorem ListingKey.Named.congr {key key' : ListingKey} (h : key.Named)
    (hk : (key == key') = true) : key'.Named := by
  obtain ⟨borrower, n, hb, hkey, hn⟩ := h
  exact ⟨borrower, n, hb, BEq.trans (BEq.symm hk) hkey, hn⟩

theorem Key.eq_text_of_beq {k : Key} {t : String} (h : ((t : Key) == k) = true) : k = t := by
  have number : ∀ d : Decimal, Value.text t ≠ Value.normalNumber d := by
    intro d
    unfold Value.normalNumber
    split <;> exact fun h => by cases h
  have same : Value.text t = k.value.normal := congrArg Key.value ((beq_iff _ _).1 h)
  obtain ⟨v⟩ := k
  cases v with
  | text s =>
      cases same
      rfl
  | float x => cases x <;> first | exact absurd same (number _) | cases same
  | decimal d => exact absurd same (number d)
  | null | bool | int | time | member | tuple | list | map | record => cases same

theorem Book.borrower?_put_borrower (name name' : Key) (old : Option Borrower) (new : Borrower) :
    (b.put (.borrower name old new)).borrower? name' =
      if name == name' then some new else b.borrower? name' := by
  show ((b.borrowers.insert name (.borrower new)).get? name').bind Stored.borrower? = _
  rw [Table.get?_insert]
  split <;> rfl

theorem Book.Recorded.put (h : b.Recorded) {c : Change} (hc : c.Records b.address) :
    (b.put c).Recorded := by
  cases hc with
  | config => exact ⟨h.borrower, h.listing, h.offer⟩
  | borrower number =>
      refine ⟨fun name r hr => ?_, h.listing, h.offer⟩
      rw [borrower?_put_borrower] at hr
      split at hr
      · cases hr
        exact number
      · exact h.borrower name r hr
  | listing recorded =>
      refine ⟨h.borrower, fun key l hl => ?_, h.offer⟩
      rw [listing?_put_listing] at hl
      split at hl
      · rename_i hk
        cases hl
        exact ⟨recorded.named.congr hk, recorded.legible, recorded.active⟩
      · exact h.listing key l hl
  | @offer id old new recorded =>
      refine ⟨?_, ?_, fun id' o ho => ?_⟩
      · cases old <;> exact h.borrower
      · cases old <;> exact h.listing
      have same : (b.put (.offer id old new)).address = b.address := by cases old <;> rfl
      rw [same]
      rw [storedOffer?_put_offer] at ho
      split at ho
      · rename_i hid
        cases ho
        obtain ⟨t, rfl⟩ := recorded.named
        rw [Key.eq_text_of_beq hid]
        exact recorded
      · exact h.offer id' o ho

theorem Book.Recorded.putAll (h : b.Recorded) {cs : List Change}
    (hc : ∀ c ∈ cs, c.Records b.address) : (b.putAll cs).Recorded := by
  induction cs generalizing b with
  | nil => exact h
  | cons c cs ih =>
      rw [List.forall_mem_cons] at hc
      refine ih (h.put hc.1) ?_
      rw [show (b.put c).address = b.address from address_putAll b [c]]
      exact hc.2

end put

/-! ### What transactions write -/

section computed
variable {b : Book} {e : Envelope} {a : Action} {p : Pending} {ss : List BankSend}
  {as : Attributes}

theorem Computed.written (computed : Computed b e a p ss as) : ∀ x ∈ as, x.2.Writable := by
  rintro ⟨k, v⟩ h
  by_cases hv : v = .null
  · subst hv
    exact ⟨_, rfl⟩
  obtain ⟨texts, ht, -⟩ := computed.attributes
  have hm : (k, v) ∈ as.filter fun x => x.2 != .null :=
    List.mem_filter.2 ⟨h, by simpa using hv⟩
  obtain ⟨x, hx⟩ := exists_mapM_ok_iff.1 ⟨texts, ht⟩ _ hm
  obtain ⟨t, ht, -⟩ := bind_ok hx
  exact ⟨t, ht⟩

theorem Listing.Recorded.restate {key : ListingKey} {l new : Listing} (h : l.Recorded key)
    (legible : new.toValue.Legible) (active : new.activeOffer = l.activeOffer) :
    new.Recorded key := ⟨h.named, legible, active ▸ h.active⟩

theorem Offer.Recorded.settle {address id : Key} {o : Offer} (h : o.Recorded address id)
    {d : Option Tender} {s : OfferState}
    (legible : ({ o with deposit := d, state := s } : Offer).toValue.Legible)
    (kept : d = none ∨ d = o.deposit) :
    ({ o with deposit := d, state := s } : Offer).Recorded address id := by
  refine ⟨h.named, legible, h.lender, h.written, ?_⟩
  rcases kept with rfl | rfl
  · intro c hc
    cases hc
  · exact h.payable

theorem Computed.records (computed : Computed b e a p ss as) (hb : b.Recorded) :
    ∀ c ∈ p.changes, c.Records b.address := by
  have written := computed.written
  obtain ⟨plan, -, -, -, -, legible⟩ := computed
  have changes := legible.changes
  have lender : ∃ t : String, Text.isBlank t = false ∧ (e.sender : Key) = t :=
    ⟨e.sender, e.sender_named, rfl⟩
  generalize p.changes = cs, p.messages = ms at plan changes
  cases plan with
  | @deposit assets terms comment preview id filled shown next =>
      have number : ∃ n : Int, id = .int n := by
        cases hr : b.borrower? e.sender with
        | none =>
            rw [hr] at next
            cases next
            exact ⟨0, rfl⟩
        | some r =>
            obtain ⟨n, hn, -⟩ := hb.borrower _ r hr
            rw [hr] at next
            exact ⟨n + 1, Action.next_of_int hn next⟩
      obtain ⟨n, rfl⟩ := number
      have numbered : (Value.int n).Writable :=
        written (_, .int n) (List.mem_cons_of_mem _ List.mem_cons_self)
      rw [List.forall_mem_cons, List.forall_mem_singleton] at changes ⊢
      have legible := (Change.legible_listing.1 changes.2).2.2
      refine ⟨.borrower ⟨n, rfl, Value.writable_iff.1 numbered⟩, .listing ⟨?_, legible, by simp⟩⟩
      exact ⟨e.sender, n, e.sender_named, BEq.rfl, numbered⟩
  | modify stored published shown =>
      rw [List.forall_mem_singleton] at changes ⊢
      exact .listing ((hb.listing _ _ (Book.listing?_of_get? stored)).restate
        (Change.legible_listing.1 changes).2.2 rfl)
  | withdraw stored published =>
      rw [List.forall_mem_singleton] at changes ⊢
      exact .listing ((hb.listing _ _ (Book.listing?_of_get? stored)).restate
        (Change.legible_listing.1 changes).2.2 rfl)
  | makeOffer stored published funds next counted escrow =>
      rw [List.forall_mem_cons, List.forall_mem_cons, List.forall_mem_singleton] at changes ⊢
      obtain ⟨-, listing, offer⟩ := changes
      refine ⟨.config, .listing ((hb.listing _ _ (Book.listing?_of_get? stored)).restate
        (Change.legible_listing.1 listing).2.2 rfl), .offer ?_⟩
      have borrower := written _ (List.mem_append_left _ List.mem_cons_self)
      have loanId := written _
        (List.mem_append_left _ (List.mem_cons_of_mem _ List.mem_cons_self))
      refine ⟨⟨_, rfl⟩, (Change.legible_offer.1 offer).2.2, lender, ⟨borrower, loanId⟩, ?_⟩
      rintro c hc positive
      cases hc
      cases escrow with
      | nothing hz => exact absurd hz positive
      | send hd => exact hd
  | acceptLoan stored published proposed funds next counted escrow payout custody owned =>
      rw [List.forall_mem_cons, List.forall_mem_cons, List.forall_mem_singleton] at changes ⊢
      obtain ⟨-, listing, offer⟩ := changes
      have recorded := hb.listing _ _ (Book.listing?_of_get? stored)
      have borrower := written _ List.mem_cons_self
      have loanId := written _
        (List.mem_cons_of_mem _ (List.mem_cons_of_mem _ List.mem_cons_self))
      refine ⟨.config, .listing ⟨recorded.named, (Change.legible_listing.1 listing).2.2, ?_⟩,
        .offer ⟨⟨_, rfl⟩, (Change.legible_offer.1 offer).2.2, lender, ⟨borrower, loanId⟩, ?_⟩⟩
      · rintro k ⟨⟩
        exact Key.writable_text _
      · rintro c ⟨⟩
  | acceptOffer offer mine stored published pending deposit payout custody owned =>
      rw [List.forall_mem_cons, List.forall_mem_singleton] at changes ⊢
      have recorded := hb.listing _ _ (Book.listing?_of_get? stored)
      have made := hb.offer _ _ offer
      obtain ⟨t, rfl⟩ := made.named
      refine ⟨.listing ⟨recorded.named, (Change.legible_listing.1 changes.1).2.2, ?_⟩,
        .offer (made.settle (Change.legible_offer.1 changes.2).2.2 (.inl rfl))⟩
      rintro k ⟨⟩
      exact Key.writable_text _
  | cancel offer mine pending stored published deposit refund =>
      rw [List.forall_mem_singleton] at changes ⊢
      exact .offer ((hb.offer _ _ offer).settle (Change.legible_offer.1 changes).2.2 (.inl rfl))
  | refuse offer mine stored published pending =>
      rw [List.forall_mem_singleton] at changes ⊢
      exact .offer ((hb.offer _ _ offer).settle (Change.legible_offer.1 changes).2.2 (.inr rfl))
  | recover offer mine refused deposit refund =>
      rw [List.forall_mem_singleton] at changes ⊢
      exact .offer ((hb.offer _ _ offer).settle (Change.legible_offer.1 changes).2.2 (.inl rfl))
  | repay stored started active offer running agreed funds denom whole enough split escrow payout
      released fees tagged =>
      rw [List.forall_mem_singleton] at changes ⊢
      exact .listing ((hb.listing _ _ (Book.listing?_of_get? stored)).restate
        (Change.legible_listing.1 changes).2.2 rfl)
  | claim stored started active offer mine overdue released =>
      rw [List.forall_mem_singleton] at changes ⊢
      exact .listing ((hb.listing _ _ (Book.listing?_of_get? stored)).restate
        (Change.legible_listing.1 changes).2.2 rfl)
  | configure made =>
      rw [List.forall_mem_singleton]
      exact .config

end computed

/-! ### Over a run -/

/-- An invariant of books that every move keeps holds as well of the books that transactions are
computed on. -/
theorem Reaches.enrich {P : Book → Move → Prop} {I : Book → Prop} {s₀ s : Session}
    (run : Reaches P s₀ s) (fresh : s₀.IsFresh) (start : I s₀.book)
    (step : ∀ {b m b'}, b.Coherent → P b m → I b → b.Moved (fun b m => P b m ∧ I b) m b' → I b') :
    Reaches (fun b m => P b m ∧ I b) s₀ s ∧ I s.book := by
  induction run with
  | start => exact ⟨.start, start⟩
  | step m run allowed ih =>
      obtain ⟨run, holds⟩ := ih
      have sound := run.sound fresh
      exact ⟨.step m run ⟨allowed, holds⟩, step sound.book allowed holds (sound.moved m)⟩

/-- The records of a book after a transaction are those that its changes leave. -/
theorem Book.Recorded.posted {b : Book} {p : Pending} (h : (b.putAll p.changes).Recorded) :
    (b.posted p).Recorded := by
  have address : (b.posted p).address = (b.putAll p.changes).address := by rw [posted_eq]
  refine ⟨?_, fun key l hl => ?_, fun id o ho => ?_⟩
  · rw [posted_eq]
    exact h.borrower
  · rw [listing?_posted] at hl
    exact h.listing key l hl
  · rw [storedOffer?_posted] at ho
    rw [address]
    exact h.offer id o ho

theorem Book.Moved.recorded {P : Book → Move → Prop} {b b' : Book} {m : Move}
    (h : b.Moved (fun b m => P b m ∧ b.Recorded) m b') (hb : b.Recorded) : b'.Recorded := by
  cases h with
  | still | number | advance | fund | mint | transfer => exact ⟨hb.borrower, hb.listing, hb.offer⟩
  | post source posting honoured covered =>
      refine (hb.putAll ?_).posted
      rw [source.since.address]
      exact source.computed.records source.allowed.2

theorem Reaches.recorded {P : Book → Move → Prop} {s₀ s : Session} (run : Reaches P s₀ s)
    (fresh : s₀.IsFresh) :
    Reaches (fun b m => P b m ∧ b.Recorded) s₀ s ∧ s.book.Recorded := by
  refine run.enrich fresh ⟨?_, ?_, ?_⟩ fun _ _ hb moved => moved.recorded hb
  · intro name r hr
    rw [Book.borrower?, fresh.borrowers] at hr
    cases hr
  · intro key l hl
    rw [Book.listing?, fresh.listings] at hl
    cases hl
  · intro id o ho
    rw [Book.storedOffer?, fresh.offers] at ho
    cases ho

/-! ### Names that are texts -/

/-- The address of a contract, its name, its owner and its fee distributor are texts. -/
structure Session.IsPlain (s : Session) : Prop where
  address : ∃ t : String, s.book.address = t
  name : ∃ t, s.book.config.name = .text t
  owner : ∃ t : String, s.book.config.ownership = { owner := t }
  feeDistributor : ∃ t : String, s.book.config.feeDistributor = t

theorem Session.isPlain_opening : opening.IsPlain :=
  ⟨⟨_, rfl⟩, ⟨_, rfl⟩, ⟨_, rfl⟩, ⟨_, rfl⟩⟩

theorem Config.lastOffer_of_instantiate {e : Envelope} {name rate : Value}
    {feeDistributor owner : Key} {c : Config}
    (h : instantiate e name feeDistributor rate owner = .ok c) : c.lastOffer = .int 0 := by
  obtain ⟨_, -, h⟩ := bind_ok h
  obtain ⟨_, -, h⟩ := bind_ok h
  cases h
  rfl

theorem Session.IsPlain.plain {s : Session} (h : s.IsPlain) (fresh : s.IsFresh) :
    s.book.Plain := by
  obtain ⟨⟨address, ha⟩, ⟨name, hn⟩, ⟨owner, ho⟩, ⟨distributor, hd⟩⟩ := h
  obtain ⟨_, _, _, _, _, made⟩ := fresh.config
  have none : (Value.int 0).Legible := (Value.legible_int 0).2 rfl
  refine ⟨by simp [ha], Config.legible_iff.2 ?_⟩
  simp only [hn, ho, hd, Config.lastOffer_of_instantiate made]
  simp [(Config.sound_of_instantiate made).rate.legible, none]

namespace Book
variable {b : Book}

theorem Plain.put (h : b.Plain) {c : Change} (hc : c.Legible) : (b.put c).Plain := by
  refine ⟨?_, ?_⟩
  · rw [put_eq]
    exact h.address
  · have new := hc.new
    unfold Change.newValue at new
    unfold Book.put
    split
    · rename_i r hk hr
      rw [hr] at new
      cases r with
      | config c' => exact new
      | borrower | listing | offer | other => exact h.config
    all_goals exact h.config

theorem Plain.putAll (h : b.Plain) {cs : List Change} (hc : ∀ c ∈ cs, c.Legible) :
    (b.putAll cs).Plain := by
  induction cs generalizing b with
  | nil => exact h
  | cons c cs ih =>
      rw [List.forall_mem_cons] at hc
      exact ih (h.put hc.1) hc.2

theorem Moved.plain {P : Book → Move → Prop} {b' : Book} {m : Move} (h : b.Moved P m b')
    (hb : b.Plain) : b'.Plain := by
  cases h with
  | still | number | advance | fund | mint | transfer => exact ⟨hb.address, hb.config⟩
  | @post place p b₀ e a ss as source =>
      have after := hb.putAll source.computed.legible.changes
      have alike := b.alike_posted p
      exact ⟨alike.address ▸ after.address, alike.config ▸ after.config⟩

end Book

theorem Reaches.plain {P : Book → Move → Prop} {s₀ s : Session} (run : Reaches P s₀ s)
    (fresh : s₀.IsFresh) (plain : s₀.IsPlain) : s.book.Plain :=
  run.invariant fresh (plain.plain fresh) fun _ _ moved hb => moved.plain hb

end Pawnbook
