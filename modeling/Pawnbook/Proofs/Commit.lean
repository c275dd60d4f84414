import Pawnbook.Proofs.Agreement
import Pawnbook.Proofs.Rehearsal
import Pawnbook.Proofs.Table

/-! # What an execution leaves behind

`Book.posted` is the book after a transaction whose changes can be written and whose transfers are
covered, as one total function: the changes are put in place (`Book.putAll`), the transfers carried
out, and the transaction logged. An execution either leaves the book alone or passes every check
(`execute_book`), and then the commitment runs through to `Book.posted` (`commit_eq_posted`), or
ends where the id of the execution cannot be written (`commit_of_unwritable`): there a place in the
log was given out, and nothing else was done. -/

namespace Pawnbook
namespace Book

/-! ### Changes put in place -/

/-- The book with the new record of a change in its slot. -/
def put (b : Book) (c : Change) : Book :=
  match c.slot.kind, c.new with
  | .config, some r => b.writeConfig r
  | .borrower, some r => { b with borrowers := b.borrowers.insert c.slot.key r }
  | .listing, some r => { b with listings := b.listings.insert c.slot.key r }
  | .offer, some (.offer o) =>
    { b with
      offers :=
        if c.old.isNone then b.offers.add c.slot.key o else b.offers.replace c.slot.key o }
  | _, _ => b

/-- The book with the new records of some changes in their slots. -/
def putAll (b : Book) (cs : List Change) : Book := cs.foldl put b

@[simp] theorem putAll_nil (b : Book) : b.putAll [] = b := rfl

@[simp] theorem putAll_cons (b : Book) (c : Change) (cs : List Change) :
    b.putAll (c :: cs) = (b.put c).putAll cs := rfl

/-- A change touches nothing but records. -/
theorem put_eq (b : Book) (c : Change) : b.put c =
    { b with
      config := (b.put c).config
      misfit := (b.put c).misfit
      borrowers := (b.put c).borrowers
      listings := (b.put c).listings
      offers := (b.put c).offers } := by
  unfold put
  split
  · unfold writeConfig
    split <;> rfl
  all_goals rfl

theorem putAll_eq : ∀ (cs : List Change) (b : Book), b.putAll cs =
    { b with
      config := (b.putAll cs).config
      misfit := (b.putAll cs).misfit
      borrowers := (b.putAll cs).borrowers
      listings := (b.putAll cs).listings
      offers := (b.putAll cs).offers }
  | [], _ => rfl
  | c :: cs, b => by
      have h := putAll_eq cs (b.put c)
      rw [put_eq b c] at h
      rw [putAll_cons, put_eq b c]
      exact h

section frame
variable (b : Book) (cs : List Change)

@[simp] theorem address_putAll : (b.putAll cs).address = b.address := by rw [putAll_eq]

@[simp] theorem height_putAll : (b.putAll cs).height = b.height := by rw [putAll_eq]

@[simp] theorem bank_putAll : (b.putAll cs).bank = b.bank := by rw [putAll_eq]

@[simp] theorem registry_putAll : (b.putAll cs).registry = b.registry := by rw [putAll_eq]

@[simp] theorem log_putAll : (b.putAll cs).log = b.log := by rw [putAll_eq]

end frame

section lookups
variable (b : Book)

@[simp] theorem listing?_put_listing (key key' : ListingKey) (old : Option Listing)
    (new : Listing) : (b.put (.listing key old new)).listing? key' =
      if key == key' then some new else b.listing? key' := by
  show ((b.listings.insert key.toKey (.listing new)).get? key'.toKey).bind Stored.listing? = _
  rw [Table.get?_insert, ListingKey.beq_toKey]
  split <;> rfl

@[simp] theorem storedOffer?_put_offer (id id' : Key) (old : Option Offer) (new : Offer) :
    (b.put (.offer id old new)).storedOffer? id' =
      if id == id' then some new else b.storedOffer? id' := by
  cases old with
  | none => exact OfferIndex.get?_add id'
  | some o => exact OfferIndex.get?_replace id'

theorem listing?_put_self (key : ListingKey) (old : Option Listing) (new : Listing) :
    (b.put (.listing key old new)).listing? key = some new :=
  (b.listing?_put_listing key key old new).trans (if_pos BEq.rfl)

theorem storedOffer?_put_self (id : Key) (old : Option Offer) (new : Offer) :
    (b.put (.offer id old new)).storedOffer? id = some new :=
  (b.storedOffer?_put_offer id id old new).trans (if_pos BEq.rfl)

end lookups

/-! ### Writes that succeed -/

section writes
variable {b : Book}

theorem write_newOffer {id : Key} {o : Offer} (h : b.storedOffer? id = none) :
    b.write (.offer id none o) = .ok (b.put (.offer id none o)) := by
  show (do return { b with offers := ← b.offers.insert id o }) = _
  rw [OfferIndex.insert_eq_add h]
  rfl

theorem write_offer {id : Key} {o₀ old new : Offer} (h : b.storedOffer? id = some o₀)
    (hl : (o₀.lender == new.lender) = true) (hk : (o₀.listing == new.listing) = true) :
    b.write (.offer id (some old) new) = .ok (b.put (.offer id (some old) new)) := by
  show (do return { b with offers := ← b.offers.update id new }) = _
  rw [OfferIndex.update_eq_replace h hl hk]
  rfl

theorem writeAll_cons {c : Change} {cs : List Change} (h : b.write c = .ok (b.put c))
    (hs : (b.put c).writeAll cs = .ok ((b.put c).putAll cs)) :
    b.writeAll (c :: cs) = .ok (b.putAll (c :: cs)) := by
  show (b.attempt (b.write c) >>= fun b => b.writeAll cs) = _
  rw [h]
  exact hs

end writes

/-! ### Commitment -/

/-- The book with the bank, the registry, the fees and the log of another. -/
def amid (b other : Book) : Book :=
  { b with
    bank := other.bank
    registry := other.registry
    fees := other.fees
    seen := other.seen
    log := other.log
    nextSequence := other.nextSequence }

theorem put_amid (b other : Book) (c : Change) : (b.amid other).put c = (b.put c).amid other := by
  unfold put
  split
  · unfold writeConfig
    split <;> rfl
  all_goals rfl

/-- Changes of records are the same whatever surrounds the records. -/
theorem putAll_amid (other : Book) : ∀ (cs : List Change) (b : Book),
    (b.amid other).putAll cs = (b.putAll cs).amid other
  | [], _ => rfl
  | c :: cs, b => by rw [putAll_cons, put_amid, putAll_amid other cs, putAll_cons]

theorem putAll_numbered (cs : List Change) (b : Book) :
    b.numbered.putAll cs = (b.putAll cs).numbered := by
  refine (putAll_amid b.numbered cs b).trans ?_
  rw [putAll_eq]
  rfl

theorem putAll_carryAll (cs : List Change) (ms : List Message) (b : Book) :
    (b.carryAll ms).putAll cs = (b.putAll cs).carryAll ms := by
  rw [carryAll_eq ms b, carryAll_eq ms (b.putAll cs)]
  refine (putAll_amid { b with bank := _, registry := _, fees := _ } cs b).trans ?_
  rw [putAll_eq]
  rfl

/-- The book after a transaction that it can carry out. -/
def posted (b : Book) (p : Pending) : Book :=
  ((b.putAll p.changes).numbered.carryAll p.transfers).record (b.nextTransaction p)

section posted
variable (b : Book) (p : Pending)

theorem posted_eq : b.posted p =
    { b.putAll p.changes with
      bank := p.transfers.foldl Bank.carry b.bank
      registry := p.transfers.foldl Registry.carry b.registry
      fees := (b.posted p).fees
      log := b.log ++ [b.nextTransaction p]
      seen := (b.posted p).seen
      nextSequence := (b.posted p).nextSequence } := by
  have hb : (b.putAll p.changes).numbered.bank = b.bank := bank_putAll b p.changes
  have hr : (b.putAll p.changes).numbered.registry = b.registry := registry_putAll b p.changes
  have hl : (b.putAll p.changes).numbered.log = b.log := log_putAll b p.changes
  unfold posted
  rw [carryAll_eq, record, hb, hr, hl]
  rfl

@[simp] theorem address_posted : (b.posted p).address = b.address := by
  rw [posted_eq]
  exact address_putAll b p.changes

theorem bank_posted : (b.posted p).bank = p.transfers.foldl Bank.carry b.bank := by
  rw [posted_eq]

theorem registry_posted : (b.posted p).registry = p.transfers.foldl Registry.carry b.registry := by
  rw [posted_eq]

theorem fees_posted : (b.posted p).fees = p.transfers.foldl FeeLedger.carry b.fees := by
  have fees : (b.putAll p.changes).numbered.fees = b.fees := by rw [numbered, putAll_eq]
  rw [posted, record, carryAll_eq, fees]

theorem name_posted : (b.posted p).name = b.name := by
  rw [posted_eq, putAll_eq]

theorem height_posted : (b.posted p).height = b.height := by
  rw [posted_eq, putAll_eq]

theorem nextSequence_posted : (b.posted p).nextSequence = b.nextSequence + 1 := by
  have place : (b.putAll p.changes).numbered.nextSequence = b.nextSequence + 1 := by
    rw [numbered, putAll_eq]
  rw [posted, record, carryAll_eq, place]

theorem log_posted : (b.posted p).log = b.log ++ [b.nextTransaction p] := by
  rw [posted_eq]

theorem offers_posted : (b.posted p).offers = (b.putAll p.changes).offers := by
  rw [posted_eq]

@[simp] theorem listing?_posted (key : ListingKey) :
    (b.posted p).listing? key = (b.putAll p.changes).listing? key := by
  rw [posted_eq]
  rfl

@[simp] theorem storedOffer?_posted (id : Key) :
    (b.posted p).storedOffer? id = (b.putAll p.changes).storedOffer? id :=
  congrArg (·.get? id) (b.offers_posted p)

end posted

/-- Nothing is carried out under an id that cannot be written, but the place in the log is spent. -/
theorem commit_of_unwritable {b : Book} {f : Decimal.Failure} (h : b.requireExecId = .error f)
    (p : Pending) : b.commit p = .error ⟨b.numbered, .calculation f⟩ := by
  unfold commit
  rw [h]
  rfl

theorem commit_of_writable {b : Book} (h : b.requireExecId = .ok ()) (p : Pending) :
    b.commit p = (b.numbered.writeAll p.changes >>= fun written => written.bringInAll p.fundsIn >>=
      fun funded => funded.deliverAll p.messages >>= fun delivered =>
        .ok (delivered.record (b.nextTransaction p))) := by
  unfold commit
  rw [h]
  rfl

/-- What can be written and is covered is committed to the end. Whether the changes can be written
rests on the offers alone. -/
theorem commit_eq_posted {b : Book} {p : Pending} {ss : List BankSend}
    (id : b.requireExecId = .ok ())
    (hw : ∀ b' : Book, b'.offers = b.offers → b'.writeAll p.changes = .ok (b'.putAll p.changes))
    (hf : p.fundsIn = ss.map .send) (ht : b.transferRefusal? p.transfers = none) :
    b.commit p = .ok (b.posted p) := by
  have hp : p.transfers = ss.map .send ++ p.messages := by rw [Pending.transfers, hf]
  have hw : b.numbered.writeAll p.changes = .ok (b.putAll p.changes).numbered := by
    rw [hw b.numbered rfl, putAll_numbered]
  have hr : (b.putAll p.changes).numbered.transferRefusal? (ss.map .send ++ p.messages) = none := by
    rw [hp] at ht
    unfold transferRefusal? at ht ⊢
    rw [show (b.putAll p.changes).numbered.bank = b.bank from bank_putAll b p.changes,
      show (b.putAll p.changes).numbered.registry = b.registry from registry_putAll b p.changes]
    exact ht
  obtain ⟨hb, hd⟩ := deliverAll_of_rehearsal hr
  rw [commit_of_writable id, hw, hf]
  show ((b.putAll p.changes).numbered.bringInAll (ss.map .send) >>= fun funded =>
    funded.deliverAll p.messages >>= fun delivered =>
      .ok (delivered.record (b.nextTransaction p))) = _
  rw [hb]
  show (((b.putAll p.changes).numbered.carryAll (ss.map .send)).deliverAll p.messages >>=
    fun delivered => .ok (delivered.record (b.nextTransaction p))) = _
  rw [hd, ← hp]
  rfl

/-! ### Execution -/

@[simp] theorem book_announce (b : Book) (verdict : Verdict)
    (lines : Except Decimal.Failure (List String)) : (b.announce verdict lines).book = b := by
  unfold announce
  split
  · split <;> rfl
  · rfl

theorem eq_of_answer_announce {b : Book} {verdict v : Verdict}
    {lines : Except Decimal.Failure (List String)}
    (h : (b.announce verdict lines).answer = .ok v) : v = verdict := by
  unfold announce at h
  split at h
  · split at h
    · cases h
      rfl
    · cases h
  · cases h
    rfl

theorem refusal?_eq_none_iff {b : Book} {p : Pending} : b.refusal? p = .ok none ↔
    b.changesRefusal? p.changes = .ok none ∧ b.transferRefusal? p.transfers = none := by
  unfold refusal? objection?
  cases b.changesRefusal? p.changes with
  | error e => exact ⟨nofun, nofun⟩
  | ok o =>
      cases o with
      | some o =>
          refine ⟨fun h => ?_, nofun⟩
          obtain ⟨_, first, h⟩ := bind_ok h
          cases first
          obtain ⟨_, -, h⟩ := bind_ok h
          cases h
      | none =>
          cases b.transferRefusal? p.transfers with
          | none => exact ⟨fun _ => ⟨rfl, rfl⟩, fun _ => rfl⟩
          | some o =>
              refine ⟨fun h => ?_, nofun⟩
              obtain ⟨_, first, h⟩ := bind_ok h
              cases first
              obtain ⟨_, -, h⟩ := bind_ok h
              cases h

theorem refusal?_of_objection {b : Book} {p : Pending} {o : Objection} {words : String}
    (h : b.objection? p = .ok (some o)) (written : o.written = .ok words) :
    b.refusal? p = .ok (some words) := by
  unfold refusal?
  rw [h]
  show (do return some (← o.written.mapError Error.calculation)) = _
  rw [written]
  rfl

theorem execute_of_committed {b after : Book} {p : Pending} (filled : p.isEmpty = false)
    (fits : b.refusal? p = .ok none) (committed : b.commit p = .ok after) :
    b.execute p = after.announce .applied ((b.nextTransaction p).linesWith "✓ APPLIED") := by
  unfold execute
  rw [if_neg (by simp [filled]), fits]
  dsimp only
  rw [committed]

/-- What fits, at a height that cannot be written, raises an error and spends a place in the log. -/
theorem execute_of_unwritable {b : Book} {p : Pending} {f : Decimal.Failure}
    (filled : p.isEmpty = false) (fits : b.refusal? p = .ok none)
    (id : b.requireExecId = .error f) :
    b.execute p = { book := b.numbered, answer := .error (.calculation f) } := by
  unfold execute
  rw [if_neg (by simp [filled]), fits]
  dsimp only
  rw [commit_of_unwritable id]

theorem execute_of_refused {b : Book} {p : Pending} (filled : p.isEmpty = false)
    (unfit : b.refusal? p ≠ .ok none) :
    (b.execute p).answer ≠ .ok .applied ∧ (b.execute p).book = b := by
  unfold execute
  rw [if_neg (by simp [filled])]
  split
  · exact ⟨nofun, rfl⟩
  · split
    · exact ⟨fun h => (by cases eq_of_answer_announce h), book_announce ..⟩
    · exact ⟨fun h => (by cases eq_of_answer_announce h), book_announce ..⟩
  · rename_i fits
    exact absurd fits unfit

/-- An execution that changes the book has passed every check. It is the commitment, or has only
spent a place in the log. -/
theorem execute_book (b : Book) (p : Pending) :
    (b.execute p).book = b ∨
      (∃ f, b.requireExecId = .error f) ∧ (b.execute p).book = b.numbered ∨
      b.requireExecId = .ok () ∧ b.changesRefusal? p.changes = .ok none ∧
        b.transferRefusal? p.transfers = none ∧
        ∀ after, b.commit p = .ok after → (b.execute p).book = after := by
  by_cases filled : p.isEmpty = true
  · exact .inl (by rw [execute, if_pos filled])
  rw [Bool.not_eq_true] at filled
  by_cases fits : b.refusal? p = .ok none
  · cases id : b.requireExecId with
    | error f => exact .inr (.inl ⟨⟨f, rfl⟩, by rw [execute_of_unwritable filled fits id]⟩)
    | ok =>
        obtain ⟨changes, transfers⟩ := refusal?_eq_none_iff.1 fits
        exact .inr (.inr ⟨rfl, changes, transfers, fun after committed => by
          rw [execute_of_committed filled fits committed, book_announce]⟩)
  · exact .inl (execute_of_refused filled fits).2

end Book
end Pawnbook
