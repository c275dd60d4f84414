import Pawnbook.Proofs.Refusal
import Pawnbook.Proofs.Spelling

/-! # The log as an audit trail

Nothing happens to a contract that its log does not tell. Sequence numbers count the entries, the
ids of executions differ, and heights go up (`Book.Stamped`). The changes of a slot, taken out of
the log in order, lead from the record that was there at first to the one that is stored now, each
made against what the one before had left (`Trail`). And the transfers of all entries, carried out
once more on the balances, owners and fees of the start, succeed and give those of now
(`Book.redoAll`). Each of the three is kept by one posting, and by the other moves of the contract
itself. -/

namespace Pawnbook

/-! ### Trails of one record -/

/-- Some changes lead from a record to a record: each was made against the record as it was then,
and left its own new one. -/
inductive Trail : Option Stored → List Change → Option Stored → Prop
  | nil (r : Option Stored) : Trail r [] r
  | cons {r r' : Option Stored} {c : Change} {cs : List Change}
      (fits : Stored.equals? r c.old = .ok true) (rest : Trail c.new cs r') : Trail r (c :: cs) r'

theorem Trail.append {r r' : Option Stored} {c : Change} {cs : List Change} (h : Trail r cs r')
    (fits : Stored.equals? r' c.old = .ok true) : Trail r (cs ++ [c]) c.new := by
  induction h with
  | nil r => exact .cons fits (.nil _)
  | cons first rest ih => exact .cons first (ih fits)

theorem filter_slot_eq_singleton {c : Change} {s : Slot} : ∀ {cs : List Change},
    (cs.Pairwise fun c d => (c.slot == d.slot) = false) → c ∈ cs → (c.slot == s) = true →
    cs.filter (·.slot == s) = [c]
  | [], _, h, _ => by cases h
  | d :: ds, apart, h, same => by
      rw [List.pairwise_cons] at apart
      rcases List.mem_cons.1 h with rfl | h
      · have others : ds.filter (·.slot == s) = [] := by
          rw [List.filter_eq_nil_iff]
          intro d hd other
          have apart := apart.1 d hd
          rw [BEq.trans same (BEq.symm other)] at apart
          cases apart
        rw [List.filter_cons, if_pos same, others]
      · have other : ¬ (d.slot == s) = true := by
          intro other
          have apart := apart.1 c h
          rw [BEq.trans other (BEq.symm same)] at apart
          cases apart
        rw [List.filter_cons, if_neg other, filter_slot_eq_singleton apart.2 h same]

namespace Book
variable {b b' b₀ : Book}

/-- The changes of a slot, in the order of the log. -/
def history (b : Book) (s : Slot) : List Change :=
  (b.log.flatMap (·.changes)).filter (·.slot == s)

theorem record?_congr (b : Book) {s s' : Slot} {r : Option Stored} (h : (s == s') = true)
    (hr : b.record? s = .ok r) : b.record? s' = .ok r := by
  obtain ⟨kind, key⟩ := s
  obtain ⟨kind', key'⟩ := s'
  obtain ⟨kinds, keys⟩ := (Slot.beq_iff _ _).1 h
  dsimp only at kinds keys
  cases kind with
  | config =>
      cases kind' with
      | config =>
          obtain ⟨named, hr⟩ := require_ok hr
          exact (if_pos (BEq.trans (BEq.symm keys) named)).trans hr
      | borrower | listing | offer | other => cases kinds
  | borrower =>
      cases kind' with
      | borrower => exact (congrArg Except.ok (Table.get?_congr _ (BEq.symm keys))).trans hr
      | config | listing | offer | other => cases kinds
  | listing =>
      cases kind' with
      | listing => exact (congrArg Except.ok (Table.get?_congr _ (BEq.symm keys))).trans hr
      | config | borrower | offer | other => cases kinds
  | offer =>
      cases kind' with
      | offer =>
          have same := b.storedOffer?_congr keys
          unfold record? at hr ⊢
          dsimp only at hr ⊢
          rwa [← same]
      | config | borrower | listing | other => cases kinds
  | other => cases hr

/-! ### The three parts of the trail -/

/-- Every record is where its changes lead from what it was on an earlier book. -/
def Traces (b₀ b : Book) : Prop :=
  ∀ s r₀, b₀.record? s = .ok r₀ → ∃ r, b.record? s = .ok r ∧ Trail r₀ (b.history s) r

/-- The transfers of a logged transaction, carried out once more. -/
def redo (b : Book) (t : Transaction) : Except Interrupted Book := do
  (← b.bringInAll t.fundsIn).deliverAll t.messages

/-- The transfers of some logged transactions, carried out once more in order. -/
def redoAll (b : Book) : List Transaction → Except Interrupted Book
  | [] => .ok b
  | t :: ts => do redoAll (← b.redo t) ts

/-- The book with the balances, the owners and the fees of another. -/
def withAssetsOf (b other : Book) : Book :=
  { b with bank := other.bank, registry := other.registry, fees := other.fees }

/-- The id of the execution at a place of the log, at a height. -/
def stamp (name : Value) (place : Nat) (height : String) : String :=
  "exec:" ++ name.label ++ ":" ++ Text.padded 12 place ++ ":" ++ height

/-- The place can be told from the id. -/
theorem stamp_injective {name : Value} {i j : Nat} {height height' : String}
    (h : stamp name i height = stamp name j height') : i = j := by
  have chars := congrArg String.toList h
  simp only [stamp, String.toList_append, List.append_assoc] at chars
  have chars := List.append_cancel_left (List.append_cancel_left (List.append_cancel_left chars))
  exact (Text.padded_append (by simp) (by simp) chars).1

/-- Entry after entry is stamped with its place, with a height that is not below the earlier ones
nor above the current one, and with an id that shows the place. A place is given out for nothing
only where the height cannot be written. -/
structure Stamped (b : Book) (heights : List Int) : Prop where
  next : b.requireExecId = .ok () → b.nextSequence = b.log.length
  sequence : b.log.map (·.sequence) = (List.range b.log.length).map fun i : Nat => .int i
  height : b.log.map (·.height) = heights.map .int
  ordered : heights.Pairwise (· ≤ ·)
  reached : ∀ n, b.height = .whole n → ∀ h ∈ heights, h ≤ n
  execId : ∀ t ∈ b.log, ∃ i < b.log.length, ∃ height, t.execId = stamp b.name i height
  distinct : (b.log.map (·.execId)).Nodup

section posting
variable {p : Pending}

/-- The changes of a transaction that is carried out lead on. -/
theorem Traces.posted (h : b₀.Traces b)
    (apart : p.changes.Pairwise fun c d => (c.slot == d.slot) = false)
    (fits : ∀ c ∈ p.changes, b.Fits c) (carried : b.CarriedOut p b')
    (log : b'.log = b.log ++ [b.nextTransaction p]) : b₀.Traces b' := by
  intro s r₀ before
  obtain ⟨r, now, trail⟩ := h s r₀ before
  have history : b'.history s = b.history s ++ p.changes.filter (·.slot == s) := by
    rw [Book.history, log, List.flatMap_append, List.filter_append]
    simp [Book.history, nextTransaction, Transaction.ofPending]
  rw [history]
  by_cases touched : ∃ c ∈ p.changes, (c.slot == s) = true
  · obtain ⟨c, hc, same⟩ := touched
    obtain ⟨r', stored, agrees⟩ := fits c hc
    cases now.symm.trans (b.record?_congr same stored)
    rw [filter_slot_eq_singleton apart hc same]
    exact ⟨c.new, b'.record?_congr same (carried.records c hc), trail.append agrees⟩
  · have others : ∀ c ∈ p.changes, (c.slot == s) = false := fun c hc =>
      Bool.eq_false_iff.2 fun same => touched ⟨c, hc, same⟩
    have none : p.changes.filter (·.slot == s) = [] := by
      rw [List.filter_eq_nil_iff]
      exact fun c hc => Bool.eq_false_iff.1 (others c hc)
    rw [none, List.append_nil]
    exact ⟨r, (carried.others s others).trans now, trail⟩

theorem redoAll_append : ∀ (ts us : List Transaction) (b : Book),
    b.redoAll (ts ++ us) = (b.redoAll ts >>= fun b => b.redoAll us)
  | [], _, _ => rfl
  | t :: ts, us, b => by
      show (b.redo t >>= fun b => b.redoAll (ts ++ us)) =
        (b.redo t >>= fun b => b.redoAll ts) >>= fun b => b.redoAll us
      cases b.redo t with
      | error => rfl
      | ok b => exact redoAll_append ts us b

/-- A transaction whose transfers a book covers can be carried out once more on any book of the same
balances and owners. -/
theorem redo_withAssetsOf (b₀ b : Book) {ss : List BankSend} (funds : p.fundsIn = ss.map .send)
    (covered : b.transferRefusal? p.transfers = none) :
    (b₀.withAssetsOf b).redo (b.nextTransaction p) = .ok (b₀.withAssetsOf (b.posted p)) := by
  have transfers : p.transfers = ss.map .send ++ p.messages := by rw [Pending.transfers, funds]
  have covered : (b₀.withAssetsOf b).transferRefusal? (ss.map .send ++ p.messages) = none := by
    rw [← transfers]
    exact covered
  obtain ⟨brought, delivered⟩ := deliverAll_of_rehearsal covered
  rw [← funds] at brought
  rw [← transfers, ← funds] at delivered
  refine bind_of_ok brought (delivered.trans ?_)
  rw [carryAll_eq, withAssetsOf, withAssetsOf, bank_posted, registry_posted, fees_posted]

theorem Stamped.posted {heights : List Int} (h : b.Stamped heights) {n : Int}
    (stands : b.height = .whole n) (id : b.requireExecId = .ok ()) :
    (b.posted p).Stamped (heights ++ [n]) := by
  have next := h.next id
  have log := log_posted b p
  have length : (b.posted p).log.length = b.log.length + 1 := by rw [log, List.length_append]; rfl
  refine ⟨fun _ => ?_, ?_, ?_, ?_, ?_, ?_, ?_⟩
  · rw [nextSequence_posted, next, length]
  · rw [length, log, List.map_append, h.sequence, List.range_succ, List.map_append]
    simp [nextTransaction, Transaction.ofPending, next]
  · rw [log, List.map_append, List.map_append, h.height]
    simp [nextTransaction, Transaction.ofPending, stands, Value.ofNumber]
  · refine List.pairwise_append.2 ⟨h.ordered, List.pairwise_singleton _ _, ?_⟩
    intro m hm k hk
    rw [List.mem_singleton.1 hk]
    exact h.reached n stands m hm
  · intro m hm k hk
    rw [height_posted, stands] at hm
    cases hm
    rcases List.mem_append.1 hk with hk | hk
    · exact h.reached n stands k hk
    · exact Int.le_of_eq (List.mem_singleton.1 hk)
  · rw [length, name_posted, log, List.forall_mem_append, List.forall_mem_singleton]
    refine ⟨fun t ht => ?_, b.log.length, Nat.lt_succ_self _, b.height.text, ?_⟩
    · obtain ⟨i, hi, height, same⟩ := h.execId t ht
      exact ⟨i, Nat.lt_succ_of_lt hi, height, same⟩
    · rw [← next]
      rfl
  · rw [log, List.map_append, List.nodup_append]
    refine ⟨h.distinct, List.nodup_cons.2 ⟨List.not_mem_nil, List.nodup_nil⟩, ?_⟩
    intro id hid id' hid' same
    obtain ⟨t, ht, rfl⟩ := List.mem_map.1 hid
    obtain ⟨i, hi, height, shown⟩ := h.execId t ht
    have last : id' = stamp b.name b.log.length b.height.text := by
      rw [← next]
      exact List.mem_singleton.1 hid'
    rw [shown, last] at same
    exact absurd (stamp_injective same) (Nat.ne_of_lt hi)

end posting
end Book

/-! ### Over a run -/

/-- A move of the contract and its users: balances and tokens change through transactions only. -/
def Move.isOwn : Move → Bool
  | .compute .. | .execute _ | .advance .. => true
  | .fund .. | .mint .. | .transfer .. => false

/-- Only moves of the contract and its users are made, and none at a height below zero that cannot
be written: from there blocks lead to heights that can, and an execution before them spends a place
in the log for nothing. -/
def Own (b : Book) (m : Move) : Prop :=
  m.isOwn = true ∧ (b.height.isNegative = true → (Value.ofNumber b.height).isShort = true)

instance (b : Book) (m : Move) : Decidable (Own b m) := inferInstanceAs (Decidable (_ ∧ _))

/-- Where the id of an execution can be written after some blocks, it could be before them. -/
theorem Own.requireExecId {b : Book} {m : Move} (own : Own b m) {height height' : Int}
    {time : Time} (stands : b.height = .whole height) (forward : height ≤ height')
    (id : Book.requireExecId { b with height := .whole height', time } = .ok ()) :
    b.requireExecId = .ok () := by
  obtain ⟨name, short⟩ := Book.requireExecId_ok_iff.1 id
  refine Book.requireExecId_ok_iff.2 ⟨name, ?_⟩
  have below := own.2
  rw [stands] at below ⊢
  rcases Int.lt_or_le height 0 with negative | nonneg
  · exact below (decide_eq_true negative)
  · exact Text.isShort_of_le (by omega) short

theorem Computed.carriedOut {b₀ b : Book} {e : Envelope} {a : Action} {p : Pending}
    {ss : List BankSend} {as : Attributes} (computed : Computed b₀ e a p ss as)
    (id : b.requireExecId = .ok ())
    (fits : b.changesRefusal? p.changes = .ok none) (covered : b.bank.Covers p.transfers)
    (honoured : b.registry.Honours p.transfers) : b.CarriedOut p (b.posted p) := by
  have filled := computed.isEmpty_eq_false
  have unrefused := Book.changesRefusal?_none_iff.1 fits
  have accepts : ∀ c ∈ p.changes, b.Accepts c := fun c hc =>
    Book.accepts_of_changeRefusal? (computed.plan.typed c hc) (computed.plan.keepsParties c hc)
      (unrefused c hc)
  exact (Book.carriedOut_posted id filled computed.fundsIn computed.plan.apart accepts
    (computed.transferRefusal?_eq_none covered honoured)).2

namespace Book
variable {b b' b₀ : Book}

/-- The log tells how records, balances, owners and fees came to be what they are. -/
structure Told (b₀ b : Book) : Prop where
  traces : b₀.Traces b
  redone : b₀.redoAll b.log = .ok (b₀.withAssetsOf b)
  stamped : ∃ heights, b.Stamped heights

/-- The log tells of every move of the contract and its users. -/
theorem Moved.told {P : Book → Move → Prop} {m : Move} (h : b.Moved P m b') (own : Own b m)
    (hb : b.Coherent) (told : b₀.Told b) : b₀.Told b' := by
  obtain ⟨traces, redone, heights, stamped⟩ := told
  cases h with
  | still => exact ⟨traces, redone, heights, stamped⟩
  | @number place f id =>
      refine ⟨traces, redone, heights, { stamped with next := fun written => ?_ }⟩
      cases id.symm.trans written
  | @post place p b₁ e a ss as source posting honoured covered fits id =>
      obtain ⟨n, stands⟩ := hb.height
      have log := b.log_posted p
      have carried := source.computed.carriedOut id fits covered honoured
      have redo := redo_withAssetsOf b₀ b source.computed.fundsIn
        (source.computed.transferRefusal?_eq_none covered honoured)
      refine ⟨traces.posted source.computed.plan.apart (fits_of_changesRefusal? fits) carried log,
        ?_, _, stamped.posted stands id⟩
      rw [log, redoAll_append, redone]
      exact bind_of_ok rfl (bind_of_ok redo rfl)
  | @advance blocks seconds height height' time stands forward =>
      refine ⟨traces, redone, heights, { stamped with
        next := fun id => stamped.next (own.requireExecId stands forward id)
        reached := ?_ }⟩
      rintro n ⟨⟩ h mem
      exact Int.le_trans (stamped.reached height stands h mem) forward
  | fund | mint | transfer => cases own.1

end Book

theorem Session.IsFresh.told {s : Session} (h : s.IsFresh) : s.book.Told s.book := by
  have log := h.log
  refine ⟨fun slot r hr => ⟨r, hr, ?_⟩, ?_, [], ?_⟩
  · rw [Book.history, log]
    exact .nil r
  · rw [log]
    rfl
  · obtain ⟨n, height⟩ := h.height
    constructor <;> simp [log, h.nextSequence, height]

namespace Session

/-- Alice has her token, and Bob and Carol have their coins, before the contract does anything. -/
def endowed : Session := opening.run (lending.filter fun m => !m.isOwn)

theorem isFresh_endowed : endowed.IsFresh where
  kept := rfl
  config := isFresh_opening.config
  misfit := rfl
  height := ⟨12345, rfl⟩
  borrowers := rfl
  listings := rfl
  offers := rfl
  seen := rfl
  log := rfl
  nextSequence := rfl

end Session

end Pawnbook
