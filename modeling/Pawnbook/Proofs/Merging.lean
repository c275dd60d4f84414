import Mathlib.Data.List.Induction
import Pawnbook.Proofs.Atomicity
import Pawnbook.Proofs.AuditTrail

/-! # Merged changes mean what the changes mean

`Change.merge` makes one change of all changes of a slot: from the first old record to the last new
one, in the order in which the slots were first touched (`Change.merge_eq`). Whatever only looks at
the last of several changes of a slot cannot tell merged changes from those they were made of
(`Change.Collapses.foldl_merge`). Writing is of this kind, and so is merging itself. A store
accepts a change whose old record it holds; changes that follow each other are accepted one by one
just if their merged form is accepted at once (`Store.replay_of_chained`). -/

namespace Pawnbook

theorem eraseDupsBy_concat {α : Type} (r : α → α → Bool) (xs : List α) (x : α) :
    (xs ++ [x]).eraseDupsBy r =
      if (xs.eraseDupsBy r).any (r x) then xs.eraseDupsBy r else xs.eraseDupsBy r ++ [x] := by
  have loop : ∀ (xs kept : List α), List.eraseDupsBy.loop r (xs ++ [x]) kept =
      if (List.eraseDupsBy.loop r xs kept).any (r x) then List.eraseDupsBy.loop r xs kept
      else List.eraseDupsBy.loop r xs kept ++ [x] := by
    intro xs
    induction xs with
    | nil =>
        intro kept
        simp only [List.nil_append, List.eraseDupsBy.loop, List.any_reverse]
        cases kept.any (r x) with
        | true => rfl
        | false => exact List.reverse_cons
    | cons y ys ih =>
        intro kept
        cases seen : kept.any (r y) with
        | true =>
            simp only [List.cons_append, List.eraseDupsBy.loop, seen]
            exact ih kept
        | false =>
            simp only [List.cons_append, List.eraseDupsBy.loop, seen]
            exact ih (y :: kept)
  exact loop xs []

namespace Change

variable {cs ms : List Change} {c d m : Change} {s : Slot}

/-! ### First and last changes -/

/-- The changes that are the first of their slots. -/
def openings (cs : List Change) : List Change := cs.eraseDupsBy fun c d => c.slot == d.slot

def lastOf? (cs : List Change) (s : Slot) : Option Change := cs.findRev? fun c => c.slot == s

/-- The change from the old record of a change to the new record of the last one of its slot. -/
def spanning (cs : List Change) (c : Change) : Change :=
  { (lastOf? cs c.slot).getD c with old := c.old }

theorem openings_concat (cs : List Change) (c : Change) : openings (cs ++ [c]) =
    if (openings cs).any fun d => c.slot == d.slot then openings cs else openings cs ++ [c] :=
  eraseDupsBy_concat _ cs c

theorem lastOf?_concat (cs : List Change) (c : Change) (s : Slot) :
    lastOf? (cs ++ [c]) s = if c.slot == s then some c else lastOf? cs s := by
  unfold lastOf?
  rw [List.findRev?_eq_find?_reverse, List.findRev?_eq_find?_reverse, List.reverse_concat,
    List.find?_cons]
  split <;> rename_i h <;> rw [h] <;> rfl

theorem lastOf?_eq_none (h : lastOf? cs s = none) : ∀ c ∈ cs, (c.slot == s) = false := by
  rw [lastOf?, List.findRev?_eq_find?_reverse, List.find?_eq_none] at h
  exact fun c hc => Bool.eq_false_iff.2 (h c (List.mem_reverse.2 hc))

theorem mem_of_lastOf? (h : lastOf? cs s = some c) : c ∈ cs := by
  rw [lastOf?, List.findRev?_eq_find?_reverse] at h
  exact List.mem_reverse.1 (List.mem_of_find?_eq_some h)

theorem slot_of_lastOf? (h : lastOf? cs s = some c) : (c.slot == s) = true := by
  rw [lastOf?, List.findRev?_eq_find?_reverse] at h
  exact List.find?_some (p := fun c : Change => c.slot == s) h

theorem spanning_slot (cs : List Change) (c : Change) :
    ((spanning cs c).slot == c.slot) = true := by
  show (((lastOf? cs c.slot).getD c).slot == c.slot) = true
  cases last : lastOf? cs c.slot with
  | none => exact BEq.rfl
  | some d => exact slot_of_lastOf? last

theorem spanning_concat (cs : List Change) (c d : Change) : spanning (cs ++ [c]) d =
    if c.slot == d.slot then { c with old := d.old } else spanning cs d := by
  unfold spanning
  rw [lastOf?_concat]
  split <;> rfl

theorem openings_sublist (cs : List Change) : (openings cs).Sublist cs := by
  induction cs using List.reverseRecOn with
  | nil => exact .slnil
  | append_singleton cs c ih =>
      rw [openings_concat]
      split
      · exact ih.trans (List.sublist_append_left cs [c])
      · exact ih.append (List.Sublist.refl [c])

theorem openings_apart (cs : List Change) :
    (openings cs).Pairwise fun c d => (c.slot == d.slot) = false := by
  induction cs using List.reverseRecOn with
  | nil => exact .nil
  | append_singleton cs c ih =>
      rw [openings_concat]
      split
      · exact ih
      · rename_i new
        rw [List.any_eq_true] at new
        refine List.pairwise_append.2 ⟨ih, List.pairwise_singleton _ _, fun d hd e he => ?_⟩
        cases List.mem_singleton.1 he
        exact Bool.eq_false_iff.2 fun same => new ⟨d, hd, BEq.symm same⟩

theorem spanning_apart (cs : List Change) : ((openings cs).map (spanning cs)).Pairwise
    fun c d => (c.slot == d.slot) = false := by
  refine List.pairwise_map.2 ((openings_apart cs).imp fun {d e} other => ?_)
  rw [BEq.congr_left (spanning_slot cs d), BEq.congr_right (spanning_slot cs e)]
  exact other

theorem exists_opening (cs : List Change) :
    ∀ c ∈ cs, ∃ d ∈ openings cs, (d.slot == c.slot) = true := by
  induction cs using List.reverseRecOn with
  | nil => exact fun c hc => absurd hc List.not_mem_nil
  | append_singleton cs c ih =>
      intro e he
      rw [openings_concat]
      split
      · rename_i seen
        rcases List.mem_append.1 he with he | he
        · exact ih e he
        · cases List.mem_singleton.1 he
          obtain ⟨d, hd, same⟩ := List.any_eq_true.1 seen
          exact ⟨d, hd, BEq.symm same⟩
      · rcases List.mem_append.1 he with he | he
        · obtain ⟨d, hd, same⟩ := ih e he
          exact ⟨d, List.mem_append_left _ hd, same⟩
        · cases List.mem_singleton.1 he
          exact ⟨c, List.mem_append_right _ (List.mem_singleton_self c), BEq.rfl⟩

theorem find?_opening (cs : List Change) :
    ∀ d ∈ openings cs, cs.find? (fun c => c.slot == d.slot) = some d := by
  induction cs using List.reverseRecOn with
  | nil => exact fun d hd => absurd hd List.not_mem_nil
  | append_singleton cs c ih =>
      have earlier : ∀ d ∈ openings cs,
          (cs ++ [c]).find? (fun e => e.slot == d.slot) = some d := by
        intro d hd
        rw [List.find?_append, ih d hd]
        rfl
      rw [openings_concat]
      split
      · exact earlier
      · rename_i new
        intro d hd
        rcases List.mem_append.1 hd with hd | hd
        · exact earlier d hd
        · cases List.mem_singleton.1 hd
          have none : cs.find? (fun e => e.slot == c.slot) = none := by
            refine List.find?_eq_none.2 fun e he same => new ?_
            obtain ⟨d, hd, opening⟩ := exists_opening cs e he
            exact List.any_eq_true.2 ⟨d, hd, BEq.symm (BEq.trans opening same)⟩
          rw [List.find?_append, none, List.find?_singleton, if_pos BEq.rfl]
          rfl

/-! ### What merging makes -/

theorem merge_concat (cs : List Change) (c : Change) :
    merge (cs ++ [c]) = mergeInto c (merge cs) := by
  unfold merge
  rw [List.foldl_concat]

theorem mergeInto_of_new : ∀ {ms : List Change}, (∀ m ∈ ms, (m.slot == c.slot) = false) →
    mergeInto c ms = ms ++ [c]
  | [], _ => rfl
  | m :: ms, new => by
      rw [List.forall_mem_cons] at new
      rw [mergeInto, if_neg (Bool.eq_false_iff.1 new.1), mergeInto_of_new new.2]
      rfl

/-- A change of a slot that was touched continues the change of that slot. -/
theorem mergeInto_of_mem : ∀ {ms : List Change},
    (ms.Pairwise fun c d => (c.slot == d.slot) = false) →
    (∃ m ∈ ms, (m.slot == c.slot) = true) →
    mergeInto c ms = ms.map fun m => if m.slot == c.slot then { c with old := m.old } else m
  | [], _, ⟨m, hm, _⟩ => absurd hm List.not_mem_nil
  | m :: ms, apart, touched => by
      rw [List.pairwise_cons] at apart
      rw [mergeInto, List.map_cons]
      by_cases same : (m.slot == c.slot) = true
      · have others : ∀ d ∈ ms, (if d.slot == c.slot then { c with old := d.old } else d) = d :=
          fun d hd => if_neg (Bool.eq_false_iff.1
            (by rw [← BEq.congr_right same, BEq.comm]; exact apart.1 d hd))
        rw [if_pos same, if_pos same, List.map_congr_left others, List.map_id']
      · obtain ⟨d, hd, touched⟩ := touched
        rcases List.mem_cons.1 hd with rfl | hd
        · exact absurd touched same
        · rw [if_neg same, if_neg same, mergeInto_of_mem apart.2 ⟨d, hd, touched⟩]

/-- Merging makes one change for every opening: from its old record to the last new one of its
slot. -/
theorem merge_eq (cs : List Change) : merge cs = (openings cs).map (spanning cs) := by
  induction cs using List.reverseRecOn with
  | nil => rfl
  | append_singleton cs c ih =>
      have ofSlot : ∀ d, ((spanning cs d).slot == c.slot) = (c.slot == d.slot) := fun d => by
        rw [BEq.congr_left (spanning_slot cs d), BEq.comm]
      rw [merge_concat, ih, openings_concat]
      split
      · rename_i seen
        obtain ⟨d, hd, same⟩ := List.any_eq_true.1 seen
        rw [mergeInto_of_mem (spanning_apart cs)
          ⟨spanning cs d, List.mem_map_of_mem hd, (ofSlot d).trans same⟩, List.map_map]
        refine List.map_congr_left fun e _ => ?_
        show (if (spanning cs e).slot == c.slot then _ else _) = _
        rw [ofSlot, spanning_concat]
        rfl
      · rename_i new
        rw [List.any_eq_true] at new
        have other : ∀ d ∈ openings cs, (c.slot == d.slot) = false := fun d hd =>
          Bool.eq_false_iff.2 fun same => new ⟨d, hd, same⟩
        rw [mergeInto_of_new, List.map_append, List.map_singleton, spanning_concat,
          if_pos BEq.rfl]
        · refine congrArg (· ++ [c]) (List.map_congr_left fun d hd => ?_)
          rw [spanning_concat, if_neg (Bool.eq_false_iff.1 (other d hd))]
        · intro m hm
          obtain ⟨d, hd, rfl⟩ := List.mem_map.1 hm
          exact (ofSlot d).trans (other d hd)

theorem exists_merged (hc : c ∈ cs) : ∃ m ∈ merge cs, (m.slot == c.slot) = true := by
  obtain ⟨d, hd, same⟩ := exists_opening cs c hc
  rw [merge_eq]
  exact ⟨spanning cs d, List.mem_map_of_mem hd, BEq.trans (spanning_slot cs d) same⟩

theorem merge_other (h : lastOf? cs s = none) : ∀ m ∈ merge cs, (m.slot == s) = false := by
  intro m hm
  rw [merge_eq] at hm
  obtain ⟨d, hd, rfl⟩ := List.mem_map.1 hm
  rw [BEq.congr_left (spanning_slot cs d)]
  exact lastOf?_eq_none h d ((openings_sublist cs).subset hd)

theorem merge_apart (cs : List Change) :
    (merge cs).Pairwise fun c d => (c.slot == d.slot) = false := by
  rw [merge_eq]
  exact spanning_apart cs

/-! ### What cannot tell merged changes from the changes -/

/-- What a change does to a state that knows which slots have been touched: of two changes of one
slot only the old record of the first and the new one of the second matter, and a change of a slot
that has been touched may come later than those of other slots. -/
structure Collapses {S : Type} (touched : S → Slot → Prop) (act : S → Change → S) : Prop where
  touch : ∀ {s : S} {m c : Change}, (m.slot == c.slot) = true → touched (act s m) c.slot
  stay : ∀ {s : S} {x : Slot} {d : Change}, touched s x → touched (act s d) x
  again : ∀ {s : S} {m c : Change}, (m.slot == c.slot) = true →
    act (act s m) c = act s { c with old := m.old }
  swap : ∀ {s : S} {c d : Change}, touched s c.slot → (c.slot == d.slot) = false →
    act (act s c) d = act (act s d) c

namespace Collapses
variable {S : Type} {touched : S → Slot → Prop} {act : S → Change → S}

/-- A change of a slot that has been touched may come after all changes of other slots. -/
theorem foldl_past (h : Collapses touched act) : ∀ {ds : List Change} {s : S},
    touched s c.slot → (∀ d ∈ ds, (c.slot == d.slot) = false) →
    ds.foldl act (act s c) = act (ds.foldl act s) c
  | [], _, _, _ => rfl
  | d :: ds, s, seen, others => by
      rw [List.forall_mem_cons] at others
      rw [List.foldl_cons, List.foldl_cons, h.swap seen others.1,
        h.foldl_past (h.stay seen) others.2]

theorem foldl_mergeInto (h : Collapses touched act) : ∀ {ms : List Change} {s : S},
    (ms.Pairwise fun c d => (c.slot == d.slot) = false) →
    (mergeInto c ms).foldl act s = act (ms.foldl act s) c
  | [], _, _ => rfl
  | m :: ms, s, apart => by
      rw [List.pairwise_cons] at apart
      rw [mergeInto]
      by_cases same : (m.slot == c.slot) = true
      · have others : ∀ d ∈ ms, (c.slot == d.slot) = false := fun d hd => by
          rw [← BEq.congr_left same]
          exact apart.1 d hd
        rw [if_pos same, List.foldl_cons, List.foldl_cons, ← h.again same,
          h.foldl_past (h.touch same) others]
      · rw [if_neg same, List.foldl_cons, List.foldl_cons, h.foldl_mergeInto apart.2]

/-- Merged changes do what the changes do. -/
theorem foldl_merge (h : Collapses touched act) (cs : List Change) (s : S) :
    (merge cs).foldl act s = cs.foldl act s := by
  induction cs using List.reverseRecOn with
  | nil => rfl
  | append_singleton cs c ih =>
      rw [merge_concat, h.foldl_mergeInto (merge_apart cs), ih, List.foldl_concat]

end Collapses

/-! ### Merging what was merged -/

theorem mergeInto_mergeInto (same : (m.slot == c.slot) = true) : ∀ ms : List Change,
    mergeInto c (mergeInto m ms) = mergeInto { c with old := m.old } ms
  | [] => if_pos same
  | d :: ms => by
      have ofSlot : (d.slot == m.slot) = (d.slot == c.slot) := BEq.congr_right same
      simp only [mergeInto]
      split
      · rename_i here
        rw [if_pos (ofSlot ▸ here), mergeInto, if_pos same]
      · rename_i elsewhere
        rw [if_neg (ofSlot ▸ elsewhere), mergeInto, if_neg (ofSlot ▸ elsewhere),
          mergeInto_mergeInto same ms]

theorem touched_mergeInto {d : Change} : ∀ {ms : List Change},
    (∃ m ∈ ms, (m.slot == s) = true) → ∃ m ∈ mergeInto d ms, (m.slot == s) = true
  | [], ⟨m, hm, _⟩ => absurd hm List.not_mem_nil
  | e :: ms, ⟨m, hm, same⟩ => by
      rw [mergeInto]
      split
      · rename_i here
        rcases List.mem_cons.1 hm with rfl | hm
        · exact ⟨_, List.mem_cons_self, BEq.trans (BEq.symm here) same⟩
        · exact ⟨m, List.mem_cons_of_mem _ hm, same⟩
      · rcases List.mem_cons.1 hm with rfl | hm
        · exact ⟨m, List.mem_cons_self, same⟩
        · obtain ⟨m, hm, same⟩ := touched_mergeInto ⟨m, hm, same⟩
          exact ⟨m, List.mem_cons_of_mem _ hm, same⟩

theorem exists_mem_mergeInto (c : Change) :
    ∀ ms : List Change, ∃ old, { c with old } ∈ mergeInto c ms
  | [] => ⟨c.old, List.mem_singleton_self c⟩
  | m :: ms => by
      rw [mergeInto]
      split
      · exact ⟨m.old, List.mem_cons_self⟩
      · obtain ⟨old, hm⟩ := exists_mem_mergeInto c ms
        exact ⟨old, List.mem_cons_of_mem _ hm⟩

theorem mergeInto_comm (apart : (c.slot == d.slot) = false) : ∀ {ms : List Change},
    (∃ m ∈ ms, (m.slot == c.slot) = true) →
    mergeInto d (mergeInto c ms) = mergeInto c (mergeInto d ms)
  | [], ⟨m, hm, _⟩ => absurd hm List.not_mem_nil
  | e :: ms, ⟨m, hm, same⟩ => by
      by_cases hc : (e.slot == c.slot) = true
      · have other : (e.slot == d.slot) = false := by rw [BEq.congr_left hc]; exact apart
        simp only [mergeInto, hc, other, apart, if_true, Bool.false_eq_true, if_false]
      · have later : ∃ m ∈ ms, (m.slot == c.slot) = true := by
          rcases List.mem_cons.1 hm with rfl | hm
          · exact absurd same hc
          · exact ⟨m, hm, same⟩
        by_cases hd : (e.slot == d.slot) = true
        · have apart : (d.slot == c.slot) = false := BEq.symm_false apart
          simp only [mergeInto, hc, hd, apart, if_true, Bool.false_eq_true, if_false]
        · simp only [mergeInto, hc, hd, Bool.false_eq_true, if_false, mergeInto_comm apart later]

/-- Merging cannot tell merged changes from the changes. -/
theorem collapses_mergeInto : Collapses (fun (ms : List Change) s => ∃ m ∈ ms, (m.slot == s) = true)
    fun ms c => mergeInto c ms where
  touch {ms m c} same := by
    obtain ⟨old, hm⟩ := exists_mem_mergeInto m ms
    exact ⟨_, hm, same⟩
  stay := touched_mergeInto
  again same := mergeInto_mergeInto same _
  swap seen apart := mergeInto_comm apart seen

theorem merge_append (cs ds : List Change) :
    merge (cs ++ ds) = ds.foldl (fun ms c => mergeInto c ms) (merge cs) := List.foldl_append

theorem merge_merge (cs : List Change) : merge (merge cs) = merge cs :=
  collapses_mergeInto.foldl_merge cs []

theorem merge_append_merge (cs ds : List Change) :
    merge (merge cs ++ merge ds) = merge (cs ++ ds) := by
  rw [merge_append, merge_append, merge_merge, collapses_mergeInto.foldl_merge]

end Change

/-! ### Stores -/

/-- What is recorded in which slot. Slots that count as equal hold the same record. -/
@[ext] structure Store where
  read : Slot → Option Stored
  congr : ∀ {s s' : Slot}, (s == s') = true → read s = read s'

namespace Store
variable {t u : Store} {cs : List Change} {c d : Change}

/-- The store after a change. -/
def write (t : Store) (c : Change) : Store where
  read s := if c.slot == s then c.new else t.read s
  congr same := by rw [BEq.congr_right same, t.congr same]

def writeAll (t : Store) (cs : List Change) : Store := cs.foldl write t

/-- The store holds the old record of a change. -/
def Holds (t : Store) (c : Change) : Prop :=
  Stored.equals? (t.read c.slot) c.old = .ok true

instance (t : Store) (c : Change) : Decidable (t.Holds c) :=
  inferInstanceAs (Decidable (_ = _))

/-- Checks and writes changes one by one. -/
def replay : Store → List Change → Option Store
  | t, [] => some t
  | t, c :: cs => if t.Holds c then replay (t.write c) cs else none

/-- Writing cannot tell merged changes from the changes. -/
theorem collapses_write : Change.Collapses (fun _ _ => True) write where
  touch _ := trivial
  stay _ := trivial
  again {t m c} same := by
    ext1
    funext s
    show (if c.slot == s then c.new else if m.slot == s then m.new else t.read s) =
      if c.slot == s then c.new else t.read s
    rw [BEq.congr_left same]
    split <;> rfl
  swap {t c d} _ apart := by
    ext1
    funext s
    show (if d.slot == s then d.new else if c.slot == s then c.new else t.read s) =
      if c.slot == s then c.new else if d.slot == s then d.new else t.read s
    by_cases hd : (d.slot == s) = true
    · have hc : ¬ (c.slot == s) = true := by
        rw [← BEq.congr_right hd, apart]
        decide
      rw [if_pos hd, if_neg hc, if_pos hd]
    · rw [if_neg hd, if_neg hd]

/-! ### Checking one by one and at once -/

theorem read_writeAll (t : Store) (cs : List Change) (s : Slot) : (t.writeAll cs).read s =
    match Change.lastOf? cs s with
    | some c => c.new
    | none => t.read s := by
  induction cs using List.reverseRecOn with
  | nil => rfl
  | append_singleton cs c ih =>
      rw [writeAll, List.foldl_concat, Change.lastOf?_concat]
      show (if c.slot == s then c.new else (t.writeAll cs).read s) = _
      split
      · rfl
      · exact ih

theorem eq_writeAll_of_replay : ∀ {cs : List Change} {t : Store},
    t.replay cs = some u → u = t.writeAll cs
  | [], _, h => (Option.some.inj h).symm
  | c :: cs, t, h => by
      rw [replay] at h
      split at h
      · have rest := eq_writeAll_of_replay h
        exact rest
      · cases h

theorem replay_concat (c : Change) : ∀ (cs : List Change) (t : Store),
    t.replay (cs ++ [c]) = (t.replay cs).bind fun u => if u.Holds c then some (u.write c) else none
  | [], t => rfl
  | d :: cs, t => by
      rw [List.cons_append, replay, replay]
      split
      · exact replay_concat c cs (t.write d)
      · rfl

theorem holds_congr {m : Change} (same : (m.slot == c.slot) = true) :
    t.Holds { c with old := m.old } ↔ t.Holds m := by
  unfold Holds
  rw [t.congr same]

/-- A change of a slot that was touched asks nothing more of the store. -/
theorem holds_mergeInto : ∀ {ms : List Change}, (∃ m ∈ ms, (m.slot == c.slot) = true) →
    ((∀ m ∈ Change.mergeInto c ms, t.Holds m) ↔ ∀ m ∈ ms, t.Holds m)
  | [], ⟨m, hm, _⟩ => absurd hm List.not_mem_nil
  | m :: ms, ⟨d, hd, touched⟩ => by
      rw [Change.mergeInto]
      split
      · rename_i same
        rw [List.forall_mem_cons, List.forall_mem_cons, holds_congr same]
      · rename_i other
        rcases List.mem_cons.1 hd with rfl | hd
        · exact absurd touched other
        · rw [List.forall_mem_cons, List.forall_mem_cons, holds_mergeInto ⟨d, hd, touched⟩]

end Store

/-- Each change starts from what the last one of its slot has left. -/
inductive Change.Chained : List Change → Prop
  | nil : Chained []
  | concat {cs : List Change} {c : Change} (before : Chained cs)
      (linked : ∀ p, lastOf? cs c.slot = some p → Stored.equals? p.new c.old = .ok true) :
      Chained (cs ++ [c])

/-- Changes that follow each other can be checked and written one by one just if the store holds
what they start from. -/
theorem Store.replay_of_chained {cs : List Change} (h : Change.Chained cs) (t : Store) :
    (∃ u, t.replay cs = some u) ↔ ∀ m ∈ Change.merge cs, t.Holds m := by
  induction h with
  | nil => exact ⟨fun _ m hm => absurd hm List.not_mem_nil, fun _ => ⟨t, rfl⟩⟩
  | @concat cs c before linked ih =>
      -- The last check reads what the last change of the slot has left, or the store itself.
      have step : (∃ u, t.replay (cs ++ [c]) = some u) ↔
          (∃ u, t.replay cs = some u) ∧ (t.writeAll cs).Holds c := by
        rw [replay_concat]
        cases replayed : t.replay cs with
        | none => simp
        | some u =>
            rw [eq_writeAll_of_replay replayed]
            simp
      rw [step, ih, Change.merge_concat]
      cases last : Change.lastOf? cs c.slot with
      | some p =>
          have left : (t.writeAll cs).Holds c := by
            rw [Holds, read_writeAll, last]
            exact linked p last
          obtain ⟨m, hm, same⟩ := Change.exists_merged (Change.mem_of_lastOf? last)
          rw [holds_mergeInto ⟨m, hm, BEq.trans same (Change.slot_of_lastOf? last)⟩]
          exact and_iff_left left
      | none =>
          have untouched : (t.writeAll cs).Holds c ↔ t.Holds c := by
            rw [Holds, Holds, read_writeAll, last]
          rw [untouched, Change.mergeInto_of_new (Change.merge_other last), List.forall_mem_append,
            List.forall_mem_singleton]

namespace Book
variable {b : Book} {c : Change} {cs : List Change}

def records (b : Book) : Store where
  read s := (b.record? s).toOption.join
  congr {s s'} same := by
    cases stored : b.record? s with
    | ok r => rw [b.record?_congr same stored]
    | error e =>
        cases stored' : b.record? s' with
        | ok r => cases stored.symm.trans (b.record?_congr (BEq.symm same) stored')
        | error e' => rfl

theorem Fits.holds (h : b.Fits c) : b.records.Holds c := by
  obtain ⟨r, stored, same⟩ := h
  show Stored.equals? (b.record? c.slot).toOption.join c.old = _
  rw [stored]
  exact same

theorem Accepts.records_put (h : b.Accepts c) : (b.put c).records = b.records.write c := by
  ext1
  funext s
  show ((b.put c).record? s).toOption.join =
    if c.slot == s then c.new else (b.record? s).toOption.join
  rw [h.record?_put]
  split <;> rfl

theorem records_putAll : ∀ {cs : List Change} {b : Book},
    (cs.Pairwise fun c d => (c.slot == d.slot) = false) → (∀ c ∈ cs, b.Accepts c) →
    (b.putAll cs).records = b.records.writeAll cs
  | [], _, _, _ => rfl
  | c :: cs, b, apart, accepts => by
      rw [List.pairwise_cons] at apart
      rw [List.forall_mem_cons] at accepts
      obtain ⟨first, rest⟩ := accepts
      rw [putAll_cons, records_putAll apart.2 fun d hd => (rest d hd).put first (apart.1 d hd),
        first.records_put]
      rfl

/-- Where a book takes merged changes, the changes could have been checked and written one by one,
and the book would have come to record the same. -/
theorem replay_of_merged (chained : Change.Chained cs)
    (accepts : ∀ m ∈ Change.merge cs, b.Accepts m) (fits : ∀ m ∈ Change.merge cs, b.Fits m) :
    b.records.replay cs = some (b.putAll (Change.merge cs)).records := by
  have held : ∀ m ∈ Change.merge cs, b.records.Holds m := fun m hm => (fits m hm).holds
  obtain ⟨u, replayed⟩ := (Store.replay_of_chained chained b.records).2 held
  have written := Store.collapses_write.foldl_merge cs b.records
  rw [replayed, Store.eq_writeAll_of_replay replayed,
    records_putAll (Change.merge_apart cs) accepts]
  exact congrArg some written.symm

end Book

/-- Merging makes one change of all changes of a slot, in the order in which the slots were first
touched, from the first old record to the last new one. Every store is written alike by the merged
changes and by the changes. Changes that follow each other can be checked and written one by one
just if the store holds all that the merged changes start from. Merging once more changes nothing,
and parts may be merged first. -/
theorem merge_keeps_meaning (cs : List Change) :
    (Change.merge cs = (Change.openings cs).map (Change.spanning cs) ∧
      (Change.openings cs).Sublist cs ∧
      (∀ d ∈ Change.openings cs, cs.find? (fun c => c.slot == d.slot) = some d) ∧
      (Change.merge cs).Pairwise (fun c d => (c.slot == d.slot) = false) ∧
      ∀ c ∈ cs, ∃ m ∈ Change.merge cs, (m.slot == c.slot) = true) ∧
    (∀ t : Store, t.writeAll (Change.merge cs) = t.writeAll cs) ∧
    (Change.Chained cs → ∀ t : Store,
      ((∃ u, t.replay cs = some u) ↔ ∀ m ∈ Change.merge cs, t.Holds m) ∧
        ∀ u, t.replay cs = some u → u = t.writeAll (Change.merge cs)) ∧
    Change.merge (Change.merge cs) = Change.merge cs ∧
    ∀ ds, Change.merge (cs ++ ds) = Change.merge (Change.merge cs ++ Change.merge ds) := by
  have written : ∀ t : Store, t.writeAll (Change.merge cs) = t.writeAll cs :=
    Store.collapses_write.foldl_merge cs
  exact ⟨⟨Change.merge_eq cs, Change.openings_sublist cs, Change.find?_opening cs,
      Change.merge_apart cs, fun _ => Change.exists_merged⟩, written,
    fun chained t => ⟨Store.replay_of_chained chained t, fun u replayed => by
      rw [written]
      exact Store.eq_writeAll_of_replay replayed⟩,
    Change.merge_merge cs, fun ds => (Change.merge_append_merge cs ds).symm⟩

/-- Alice's record is entered and counted up, and Bob's is entered in between. -/
def Session.counting : List Change :=
  [.borrower "alice" none ⟨.int 1⟩, .borrower "bob" none ⟨.int 1⟩,
   .borrower "alice" (some ⟨.int 1⟩) ⟨.int 2⟩]

/-- These changes follow each other and can be carried out on a new book. -/
theorem merge_keeps_meaning_counting :
    Change.Chained Session.counting ∧
    Change.merge Session.counting =
      [.borrower "alice" none ⟨.int 2⟩, .borrower "bob" none ⟨.int 1⟩] ∧
    ∃ u, Session.opening.book.records.replay Session.counting = some u := by
  have first : Change.Chained ([] ++ [.borrower "alice" none ⟨.int 1⟩]) :=
    .concat .nil fun _ h => by cases h
  have second : Change.Chained
      ([.borrower "alice" none ⟨.int 1⟩] ++ [.borrower "bob" none ⟨.int 1⟩]) :=
    .concat first fun _ h => by cases h
  have chained : Change.Chained Session.counting := .concat second fun p h => by
    cases h
    decide +kernel
  obtain ⟨-, -, checked, -, -⟩ := merge_keeps_meaning Session.counting
  exact ⟨chained, rfl, (checked chained Session.opening.book.records).1.2 (by decide +kernel)⟩

end Pawnbook
