import Mathlib.Data.List.Perm.Basic
import Mathlib.Data.String.Basic
import Pawnbook.Proofs.Legible

/-! # How a map is written

The canonical text of a map lists the texts of its entries between commas, sorted by the labels of
their keys. Sorting is stable: an entry that is made first is written before all others of its
label (`Value.sortByLabel_cons`). If the texts of entries of one label may be exchanged, the sorted
entries are written alike in whatever order they were made (`Value.join_of_perm`). -/

namespace Pawnbook

/-! ### Texts between commas -/

/-- Side by side with a comma between them, the texts are the same in either order. -/
def Exchange (s t : String) : Prop := s ++ "," ++ t = t ++ "," ++ s

section commas
variable {s t : String} {pre post : List String}

theorem join_cons (s : String) {ts : List String} (h : ts ≠ []) :
    Text.join "," (s :: ts) = s ++ "," ++ Text.join "," ts := String.intercalate_cons_of_ne_nil h

theorem join_pair (s t : String) (post : List String) : ∀ pre : List String,
    Text.join "," (pre ++ s :: t :: post) = Text.join "," (pre ++ (s ++ "," ++ t) :: post)
  | [] => by
      rw [List.nil_append, List.nil_append, join_cons s (List.cons_ne_nil t post)]
      cases post with
      | nil => rw [Text.join, Text.join, String.intercalate_singleton, String.intercalate_singleton]
      | cons u us =>
          rw [join_cons t (List.cons_ne_nil u us), join_cons _ (List.cons_ne_nil u us)]
          simp only [String.append_assoc]
  | p :: pre => by
      rw [List.cons_append, List.cons_append, join_cons p (by simp), join_cons p (by simp),
        join_pair s t post pre]

theorem join_front (post : List String) : ∀ {pre : List String}, (∀ t ∈ pre, Exchange t s) →
    Text.join "," (pre ++ s :: post) = Text.join "," (s :: (pre ++ post))
  | [], _ => rfl
  | t :: pre, h => by
      rw [List.forall_mem_cons] at h
      have swap := join_pair t s (pre ++ post) []
      rw [h.1, ← join_pair s t (pre ++ post) []] at swap
      rw [List.cons_append, join_cons t (by simp), join_front post h.2, ← join_cons t (by simp)]
      exact swap

/-- Equal texts with equal parts before and behind one part have the same part there. -/
theorem join_cancel : ∀ {pre : List String},
    Text.join "," (pre ++ s :: post) = Text.join "," (pre ++ t :: post) → s = t
  | [], h => by
      rw [List.nil_append, List.nil_append] at h
      cases post with
      | nil => rwa [Text.join, Text.join, String.intercalate_singleton,
          String.intercalate_singleton] at h
      | cons u us =>
          rw [join_cons s (List.cons_ne_nil u us), join_cons t (List.cons_ne_nil u us),
            String.append_left_inj, String.append_left_inj] at h
          exact h
  | p :: pre, h => by
      rw [List.cons_append, List.cons_append, join_cons p (by simp), join_cons p (by simp),
        String.append_right_inj] at h
      exact join_cancel h

theorem exchange_of_join
    (h : Text.join "," (pre ++ s :: t :: post) = Text.join "," (pre ++ t :: s :: post)) :
    Exchange s t := by
  rw [join_pair, join_pair] at h
  exact join_cancel h

end commas

namespace Value

/-! ### Sorting by labels -/

section sorting
variable {α : Type} {es fs : List (String × α)} {a b : String × α}

/-- The label of the entry is below another one. -/
def isUnder (label : String) (e : String × α) : Bool := decide (e.1 < label)

theorem labels_trans (a b c : String × α) (hab : (!decide (b.1 < a.1)) = true)
    (hbc : (!decide (c.1 < b.1)) = true) : (!decide (c.1 < a.1)) = true := by
  rw [Bool.not_eq_true', decide_eq_false_iff_not, not_lt] at hab hbc ⊢
  exact hab.trans hbc

theorem labels_total (a b : String × α) :
    (!decide (b.1 < a.1) || !decide (a.1 < b.1)) = true := by
  rw [Bool.or_eq_true, Bool.not_eq_true', Bool.not_eq_true', decide_eq_false_iff_not,
    decide_eq_false_iff_not, not_lt, not_lt]
  exact le_total a.1 b.1

theorem sortByLabel_perm (es : List (String × α)) : (sortByLabel es).Perm es :=
  List.mergeSort_perm es _

theorem ascending_sortByLabel (es : List (String × α)) :
    (sortByLabel es).Pairwise fun a b => a.1 ≤ b.1 := by
  refine (List.pairwise_mergeSort labels_trans labels_total es).imp fun {a b} h => ?_
  rwa [Bool.not_eq_true', decide_eq_false_iff_not, not_lt] at h

/-- An entry that is made first is written before all others but those of labels below its own. -/
theorem sortByLabel_cons (a : String × α) (es : List (String × α)) :
    sortByLabel (a :: es) = (sortByLabel es).takeWhile (isUnder a.1) ++
      a :: (sortByLabel es).dropWhile (isUnder a.1) := by
  obtain ⟨pre, post, first, others, below⟩ := List.mergeSort_cons labels_trans labels_total a es
  have first : sortByLabel (a :: es) = pre ++ a :: post := first
  have others : sortByLabel es = pre ++ post := others
  have lower : ∀ e ∈ pre, isUnder a.1 e = true := fun e he => by
    have h := below e he
    rwa [Bool.not_not] at h
  have above : ∀ e ∈ post, ¬ isUnder a.1 e = true := by
    have sorted := ascending_sortByLabel (a :: es)
    rw [first, List.pairwise_append, List.pairwise_cons] at sorted
    intro e he
    rw [isUnder, decide_eq_true_iff, not_lt]
    exact sorted.2.1.1 e he
  rw [first, others, List.takeWhile_append_of_pos lower, List.dropWhile_append_of_pos lower]
  cases post with
  | nil => rw [List.takeWhile_nil, List.dropWhile_nil, List.append_nil]
  | cons e post =>
      have head := above e List.mem_cons_self
      rw [List.takeWhile_cons_of_neg head, List.dropWhile_cons_of_neg head, List.append_nil]

/-- Two entries of one label that are made first are written side by side, in their order. -/
theorem sortByLabel_cons_cons (same : a.1 = b.1) (es : List (String × α)) :
    sortByLabel (a :: b :: es) = (sortByLabel es).takeWhile (isUnder a.1) ++
      a :: b :: (sortByLabel es).dropWhile (isUnder a.1) := by
  have lower : ∀ e ∈ (sortByLabel es).takeWhile (isUnder a.1), isUnder a.1 e = true :=
    List.all_eq_true.1 (List.all_takeWhile)
  have head : ¬ isUnder a.1 b = true := by
    rw [same, isUnder, decide_eq_true_iff]
    exact lt_irrefl b.1
  rw [sortByLabel_cons a, sortByLabel_cons b, ← same, List.takeWhile_append_of_pos lower,
    List.dropWhile_append_of_pos lower, List.takeWhile_cons_of_neg head,
    List.dropWhile_cons_of_neg head, List.append_nil]

end sorting

/-- Sorted entries that are the same but for their order are written alike, if entries of one label
may be exchanged. -/
theorem join_of_perm : ∀ {es fs : List (String × String)}, es.Perm fs →
    (es.Pairwise fun a b => a.1 ≤ b.1) → (fs.Pairwise fun a b => a.1 ≤ b.1) →
    (es.Pairwise fun a b => a.1 = b.1 → Exchange a.2 b.2) →
    Text.join "," (es.map (·.2)) = Text.join "," (fs.map (·.2))
  | [], fs, perm, _, _, _ => by rw [List.nil_perm.1 perm]
  | a :: es, fs, perm, ascending, ascending', exchange => by
      rw [List.pairwise_cons] at ascending exchange
      obtain ⟨pre, post, rfl⟩ := List.append_of_mem (perm.mem_iff.1 List.mem_cons_self)
      have rest : es.Perm (pre ++ post) := (perm.trans List.perm_middle).cons_inv
      -- What stands before the least entry is of its label.
      have passed : ∀ t ∈ pre.map (·.2), Exchange t a.2 := by
        intro t ht
        obtain ⟨e, he, rfl⟩ := List.mem_map.1 ht
        have low : e.1 ≤ a.1 :=
          (List.pairwise_append.1 ascending').2.2 e he a List.mem_cons_self
        have mem : e ∈ es := rest.mem_iff.2 (List.mem_append_left _ he)
        exact (exchange.1 e mem (le_antisymm (ascending.1 e mem) low)).symm
      have others := join_of_perm rest ascending.2
        (ascending'.sublist ((List.sublist_cons_self a post).append_left pre)) exchange.2
      rw [List.map_cons, List.map_append, List.map_cons, join_front _ passed, ← List.map_append]
      cases es with
      | nil => rw [List.nil_perm.1 rest]
      | cons e es =>
          have filled : pre ++ post ≠ [] := fun empty => by
            rw [empty] at rest
            exact absurd (List.perm_nil.1 rest) (List.cons_ne_nil e es)
          rw [join_cons _ (by simp), join_cons _ (by simpa using filled), others]

/-! ### Canonical texts of maps -/

/-- The label and the canonical text of an entry. -/
def canonicalEntry (e : Value × Value) : String × Except Decimal.Failure String :=
  (e.1.label, do return (← e.1.canonical) ++ ":" ++ (← e.2.canonical))

theorem canonicalEntries_eq_map : ∀ es : List (Value × Value),
    canonicalEntries es = es.map canonicalEntry
  | [] => rfl
  | (k, x) :: es => by
      rw [canonicalEntries, canonicalEntries_eq_map es]
      rfl

/-- A label with the text that goes with it, if there is one. -/
def labelled (e : String × Except Decimal.Failure String) : String × String :=
  (e.1, e.2.toOption.getD "")

/-- The canonical text of an entry, if it has one. -/
def entryText (e : Value × Value) : String := (labelled (canonicalEntry e)).2

def parts (es : List (String × Except Decimal.Failure String)) : List String :=
  (sortByLabel (es.map labelled)).map (·.2)

theorem canonicalMap_of_ok {es : List (String × Except Decimal.Failure String)}
    (h : ∀ e ∈ es, ∃ s, e.2 = .ok s) :
    canonicalMap es = .ok ("\x7b" ++ Text.join "," (parts es) ++ "\x7d") := by
  have texts : ∀ e ∈ sortByLabel es, e.2 = .ok (labelled e).2 := by
    intro e he
    obtain ⟨s, hs⟩ := h e ((sortByLabel_perm es).mem_iff.1 he)
    rw [labelled, hs]
    rfl
  have sorted : (sortByLabel es).map labelled = sortByLabel (es.map labelled) :=
    List.map_mergeSort fun _ _ _ _ => rfl
  have all : ∀ es : List (String × Except Decimal.Failure String),
      (∀ e ∈ es, e.2 = .ok (labelled e).2) →
      es.mapM (fun e => e.2) = .ok ((es.map labelled).map (·.2)) := by
    intro es
    induction es with
    | nil => exact fun _ => rfl
    | cons e es ih =>
        intro texts
        rw [List.forall_mem_cons] at texts
        rw [List.mapM_cons, texts.1, ih texts.2]
        rfl
  rw [canonicalMap, all _ texts, sorted]
  rfl

theorem canonicalEntries_ok {es : List (Value × Value)}
    (h : ∀ e ∈ es, e.1.Legible ∧ e.2.Legible) : ∀ e ∈ canonicalEntries es, ∃ s, e.2 = .ok s := by
  intro e he
  rw [canonicalEntries_eq_map] at he
  obtain ⟨f, hf, rfl⟩ := List.mem_map.1 he
  obtain ⟨⟨s, hs⟩, t, ht⟩ := h f hf
  exact ⟨s ++ ":" ++ t, by rw [canonicalEntry, hs, ht]; rfl⟩

theorem canonical_map {es : List (Value × Value)} (h : ∀ e ∈ es, e.1.isShort = true) :
    (map es).canonical = canonicalMap (canonicalEntries es) :=
  bind_of_ok (requireShort_ok_iff.2 (List.forall_mem_map.2 h)) rfl

theorem legible_map {es : List (Value × Value)} :
    (map es).Legible ↔ ∀ e ∈ es, e.1.Legible ∧ e.2.Legible :=
  ⟨Legible.entries, fun h =>
    ⟨_, (canonical_map fun e he => (h e he).1.isShort).trans
      (canonicalMap_of_ok (canonicalEntries_ok h))⟩⟩

theorem isShort_of_canonicalEntry {e : Value × Value} {t : String}
    (h : (canonicalEntry e).2 = .ok t) : e.1.isShort = true := by
  obtain ⟨key, hk, -⟩ := bind_ok h
  exact Legible.isShort ⟨key, hk⟩

/-- Entries of one label that are made first have one place among the others, and stand there in
their order. -/
theorem parts_cons (label : String) (es : List (Value × Value)) : ∃ pre post,
    (∀ e : Value × Value, e.1.label = label →
      parts (canonicalEntries (e :: es)) = pre ++ entryText e :: post) ∧
    ∀ e f : Value × Value, e.1.label = label → f.1.label = label →
      parts (canonicalEntries (e :: f :: es)) = pre ++ entryText e :: entryText f :: post := by
  let others := sortByLabel ((es.map canonicalEntry).map labelled)
  refine ⟨(others.takeWhile (isUnder label)).map (·.2),
    (others.dropWhile (isUnder label)).map (·.2), ?_, ?_⟩
  · rintro e rfl
    rw [parts, canonicalEntries_eq_map, List.map_cons, List.map_cons, sortByLabel_cons,
      List.map_append]
    rfl
  · rintro e f rfl same
    have same : (labelled (canonicalEntry e)).1 = (labelled (canonicalEntry f)).1 := same.symm
    rw [parts, canonicalEntries_eq_map, List.map_cons, List.map_cons, List.map_cons, List.map_cons,
      sortByLabel_cons_cons same, List.map_append]
    rfl

theorem canonical_pair {k l x y : Value} {s t : String} (labels : k.label = l.label)
    (hs : (canonicalEntry (k, x)).2 = .ok s) (ht : (canonicalEntry (l, y)).2 = .ok t) :
    (map [(k, x), (l, y)]).canonical = .ok ("\x7b" ++ (s ++ "," ++ t) ++ "\x7d") := by
  have order : sortByLabel [canonicalEntry (k, x), canonicalEntry (l, y)] =
      [canonicalEntry (k, x), canonicalEntry (l, y)] := by
    rw [sortByLabel_cons_cons labels, sortByLabel, List.mergeSort_nil]
    rfl
  have texts : [canonicalEntry (k, x), canonicalEntry (l, y)].mapM (fun e => e.2) =
      .ok [s, t] := by
    rw [List.mapM_cons, List.mapM_cons, hs, ht]
    rfl
  have keys : ∀ e ∈ [(k, x), (l, y)], e.1.isShort = true := by
    rw [List.forall_mem_cons, List.forall_mem_singleton]
    exact ⟨isShort_of_canonicalEntry hs, isShort_of_canonicalEntry ht⟩
  rw [canonical_map keys, canonicalEntries_eq_map, List.map_cons, List.map_singleton, canonicalMap,
    order, texts]
  rfl

end Value
end Pawnbook
