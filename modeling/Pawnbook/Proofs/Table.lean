import Mathlib.Algebra.Ring.Nat
import Pawnbook.Offer.Index

/-! # Tables and the index of offers under writes

`Table.get?_insert` says what a write does to look-ups. The lemmas here say what it does to the
entries: a new key comes last (`put_of_find?_none`), no key comes in twice (`Distinct.insert`),
and a sum over the values changes by the new value less the old one (`sum_insert`).

An index of offers is coherent (`OfferIndex.Coherent`) if its ids are distinct and each of its two
projections lists, for every key, exactly the ids of the offers that belong to the key, in order
of insertion. Insertion and update keep it so. -/

namespace Pawnbook

namespace Table
variable {κ ν : Type} [BEq κ]

theorem put_of_find?_none (k : κ) (v : ν) : ∀ {es : List (κ × ν)}, find? k es = none →
    put k v es = es ++ [(k, v)]
  | [], _ => rfl
  | (k', v') :: es, h => by
      unfold find? at h
      split at h
      · cases h
      · rename_i hk
        rw [put, if_neg hk, put_of_find?_none k v h, List.cons_append]

/-- Replacing a value keeps what the entries show of their keys, if what decides whether an entry
is shown stays the same. -/
theorem map_fst_filter_put (p : ν → Bool) (k : κ) (v : ν) : ∀ {es : List (κ × ν)} {v₀ : ν},
    find? k es = some v₀ → p v = p v₀ →
    ((put k v es).filter (p ·.2)).map (·.1) = (es.filter (p ·.2)).map (·.1)
  | [], _, h, _ => by cases h
  | (k', v') :: es, v₀, h, hp => by
      unfold find? at h
      split at h
      · rename_i hk
        cases h
        rw [put, if_pos hk, List.filter_cons, List.filter_cons]
        simp only [hp]
        split <;> rfl
      · rename_i hk
        have ih := map_fst_filter_put p k v h hp
        rw [put, if_neg hk, List.filter_cons, List.filter_cons]
        split
        · rw [List.map_cons, List.map_cons, ih]
        · exact ih

/-- Replacing a value keeps whatever is the same of the entry with the new value as with the old
one. -/
theorem map_put {γ : Type} (f : κ × ν → γ) (k : κ) (v : ν) : ∀ {es : List (κ × ν)} {v₀ : ν},
    find? k es = some v₀ → (∀ k', f (k', v) = f (k', v₀)) → (put k v es).map f = es.map f
  | [], _, h, _ => by cases h
  | (k', v') :: es, v₀, h, same => by
      unfold find? at h
      split at h
      · rename_i hk
        cases h
        rw [put, if_pos hk, List.map_cons, List.map_cons, same]
      · rename_i hk
        rw [put, if_neg hk, List.map_cons, List.map_cons, map_put f k v h same]

theorem keys_insert_of_get? {t : Table κ ν} {k : κ} {v v₀ : ν} (h : t.get? k = some v₀) :
    (t.insert k v).keys = t.keys := map_put Prod.fst k v h fun _ => rfl

theorem keys_insert_of_none {t : Table κ ν} {k : κ} {v : ν} (h : t.get? k = none) :
    (t.insert k v).keys = t.keys ++ [k] := by
  rw [keys, insert, put_of_find?_none k v h, List.map_append]
  rfl

/-- No write takes a key away or changes the order of those that are there. -/
theorem keys_prefix_insert (t : Table κ ν) (k : κ) (v : ν) : t.keys <+: (t.insert k v).keys := by
  cases h : t.get? k with
  | none =>
      rw [keys_insert_of_none h]
      exact List.prefix_append ..
  | some v₀ => exact ⟨[], by rw [keys_insert_of_get? h, List.append_nil]⟩

theorem sum_put (f : ν → Nat) (k : κ) (v : ν) : ∀ es : List (κ × ν),
    ((put k v es).map (f ·.2)).sum + ((find? k es).map f).getD 0 = (es.map (f ·.2)).sum + f v
  | [] => by simp [put, find?]
  | (k', v') :: es => by
      have ih := sum_put f k v es
      by_cases hk : (k' == k) = true
      · simp only [put, find?, if_pos hk, List.map_cons, List.sum_cons, Option.map_some,
          Option.getD_some]
        omega
      · simp only [put, find?, if_neg hk, List.map_cons, List.sum_cons]
        omega

theorem sum_insert (f : ν → Nat) (t : Table κ ν) (k : κ) (v : ν) :
    ((t.insert k v).values.map f).sum + ((t.get? k).map f).getD 0 =
      (t.values.map f).sum + f v := by
  have h := sum_put f k v t.entries
  simpa only [insert, values, get?, List.map_map, Function.comp_def] using h

theorem mem_of_find? {k : κ} {v : ν} : ∀ {es : List (κ × ν)}, find? k es = some v →
    ∃ k', (k', v) ∈ es ∧ (k' == k) = true
  | [], h => by cases h
  | (k', v') :: es, h => by
      unfold find? at h
      split at h
      · rename_i hk
        cases h
        exact ⟨k', List.mem_cons_self, hk⟩
      · obtain ⟨k'', hm, hk⟩ := mem_of_find? h
        exact ⟨k'', List.mem_cons_of_mem _ hm, hk⟩

theorem exists_of_mem_keys [ReflBEq κ] {t : Table κ ν} {k : κ} (h : k ∈ t.keys) :
    ∃ v, t.get? k = some v := by
  have found : ∀ {es : List (κ × ν)}, k ∈ es.map (·.1) → ∃ v, find? k es = some v := by
    intro es h
    induction es with
    | nil => cases h
    | cons e es ih =>
        rw [find?]
        split
        · exact ⟨e.2, rfl⟩
        · rename_i other
          rcases List.mem_cons.1 h with rfl | h
          · exact absurd BEq.rfl other
          · exact ih h
  exact found h

theorem mem_values_of_get? {t : Table κ ν} {k : κ} {v : ν} (h : t.get? k = some v) :
    v ∈ t.values := by
  obtain ⟨k', hm, -⟩ := mem_of_find? h
  exact List.mem_map_of_mem hm

theorem mem_values_put {k : κ} {v w : ν} : ∀ {es : List (κ × ν)},
    w ∈ (put k v es).map (·.2) → w = v ∨ w ∈ es.map (·.2)
  | [], h => .inl (List.mem_singleton.1 h)
  | (k', v') :: es, h => by
      unfold put at h
      split at h
      · exact (List.mem_cons.1 h).imp_right (List.mem_cons_of_mem _)
      · rcases List.mem_cons.1 h with rfl | h
        · exact .inr List.mem_cons_self
        · exact (mem_values_put h).imp_right (List.mem_cons_of_mem _)

theorem mem_values_insert {t : Table κ ν} {k : κ} {v w : ν} (h : w ∈ (t.insert k v).values) :
    w = v ∨ w ∈ t.values := mem_values_put h

theorem put_put [ReflBEq κ] (k : κ) (v w : ν) : ∀ es : List (κ × ν),
    put k w (put k v es) = put k w es
  | [] => by simp [put]
  | (k', v') :: es => by
      by_cases hk : (k' == k) = true
      · simp [put, hk]
      · simp [put, hk, put_put k v w es]

theorem insert_insert [ReflBEq κ] (t : Table κ ν) (k : κ) (v w : ν) :
    (t.insert k v).insert k w = t.insert k w := congrArg Table.mk (put_put k v w t.entries)

/-! ### Distinct keys -/

/-- No two entries have the same key. -/
def Distinct (t : Table κ ν) : Prop := t.entries.Pairwise fun e f => (e.1 == f.1) = false

theorem distinct_empty : (empty : Table κ ν).Distinct := List.Pairwise.nil

theorem mem_put {k : κ} {v : ν} {e : κ × ν} : ∀ {es : List (κ × ν)}, e ∈ put k v es →
    e.1 = k ∨ ∃ f ∈ es, f.1 = e.1
  | [], h => by
      rw [put, List.mem_singleton] at h
      exact .inl (by rw [h])
  | (k', v') :: es, h => by
      unfold put at h
      split at h
      · rcases List.mem_cons.1 h with rfl | h
        · exact .inr ⟨(k', v'), List.mem_cons_self, rfl⟩
        · exact .inr ⟨e, List.mem_cons_of_mem _ h, rfl⟩
      · rcases List.mem_cons.1 h with rfl | h
        · exact .inr ⟨(k', v'), List.mem_cons_self, rfl⟩
        · rcases mem_put h with hk | ⟨f, hf, hk⟩
          · exact .inl hk
          · exact .inr ⟨f, List.mem_cons_of_mem _ hf, hk⟩

theorem pairwise_put (k : κ) (v : ν) : ∀ {es : List (κ × ν)},
    (es.Pairwise fun e f => (e.1 == f.1) = false) →
    (put k v es).Pairwise fun e f => (e.1 == f.1) = false
  | [], _ => List.pairwise_singleton _ _
  | (k', v') :: es, h => by
      obtain ⟨hk, hes⟩ := List.pairwise_cons.1 h
      unfold put
      split
      · exact List.pairwise_cons.2 ⟨hk, hes⟩
      · rename_i hne
        refine List.pairwise_cons.2 ⟨?_, pairwise_put k v hes⟩
        intro e he
        rcases mem_put he with hek | ⟨f, hf, hfe⟩
        · rw [hek]
          exact Bool.eq_false_iff.2 hne
        · rw [← hfe]
          exact hk f hf

theorem Distinct.insert {t : Table κ ν} (h : t.Distinct) (k : κ) (v : ν) :
    (t.insert k v).Distinct := pairwise_put k v h

theorem find?_of_mem [EquivBEq κ] {k : κ} {v : ν} : ∀ {es : List (κ × ν)},
    (es.Pairwise fun e f => (e.1 == f.1) = false) → (k, v) ∈ es → find? k es = some v
  | [], _, h => by cases h
  | (k', v') :: es, hd, h => by
      obtain ⟨hk, hes⟩ := List.pairwise_cons.1 hd
      rcases List.mem_cons.1 h with he | h
      · cases he
        rw [find?, if_pos BEq.rfl]
      · rw [find?, if_neg (by rw [hk _ h]; exact Bool.false_ne_true)]
        exact find?_of_mem hes h

theorem Distinct.get?_of_mem [EquivBEq κ] {t : Table κ ν} (h : t.Distinct) {k : κ} {v : ν}
    (hm : (k, v) ∈ t.entries) : t.get? k = some v := find?_of_mem h hm

/-- Under distinct keys, the keys of the entries that are shown are those whose values are. -/
theorem Distinct.map_fst_filter [EquivBEq κ] {t : Table κ ν} (h : t.Distinct) (p : ν → Bool) :
    (t.entries.filter (p ·.2)).map (·.1) = t.keys.filter fun k => (t.get? k).any p := by
  rw [keys, List.filter_map]
  refine congrArg (List.map Prod.fst) (List.filter_congr ?_)
  rintro ⟨k, v⟩ mem
  rw [Function.comp_apply, h.get?_of_mem mem, Option.any_some]

end Table

/-! ### The index of offers -/

namespace OfferIndex

/-- A projection lists, for every key, the ids of the offers that belong to the key. -/
def Projects (t : Table Key (List Key)) (offers : Table Key Offer) (f : Offer → Key) : Prop :=
  ∀ k, (t.get? k).getD [] = (offers.entries.filter fun e => f e.2 == k).map (·.1)

theorem Projects.insert {t : Table Key (List Key)} {offers : Table Key Offer} {f : Offer → Key}
    (h : Projects t offers f) {id : Key} (o : Offer) (hn : offers.get? id = none) :
    Projects (t.insert (f o) ((t.get? (f o)).getD [] ++ [id])) (offers.insert id o) f := by
  intro k
  have he : (offers.insert id o).entries = offers.entries ++ [(id, o)] :=
    Table.put_of_find?_none id o hn
  rw [Table.get?_insert, he, List.filter_append, List.map_append, ← h k]
  by_cases hk : (f o == k) = true
  · rw [if_pos hk, Option.getD_some, Table.get?_congr t hk]
    simp [hk]
  · simp [hk]

theorem Projects.update {t : Table Key (List Key)} {offers : Table Key Offer} {f : Offer → Key}
    (h : Projects t offers f) {id : Key} {o o₀ : Offer} (ho : offers.get? id = some o₀)
    (hf : (f o₀ == f o) = true) : Projects t (offers.insert id o) f := by
  intro k
  rw [h k]
  exact (Table.map_fst_filter_put (fun p => f p == k) id o ho (BEq.congr_left hf).symm).symm

/-- Distinct ids, and projections that list what they should. -/
structure Coherent (x : OfferIndex) : Prop where
  distinct : x.offers.Distinct
  lenders : Projects x.lenders x.offers (·.lender)
  listings : Projects x.listings x.offers (·.listing.toKey)

def add (x : OfferIndex) (id : Key) (o : Offer) : OfferIndex where
  offers := x.offers.insert id o
  lenders := x.lenders.insert o.lender (x.byLender o.lender ++ [id])
  listings := x.listings.insert o.listing (x.byListing o.listing ++ [id])

/-- The index with another offer under an id that it has. -/
def replace (x : OfferIndex) (id : Key) (o : Offer) : OfferIndex :=
  { x with offers := x.offers.insert id o }

/-- An offer that is replaced at once might as well have been entered as it is. -/
theorem replace_add (x : OfferIndex) (id : Key) {o o' : Offer} (lender : o'.lender = o.lender)
    (listing : o'.listing = o.listing) : (x.add id o).replace id o' = x.add id o' := by
  unfold add replace
  rw [Table.insert_insert, lender, listing]

theorem coherent_empty : (empty : OfferIndex).Coherent :=
  ⟨Table.distinct_empty, fun _ => rfl, fun _ => rfl⟩

variable {x : OfferIndex} {id : Key} {o : Offer}

theorem insert_eq_add (h : x.get? id = none) : x.insert id o = .ok (x.add id o) := by
  unfold insert
  have hc : x.offers.contains id = false := by
    rw [Table.contains, show x.offers.get? id = none from h, Option.isSome_none]
  rw [hc]
  rfl

theorem update_eq_replace {o₀ : Offer} (h : x.get? id = some o₀)
    (hl : (o₀.lender == o.lender) = true) (hk : (o₀.listing == o.listing) = true) :
    x.update id o = .ok (x.replace id o) := by
  unfold update
  rw [h]
  simp only [hl, hk, Bool.and_self, ↓reduceIte]
  rfl

theorem Coherent.add (hx : x.Coherent) (h : x.get? id = none) : (x.add id o).Coherent where
  distinct := hx.distinct.insert id o
  lenders := hx.lenders.insert o h
  listings := hx.listings.insert o h

theorem Coherent.replace {o₀ : Offer} (hx : x.Coherent) (h : x.get? id = some o₀)
    (hl : (o₀.lender == o.lender) = true) (hk : (o₀.listing == o.listing) = true) :
    (x.replace id o).Coherent where
  distinct := hx.distinct.insert id o
  lenders := hx.lenders.update h hl
  listings := hx.listings.update h hk

theorem get?_add (id' : Key) :
    (x.add id o).get? id' = if id == id' then some o else x.get? id' :=
  Table.get?_insert x.offers id id' o

theorem get?_replace (id' : Key) :
    (x.replace id o).get? id' = if id == id' then some o else x.get? id' :=
  Table.get?_insert x.offers id id' o

theorem Coherent.mem_byListing (hx : x.Coherent) {key : ListingKey} {id : Key} :
    id ∈ x.byListing key → ∃ o, x.get? id = some o ∧ (o.listing == key) = true := by
  intro h
  have hl : x.byListing key = _ := hx.listings key.toKey
  rw [hl, List.mem_map] at h
  obtain ⟨⟨id', o⟩, hm, rfl⟩ := h
  rw [List.mem_filter] at hm
  exact ⟨o, hx.distinct.get?_of_mem hm.1, hm.2⟩

/-- An offer's id is listed under its listing, in the form in which it came in. -/
theorem Coherent.exists_mem_byListing (hx : x.Coherent) {key : ListingKey} {id : Key} {o : Offer}
    (h : x.get? id = some o) (hk : (o.listing == key) = true) :
    ∃ id' ∈ x.byListing key, (id' == id) = true := by
  obtain ⟨id', hm, hid⟩ := Table.mem_of_find? h
  refine ⟨id', ?_, hid⟩
  have hl : x.byListing key = _ := hx.listings key.toKey
  rw [hl, List.mem_map]
  exact ⟨(id', o), List.mem_filter.2 ⟨hm, hk⟩, rfl⟩

theorem Coherent.pairwise_byListing (hx : x.Coherent) (key : Key) :
    (x.byListing key).Pairwise fun i j => (i == j) = false := by
  have hl : x.byListing key = _ := hx.listings key
  rw [hl, List.pairwise_map]
  exact hx.distinct.filter _

end OfferIndex
end Pawnbook
