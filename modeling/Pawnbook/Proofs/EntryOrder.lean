import Mathlib.Data.List.Nodup
import Pawnbook.Proofs.Labels

/-! # Where the order of entries shows

The canonical text of a map lists its entries by the labels of their keys, and entries of one label
as they came in. Keys of different kinds may share a label, as the number 1 and the text `1` do.
The order in which entries were made is therefore hidden just if the texts of any two entries of one
label may be exchanged (`Value.Exchangeable`), at any depth: `Value.canonical_of_reordered` is the
one direction, `Value.Hidden.exchangeable` the other. Keys with labels of their own are the usual
case (`Value.exchangeable_of_labelsApart`). -/

namespace Pawnbook
namespace Value

/-! ### Values but for the order of entries -/

mutual

/-- The values are the same but for the order of the entries of maps, at any depth. What a record
is shown as makes no difference. -/
def Reordered : Value → Value → Prop
  | tuple xs, tuple ys | list xs, list ys => ReorderedAll xs ys
  | record name fs _, record name' gs _ => name = name' ∧ ReorderedFields fs gs
  | map es, map fs => ∃ gs, ReorderedEntries es gs ∧ gs.Perm fs
  | v, w => v = w
termination_by structural v _ => v

def ReorderedAll : List Value → List Value → Prop
  | [], ys => ys = []
  | x :: xs, ys => ∃ z zs, ys = z :: zs ∧ Reordered x z ∧ ReorderedAll xs zs
termination_by structural xs _ => xs

def ReorderedFields : List (String × Value) → List (String × Value) → Prop
  | [], gs => gs = []
  | (name, x) :: fs, gs =>
    ∃ z hs, gs = (name, z) :: hs ∧ Reordered x z ∧ ReorderedFields fs hs
termination_by structural fs _ => fs

/-- The same of entries in one order, under the same keys. -/
def ReorderedEntries : List (Value × Value) → List (Value × Value) → Prop
  | [], gs => gs = []
  | (k, x) :: es, gs => ∃ z hs, gs = (k, z) :: hs ∧ Reordered x z ∧ ReorderedEntries es hs
termination_by structural es _ => es

end

mutual

/-- The keys of every map in the value have labels of their own. -/
def labelsApart : Value → Bool
  | tuple xs | list xs => labelsApartAll xs
  | record _ fs _ => labelsApartFields fs
  | map es => decide (es.map fun e => e.1.label).Nodup && labelsApartEntries es
  | _ => true

def labelsApartAll : List Value → Bool
  | [] => true
  | x :: xs => labelsApart x && labelsApartAll xs

def labelsApartFields : List (String × Value) → Bool
  | [] => true
  | (_, x) :: fs => labelsApart x && labelsApartFields fs

def labelsApartEntries : List (Value × Value) → Bool
  | [] => true
  | (_, x) :: es => labelsApart x && labelsApartEntries es

end

/-! ### Where the order is hidden -/

/-- The entries have different labels, or texts that may be exchanged. -/
def EntriesExchange (e f : Value × Value) : Prop :=
  e.1.label = f.1.label → Exchange (entryText e) (entryText f)

mutual

/-- In every map in the value, the texts of any two entries of one label may be exchanged. -/
def Exchangeable : Value → Prop
  | tuple xs | list xs => ExchangeableAll xs
  | record _ fs _ => ExchangeableFields fs
  | map es => es.Pairwise EntriesExchange ∧ ExchangeableEntries es
  | _ => True

def ExchangeableAll : List Value → Prop
  | [] => True
  | x :: xs => Exchangeable x ∧ ExchangeableAll xs

def ExchangeableFields : List (String × Value) → Prop
  | [] => True
  | (_, x) :: fs => Exchangeable x ∧ ExchangeableFields fs

def ExchangeableEntries : List (Value × Value) → Prop
  | [] => True
  | (_, x) :: es => Exchangeable x ∧ ExchangeableEntries es

end

mutual

theorem exchangeable_of_labelsApart : ∀ {v : Value}, v.labelsApart = true → v.Exchangeable
  | tuple _, h | list _, h => exchangeableAll_of_labelsApart h
  | record .., h => exchangeableFields_of_labelsApart h
  | map es, h => by
      rw [labelsApart, Bool.and_eq_true, decide_eq_true_iff, List.Nodup, List.pairwise_map] at h
      exact ⟨h.1.imp fun other same => absurd same other, exchangeableEntries_of_labelsApart h.2⟩
  | null, _ | bool _, _ | int _, _ | float _, _ | decimal _, _ | text _, _ | time _, _
  | member .., _ => trivial

theorem exchangeableAll_of_labelsApart : ∀ {xs : List Value}, labelsApartAll xs = true →
    ExchangeableAll xs
  | [], _ => trivial
  | _ :: _, h => by
      rw [labelsApartAll, Bool.and_eq_true] at h
      exact ⟨exchangeable_of_labelsApart h.1, exchangeableAll_of_labelsApart h.2⟩

theorem exchangeableFields_of_labelsApart : ∀ {fs : List (String × Value)},
    labelsApartFields fs = true → ExchangeableFields fs
  | [], _ => trivial
  | (_, _) :: _, h => by
      rw [labelsApartFields, Bool.and_eq_true] at h
      exact ⟨exchangeable_of_labelsApart h.1, exchangeableFields_of_labelsApart h.2⟩

theorem exchangeableEntries_of_labelsApart : ∀ {es : List (Value × Value)},
    labelsApartEntries es = true → ExchangeableEntries es
  | [], _ => trivial
  | (_, _) :: _, h => by
      rw [labelsApartEntries, Bool.and_eq_true] at h
      exact ⟨exchangeable_of_labelsApart h.1, exchangeableEntries_of_labelsApart h.2⟩

end

theorem canonicalMap_of_perm {es fs : List (Value × Value)}
    (perm : (canonicalEntries es).Perm (canonicalEntries fs))
    (h : ∀ e ∈ canonicalEntries es, ∃ s, e.2 = .ok s) (exchange : es.Pairwise EntriesExchange) :
    canonicalMap (canonicalEntries es) = canonicalMap (canonicalEntries fs) := by
  have sorted : ∀ es : List (String × String), (sortByLabel es).Perm es := sortByLabel_perm
  have exchanged : (((canonicalEntries es).map labelled).Pairwise
      fun a b => a.1 = b.1 → Exchange a.2 b.2) := by
    rw [canonicalEntries_eq_map, List.map_map, List.pairwise_map]
    exact exchange
  have inOrder := ((sorted _).pairwise_iff fun {a b} h same => (h same.symm).symm).2 exchanged
  rw [canonicalMap_of_ok h, canonicalMap_of_ok fun e he => h e (perm.mem_iff.2 he), parts, parts,
    join_of_perm ((sorted _).trans ((perm.map labelled).trans (sorted _).symm))
      (ascending_sortByLabel _) (ascending_sortByLabel _) inOrder]

theorem keys_of_reordered {es gs : List (Value × Value)} (h : ReorderedEntries es gs) :
    gs.map (·.1) = es.map (·.1) := by
  induction es generalizing gs with
  | nil => rw [show gs = [] from h]
  | cons e es ih =>
      obtain ⟨z, hs, rfl, -, rest⟩ := h
      rw [List.map_cons, List.map_cons, ih rest]

theorem keys_short {es fs gs : List (Value × Value)} (h : ReorderedEntries es gs)
    (perm : gs.Perm fs) (short : ∀ e ∈ es, e.1.isShort = true) : ∀ e ∈ fs, e.1.isShort = true := by
  intro e he
  have key : e.1 ∈ es.map (·.1) := by
    rw [← keys_of_reordered h]
    exact List.mem_map_of_mem (perm.mem_iff.2 he)
  obtain ⟨f, hf, same⟩ := List.mem_map.1 key
  rw [← same]
  exact short f hf

mutual

/-- The order of entries does not show where those of one label may be exchanged. -/
theorem canonical_of_reordered : ∀ {v w : Value}, v.Reordered w → v.Legible → v.Exchangeable →
    v.canonical = w.canonical
  | tuple xs, w, h, legible, exchange => by
      cases w with
      | tuple ys =>
          rw [legible_tuple] at legible
          rw [canonical, canonical, canonicalAll_of_reordered h legible exchange]
      | _ => cases h
  | list xs, w, h, legible, exchange => by
      cases w with
      | list ys =>
          rw [legible_list] at legible
          rw [canonical, canonical, canonicalAll_of_reordered h legible exchange]
      | _ => cases h
  | record name fs shown, w, h, legible, exchange => by
      cases w with
      | record name' gs shown' =>
          obtain ⟨rfl, h⟩ := h
          rw [legible_record] at legible
          rw [canonical, canonical, canonicalFields_of_reordered h legible exchange]
      | _ => cases h
  | map es, w, h, legible, exchange => by
      cases w with
      | map fs =>
          obtain ⟨gs, h, perm⟩ := h
          have inOrder := canonicalEntries_of_reordered h (fun e he => (legible.entries e he).2)
            exchange.2
          have permuted : (canonicalEntries es).Perm (canonicalEntries fs) := by
            rw [inOrder, canonicalEntries_eq_map, canonicalEntries_eq_map]
            exact perm.map canonicalEntry
          have keys := keys_short h perm fun e he => (legible.entries e he).1.isShort
          rw [canonical_map fun e he => (legible.entries e he).1.isShort, canonical_map keys,
            canonicalMap_of_perm permuted (canonicalEntries_ok legible.entries) exchange.1]
      | _ => cases h
  | null, w, h, _, _ | bool _, w, h, _, _ | int _, w, h, _, _ | float _, w, h, _, _
  | decimal _, w, h, _, _ | text _, w, h, _, _ | time _, w, h, _, _ | member .., w, h, _, _ => by
      cases w <;> cases h
      rfl

theorem canonicalAll_of_reordered : ∀ {xs ys : List Value}, ReorderedAll xs ys →
    (∀ x ∈ xs, x.Legible) → ExchangeableAll xs → canonicalAll xs = canonicalAll ys
  | [], ys, h, _, _ => by rw [h]
  | x :: xs, ys, h, legible, exchange => by
      obtain ⟨z, zs, rfl, first, rest⟩ := h
      rw [List.forall_mem_cons] at legible
      rw [canonicalAll, canonicalAll, canonical_of_reordered first legible.1 exchange.1,
        canonicalAll_of_reordered rest legible.2 exchange.2]

theorem canonicalFields_of_reordered : ∀ {fs gs : List (String × Value)}, ReorderedFields fs gs →
    (∀ f ∈ fs, f.2.Legible) → ExchangeableFields fs → canonicalFields fs = canonicalFields gs
  | [], gs, h, _, _ => by rw [h]
  | (name, x) :: fs, gs, h, legible, exchange => by
      obtain ⟨z, hs, rfl, first, rest⟩ := h
      rw [List.forall_mem_cons] at legible
      rw [canonicalFields, canonicalFields, canonical_of_reordered first legible.1 exchange.1,
        canonicalFields_of_reordered rest legible.2 exchange.2]

theorem canonicalEntries_of_reordered : ∀ {es gs : List (Value × Value)}, ReorderedEntries es gs →
    (∀ e ∈ es, e.2.Legible) → ExchangeableEntries es → canonicalEntries es = canonicalEntries gs
  | [], gs, h, _, _ => by rw [h]
  | (k, x) :: es, gs, h, legible, exchange => by
      obtain ⟨z, hs, rfl, first, rest⟩ := h
      rw [List.forall_mem_cons] at legible
      rw [canonicalEntries, canonicalEntries, canonical_of_reordered first legible.1 exchange.1,
        canonicalEntries_of_reordered rest legible.2 exchange.2]

end

/-! ### Where the order shows -/

mutual

theorem reordered_refl : ∀ v : Value, v.Reordered v
  | tuple xs | list xs => reorderedAll_refl xs
  | record _ fs _ => ⟨rfl, reorderedFields_refl fs⟩
  | map es => ⟨es, reorderedEntries_refl es, .refl es⟩
  | null | bool _ | int _ | float _ | decimal _ | text _ | time _ | member .. => rfl

theorem reorderedAll_refl (xs : List Value) : ReorderedAll xs xs := by
  cases xs with
  | nil => rfl
  | cons x xs => exact ⟨x, xs, rfl, reordered_refl x, reorderedAll_refl xs⟩

theorem reorderedFields_refl (fs : List (String × Value)) : ReorderedFields fs fs := by
  cases fs with
  | nil => rfl
  | cons f fs =>
      obtain ⟨name, x⟩ := f
      exact ⟨x, fs, rfl, reordered_refl x, reorderedFields_refl fs⟩

theorem reorderedEntries_refl (es : List (Value × Value)) : ReorderedEntries es es := by
  cases es with
  | nil => rfl
  | cons e es =>
      obtain ⟨k, x⟩ := e
      exact ⟨x, es, rfl, reordered_refl x, reorderedEntries_refl es⟩

end

section amid
variable {x w : Value}

theorem reorderedAll_amid (h : x.Reordered w) (pre post : List Value) :
    ReorderedAll (pre ++ x :: post) (pre ++ w :: post) := by
  induction pre with
  | nil => exact ⟨w, post, rfl, h, reorderedAll_refl post⟩
  | cons y pre ih => exact ⟨y, _, rfl, reordered_refl y, ih⟩

theorem reorderedFields_amid (h : x.Reordered w) (name : String)
    (pre post : List (String × Value)) :
    ReorderedFields (pre ++ (name, x) :: post) (pre ++ (name, w) :: post) := by
  induction pre with
  | nil => exact ⟨w, post, rfl, h, reorderedFields_refl post⟩
  | cons f pre ih => exact ⟨f.2, _, rfl, reordered_refl f.2, ih⟩

theorem reorderedEntries_amid (h : x.Reordered w) (k : Value) (pre post : List (Value × Value)) :
    ReorderedEntries (pre ++ (k, x) :: post) (pre ++ (k, w) :: post) := by
  induction pre with
  | nil => exact ⟨w, post, rfl, h, reorderedEntries_refl post⟩
  | cons e pre ih => exact ⟨e.2, _, rfl, reordered_refl e.2, ih⟩

end amid

theorem canonicalAll_eq_mapM (xs : List Value) : canonicalAll xs = xs.mapM canonical := by
  induction xs with
  | nil => rfl
  | cons x xs ih => rw [canonicalAll, ih, List.mapM_cons]

def canonicalField (f : String × Value) : Except Decimal.Failure String := do
  return f.1 ++ "=" ++ (← f.2.canonical)

theorem canonicalFields_eq_mapM (fs : List (String × Value)) :
    canonicalFields fs = fs.mapM canonicalField := by
  induction fs with
  | nil => rfl
  | cons f fs ih =>
      obtain ⟨name, x⟩ := f
      rw [canonicalFields, ih, List.mapM_cons, canonicalField]
      cases x.canonical <;> rfl

section parts
variable {α ε : Type} {f : α → Except ε String} {a b : α} {pre post : List α}

theorem mapM_amid : ∀ {pre : List α} {ts : List String}, (pre ++ a :: post).mapM f = .ok ts →
    ∃ before t behind, pre.mapM f = .ok before ∧ f a = .ok t ∧ post.mapM f = .ok behind ∧
      ts = before ++ t :: behind
  | [], ts, h => by
      obtain ⟨t, behind, ht, hb, rfl⟩ := mapM_cons_ok h
      exact ⟨[], t, behind, rfl, ht, hb, rfl⟩
  | p :: pre, ts, h => by
      obtain ⟨s, rest, hs, hr, rfl⟩ := mapM_cons_ok h
      obtain ⟨before, t, behind, hp, ht, hb, rfl⟩ := mapM_amid hr
      refine ⟨s :: before, t, behind, ?_, ht, hb, rfl⟩
      rw [List.mapM_cons, hs, hp]
      rfl

/-- Lists that differ in one place and are written alike differ in nothing that is written. -/
theorem eq_of_join {l r : String} {ts : List String} (ha : (pre ++ a :: post).mapM f = .ok ts)
    (same : (do return l ++ Text.join "," (← (pre ++ b :: post).mapM f) ++ r : Except ε String) =
      .ok (l ++ Text.join "," ts ++ r)) : f b = f a := by
  obtain ⟨us, hb, same⟩ := bind_ok same
  have same : l ++ Text.join "," us ++ r = l ++ Text.join "," ts ++ r := Except.ok.inj same
  rw [String.append_left_inj, String.append_right_inj] at same
  obtain ⟨before, t, behind, hp, ht, hq, rfl⟩ := mapM_amid ha
  obtain ⟨before', u, behind', hp', hu, hq', rfl⟩ := mapM_amid hb
  cases hp.symm.trans hp'
  cases hq.symm.trans hq'
  rw [ht, hu, join_cancel same]

end parts

/-- The text of the value is the same in every order of its entries. -/
def Hidden (v : Value) : Prop := ∀ w, v.Reordered w → w.canonical = v.canonical

theorem eq_of_behind {x w : Value} {l t : String} (h : x.canonical = .ok t)
    (same : (do return l ++ (← w.canonical) : Except Decimal.Failure String) =
      do return l ++ (← x.canonical)) : w.canonical = x.canonical := by
  rw [h] at same
  obtain ⟨u, hu, same⟩ := bind_ok same
  have same : l ++ u = l ++ t := Except.ok.inj same
  rw [h, hu, (String.append_right_inj l).1 same]

section hidden
variable {xs : List Value} {name : String} {fs : List (String × Value)} {shown : Option String}
  {es : List (Value × Value)}

theorem Hidden.items (h : (tuple xs).Hidden) (legible : (tuple xs).Legible) :
    ∀ x ∈ xs, x.Hidden := by
  intro x hx w hw
  obtain ⟨pre, post, rfl⟩ := List.append_of_mem hx
  have same := h (tuple (pre ++ w :: post)) (reorderedAll_amid hw pre post)
  obtain ⟨ts, hts⟩ := canonicalAll_ok_iff.2 ((legible_tuple _).1 legible)
  rw [canonical, canonical, hts, canonicalAll_eq_mapM] at same
  rw [canonicalAll_eq_mapM] at hts
  exact eq_of_join hts same

theorem Hidden.fields (h : (record name fs shown).Hidden)
    (legible : (record name fs shown).Legible) : ∀ f ∈ fs, f.2.Hidden := by
  rintro ⟨field, x⟩ hf w hw
  obtain ⟨pre, post, rfl⟩ := List.append_of_mem hf
  have same := h (record name (pre ++ (field, w) :: post) shown)
    ⟨rfl, reorderedFields_amid hw field pre post⟩
  obtain ⟨ts, hts⟩ := canonicalFields_ok_iff.2 ((legible_record ..).1 legible)
  rw [canonical, canonical, hts, canonicalFields_eq_mapM] at same
  rw [canonicalFields_eq_mapM] at hts
  obtain ⟨t, ht⟩ := (legible_record ..).1 legible (field, x) hf
  exact eq_of_behind ht (eq_of_join (l := name ++ "(") (r := ")") hts same)

/-- In every order, the parts of the text of a map whose order is hidden are joined to one text. -/
theorem Hidden.join_parts (h : (map es).Hidden) (legible : (map es).Legible)
    {gs : List (Value × Value)} (reordered : (map es).Reordered (map gs)) :
    (map gs).Legible ∧ Text.join "," (parts (canonicalEntries gs)) =
      Text.join "," (parts (canonicalEntries es)) := by
  have same := h _ reordered
  obtain ⟨t, ht⟩ := legible
  have legible' : (map gs).Legible := ⟨t, same.trans ht⟩
  have legible : (map es).Legible := ⟨t, ht⟩
  have keys : ∀ {es : List (Value × Value)}, (map es).Legible → ∀ e ∈ es, e.1.isShort = true :=
    fun legible e he => (legible.entries e he).1.isShort
  rw [canonical_map (keys legible'), canonical_map (keys legible),
    canonicalMap_of_ok (canonicalEntries_ok legible'.entries),
    canonicalMap_of_ok (canonicalEntries_ok legible.entries), Except.ok.injEq,
    String.append_left_inj, String.append_right_inj] at same
  exact ⟨legible', same⟩

theorem Hidden.entries (h : (map es).Hidden) (legible : (map es).Legible) :
    ∀ e ∈ es, e.2.Hidden := by
  rintro ⟨k, x⟩ he w hw
  obtain ⟨pre, post, rfl⟩ := List.append_of_mem he
  -- The entry may be made first, with its value reordered or not.
  have front : ∀ y, x.Reordered y → (map (pre ++ (k, x) :: post)).Reordered
      (map ((k, y) :: (pre ++ post))) := fun y hy =>
    ⟨_, reorderedEntries_amid hy k pre post, List.perm_middle⟩
  obtain ⟨-, plain⟩ := h.join_parts legible (front x (reordered_refl x))
  obtain ⟨legible', changed⟩ := h.join_parts legible (front w hw)
  obtain ⟨before, behind, place, -⟩ := parts_cons k.label (pre ++ post)
  have same := changed.trans plain.symm
  rw [place (k, w) rfl, place (k, x) rfl] at same
  have same := join_cancel same
  obtain ⟨⟨s, hs⟩, t, ht⟩ := legible.entries _ he
  obtain ⟨-, u, hu⟩ := legible'.entries (k, w) List.mem_cons_self
  rw [entryText, entryText, canonicalEntry, canonicalEntry, hs, ht, hu] at same
  have same : s ++ ":" ++ u = s ++ ":" ++ t := same
  rw [String.append_right_inj] at same
  rw [ht, hu, same]

theorem Hidden.pairs (h : (map es).Hidden) (legible : (map es).Legible) :
    es.Pairwise EntriesExchange := by
  rw [List.pairwise_iff_forall_sublist]
  intro e f pair same
  obtain ⟨rest, perm⟩ := pair.exists_perm_append
  obtain ⟨-, first⟩ := h.join_parts legible
    (show (map es).Reordered (map (e :: f :: rest)) from ⟨es, reorderedEntries_refl es, perm⟩)
  obtain ⟨-, second⟩ := h.join_parts legible
    (show (map es).Reordered (map (f :: e :: rest)) from
      ⟨es, reorderedEntries_refl es, perm.trans (.swap f e rest)⟩)
  obtain ⟨before, behind, -, places⟩ := parts_cons f.1.label rest
  have joined := first.trans second.symm
  rw [places e f same rfl, places f e rfl same] at joined
  exact exchange_of_join joined

end hidden

theorem Hidden.of_list {xs : List Value} (h : (list xs).Hidden) : (tuple xs).Hidden := by
  intro w hw
  cases w with
  | tuple ys => exact h (list ys) hw
  | _ => cases hw

mutual

theorem Hidden.exchangeable : ∀ {v : Value}, v.Hidden → v.Legible → v.Exchangeable
  | tuple _, h, legible =>
      exchangeableAll_of_hidden (h.items legible) ((legible_tuple _).1 legible)
  | list _, h, legible =>
      exchangeableAll_of_hidden (h.of_list.items legible) ((legible_list _).1 legible)
  | record .., h, legible =>
      exchangeableFields_of_hidden (h.fields legible) ((legible_record ..).1 legible)
  | map _, h, legible =>
      ⟨h.pairs legible, exchangeableEntries_of_hidden (h.entries legible)
        fun e he => (legible.entries e he).2⟩
  | null, _, _ | bool _, _, _ | int _, _, _ | float _, _, _ | decimal _, _, _ | text _, _, _
  | time _, _, _ | member .., _, _ => trivial

theorem exchangeableAll_of_hidden : ∀ {xs : List Value}, (∀ x ∈ xs, x.Hidden) →
    (∀ x ∈ xs, x.Legible) → ExchangeableAll xs
  | [], _, _ => trivial
  | _ :: _, h, legible => by
      rw [List.forall_mem_cons] at h legible
      exact ⟨h.1.exchangeable legible.1, exchangeableAll_of_hidden h.2 legible.2⟩

theorem exchangeableFields_of_hidden : ∀ {fs : List (String × Value)}, (∀ f ∈ fs, f.2.Hidden) →
    (∀ f ∈ fs, f.2.Legible) → ExchangeableFields fs
  | [], _, _ => trivial
  | (_, _) :: _, h, legible => by
      rw [List.forall_mem_cons] at h legible
      exact ⟨h.1.exchangeable legible.1, exchangeableFields_of_hidden h.2 legible.2⟩

theorem exchangeableEntries_of_hidden : ∀ {es : List (Value × Value)}, (∀ e ∈ es, e.2.Hidden) →
    (∀ e ∈ es, e.2.Legible) → ExchangeableEntries es
  | [], _, _ => trivial
  | (_, _) :: _, h, legible => by
      rw [List.forall_mem_cons] at h legible
      exact ⟨h.1.exchangeable legible.1, exchangeableEntries_of_hidden h.2 legible.2⟩

end

end Value

/-- The text of a value is the same in every order in which the entries of its maps can be made, at
any depth, just if the texts of any two entries of one label may be exchanged: always, if the keys
of each map have labels of their own. -/
theorem entry_order {v : Value} (legible : v.Legible) :
    ((∀ w, v.Reordered w → w.canonical = v.canonical) ↔ v.Exchangeable) ∧
      (v.labelsApart = true → v.Exchangeable) :=
  ⟨⟨fun hidden => Value.Hidden.exchangeable hidden legible, fun exchange _ reordered =>
    (Value.canonical_of_reordered reordered legible exchange).symm⟩,
    Value.exchangeable_of_labelsApart⟩

namespace Value

/-- A map under texts with a map under numbers in it. -/
def nested : Value :=
  .map [(.text "b", .map [(.int 2, .null), (.int 1, .bool true)]), (.text "a", .text "x")]

/-- The same, made in the other order throughout. -/
def nestedBack : Value :=
  .map [(.text "a", .text "x"), (.text "b", .map [(.int 1, .bool true), (.int 2, .null)])]

end Value

/-- The order shows in neither of these maps, one in the other. -/
theorem entry_order_nested :
    Value.nested.Legible ∧ Value.nested.labelsApart = true ∧
      Value.nested.Reordered Value.nestedBack ∧
      Value.nestedBack.canonical = Value.nested.canonical := by
  have legible : Value.nested.Legible := by
    simp [Value.nested, Value.legible_map, show Text.isShort 1 = true by decide,
      show Text.isShort 2 = true by decide]
  have apart : Value.nested.labelsApart = true := by decide +kernel
  have inner : (Value.map [(.int 2, .null), (.int 1, .bool true)]).Reordered
      (.map [(.int 1, .bool true), (.int 2, .null)]) :=
    ⟨_, ⟨_, _, rfl, rfl, _, _, rfl, rfl, rfl⟩, .swap _ _ _⟩
  have outer : Value.nested.Reordered Value.nestedBack :=
    ⟨_, ⟨_, _, rfl, inner, _, _, rfl, rfl, rfl⟩, .swap _ _ _⟩
  obtain ⟨hidden, spread⟩ := entry_order legible
  exact ⟨legible, apart, outer, hidden.2 (spread apart) Value.nestedBack outer⟩

/-- The number 1 and the text `1` are different keys of one label, and their entries show in which
order they were made. -/
theorem order_of_one_label :
    (Value.map [(.int 1, .text "a"), (.text "1", .text "b")]).Reordered
      (.map [(.text "1", .text "b"), (.int 1, .text "a")]) ∧
    (Value.int 1).agrees (.text "1") = .ok false ∧
    (Value.map [(.int 1, .text "a"), (.text "1", .text "b")]).canonical =
      .ok "\x7bN:1:S:a,S:1:S:b\x7d" ∧
    (Value.map [(.text "1", .text "b"), (.int 1, .text "a")]).canonical =
      .ok "\x7bS:1:S:b,N:1:S:a\x7d" := by
  have label : (Value.int 1).label = (Value.text "1").label := rfl
  refine ⟨⟨_, ⟨_, _, rfl, rfl, _, _, rfl, rfl, rfl⟩, .swap _ _ _⟩, rfl, ?_, ?_⟩
  · rw [Value.canonical_pair (s := "N:1:S:a") (t := "S:1:S:b") label rfl rfl]
    rfl
  · rw [Value.canonical_pair (s := "S:1:S:b") (t := "N:1:S:a") label.symm rfl rfl]
    rfl

end Pawnbook
