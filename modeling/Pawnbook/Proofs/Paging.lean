import Pawnbook.Proofs.Lateness
import Pawnbook.Proofs.Numbering
import Pawnbook.Proofs.Order
import Pawnbook.Proofs.Spelling
import Pawnbook.Proofs.Walk

/-! # Paging

The four queries that answer page by page are walked through: those for the listings of a borrower
and for all listings, and those for the offers on a listing and of a lender. Where the numbers of a
book are in step, each of them shows a strictly descending list (`Paged.shows_listings`,
`Paged.shows_allListings`, `Paged.shows_offers`), whichever of the rules for the next cursor it
follows. The tables of a book only grow, and they grow in the order of the numbers, so what comes
in between two pages of a walk is above all that was there at its start; only among all listings
it can come in anywhere. -/

namespace Pawnbook

/-! ### Pages and what is left -/

/-- A page under a fair limit is a first part. It is empty, or shorter than its size, only if
nothing is left. -/
theorem Page.Fair.parts {κ : Type} {limit : Option Number} (h : Fair limit) (xs : List κ) :
    ∃ later, xs = cut limit xs ++ later ∧ ((cut limit xs).getLast? = none → later = []) ∧
      ((size limit).same (.whole (cut limit xs).length) = false → later = []) := by
  obtain ⟨m, positive, whole⟩ := h.exists_size
  rw [cut_eq_take whole]
  refine ⟨xs.drop m, (List.take_append_drop m xs).symm, ?_, ?_⟩
  · intro none
    rcases List.take_eq_nil_iff.1 (List.getLast?_eq_none_iff.1 none) with zero | rfl
    · omega
    · exact List.drop_nil
  · intro short
    unfold Number.same at short
    rw [whole] at short
    rw [List.drop_eq_nil_iff]
    simp only [Number.whole?, List.length_take, decide_eq_false_iff_not] at short
    omega

theorem Page.mem_of_mem_cut {κ : Type} {limit : Option Number} {xs : List κ} {x : κ}
    (h : x ∈ cut limit xs) : x ∈ xs := List.mem_of_mem_take h

@[simp] theorem Page.map_cut {κ μ : Type} (f : κ → μ) (limit : Option Number) (xs : List κ) :
    (cut limit xs).map f = cut limit (xs.map f) := List.map_take

/-! ### Keys in order -/

namespace Value

theorem requireOrder_ok : ∀ {vs : List Value},
    (∀ v ∈ vs, ∀ w ∈ vs, ∃ r, precedes v w = .ok r) → requireOrder vs = .ok ()
  | [], _ | [_], _ => rfl
  | v :: w :: rest, h => by
      obtain ⟨r, hr⟩ := h v List.mem_cons_self w (List.mem_cons_of_mem _ List.mem_cons_self)
      have tail := requireOrder_ok fun x hx y hy =>
        h x (List.mem_cons_of_mem _ hx) y (List.mem_cons_of_mem _ hy)
      rw [requireOrder, hr]
      exact tail

theorem agrees_int (m n : Int) : agrees (int m) (int n) = .ok (decide (m = n)) := by
  show (Decimal.ofInt m).agrees (Decimal.ofInt n) = _
  have worth : ∀ m n, (Decimal.ofInt m).same (.ofInt n) = decide (m = n) := by
    intro m n
    rw [Bool.eq_iff_iff, decide_eq_true_iff]
    refine Decimal.same_iff.trans ?_
    rw [← Decimal.ofInt, ← Decimal.ofInt, Decimal.worth_ofInt, Decimal.worth_ofInt, Int.cast_inj]
  unfold Decimal.agrees
  split
  · rename_i same
    rw [← worth m n, same, worth, decide_eq_true rfl]
  · exact congrArg Except.ok (worth m n)

theorem precedes_pair (s t : String) (m n : Int) :
    precedes (.tuple [.text s, .int m]) (.tuple [.text t, .int n]) =
      .ok (decide (s < t) || decide (s = t) && decide (m < n)) := by
  have texts : agrees (.text s) (.text t) = .ok (decide (s = t)) := by
    simp [agrees, number?, asNumber?]
  show (do
    if ← (agrees (.text s) (.text t)).mapError Unordered.calculation then
      if ← (agrees (.int m) (.int n)).mapError Unordered.calculation then precedesAll [] []
      else precedes (.int m) (.int n)
    else precedes (.text s) (.text t)) = _
  rw [texts, agrees_int, precedes_int, precedes_text]
  by_cases same : s = t
  · subst same
    have irrefl : decide (s < s) = false := decide_eq_false (String.lt_irrefl s)
    rw [irrefl, decide_eq_true rfl]
    by_cases equal : m = n
    · have irrefl : decide (m < n) = false := decide_eq_false (by omega)
      rw [irrefl, decide_eq_true equal]
      rfl
    · rw [decide_eq_false equal]
      rfl
  · rw [decide_eq_false same, Bool.false_and, Bool.or_false]
    rfl

end Value

section keys
variable {κ : Type} {c : κ → Key} {lt : κ → κ → Bool}

/-- Keys whose values are ordered like what they stand for are paged in that order. -/
theorem Page.keysBelow_eq (h : ∀ k l, (c k).value.precedes (c l).value = .ok (lt k l))
    (after : Option κ) (limit : Option Number) (ks : List κ) :
    keysBelow (after.map c) limit (ks.map c) = .ok ((cut limit
      ((ks.mergeSort fun k l => !lt k l).filter fun k => after.all (lt k ·))).map c) := by
  have sorted : (ks.map c).mergeSort (fun a b => !Value.isBefore a.value b.value) =
      (ks.mergeSort fun k l => !lt k l).map c := by
    refine (List.map_mergeSort fun k _ l _ => ?_).symm
    rw [Value.isBefore, h]
  have compared : Value.requireOrder (((ks.mergeSort fun k l => !lt k l).map c).map Key.value) =
      .ok () := by
    refine Value.requireOrder_ok fun v hv w hw => ?_
    simp only [List.map_map, List.mem_map, Function.comp_apply] at hv hw
    obtain ⟨k, -, rfl⟩ := hv
    obtain ⟨l, -, rfl⟩ := hw
    exact ⟨_, h k l⟩
  have ordered : Value.descending Key.value (ks.map c) =
      .ok ((ks.mergeSort fun k l => !lt k l).map c) := by
    unfold Value.descending
    dsimp only
    rw [sorted, compared]
    rfl
  refine bind_of_ok ordered ?_
  cases after with
  | none =>
      simp only [Option.map_none, Option.all_none, List.filter_eq_self.2 fun _ _ => rfl, map_cut]
      rfl
  | some last =>
      have below : ((ks.mergeSort fun k l => !lt k l).map c).filterM
          (fun k => k.value.precedes (c last).value) =
          .ok (((ks.mergeSort fun k l => !lt k l).map c).filter
            fun k => k.value.isBefore (c last).value) := by
        refine filterM_of_ok fun k hk => ?_
        obtain ⟨l, -, rfl⟩ := List.mem_map.1 hk
        rw [Value.isBefore, h]
      refine bind_of_ok below ?_
      have before : (fun k => k.value.isBefore (c last).value) ∘ c = fun k => lt k last := by
        funext k
        rw [Function.comp_apply, Value.isBefore, h]
      rw [List.filter_map, before, ← map_cut]
      rfl

end keys

/-! ### What the queries show -/

theorem keyNumber_ofOffer {n : Int} (h : (Value.int n).Writable) :
    keyNumber (.ofOffer n) = .ok n :=
  congrArg (Except.mapError _) (Text.readInt_ofInt (Value.writable_iff.1 h))

theorem mapM_tagged {ε α β : Type} {f : α → Except ε β} : ∀ {as : List α},
    (∀ a ∈ as, ∃ b, f a = .ok b) →
      ∃ es, as.mapM (fun a => do return (a, ← f a)) = .ok es ∧ es.map (·.1) = as ∧
        ∀ e ∈ es, f e.1 = .ok e.2
  | [], _ => ⟨[], rfl, rfl, nofun⟩
  | a :: as, h => by
      rw [List.forall_mem_cons] at h
      obtain ⟨b, hb⟩ := h.1
      obtain ⟨es, hes, tags, values⟩ := mapM_tagged h.2
      refine ⟨(a, b) :: es, ?_, congrArg (a :: ·) tags, List.forall_mem_cons.2 ⟨hb, values⟩⟩
      rw [List.mapM_cons, hb, hes]
      rfl

/-- A pair comes before another one by its text, or by its number under the same text. -/
def pairBelow (p q : String × Nat) : Bool :=
  decide (p.1 < q.1) || decide (p.1 = q.1) && decide (p.2 < q.2)

theorem precedence_pairBelow : Precedence pairBelow where
  irrefl p := by
    have texts : decide (p.1 < p.1) = false := decide_eq_false (String.lt_irrefl p.1)
    have numbers : decide (p.2 < p.2) = false := decide_eq_false (Nat.lt_irrefl p.2)
    rw [pairBelow, texts, numbers, Bool.and_false, Bool.or_false]
  trans p q r hpq hqr := by
    simp only [pairBelow, Bool.or_eq_true, Bool.and_eq_true, decide_eq_true_iff] at *
    rcases hpq with hpq | ⟨hpq, low⟩ <;> rcases hqr with hqr | ⟨hqr, high⟩
    · exact .inl (String.lt_trans hpq hqr)
    · exact .inl (hqr ▸ hpq)
    · exact .inl (hpq ▸ hqr)
    · exact .inr ⟨hpq.trans hqr, Nat.lt_trans low high⟩
  connected p q hpq hqp := by
    simp only [pairBelow, Bool.or_eq_false_iff, Bool.and_eq_false_iff, decide_eq_false_iff_not,
      String.not_lt] at *
    have texts : p.1 = q.1 := String.le_antisymm hqp.1 hpq.1
    have numbers : p.2 = q.2 := by
      have low := hpq.2.resolve_left (not_not_intro texts)
      have high := hqp.2.resolve_left (not_not_intro texts.symm)
      omega
    exact Prod.ext texts numbers

/-- An entry shows the record that is kept under its key. -/
def Book.ReadsListing (b : Book) (e : ListingEntry) : Prop :=
  ∃ r, b.listings.get? e.key = some r ∧ e.record = some r

/-- An offer is shown as it is read under its id. -/
def Book.ReadsOffer (b : Book) (e : Key × Offer) : Prop := b.requireOffer e.1 = .ok e.2

namespace Paged

/-- The listings of a borrower, by their numbers. -/
def listings (name : String) : Paged ListingEntry Nat where
  ask b := b.queryListings (some name)
  key := ListingEntry.key
  reads := Book.ReadsListing
  shown i := Book.listingKey (name, i)
  cursor i := .int i
  lt i j := decide (i < j)

/-- All listings, by their borrowers and numbers. -/
def allListings : Paged ListingEntry (String × Nat) where
  ask := Book.queryAllListings
  key := ListingEntry.key
  reads := Book.ReadsListing
  shown := Book.listingKey
  cursor := Book.listingKey
  lt := pairBelow

def offers (ask : Book → Option Key → Option Number → Except Error (Page (Key × Offer) Key)) :
    Paged (Key × Offer) Int where
  ask := ask
  key := Prod.fst
  reads := Book.ReadsOffer
  shown := .ofOffer
  cursor := .ofOffer
  lt i j := decide (i < j)

section shows
variable {b : Book}

/-- A query shows the keys `ks` if its pages are cut from what is below the cursor, and a page comes
with its last key as the cursor, or with none as it is not full. -/
theorem shows_of_cut {α κ : Type} {q : Paged α κ} {ks : List κ}
    (h : ∀ (after : Option κ) (limit : Option Number) (now : List κ), (∀ k ∈ after, k ∈ ks) →
      (∀ k ∈ now, k ∈ ks) → now = Page.cut limit (ks.filter fun k => after.all (q.lt k ·)) →
      ∃ page, q.ask b (after.map q.cursor) limit = .ok page ∧
        page.items.map q.key = now.map q.shown ∧ (∀ i ∈ page.items, q.reads b i) ∧
        (page.next = now.getLast?.map q.cursor ∨
          page.next = none ∧ (Page.size limit).same (.whole now.length) = false)) :
    q.Shows b ks := by
  intro after limit known fair
  obtain ⟨later, parts, final, short⟩ := fair.parts (ks.filter fun k => after.all (q.lt k ·))
  obtain ⟨page, answer, items, reads, next⟩ := h after limit _ known
    (fun k hk => (List.mem_filter.1 (Page.mem_of_mem_cut hk)).1) rfl
  refine ⟨page, _, later, answer, parts, items, reads, ?_⟩
  rcases next with next | ⟨next, notFull⟩
  · cases last : (Page.cut limit (ks.filter fun k => after.all (q.lt k ·))).getLast? with
    | none =>
        rw [last] at next
        exact .inl ⟨next, final last⟩
    | some k =>
        rw [last] at next
        exact .inr ⟨k, rfl, next⟩
  · exact .inl ⟨next, short notFull⟩

theorem shows_listings {name : String} {ns : List Nat}
    (ids : b.listingIds (some name) = .ok (ns.map fun i : Nat => .int i))
    (there : ∀ i ∈ ns, ∃ r, b.listings.get? (Book.listingKey (name, i)) = some r) :
    (listings name).Shows b (ns.mergeSort fun i j => !decide (i < j)) := by
  refine shows_of_cut fun after limit now _ part cut => ?_
  have inOrder : ∀ i j : Nat, (Key.int i).value.precedes (Key.int j).value =
      .ok (decide (i < j)) :=
    fun i j => congrArg Except.ok (decide_eq_decide.2 Int.ofNat_lt)
  have keys := Page.keysBelow_eq (c := fun i : Nat => .int i) inOrder after limit ns
  have cut : now = Page.cut limit ((ns.mergeSort fun i j => !decide (i < j)).filter
    fun i => after.all fun j => decide (i < j)) := cut
  rw [← cut] at keys
  have listed := congrArg Malformed.toError ids
  have paged := congrArg Value.Unordered.toError keys
  have answer : b.queryListings (some name) (after.map fun i : Nat => .int i) limit = _ :=
    bind_of_ok listed (bind_of_ok paged rfl)
  refine ⟨_, answer, ?_, fun e he => ?_, ?_⟩
  · rw [List.map_map, List.map_map]
    rfl
  · obtain ⟨id, hid, rfl⟩ := List.mem_map.1 he
    obtain ⟨i, hi, rfl⟩ := List.mem_map.1 hid
    obtain ⟨r, hr⟩ := there i ((List.mergeSort_perm ..).mem_iff.1 (part i hi))
    exact ⟨r, hr, hr⟩
  · dsimp only
    rw [List.length_map, List.getLast?_map]
    split
    · exact .inl rfl
    · rename_i notFull
      exact .inr ⟨rfl, Bool.eq_false_iff.2 notFull⟩

theorem shows_allListings {ps : List (String × Nat)}
    (keys : b.listings.keys = ps.map Book.listingKey) :
    allListings.Shows b (ps.mergeSort fun p q => !pairBelow p q) := by
  refine shows_of_cut fun after limit now _ part cut => ?_
  have inOrder : ∀ p q : String × Nat,
      (Book.listingKey p).value.precedes (Book.listingKey q).value = .ok (pairBelow p q) := by
    intro p q
    refine (Value.precedes_pair ..).trans ?_
    rw [decide_eq_decide.2 Int.ofNat_lt]
    rfl
  have below := Page.keysBelow_eq inOrder after limit ps
  have cut : now = Page.cut limit ((ps.mergeSort fun p q => !pairBelow p q).filter
    fun p => after.all (pairBelow p)) := cut
  rw [← cut, ← keys] at below
  have paged := congrArg Value.Unordered.toError below
  have cursor : Malformed.toError ((after.map Book.listingKey).mapM Key.sequence) =
      .ok (after.map Book.listingKey) := by
    cases after <;> rfl
  have answer : b.queryAllListings (after.map Book.listingKey) limit = .ok
      { items := now.map fun p => b.listingEntry p.1 (.int p.2)
        next := (now.map Book.listingKey).getLast? } := by
    refine bind_of_ok cursor (bind_of_ok rfl (bind_of_ok paged (bind_of_ok ?_ rfl)))
    show Malformed.toError _ = Malformed.toError (.ok _)
    rw [List.mapM_map]
    exact congrArg Malformed.toError (mapM_of_ok fun _ _ => rfl)
  refine ⟨_, answer, ?_, fun e he => ?_, .inl List.getLast?_map⟩
  · rw [List.map_map]
    rfl
  · obtain ⟨p, hp, rfl⟩ := List.mem_map.1 he
    have mem := (List.mergeSort_perm ..).mem_iff.1 (part p hp)
    obtain ⟨r, hr⟩ := Table.exists_of_mem_keys (keys ▸ List.mem_map_of_mem mem)
    exact ⟨r, hr, hr⟩

theorem shows_offers
    {ask : Book → Option Key → Option Number → Except Error (Page (Key × Offer) Key)}
    {ns : List Int} (written : ∀ n ∈ ns, (Value.int n).Writable)
    (stored : ∀ n ∈ ns, ∃ o, b.storedOffer? (.ofOffer n) = some o)
    (asked : ask b = b.offerPage (ns.map .ofOffer)) :
    (offers ask).Shows b (ns.mergeSort fun i j => !decide (i < j)) := by
  have members : ∀ {n}, n ∈ (ns.mergeSort fun i j => !decide (i < j)) → n ∈ ns :=
    fun h => (List.mergeSort_perm ..).mem_iff.1 h
  refine shows_of_cut fun after limit now known part cut => ?_
  have cut : now = Page.cut limit ((ns.mergeSort fun i j => !decide (i < j)).filter
    fun i => after.all fun j => decide (i < j)) := cut
  have numbers : (ns.map Key.ofOffer).mapM (fun id => do return (id, ← keyNumber id)) =
      .ok (ns.map fun n => (Key.ofOffer n, n)) := by
    refine List.mapM_map.trans (mapM_of_ok fun n hn => ?_)
    rw [Function.comp_apply, keyNumber_ofOffer (written n hn)]
    rfl
  have cursor : (after.map Key.ofOffer).mapM cursorNumber = .ok after := by
    cases after with
    | none => rfl
    | some n =>
        have number := keyNumber_ofOffer (written n (members (known n rfl)))
        show Except.map some ((keyNumber (.ofOffer n)).mapError _) = _
        rw [number]
        rfl
  have sorted : (ns.map fun n => (Key.ofOffer n, n)).mergeSort (fun a c => decide (c.2 ≤ a.2)) =
      (ns.mergeSort fun i j => !decide (i < j)).map fun n => (Key.ofOffer n, n) := by
    refine (List.map_mergeSort fun i _ j _ => ?_).symm
    rw [← decide_not, decide_eq_decide, Int.not_lt]
  have ids : (Page.cut limit (((ns.map fun n => (Key.ofOffer n, n)).mergeSort
      fun a c => decide (c.2 ≤ a.2)).filter fun a =>
        after.all fun j => decide (a.2 < j))).map (·.1) = now.map Key.ofOffer := by
    rw [sorted, List.filter_map, ← Page.map_cut, List.map_map, cut]
    rfl
  have there : ∀ id ∈ now.map Key.ofOffer, ∃ o, b.requireOffer id = .ok o := by
    intro id hid
    obtain ⟨n, hn, rfl⟩ := List.mem_map.1 hid
    obtain ⟨o, ho⟩ := stored n (members (part n hn))
    exact ⟨_, Book.requireOffer_of_stored ho⟩
  obtain ⟨items, entries, tags, reads⟩ := mapM_tagged there
  rw [← ids] at entries
  have answer : b.offerPage (ns.map .ofOffer) (after.map Key.ofOffer) limit = .ok
      { items, next := (now.map Key.ofOffer).getLast? } := by
    rw [← ids]
    exact bind_of_ok numbers (bind_of_ok cursor (bind_of_ok entries rfl))
  rw [← asked] at answer
  exact ⟨_, answer, tags, reads, .inl List.getLast?_map⟩

end shows
end Paged

/-! ### Tables that only grow -/

namespace Book

theorem listings_grow_put (b : Book) (c : Change) :
    b.listings.keys <+: (b.put c).listings.keys := by
  unfold put
  split
  · unfold writeConfig
    split <;> exact List.prefix_rfl
  · exact List.prefix_rfl
  · exact Table.keys_prefix_insert ..
  · exact List.prefix_rfl
  · exact List.prefix_rfl

theorem listings_grow_putAll : ∀ (cs : List Change) (b : Book),
    b.listings.keys <+: (b.putAll cs).listings.keys
  | [], _ => List.prefix_rfl
  | c :: cs, b => (b.listings_grow_put c).trans (listings_grow_putAll cs (b.put c))

theorem Moved.listings_grow {P : Book → Move → Prop} {b b' : Book} {m : Move}
    (h : b.Moved P m b') : b.listings.keys <+: b'.listings.keys := by
  cases h with
  | @post place p source =>
      rw [posted_eq]
      exact listings_grow_putAll p.changes b
  | still | number | advance | fund | mint | transfer => exact List.prefix_rfl

end Book

theorem Reaches.listings_grow {P : Book → Move → Prop} {s s' : Session} (run : Reaches P s s')
    (sound : s.Sound P) : s.book.listings.keys <+: s'.book.listings.keys := by
  induction run with
  | start => exact List.prefix_rfl
  | step m run allowed ih => exact ih.trans ((run.precedes sound).1.moved m).listings_grow

/-! ### What there is in numbered books -/

theorem Key.ofOffer_injective {m n : Int} (h : ofOffer m = ofOffer n) : m = n :=
  Text.ofInt_injective (Value.text.inj (congrArg Key.value h))

namespace Book

theorem listingKey_injective : ∀ {p q : String × Nat}, listingKey p = listingKey q → p = q
  | (_, _), (_, _), rfl => rfl

theorem listingKey_mem_map {ps : List (String × Nat)} {p : String × Nat} :
    listingKey p ∈ ps.map listingKey ↔ p ∈ ps := by
  constructor
  · intro h
    obtain ⟨q, hq, same⟩ := List.mem_map.1 h
    rwa [← listingKey_injective same]
  · exact List.mem_map_of_mem

section numbered
variable {b : Book}

theorem ListingsNumbered.of_borrower (h : b.ListingsNumbered) (name : String) : ∃ n : Nat,
    b.listingIds (some name) = .ok ((List.range n).map fun i : Nat => .int i) ∧
      ∀ i, listingKey (name, i) ∈ b.listings.keys ↔ i < n := by
  obtain ⟨ps, keys, numbers⟩ := h
  obtain ⟨n, -, range⟩ := numbers name
  refine ⟨n, by rw [listingIds_of_keys keys, range], fun i => ?_⟩
  rw [keys, listingKey_mem_map, ← List.mem_range, ← range, List.mem_map]
  constructor
  · intro h
    exact ⟨(name, i), List.mem_filter.2 ⟨h, BEq.rfl⟩, rfl⟩
  · rintro ⟨⟨name', i'⟩, h, rfl⟩
    obtain ⟨h, same⟩ := List.mem_filter.1 h
    rw [Key.text_beq_text, decide_eq_true_iff] at same
    rwa [← same]

theorem ListingsNumbered.nodup (h : b.ListingsNumbered) :
    ∃ ps : List (String × Nat), b.listings.keys = ps.map listingKey ∧ ps.Nodup := by
  obtain ⟨ps, keys, numbers⟩ := h
  refine ⟨ps, keys, ?_⟩
  have each : ∀ name : String, ((ps.filter fun p => (p.1 : Key) == name).map (·.2)).Nodup := by
    intro name
    obtain ⟨n, -, range⟩ := numbers name
    rw [range]
    exact List.nodup_range
  clear keys numbers
  induction ps with
  | nil => exact .nil
  | cons p ps ih =>
      refine List.nodup_cons.2 ⟨fun mem => ?_, ih fun name => ?_⟩
      · have once := each p.1
        have found : ((p.1 : Key) == p.1) = true := BEq.rfl
        rw [List.filter_cons, if_pos found, List.map_cons, List.nodup_cons] at once
        exact once.1 (List.mem_map_of_mem (List.mem_filter.2 ⟨mem, BEq.rfl⟩))
      · refine (each name).sublist (List.Sublist.map _ ?_)
        exact (List.sublist_cons_self p ps).filter _

theorem OffersNumbered.exists_number (h : b.OffersNumbered) {n : Nat}
    (last : b.config.lastOffer = .int n) {id : Key} {o : Offer}
    (offer : b.storedOffer? id = some o) :
    ∃ m : Int, 1 ≤ m ∧ m ≤ n ∧ (Key.ofOffer m == id) = true := by
  obtain ⟨n', last', -, ids⟩ := h
  cases last.symm.trans last'
  obtain ⟨id', entry, same⟩ := Table.mem_of_find? offer
  have mem : id' ∈ b.offers.ids := List.mem_map_of_mem entry
  rw [ids, List.mem_map] at mem
  obtain ⟨i, hi, rfl⟩ := mem
  have hi := List.mem_range.1 hi
  exact ⟨i + 1, by omega, by omega, same⟩

/-- The numbers of the offers that are there are those from one up to the count, and all of them
can be written. -/
theorem OffersNumbered.stored_iff (h : b.OffersNumbered) (hb : b.Coherent) : ∃ n : Nat,
    b.offers.ids = ((List.range n).map fun i : Nat => (i + 1 : Int)).map .ofOffer ∧
      (∀ m : Int, 1 ≤ m → m ≤ n → (Value.int m).Writable) ∧
      ∀ m : Int, (∃ o, b.storedOffer? (.ofOffer m) = some o) ↔ 1 ≤ m ∧ m ≤ n := by
  have numbered := h
  obtain ⟨n, last, written, ids⟩ := h
  refine ⟨n, by rw [ids, List.map_map]; rfl, fun m low high => ?_, fun m => ⟨?_, ?_⟩⟩
  · have short := Value.writable_iff.1 (written (by omega))
    exact Value.writable_iff.2 (Text.isShort_of_le (by omega) short)
  · rintro ⟨o, stored⟩
    obtain ⟨k, low, high, same⟩ := numbered.exists_number last stored
    have number : k = m :=
      Text.ofInt_injective (of_decide_eq_true ((Key.text_beq_text ..).symm.trans same))
    omega
  · rintro ⟨low, high⟩
    have mem : Key.ofOffer m ∈ b.offers.ids := by
      rw [ids, List.mem_map]
      refine ⟨(m - 1).toNat, List.mem_range.2 (by omega), ?_⟩
      rw [show (((m - 1).toNat : Nat) : Int) + 1 = m by omega]
    obtain ⟨⟨id, o⟩, entry, same⟩ := List.mem_map.1 mem
    have same : id = .ofOffer m := same
    rw [same] at entry
    exact ⟨o, hb.index.distinct.get?_of_mem entry⟩

/-- The ids of the offers that a test picks out, in the order of the table. -/
def idsWhere (b : Book) (p : Offer → Bool) : List Key :=
  b.offers.ids.filter fun id => (b.storedOffer? id).any p

theorem Coherent.queryOffers_eq (hb : b.Coherent) {borrower id : Key} :
    b.queryOffers borrower id = b.offerPage (b.idsWhere (·.listing == ⟨borrower, id⟩)) := by
  have listed : b.offers.byListing (.pair borrower id) = _ := hb.index.listings _
  unfold queryOffers
  rw [listed]
  have ids := hb.index.distinct.map_fst_filter (·.listing.toKey == .pair borrower id)
  exact congrArg b.offerPage ids

theorem Coherent.queryLenderOffers_eq (hb : b.Coherent) {lender : Key} :
    b.queryLenderOffers lender = b.offerPage (b.idsWhere (·.lender == lender)) := by
  have listed : b.offers.byLender lender = _ := hb.index.lenders lender
  unfold queryLenderOffers
  rw [listed]
  exact congrArg b.offerPage (hb.index.distinct.map_fst_filter (·.lender == lender))

theorem OffersNumbered.of_test (h : b.OffersNumbered) (hb : b.Coherent) (p : Offer → Bool) :
    ∃ ns : List Int, b.idsWhere p = ns.map .ofOffer ∧ ns.Nodup ∧
      (∀ m ∈ ns, (Value.int m).Writable) ∧
      ∀ m, m ∈ ns ↔ ∃ o, b.storedOffer? (.ofOffer m) = some o ∧ p o = true := by
  obtain ⟨n, ids, written, stored⟩ := h.stored_iff hb
  have range : ∀ m : Int,
      m ∈ (List.range n).map (fun i : Nat => (i + 1 : Int)) ↔ 1 ≤ m ∧ m ≤ n := by
    intro m
    rw [List.mem_map]
    constructor
    · rintro ⟨i, hi, rfl⟩
      have hi := List.mem_range.1 hi
      omega
    · rintro ⟨low, high⟩
      exact ⟨(m - 1).toNat, List.mem_range.2 (by omega), by omega⟩
  refine ⟨((List.range n).map fun i : Nat => (i + 1 : Int)).filter
    fun m => (b.storedOffer? (.ofOffer m)).any p, ?_, ?_, fun m hm => ?_, fun m => ?_⟩
  · rw [idsWhere, ids, List.filter_map]
    rfl
  · refine (List.pairwise_map.2 ?_).filter _
    exact (List.nodup_range : (List.range n).Nodup).imp fun {i j} hne same => hne (by omega)
  · obtain ⟨low, high⟩ := (range m).1 (List.mem_filter.1 hm).1
    exact written m low high
  · rw [List.mem_filter, range, ← stored]
    constructor
    · rintro ⟨⟨o, ho⟩, hp⟩
      rw [ho, Option.any_some] at hp
      exact ⟨o, ho, hp⟩
    · rintro ⟨o, ho, hp⟩
      exact ⟨⟨o, ho⟩, by rw [ho, Option.any_some, hp]⟩

end numbered
end Book

/-! ### Walks through listings and offers -/

theorem precedence_nat : Precedence fun i j : Nat => decide (i < j) where
  irrefl i := decide_eq_false (Nat.lt_irrefl i)
  trans i j k hij hjk := by
    rw [decide_eq_true_iff] at *
    omega
  connected i j hij hji := by
    rw [decide_eq_false_iff_not] at *
    omega

theorem precedence_int : Precedence fun m n : Int => decide (m < n) where
  irrefl m := decide_eq_false (Int.lt_irrefl m)
  trans m n k hmn hnk := by
    rw [decide_eq_true_iff] at *
    omega
  connected m n hmn hnm := by
    rw [decide_eq_false_iff_not] at *
    omega

section catalogues
variable {P : Book → Move → Prop} {s₀ s : Session}

theorem catalogue_listings (fresh : s₀.IsFresh) (run : Reaches P s₀ s) (name : String) :
    Catalogue P (Paged.listings name)
      (fun b i => Book.listingKey (name, i) ∈ b.listings.keys) s where
  order := precedence_nat
  injective same := congrArg Prod.snd (Book.listingKey_injective same)
  shows {s'} later := by
    obtain ⟨n, ids, there⟩ := ((run.trans later).numbered fresh).listings.of_borrower name
    refine ⟨_, fun i => ?_, precedence_nat.descends_mergeSort List.nodup_range,
      Paged.shows_listings ids fun i hi => ?_⟩
    · rw [(List.mergeSort_perm ..).mem_iff, List.mem_range, there]
    · exact Table.exists_of_mem_keys ((there i).2 (List.mem_range.1 hi))
  grows later later' := fun h =>
    (later'.listings_grow ((run.trans later).sound fresh)).subset h

theorem catalogue_allListings (fresh : s₀.IsFresh) (run : Reaches P s₀ s) :
    Catalogue P Paged.allListings (fun b p => Book.listingKey p ∈ b.listings.keys) s where
  order := precedence_pairBelow
  injective := Book.listingKey_injective
  shows {s'} later := by
    obtain ⟨ps, keys, nodup⟩ := ((run.trans later).numbered fresh).listings.nodup
    refine ⟨_, fun p => ?_, precedence_pairBelow.descends_mergeSort nodup,
      Paged.shows_allListings keys⟩
    rw [(List.mergeSort_perm ..).mem_iff, keys, Book.listingKey_mem_map]
  grows later later' := fun h =>
    (later'.listings_grow ((run.trans later).sound fresh)).subset h

/-- A query for the offers that a test picks out, if it does not change its mind. -/
theorem catalogue_offers (fresh : s₀.IsFresh) (run : Reaches P s₀ s)
    {ask : Book → Option Key → Option Number → Except Error (Page (Key × Offer) Key)}
    {p : Offer → Bool} (kept : ∀ {o o'}, o.Extends o' → p o' = p o)
    (asked : ∀ {b}, b.Coherent → ask b = b.offerPage (b.idsWhere p)) :
    Catalogue P (Paged.offers ask)
      (fun b n => ∃ o, b.storedOffer? (.ofOffer n) = some o ∧ p o = true) s where
  order := precedence_int
  injective := Key.ofOffer_injective
  shows {s'} later := by
    have hb := ((run.trans later).sound fresh).book
    obtain ⟨ns, ids, nodup, written, members⟩ :=
      ((run.trans later).numbered fresh).offers.of_test hb p
    have stored : ∀ m ∈ ns, ∃ o, s'.book.storedOffer? (.ofOffer m) = some o := by
      intro m hm
      obtain ⟨o, ho, -⟩ := (members m).1 hm
      exact ⟨o, ho⟩
    refine ⟨_, fun m => ?_, precedence_int.descends_mergeSort nodup,
      Paged.shows_offers written stored ?_⟩
    · rw [(List.mergeSort_perm ..).mem_iff, members]
    · rw [asked hb, ids]
  grows later later' := by
    rintro m ⟨o, ho, hp⟩
    obtain ⟨-, order⟩ := later'.precedes ((run.trans later).sound fresh)
    obtain ⟨o', ho', extends'⟩ := order.since.offer _ o ho
    exact ⟨o', ho', (kept extends').trans hp⟩

end catalogues

/-! ### Paging misses nothing and repeats nothing -/

/-- Listings in the order of their borrowers, and of their numbers under one borrower. -/
def ListedBefore (k l : Key) : Prop :=
  ∃ p q : String × Nat, k = Book.listingKey p ∧ l = Book.listingKey q ∧
    (p.1 < q.1 ∨ p.1 = q.1 ∧ p.2 < q.2)

/-- Offers in the order of the numbers that their ids write. -/
def OfferedBefore (k l : Key) : Prop :=
  ∃ m n : Int, keyNumber k = .ok m ∧ keyNumber l = .ok n ∧ m < n

/-- From a session on, walks through the four queries find what is there. -/
structure Session.Pages (P : Book → Move → Prop) (s : Session) : Prop where
  listings : ∀ name : String,
    EnumeratesOnly P (fun b => b.queryListings (some name)) ListingEntry.key Book.ReadsListing
      ListedBefore
      (s.book.listings.keys.filter fun k => k.first.toOption.any (· == (name : Key))) s
  allListings :
    Enumerates P Book.queryAllListings ListingEntry.key Book.ReadsListing ListedBefore
      s.book.listings.keys s
  offers : ∀ borrower id : Key,
    EnumeratesOnly P (fun b => b.queryOffers borrower id) Prod.fst Book.ReadsOffer OfferedBefore
      (s.book.idsWhere (·.listing == ⟨borrower, id⟩)) s
  lenderOffers : ∀ lender : Key,
    EnumeratesOnly P (fun b => b.queryLenderOffers lender) Prod.fst Book.ReadsOffer OfferedBefore
      (s.book.idsWhere (·.lender == lender)) s

section pages
variable {P : Book → Move → Prop} {s₀ s : Session}

theorem enumerates_listings (fresh : s₀.IsFresh) (run : Reaches P s₀ s) (name : String) :
    EnumeratesOnly P (fun b => b.queryListings (some name)) ListingEntry.key Book.ReadsListing
      ListedBefore
      (s.book.listings.keys.filter fun k => k.first.toOption.any (· == (name : Key))) s := by
  refine (catalogue_listings fresh run name).enumeratesOnly (fun _ _ _ below => ?_) (fun k => ?_)
    fun {s' i j} later there _ below => ?_
  · exact ⟨_, _, rfl, rfl, .inr ⟨rfl, of_decide_eq_true below⟩⟩
  · obtain ⟨ps, keys, -⟩ := (run.numbered fresh).listings
    constructor
    · intro hk
      obtain ⟨mem, named⟩ := List.mem_filter.1 hk
      rw [keys] at mem
      obtain ⟨⟨name', i⟩, pair, rfl⟩ := List.mem_map.1 mem
      obtain rfl : name' = name := of_decide_eq_true ((Key.text_beq_text ..).symm.trans named)
      refine ⟨i, ?_, rfl⟩
      rw [keys]
      exact List.mem_map_of_mem pair
    · rintro ⟨i, mem, rfl⟩
      exact List.mem_filter.2 ⟨mem, BEq.rfl⟩
  · obtain ⟨n, -, listed⟩ := (run.numbered fresh).listings.of_borrower name
    have high := (listed i).1 there
    have below : j < i := of_decide_eq_true below
    exact (listed j).2 (by omega)

theorem enumerates_allListings (fresh : s₀.IsFresh) (run : Reaches P s₀ s) :
    Enumerates P Book.queryAllListings ListingEntry.key Book.ReadsListing ListedBefore
      s.book.listings.keys s := by
  refine (catalogue_allListings fresh run).enumerates (fun {s' p q} _ _ _ below => ?_)
    fun k hk => ?_
  · refine ⟨p, q, rfl, rfl, ?_⟩
    rcases Bool.or_eq_true_iff.1 below with texts | numbers
    · exact .inl (of_decide_eq_true texts)
    · obtain ⟨texts, numbers⟩ := Bool.and_eq_true_iff.1 numbers
      exact .inr ⟨of_decide_eq_true texts, of_decide_eq_true numbers⟩
  · obtain ⟨ps, keys, -⟩ := (run.numbered fresh).listings
    have mem := hk
    rw [keys] at mem
    obtain ⟨p, -, rfl⟩ := List.mem_map.1 mem
    exact ⟨p, hk, rfl⟩

/-- The offers that a test picks out are found if the test never changes its mind. -/
theorem enumerates_offers (fresh : s₀.IsFresh) (run : Reaches P s₀ s)
    {ask : Book → Option Key → Option Number → Except Error (Page (Key × Offer) Key)}
    {p : Offer → Bool} (kept : ∀ {o o'}, o.Extends o' → p o' = p o)
    (asked : ∀ {b}, b.Coherent → ask b = b.offerPage (b.idsWhere p)) :
    EnumeratesOnly P ask Prod.fst Book.ReadsOffer OfferedBefore (s.book.idsWhere p) s := by
  refine (catalogue_offers fresh run kept asked).enumeratesOnly ?_ (fun k => ?_) ?_
  · intro s' m n later first second below
    have after := run.trans later
    obtain ⟨ns, -, -, written, members⟩ :=
      (after.numbered fresh).offers.of_test (after.sound fresh).book p
    exact ⟨m, n, keyNumber_ofOffer (written m ((members m).2 first)),
      keyNumber_ofOffer (written n ((members n).2 second)), of_decide_eq_true below⟩
  · obtain ⟨ns, ids, -, -, members⟩ := (run.numbered fresh).offers.of_test (run.sound fresh).book p
    rw [ids, List.mem_map]
    exact exists_congr fun m => and_congr_left fun _ => members m
  · rintro s' k x later ⟨o, ho, -⟩ ⟨o', ho', picked⟩ below
    have hb := (run.sound fresh).book
    have after := run.trans later
    obtain ⟨n, -, -, stored⟩ := (run.numbered fresh).offers.stored_iff hb
    obtain ⟨n', -, -, stored'⟩ := (after.numbered fresh).offers.stored_iff (after.sound fresh).book
    have high := ((stored k).1 ⟨o, ho⟩).2
    have low := ((stored' x).1 ⟨o', ho'⟩).1
    have below : x < k := of_decide_eq_true below
    obtain ⟨o₀, ho₀⟩ := (stored x).2 ⟨low, by omega⟩
    obtain ⟨-, order⟩ := later.precedes (run.sound fresh)
    obtain ⟨o₁, ho₁, extends₁⟩ := order.since.offer _ o₀ ho₀
    cases ho'.symm.trans ho₁
    exact ⟨o₀, ho₀, (kept extends₁).symm.trans picked⟩

end pages

/-- Whatever happens to a book between two pages, walks through its listings and its offers find
what was there at their start, once and in order. -/
theorem pages_complete {P : Book → Move → Prop} {s₀ s : Session} (fresh : s₀.IsFresh)
    (run : Reaches P s₀ s) : s.Pages P where
  listings := enumerates_listings fresh run
  allListings := enumerates_allListings fresh run
  offers borrower id := by
    refine enumerates_offers fresh run (fun {o o'} kept => ?_) fun hb => hb.queryOffers_eq
    rw [kept.listing]
  lenderOffers lender := by
    refine enumerates_offers fresh run (fun {o o'} kept => ?_) fun hb => hb.queryLenderOffers_eq
    rw [kept.lender]

/-- A walk through the offers on Alice's listing finds Bob's offer and Carol's loan. -/
theorem pages_complete_lent : Session.lent.Pages (fun _ _ => True) ∧
    Session.lent.book.idsWhere (·.listing == ⟨"alice", .int 0⟩) = [.ofOffer 1, .ofOffer 2] := by
  have run : Reaches (fun _ _ => True) Session.opening Session.lent :=
    Session.reaches_lent (by decide +kernel)
  exact ⟨pages_complete Session.isFresh_opening run, by decide +kernel⟩

end Pawnbook
