import Pawnbook.Proofs.Session
import Pawnbook.Query

/-! # Walks through pages

A walk (`Walk`) calls a query for a first page and then, as long as a page comes with a cursor, for
the page behind that cursor; between two calls the session moves on. What a walk has seen is
described by the keys alone: in every book the query shows a strictly descending list of keys, and a
page is the first part of what is below the cursor (`Shows`). New keys may come in anywhere, but
none goes (`Catalogue`). One page takes the walk on (`Progress.page`), and so the whole walk misses
no key that was there at the first call (`Catalogue.enumerates`). If new keys come in above the old
ones only, the walk sees no others and comes to an end (`Catalogue.enumeratesOnly`). -/

namespace Pawnbook

/-! ### Limits -/

namespace Page

/-- No limit, or one of a whole number from one on. -/
def Fair (limit : Option Number) : Prop := ∀ n ∈ limit, ∃ k : Int, n.whole? = some k ∧ 1 ≤ k

theorem Fair.exists_size {limit : Option Number} (h : Fair limit) :
    ∃ m : Nat, 1 ≤ m ∧ (size limit).whole? = some (m : Int) := by
  cases limit with
  | none => exact ⟨10, by decide, rfl⟩
  | some n =>
      obtain ⟨k, hk, hle⟩ := h n rfl
      have below : maxSize.isBelow n = decide (150 < k) := by
        unfold Number.isBelow
        rw [hk]
        rfl
      unfold size capped
      dsimp only
      rw [below]
      by_cases hlt : 150 < k
      · rw [decide_eq_true hlt]
        exact ⟨150, by decide, rfl⟩
      · have positive : n.isPositive = decide (0 < k) := by
          unfold Number.isPositive Number.isBelow
          rw [hk]
          rfl
        rw [decide_eq_false hlt, if_neg Bool.false_ne_true, positive,
          decide_eq_true (by omega), if_pos rfl]
        exact ⟨k.toNat, by omega, by rw [hk, Int.toNat_of_nonneg (by omega)]⟩

theorem cut_eq_take {α : Type} {limit : Option Number} {m : Nat}
    (h : (size limit).whole? = some (m : Int)) (xs : List α) : cut limit xs = xs.take m := by
  unfold cut
  rw [h]
  rfl

end Page

/-! ### Strict orders and descending lists -/

/-- A test that orders strictly and compares any two. -/
structure Precedence {κ : Type} (lt : κ → κ → Bool) : Prop where
  irrefl : ∀ k, lt k k = false
  trans : ∀ k l m, lt k l = true → lt l m = true → lt k m = true
  connected : ∀ k l, lt k l = false → lt l k = false → k = l

section order
variable {κ : Type} {lt : κ → κ → Bool}

/-- The list is in strictly descending order. -/
def Descends (lt : κ → κ → Bool) (ks : List κ) : Prop := ks.Pairwise fun k l => lt l k = true

theorem Precedence.asymm (h : Precedence lt) {k l : κ} (hlt : lt k l = true) : lt l k = false := by
  rw [← Bool.not_eq_true]
  intro back
  have loop := h.trans k l k hlt back
  rw [h.irrefl] at loop
  cases loop

theorem Precedence.nodup (h : Precedence lt) {ks : List κ} (descends : Descends lt ks) :
    ks.Nodup := by
  refine descends.imp fun {k l} hlt same => ?_
  rw [same, h.irrefl] at hlt
  cases hlt

theorem Precedence.descends_mergeSort (h : Precedence lt) {ks : List κ} (nodup : ks.Nodup) :
    Descends lt (ks.mergeSort fun k l => !lt k l) := by
  have sorted : (ks.mergeSort fun k l => !lt k l).Pairwise fun k l => (!lt k l) = true := by
    apply List.pairwise_mergeSort
    · intro k l m hkl hlm
      simp only [Bool.not_eq_eq_eq_not, Bool.not_true] at hkl hlm ⊢
      cases hkm : lt k m with
      | false => rfl
      | true =>
          cases hlk : lt l k with
          | true => exact (h.trans l k m hlk hkm).symm.trans hlm
          | false =>
              rw [h.connected k l hkl hlk, hlm] at hkm
              cases hkm
    · intro k l
      cases hkl : lt k l with
      | false => rfl
      | true => rw [h.asymm hkl]; rfl
  have distinct := nodup.perm (List.mergeSort_perm ks fun k l => !lt k l).symm
  refine (sorted.and distinct).imp fun {k l} ⟨hle, hne⟩ => ?_
  simp only [Bool.not_eq_eq_eq_not, Bool.not_true] at hle
  cases hlk : lt l k with
  | true => rfl
  | false => exact absurd (h.connected k l hle hlk) hne

theorem Descends.last_below {ks : List κ} {last k : κ} (h : Descends lt ks)
    (hlast : ks.getLast? = some last) (hk : k ∈ ks) : k = last ∨ lt last k = true := by
  obtain ⟨front, rfl⟩ := List.getLast?_eq_some_iff.1 hlast
  rcases List.mem_append.1 hk with hk | hk
  · exact .inr ((List.pairwise_append.1 h).2.2 k hk last (List.mem_singleton_self _))
  · exact .inl (List.mem_singleton.1 hk)

theorem Precedence.descends_append (h : Precedence lt) {ks ls : List κ} (upper : Descends lt ks)
    (lower : Descends lt ls) (below : ∀ l ∈ ls, ks.getLast?.all (lt l ·) = true) :
    Descends lt (ks ++ ls) := by
  refine List.pairwise_append.2 ⟨upper, lower, fun k hk l hl => ?_⟩
  have under := below l hl
  cases hlast : ks.getLast? with
  | none =>
      rw [List.getLast?_eq_none_iff.1 hlast] at hk
      cases hk
  | some last =>
      rw [hlast, Option.all_some] at under
      rcases upper.last_below hlast hk with rfl | hlt
      · exact under
      · exact h.trans l last k under hlt

/-- Below the last of a first part is what comes behind it. -/
theorem Precedence.filter_below (h : Precedence lt) {above below : List κ}
    (descends : Descends lt (above ++ below)) :
    ((above ++ below).filter fun k => above.getLast?.all (lt k ·)) = below := by
  cases hlast : above.getLast? with
  | none =>
      rw [List.getLast?_eq_none_iff.1 hlast]
      exact List.filter_eq_self.2 fun _ _ => rfl
  | some last =>
      obtain ⟨upper, -, across⟩ := List.pairwise_append.1 descends
      rw [List.filter_append, List.filter_eq_nil_iff.2, List.filter_eq_self.2]
      · rfl
      · exact fun k hk => across last (List.mem_of_getLast? hlast) k hk
      · intro k hk
        rw [Option.all_some, Bool.not_eq_true]
        rcases Descends.last_below upper hlast hk with rfl | hlt
        · exact h.irrefl k
        · exact h.asymm hlt

end order

/-! ### Walks -/

section walks
variable {α κ : Type}

/-- A walk from the session `s`: the session at which its last page was asked for, the items of all
its pages, their number, and the cursor of the last one. Between two pages the session moves on. -/
inductive Walk (P : Book → Move → Prop)
    (ask : Book → Option Key → Option Number → Except Error (Page α Key)) (s : Session) :
    Session → List α → Nat → Option Key → Prop
  | first {limit : Option Number} {page : Page α Key} (fair : Page.Fair limit)
      (answer : ask s.book none limit = .ok page) : Walk P ask s s page.items 1 page.next
  | next {s' s'' : Session} {items : List α} {count : Nat} {cursor : Key} {limit : Option Number}
      {page : Page α Key} (walk : Walk P ask s s' items count (some cursor))
      (run : Reaches P s' s'') (fair : Page.Fair limit)
      (answer : ask s''.book (some cursor) limit = .ok page) :
      Walk P ask s s'' (items ++ page.items) (count + 1) page.next

theorem Walk.reaches {P : Book → Move → Prop}
    {ask : Book → Option Key → Option Number → Except Error (Page α Key)} {s s' : Session}
    {items : List α} {count : Nat} {next : Option Key} (h : Walk P ask s s' items count next) :
    Reaches P s s' := by
  induction h with
  | first => exact .start
  | next walk run fair answer ih => exact ih.trans run

/-- However the limits are chosen and wherever the session moves, walks from the session `s` go on
until they are through, read every item as it is, go down, come to nothing twice, and miss none of
the existing keys. -/
structure Enumerates (P : Book → Move → Prop)
    (ask : Book → Option Key → Option Number → Except Error (Page α Key)) (key : α → Key)
    (reads : Book → α → Prop) (before : Key → Key → Prop) (existing : List Key) (s : Session) :
    Prop where
  starts : ∀ limit, Page.Fair limit →
    ∃ page, ask s.book none limit = .ok page ∧ ∀ i ∈ page.items, reads s.book i
  continues : ∀ {s' s'' items count cursor limit}, Walk P ask s s' items count (some cursor) →
    Reaches P s' s'' → Page.Fair limit →
    ∃ page, ask s''.book (some cursor) limit = .ok page ∧ ∀ i ∈ page.items, reads s''.book i
  descending : ∀ {s' items count next}, Walk P ask s s' items count next →
    (items.map key).Pairwise fun k l => before l k
  distinct : ∀ {s' items count next}, Walk P ask s s' items count next → (items.map key).Nodup
  complete : ∀ {s' items count}, Walk P ask s s' items count none → existing ⊆ items.map key

/-- Walks come to nothing but the existing keys, and have at most one page more than there are of
these. -/
structure EnumeratesOnly (P : Book → Move → Prop)
    (ask : Book → Option Key → Option Number → Except Error (Page α Key)) (key : α → Key)
    (reads : Book → α → Prop) (before : Key → Key → Prop) (existing : List Key) (s : Session) : Prop
    extends Enumerates P ask key reads before existing s where
  only : ∀ {s' items count next}, Walk P ask s s' items count next → items.map key ⊆ existing
  ends : ∀ {s' items count next}, Walk P ask s s' items count next → count ≤ existing.length + 1

/-! ### What a query shows -/

/-- A query, the key of an item and what it is to read an item as it is; and together with these
what the query is about: the key that is shown for it, the cursor at it, and the order. -/
structure Paged (α κ : Type) where
  ask : Book → Option Key → Option Number → Except Error (Page α Key)
  key : α → Key
  reads : Book → α → Prop
  shown : κ → Key
  cursor : κ → Key
  lt : κ → κ → Bool

/-- The query shows the keys `ks`: a page is the first part of what is below the cursor. It comes
without a cursor only if nothing is left. -/
def Paged.Shows (q : Paged α κ) (b : Book) (ks : List κ) : Prop :=
  ∀ (after : Option κ) (limit : Option Number), (∀ k ∈ after, k ∈ ks) → Page.Fair limit →
    ∃ page now later, q.ask b (after.map q.cursor) limit = .ok page ∧
      (ks.filter fun k => after.all (q.lt k ·)) = now ++ later ∧
      page.items.map q.key = now.map q.shown ∧ (∀ i ∈ page.items, q.reads b i) ∧
      (page.next = none ∧ later = [] ∨
        ∃ last, now.getLast? = some last ∧ page.next = some (q.cursor last))

/-- Every key that is shown has its place: under any limit there is a page that it is on. -/
theorem Paged.Shows.exists_page {q : Paged α κ} {b : Book} {ks : List κ} (h : q.Shows b ks)
    (order : Precedence q.lt) (descends : Descends q.lt ks) {k : κ} (hk : k ∈ ks)
    {limit : Option Number} (fair : Page.Fair limit) :
    ∃ cursor page, q.ask b cursor limit = .ok page ∧ ∃ i ∈ page.items, q.key i = q.shown k := by
  obtain ⟨above, below, rfl⟩ := List.append_of_mem hk
  have first := order.filter_below descends
  obtain ⟨page, now, later, answer, parts, items, -, cursor⟩ := h above.getLast? limit
    (fun l hl => List.mem_append_left _ (List.mem_of_getLast? hl)) fair
  refine ⟨_, page, answer, ?_⟩
  cases now with
  | nil =>
      rcases cursor with ⟨-, rfl⟩ | ⟨l, hl, -⟩
      · cases first.symm.trans parts
      · cases hl
  | cons l now =>
      cases first.symm.trans parts
      have shown : q.shown k ∈ page.items.map q.key := by
        rw [items]
        exact List.mem_cons_self
      exact List.mem_map.1 shown

/-- From the session `s` on, the query shows what there is in the book, and what there is stays. -/
structure Catalogue (P : Book → Move → Prop) (q : Paged α κ) (has : Book → κ → Prop) (s : Session) :
    Prop where
  order : Precedence q.lt
  injective : ∀ {k l}, q.shown k = q.shown l → k = l
  shows : ∀ {s'}, Reaches P s s' →
    ∃ ks, (∀ k, k ∈ ks ↔ has s'.book k) ∧ Descends q.lt ks ∧ q.Shows s'.book ks
  grows : ∀ {s' s''}, Reaches P s s' → Reaches P s' s'' → ∀ {k}, has s'.book k → has s''.book k

/-- A walk has come down to the last key that it has seen: what it has missed so far is below. -/
structure Progress (q : Paged α κ) (has : Book → κ → Prop) (s s' : Session) (items : List α)
    (seen : List κ) : Prop where
  items : items.map q.key = seen.map q.shown
  descends : Descends q.lt seen
  there : ∀ k ∈ seen, has s'.book k
  top : ∀ k ∈ seen.head?, has s.book k
  missing : ∀ k, has s.book k → k ∉ seen → seen.getLast?.all (q.lt k ·) = true

section catalogue
variable {P : Book → Move → Prop} {q : Paged α κ} {has : Book → κ → Prop} {s s' s'' : Session}
variable {items : List α} {seen : List κ} {count : Nat} {next : Option Key}

theorem Progress.start (q : Paged α κ) (has : Book → κ → Prop) (s : Session) :
    Progress q has s s [] [] where
  items := rfl
  descends := .nil
  there k hk := by cases hk
  top k hk := by cases hk
  missing k _ _ := rfl

/-- The page behind the last key takes a walk on. Either nothing of what was there is missing any
more, or there is a key to go on from. -/
theorem Progress.page (h : Progress q has s s' items seen) (catalogue : Catalogue P q has s)
    (walked : Reaches P s s') (run : Reaches P s' s'') (fresh : seen = [] → s'' = s)
    {limit : Option Number} (fair : Page.Fair limit) :
    ∃ page now, q.ask s''.book (seen.getLast?.map q.cursor) limit = .ok page ∧
      (∀ i ∈ page.items, q.reads s''.book i) ∧
      Progress q has s s'' (items ++ page.items) (seen ++ now) ∧
      (page.next = none ∧ (∀ k, has s.book k → k ∈ seen ++ now) ∨
        ∃ last, now.getLast? = some last ∧ page.next = some (q.cursor last)) := by
  obtain ⟨ks, members, descends, shows⟩ := catalogue.shows (walked.trans run)
  have known : ∀ k ∈ seen.getLast?, k ∈ ks := by
    intro k hk
    have mem := List.mem_of_getLast? hk
    exact (members k).2 (catalogue.grows walked run (h.there k mem))
  obtain ⟨page, now, later, answer, parts, shown, reads, cursor⟩ :=
    shows seen.getLast? limit known fair
  have below : ∀ k ∈ now ++ later, k ∈ ks ∧ seen.getLast?.all (q.lt k ·) = true := by
    intro k hk
    rw [← parts, List.mem_filter] at hk
    exact hk
  have ordered : Descends q.lt (now ++ later) := by
    rw [← parts]
    exact descends.filter _
  -- what the walk still misses of what was there at its start stands behind this page
  have behind : ∀ k, has s.book k → k ∉ seen ++ now → k ∈ later := by
    intro k hk unseen
    rw [List.mem_append, not_or] at unseen
    have mem : k ∈ now ++ later := by
      rw [← parts, List.mem_filter]
      exact ⟨(members k).2 (catalogue.grows .start (walked.trans run) hk),
        h.missing k hk unseen.1⟩
    rcases List.mem_append.1 mem with hk | hk
    · exact absurd hk unseen.2
    · exact hk
  refine ⟨page, now, answer, reads, ?_, ?_⟩
  · exact {
      items := by rw [List.map_append, List.map_append, h.items, shown]
      descends := catalogue.order.descends_append h.descends (List.pairwise_append.1 ordered).1
        fun k hk => (below k (List.mem_append_left _ hk)).2
      there := by
        intro k hk
        rcases List.mem_append.1 hk with hk | hk
        · exact catalogue.grows walked run (h.there k hk)
        · exact (members k).1 (below k (List.mem_append_left _ hk)).1
      top := by
        intro k hk
        cases hs : seen with
        | nil =>
            rw [hs, List.nil_append] at hk
            have mem := (below k (List.mem_append_left _ (List.mem_of_mem_head? hk))).1
            rw [← fresh hs]
            exact (members k).1 mem
        | cons x rest =>
            rw [hs] at hk
            exact h.top k (by rw [hs]; exact hk)
      missing := by
        intro k hk unseen
        have mem := behind k hk unseen
        rcases cursor with ⟨-, none⟩ | ⟨last, hlast, -⟩
        · rw [none] at mem
          cases mem
        · rw [List.getLast?_append, hlast]
          exact (List.pairwise_append.1 ordered).2.2 last (List.mem_of_getLast? hlast) k mem }
  · rcases cursor with ⟨stop, none⟩ | more
    · refine .inl ⟨stop, fun k hk => ?_⟩
      by_cases mem : k ∈ seen ++ now
      · exact mem
      · have rest := behind k hk mem
        rw [none] at rest
        cases rest
    · exact .inr more

/-- The page behind the cursor of a walk takes it on. -/
theorem Progress.page_behind (h : Progress q has s s' items seen) (catalogue : Catalogue P q has s)
    (walked : Reaches P s s') (run : Reaches P s' s'') {last : κ}
    (hlast : seen.getLast? = some last) {limit : Option Number} (fair : Page.Fair limit) :
    ∃ page now, q.ask s''.book (some (q.cursor last)) limit = .ok page ∧
      (∀ i ∈ page.items, q.reads s''.book i) ∧
      Progress q has s s'' (items ++ page.items) (seen ++ now) ∧
      (page.next = none ∧ (∀ k, has s.book k → k ∈ seen ++ now) ∨
        ∃ last, now.getLast? = some last ∧ page.next = some (q.cursor last)) := by
  have begun : seen = [] → s'' = s := by
    intro none
    rw [none] at hlast
    cases hlast
  have page := h.page catalogue walked run begun fair
  rwa [hlast] at page

/-- If what comes in is above all that was there, all that a walk has seen was there. -/
theorem Progress.existed (h : Progress q has s s' items seen)
    (above : ∀ {k x}, has s.book k → has s'.book x → q.lt x k = true → has s.book x) :
    ∀ x ∈ seen, has s.book x := by
  obtain ⟨-, descends, there, top, -⟩ := h
  cases seen with
  | nil => nofun
  | cons y rest =>
      have first : has s.book y := top y rfl
      intro x hx
      rcases List.mem_cons.1 hx with rfl | mem
      · exact first
      · exact above first (there x hx) ((List.pairwise_cons.1 descends).1 x mem)

/-- A walk has either seen all that was there, or has a cursor at the last key that it has seen and
has seen a key on every page. -/
theorem Catalogue.progress (catalogue : Catalogue P q has s)
    (h : Walk P q.ask s s' items count next) :
    ∃ seen, Progress q has s s' items seen ∧
      (next = none ∧ (∀ k, has s.book k → k ∈ seen) ∧ count ≤ seen.length + 1 ∨
        ∃ last, seen.getLast? = some last ∧ next = some (q.cursor last) ∧ count ≤ seen.length) := by
  induction h with
  | first fair answer =>
      obtain ⟨page, now, asked, -, progress, cursor⟩ :=
        (Progress.start q has s).page catalogue .start .start (fun _ => rfl) fair
      cases answer.symm.trans asked
      refine ⟨now, progress, ?_⟩
      rcases cursor with ⟨stop, all⟩ | ⟨last, hlast, more⟩
      · exact .inl ⟨stop, all, Nat.le_add_left ..⟩
      · exact .inr ⟨last, hlast, more, List.length_pos_of_mem (List.mem_of_getLast? hlast)⟩
  | next walk run fair answer ih =>
      obtain ⟨seen, progress, ⟨stop, -⟩ | ⟨last, hlast, more, fewer⟩⟩ := ih
      · cases stop
      · cases more
        obtain ⟨page, now, asked, -, progress, cursor⟩ :=
          progress.page_behind catalogue walk.reaches run hlast fair
        cases answer.symm.trans asked
        refine ⟨seen ++ now, progress, ?_⟩
        rw [List.length_append]
        rcases cursor with ⟨stop, all⟩ | ⟨last', hlast', more'⟩
        · exact .inl ⟨stop, all, by omega⟩
        · have pos := List.length_pos_of_mem (List.mem_of_getLast? hlast')
          exact .inr ⟨last', by rw [List.getLast?_append, hlast']; rfl, more', by omega⟩

theorem Catalogue.enumerates (catalogue : Catalogue P q has s) {before : Key → Key → Prop}
    (ordered : ∀ {s' k l}, Reaches P s s' → has s'.book k → has s'.book l → q.lt k l = true →
      before (q.shown k) (q.shown l)) {existing : List Key}
    (present : ∀ k ∈ existing, ∃ x, has s.book x ∧ q.shown x = k) :
    Enumerates P q.ask q.key q.reads before existing s where
  starts limit fair := by
    obtain ⟨page, -, asked, reads, -⟩ :=
      (Progress.start q has s).page catalogue .start .start (fun _ => rfl) fair
    exact ⟨page, asked, reads⟩
  continues walk run fair := by
    obtain ⟨seen, progress, ⟨stop, -⟩ | ⟨last, hlast, more, -⟩⟩ := catalogue.progress walk
    · cases stop
    · cases more
      obtain ⟨page, -, asked, reads, -⟩ :=
        progress.page_behind catalogue walk.reaches run hlast fair
      exact ⟨page, asked, reads⟩
  descending walk := by
    obtain ⟨seen, progress, -⟩ := catalogue.progress walk
    rw [progress.items, List.pairwise_map]
    refine progress.descends.imp_of_mem fun hk hl hlt => ?_
    exact ordered walk.reaches (progress.there _ hl) (progress.there _ hk) hlt
  distinct walk := by
    obtain ⟨seen, progress, -⟩ := catalogue.progress walk
    have nodup := catalogue.order.nodup progress.descends
    rw [progress.items, List.Nodup, List.pairwise_map]
    exact nodup.imp fun {k l} hne same => hne (catalogue.injective same)
  complete walk := by
    obtain ⟨seen, progress, ⟨-, all, -⟩ | ⟨last, -, more, -⟩⟩ := catalogue.progress walk
    · intro k hk
      obtain ⟨x, hx, rfl⟩ := present k hk
      rw [progress.items]
      exact List.mem_map_of_mem (all x hx)
    · cases more

/-- If what comes in is above all that was there, a walk sees nothing of it. -/
theorem Catalogue.enumeratesOnly (catalogue : Catalogue P q has s) {before : Key → Key → Prop}
    (ordered : ∀ {s' k l}, Reaches P s s' → has s'.book k → has s'.book l → q.lt k l = true →
      before (q.shown k) (q.shown l)) {existing : List Key}
    (present : ∀ k, k ∈ existing ↔ ∃ x, has s.book x ∧ q.shown x = k)
    (above : ∀ {s' k x}, Reaches P s s' → has s.book k → has s'.book x → q.lt x k = true →
      has s.book x) :
    EnumeratesOnly P q.ask q.key q.reads before existing s := by
  have enumerates := catalogue.enumerates ordered fun k hk => (present k).1 hk
  have only : ∀ {s' items count next}, Walk P q.ask s s' items count next →
      items.map q.key ⊆ existing := by
    intro s' items count next walk k hk
    obtain ⟨seen, progress, -⟩ := catalogue.progress walk
    rw [progress.items] at hk
    obtain ⟨x, mem, rfl⟩ := List.mem_map.1 hk
    exact (present _).2 ⟨x, progress.existed (above walk.reaches) x mem, rfl⟩
  refine { enumerates with only, ends := ?_ }
  intro s' items count next walk
  obtain ⟨seen, progress, cursor⟩ := catalogue.progress walk
  have fits := (enumerates.distinct walk).length_le_of_subset (only walk)
  rw [progress.items, List.length_map] at fits
  rcases cursor with ⟨-, -, fewer⟩ | ⟨-, -, -, fewer⟩ <;> omega

end catalogue
end walks
end Pawnbook
