import Pawnbook.Proofs.Counting
import Pawnbook.Query

/-! # Numbers in step

The book gives out three kinds of numbers. Offers are numbered through the whole book, and once
more among the offers on their listing; listings are numbered for each borrower. The counts are
kept in other records than what they number: in the configuration, in the listing, in the
borrower's record. `Book.Numbered` says of the tables, entry by entry, that counts and keys are in
step; what a transaction writes keeps them so (`Numbered.putAll`), and `Book.InStep` is what this
comes to for the look-ups. -/

namespace Pawnbook

section chains
variable {ε α β : Type}

theorem mapM_of_ok {f : α → Except ε β} {g : α → β} : ∀ {as : List α},
    (∀ a ∈ as, f a = .ok (g a)) → as.mapM f = .ok (as.map g)
  | [], _ => rfl
  | a :: as, h => by
      rw [List.forall_mem_cons] at h
      rw [List.mapM_cons, h.1, mapM_of_ok h.2]
      rfl

theorem filterAuxM_of_ok {f : α → Except ε Bool} {p : α → Bool} : ∀ (as found : List α),
    (∀ a ∈ as, f a = .ok (p a)) →
      List.filterAuxM f as found = .ok ((as.filter p).reverse ++ found)
  | [], _, _ => rfl
  | a :: as, found, h => by
      rw [List.forall_mem_cons] at h
      refine bind_of_ok h.1 ((filterAuxM_of_ok as _ h.2).trans ?_)
      cases hp : p a <;> simp [hp]

theorem filterM_of_ok {f : α → Except ε Bool} {p : α → Bool} {as : List α}
    (h : ∀ a ∈ as, f a = .ok (p a)) : as.filterM f = .ok (as.filter p) := by
  refine bind_of_ok (filterAuxM_of_ok as [] h) ?_
  rw [List.append_nil, List.reverse_reverse]
  rfl

end chains

/-- The number of listings that a borrower's record stands for. -/
inductive Stored.Lists : Option Stored → Nat → Prop
  | none : Lists none 0
  | some (n : Nat) : Lists (some (.borrower ⟨.int n⟩)) (n + 1)

theorem Stored.Lists.nextId {b : Book} {name : Key} {n : Nat}
    (h : Lists (b.borrowers.get? name) n) :
    Borrower.nextId (b.borrower? name) = .ok (.int n) := by
  unfold Book.borrower?
  generalize b.borrowers.get? name = r at h
  cases h with
  | none => rfl
  | some n => rfl

namespace Book

/-! ### Numbered tables -/

/-- The key of a borrower's listing of some number. -/
def listingKey (p : String × Nat) : Key := .pair p.1 (.int p.2)

/-- The positions of the offers on a listing, in the order in which the offers came in. -/
def positionsOn (b : Book) (key : ListingKey) : List Value :=
  b.offers.offers.values.filterMap fun o => if o.listing == key then some o.position else none

/-- The offers are numbered from one, up to the count that the configuration keeps, and the last
number can be written. -/
def OffersNumbered (b : Book) : Prop :=
  ∃ n : Nat, b.config.lastOffer = .int n ∧ (n ≠ 0 → (Value.int n).Writable) ∧
    b.offers.ids = (List.range n).map fun i : Nat => .ofOffer (i + 1)

/-- The listings of every borrower are numbered from zero, as many as the borrower's record stands
for. -/
def ListingsNumbered (b : Book) : Prop :=
  ∃ ps : List (String × Nat), b.listings.keys = ps.map listingKey ∧
    ∀ name : Key, ∃ n, Stored.Lists (b.borrowers.get? name) n ∧
      (ps.filter fun p => (p.1 : Key) == name).map (·.2) = List.range n

/-- The offers on every listing have the positions from one up to the count of the listing. -/
def PositionsNumbered (b : Book) : Prop :=
  ∀ key l, b.listing? key = some l → ∃ n : Nat, l.offerCount = .int n ∧
    b.positionsOn key = (List.range n).map fun k : Nat => .int (k + 1)

/-- Offers, listings and positions are numbered without gaps, in the order of the tables. -/
structure Numbered (b : Book) : Prop where
  offers : b.OffersNumbered
  listings : b.ListingsNumbered
  positions : b.PositionsNumbered

section numbered
variable {b b' : Book}

theorem ids_put_stored {id : Key} {o₀ old o : Offer} (h : b.storedOffer? id = some o₀) :
    (b.put (.offer id (some old) o)).offers.ids = b.offers.ids :=
  Table.keys_insert_of_get? h

/-- A new offer comes last on its listing. -/
theorem positionsOn_put_new {id : Key} {o : Offer} (h : b.storedOffer? id = none)
    (key : ListingKey) : (b.put (.offer id none o)).positionsOn key =
      b.positionsOn key ++ if o.listing == key then [o.position] else [] := by
  have entries : (b.put (.offer id none o)).offers.offers.entries =
      b.offers.offers.entries ++ [(id, o)] := Table.put_of_find?_none id o h
  rw [positionsOn, Table.values, entries, List.map_append, List.filterMap_append]
  refine congrArg (b.positionsOn key ++ ·) ?_
  by_cases on : o.listing == key <;> simp [on]

theorem positionsOn_put_stored {id : Key} {o₀ old o : Offer} (h : b.storedOffer? id = some o₀)
    (same : { o with state := o₀.state, deposit := o₀.deposit } = o₀) (key : ListingKey) :
    (b.put (.offer id (some old) o)).positionsOn key = b.positionsOn key := by
  have listing : o.listing = o₀.listing := (congrArg Offer.listing same :)
  have position : o.position = o₀.position := (congrArg Offer.position same :)
  have kept := Table.map_put
    (fun e : Key × Offer => if e.2.listing == key then some e.2.position else none) id o h
    fun _ => by simp only [listing, position]
  have shown := congrArg (List.filterMap fun v => v) kept
  have entries : (b.put (.offer id (some old) o)).offers.offers.entries =
      Table.put id o b.offers.offers.entries := rfl
  simpa only [positionsOn, Table.values, entries, List.filterMap_map, Function.comp_def] using shown

theorem PositionsNumbered.relist (h : b.PositionsNumbered) {key : ListingKey} {l new : Listing}
    (stored : b.listing? key = some l) (count : new.offerCount = l.offerCount)
    (written : ∀ key', b'.listing? key' = if key == key' then some new else b.listing? key')
    (kept : ∀ key', b'.positionsOn key' = b.positionsOn key') : b'.PositionsNumbered := by
  intro key' l' hl'
  rw [written] at hl'
  rw [kept]
  split at hl'
  · rename_i same
    cases hl'
    rw [count]
    exact h key' l ((b.listing?_congr same).symm.trans stored)
  · exact h key' l' hl'

theorem Coherent.positionsOn_eq_nil (hb : b.Coherent) {key : ListingKey}
    (fresh : b.listing? key = none) : b.positionsOn key = [] := by
  rw [positionsOn, List.filterMap_eq_nil_iff]
  intro o mem
  obtain ⟨⟨id, o⟩, entry, rfl⟩ := List.mem_map.1 mem
  obtain ⟨l, stored, -⟩ := (hb.offer id o (hb.index.distinct.get?_of_mem entry)).listed
  rw [if_neg]
  intro on
  rw [b.listing?_congr on, fresh] at stored
  cases stored

theorem ListingsNumbered.relist (h : b.ListingsNumbered) {key : ListingKey} {l : Listing}
    {r : Stored} (stored : b.listing? key = some l) (borrowers : b'.borrowers = b.borrowers)
    (listings : b'.listings = b.listings.insert key r) : b'.ListingsNumbered := by
  obtain ⟨ps, keys, numbers⟩ := h
  refine ⟨ps, ?_, ?_⟩
  · rw [listings, Table.keys_insert_of_get? (get?_of_listing? stored), keys]
  · rw [borrowers]
    exact numbers

theorem ListingsNumbered.list (h : b.ListingsNumbered) {name : String} {n : Int} {l : Listing}
    (next : Borrower.nextId (b.borrower? name) = .ok (.int n))
    (fresh : b.listings.get? (ListingKey.mk name (.int n)) = none)
    (borrowers : b'.borrowers = b.borrowers.insert name (.borrower ⟨.int n⟩))
    (listings : b'.listings = b.listings.insert (ListingKey.mk name (.int n)) (.listing l)) :
    b'.ListingsNumbered := by
  obtain ⟨ps, keys, numbers⟩ := h
  obtain ⟨m, lists, range⟩ := numbers name
  obtain rfl : n = m := by
    cases next.symm.trans lists.nextId
    rfl
  refine ⟨ps ++ [(name, m)], ?_, fun name' => ?_⟩
  · rw [listings, Table.keys_insert_of_none fresh, keys, List.map_append]
    rfl
  · rw [borrowers, Table.get?_insert, List.filter_append, List.map_append]
    by_cases same : ((name : Key) == name') = true
    · obtain ⟨m', lists', range'⟩ := numbers name'
      rw [← Table.get?_congr _ same] at lists'
      have equal : m' = m := by
        have next' := lists'.nextId
        cases lists.nextId.symm.trans next'
        rfl
      refine ⟨m + 1, ?_, ?_⟩
      · rw [if_pos same]
        exact .some m
      · rw [range', equal, List.range_succ]
        simp [same]
    · obtain ⟨m', lists', range'⟩ := numbers name'
      refine ⟨m', ?_, ?_⟩
      · rw [if_neg same]
        exact lists'
      · rw [range']
        simp [same]

/-- Changes that go on from the numbers of a book keep them in step. -/
theorem Numbered.putAll (h : b.Numbered) (hb : b.Coherent) {cs : List Change}
    (counts : b.Counts cs) : (b.putAll cs).Numbered := by
  cases counts with
  | @list name old n l next fresh count =>
      refine ⟨h.offers, h.listings.list next fresh rfl rfl, fun key l' hl' => ?_⟩
      have missing : b.listing? ⟨name, .int n⟩ = none := by rw [listing?, fresh]; rfl
      have written := listing?_put_listing (b.put (.borrower name old ⟨.int n⟩))
        ⟨name, .int n⟩ key none l
      rw [putAll_cons, putAll_cons, putAll_nil, written] at hl'
      split at hl'
      · rename_i same
        cases hl'
        have empty := hb.positionsOn_eq_nil ((b.listing?_congr same).symm.trans missing)
        exact ⟨0, count, empty⟩
      · exact h.positions key l' hl'
  | @relist key old l new stored count =>
      have written := fun key' => b.listing?_put_listing key key' (some old) new
      exact ⟨h.offers, h.listings.relist stored rfl rfl,
        h.positions.relist stored count written fun _ => rfl⟩
  | @offer config config' key old l new o last n counted recounted stored count recount fresh on
      position numbered =>
      obtain ⟨m, hm, -, ids⟩ := h.offers
      cases counted.symm.trans hm
      refine ⟨⟨m + 1, recounted, fun _ => numbered, ?_⟩, h.listings.relist stored rfl rfl,
        fun key' l' hl' => ?_⟩
      · rw [List.range_succ, List.map_append, ← ids]
        exact Table.keys_insert_of_none fresh
      · have written :=
          listing?_put_listing (b.put (.config config config')) key key' (some old) new
        have placed := positionsOn_put_new (o := o) fresh key'
        have hl' := written.symm.trans hl'
        rw [on] at placed
        split at hl'
        · rename_i same
          cases hl'
          obtain ⟨k, hk, positions⟩ :=
            h.positions key' l ((b.listing?_congr same).symm.trans stored)
          cases count.symm.trans hk
          refine ⟨k + 1, recount, placed.trans ?_⟩
          rw [positions, if_pos same, position, List.range_succ, List.map_append]
          rfl
        · rename_i other
          obtain ⟨k, hk, positions⟩ := h.positions key' l' hl'
          refine ⟨k, hk, placed.trans ?_⟩
          rw [if_neg other, List.append_nil, positions]
  | @accept key old l new id o o' old' stored count offer same =>
      obtain ⟨n, last, short, ids⟩ := h.offers
      have ids' : (b.put (.offer id (some old') o')).offers.ids = _ :=
        (ids_put_stored offer).trans ids
      have written := fun key' => b.listing?_put_listing key key' (some old) new
      have kept : ∀ key', (b.put (.offer id (some old') o')).positionsOn key' = _ :=
        positionsOn_put_stored offer same
      exact ⟨⟨n, last, short, ids'⟩, h.listings.relist stored rfl rfl,
        h.positions.relist stored count written kept⟩
  | @settle id o o' old' offer same =>
      obtain ⟨n, last, short, ids⟩ := h.offers
      refine ⟨⟨n, last, short, (ids_put_stored offer).trans ids⟩, h.listings, fun key l hl => ?_⟩
      obtain ⟨n, hn, positions⟩ := h.positions key l hl
      exact ⟨n, hn, (positionsOn_put_stored offer same key).trans positions⟩
  | configure count =>
      obtain ⟨n, last, short, ids⟩ := h.offers
      exact ⟨⟨n, count.trans last, short, ids⟩, h.listings, h.positions⟩

/-! ### Over a run -/

theorem Moved.numbered {P : Book → Move → Prop} {m : Move}
    (h : b.Moved (fun b m => P b m ∧ b.Recorded) m b') (hb : b.Coherent) (recorded : b.Recorded)
    (numbered : b.Numbered) : b'.Numbered := by
  cases h with
  | still | number | advance | fund | mint | transfer =>
      exact ⟨numbered.offers, numbered.listings, numbered.positions⟩
  | @post place p b₀ e a ss as source posting honoured covered fits =>
      have counts := source.computed.plan.counts source.coherent hb source.since
        source.allowed.2 recorded (fits_of_changesRefusal? fits)
      obtain ⟨offers, listings, positions⟩ := numbered.putAll hb counts
      rw [posted_eq]
      exact ⟨offers, listings, positions⟩

end numbered
end Book

theorem Session.IsFresh.numbered {s : Session} (h : s.IsFresh) : s.book.Numbered := by
  refine ⟨⟨0, ?_, ?_, ?_⟩, ⟨[], ?_, fun name => ⟨0, ?_, rfl⟩⟩, fun key l hl => ?_⟩
  · obtain ⟨e, name, feeDistributor, rate, owner, hc⟩ := h.config
    exact Config.lastOffer_of_instantiate hc
  · simp
  · rw [h.offers]
    rfl
  · rw [h.listings]
    rfl
  · rw [h.borrowers]
    exact .none
  · rw [Book.listing?, h.listings] at hl
    cases hl

theorem Reaches.numbered {P : Book → Move → Prop} {s₀ s : Session} (run : Reaches P s₀ s)
    (fresh : s₀.IsFresh) : s.book.Numbered := by
  obtain ⟨run, -⟩ := run.recorded fresh
  exact run.invariant fresh fresh.numbered fun hb allowed moved numbered =>
    moved.numbered hb allowed.2 numbered

/-! ### Numbers by look-up -/

namespace Book

/-- Counts, ids and projections are in step. -/
structure InStep (b : Book) : Prop where
  /-- The ids of the offers are the numbers from one up to the count of all offers, in order. -/
  offers : ∃ n : Nat, b.config.lastOffer = .int n ∧
    b.offers.ids = (List.range n).map fun i : Nat => .ofOffer (i + 1)
  /-- The listings of a borrower have the ids from zero up to the last one that the borrower's
  record names. -/
  listings : ∀ name r, b.borrowers.get? name = some r → ∃ n : Nat, r = .borrower ⟨.int n⟩ ∧
    b.listingIds (some name) = .ok ((List.range (n + 1)).map fun i : Nat => .int i)
  /-- Who has no record has no listing. -/
  unlisted : ∀ name, b.borrowers.get? name = none → b.listingIds (some name) = .ok []
  /-- Every offer is on a listing that is there. -/
  placed : ∀ id o, b.storedOffer? id = some o → ∃ l, b.listing? o.listing = some l
  /-- The projection of a listing has the ids of the offers on it, in the order of their numbers. -/
  projected : ∀ key : ListingKey, b.offers.byListing key =
    b.offers.ids.filter fun id => (b.storedOffer? id).any (·.listing == key)
  /-- A listing counts the offers on it, and these have the positions from one on, in order. -/
  counted : ∀ key l, b.listing? key = some l →
    l.offerCount = .int (b.offers.byListing key).length ∧
      (b.offers.byListing key).map (fun id => (b.storedOffer? id).map (·.position)) =
        (List.range (b.offers.byListing key).length).map fun k : Nat => some (.int (k + 1))

section lookups
variable {b : Book}

theorem listingIds_of_keys {ps : List (String × Nat)} (keys : b.listings.keys = ps.map listingKey)
    (name : Key) : b.listingIds (some name) =
      .ok (((ps.filter fun p => (p.1 : Key) == name).map (·.2)).map fun i : Nat => .int i) := by
  have found : b.listingKeys (some name) =
      .ok ((ps.filter fun p => (p.1 : Key) == name).map listingKey) := by
    have first : ∀ k ∈ ps.map listingKey,
        (do return (← Key.first k) == name : Except Malformed Bool) =
          .ok (k.first.toOption.any (· == name)) := by
      intro k hk
      obtain ⟨p, -, rfl⟩ := List.mem_map.1 hk
      rfl
    rw [listingKeys, keys, filterM_of_ok first, List.filter_map]
    rfl
  have ids : ∀ k ∈ (ps.filter fun p => (p.1 : Key) == name).map listingKey,
      (do return (← Key.both k).2 : Except Malformed Key) = .ok (k.both.toOption.elim k (·.2)) := by
    intro k hk
    obtain ⟨p, -, rfl⟩ := List.mem_map.1 hk
    rfl
  refine bind_of_ok found ((mapM_of_ok ids).trans ?_)
  rw [List.map_map, List.map_map]
  rfl

theorem positionsOn_eq (b : Book) (key : ListingKey) : b.positionsOn key =
    (b.offers.offers.entries.filter fun e => e.2.listing == key).map (·.2.position) := by
  rw [positionsOn, Table.values, List.filterMap_map, ← List.filterMap_eq_map, List.filterMap_filter]
  rfl

theorem Coherent.map_position (hb : b.Coherent) (key : ListingKey) :
    (b.offers.byListing key).map (fun id => (b.storedOffer? id).map (·.position)) =
      (b.positionsOn key).map some := by
  have listed : b.offers.byListing key = _ := hb.index.listings key.toKey
  rw [listed, positionsOn_eq, List.map_map, List.map_map]
  refine List.map_congr_left ?_
  rintro ⟨id, o⟩ mem
  have stored : b.storedOffer? id = some o :=
    hb.index.distinct.get?_of_mem (List.mem_filter.1 mem).1
  rw [Function.comp_apply, stored]
  rfl

theorem Numbered.inStep (h : b.Numbered) (hb : b.Coherent) : b.InStep where
  offers := by
    obtain ⟨n, last, -, ids⟩ := h.offers
    exact ⟨n, last, ids⟩
  listings name r known := by
    obtain ⟨ps, keys, numbers⟩ := h.listings
    obtain ⟨n, lists, range⟩ := numbers name
    rw [known] at lists
    cases lists with
    | some n => exact ⟨n, rfl, by rw [listingIds_of_keys keys, range]⟩
  unlisted name unknown := by
    obtain ⟨ps, keys, numbers⟩ := h.listings
    obtain ⟨n, lists, range⟩ := numbers name
    rw [unknown] at lists
    cases lists with
    | none => rw [listingIds_of_keys keys, range]; rfl
  placed id o stored := by
    obtain ⟨l, listed, -⟩ := (hb.offer id o stored).listed
    exact ⟨l, listed⟩
  projected key := by
    have listed : b.offers.byListing key = _ := hb.index.listings key
    rw [listed]
    exact hb.index.distinct.map_fst_filter (·.listing == key)
  counted key l stored := by
    obtain ⟨n, count, positions⟩ := h.positions key l stored
    have shown := hb.map_position key
    have length := congrArg List.length shown
    rw [positions] at shown length
    simp only [List.length_map, List.length_range] at length
    rw [shown, length, List.map_map]
    exact ⟨count, rfl⟩

end lookups
end Book

/-- After every run of a new contract all numbers are in step. -/
theorem numbers_in_step {P : Book → Move → Prop} {s₀ s : Session} (fresh : s₀.IsFresh)
    (run : Reaches P s₀ s) : s.book.InStep :=
  (run.numbered fresh).inStep (run.sound fresh).book

/-- Bob's offer and Carol's loan are the first two offers, both on Alice's one listing. -/
theorem numbers_in_step_lent : Session.lent.book.InStep ∧
    Session.lent.book.offers.ids = [.ofOffer 1, .ofOffer 2] ∧
    Session.lent.book.listingIds (some "alice") = .ok [.int 0] := by
  have run : Reaches (fun _ _ => True) Session.opening Session.lent :=
    Session.reaches_lent (by decide +kernel)
  exact ⟨numbers_in_step Session.isFresh_opening run, by decide +kernel, by decide +kernel⟩

end Pawnbook
