import Pawnbook.Proofs.Agreement
import Pawnbook.Proofs.Table

/-! # The index of offers under any calls

Insertions and updates may come in any order, with any ids and offers, and some of them fail. What
an index shows after them is told by the calls that succeeded alone (`OfferIndex.Reflects`): its ids
are those that were inserted, in order, its offers the last ones given, and the projections list the
ids by what is stored under them. One call keeps this so (`OfferIndex.Follows.after`), hence all
calls on the empty index (`calls_reflected`). -/

namespace Pawnbook
namespace OfferIndex

/-- A call that writes to an index. -/
inductive Call where
  | insert (id : Key) (o : Offer)
  | update (id : Key) (o : Offer)

namespace Call

def id : Call → Key
  | insert id _ | update id _ => id

def offer : Call → Offer
  | insert _ o | update _ o => o

/-- The id that the call brings in. -/
def inserted? : Call → Option Key
  | insert id _ => some id
  | update .. => none

end Call

/-- The answer to a call: the index that it leaves, or why it fails. -/
def call (x : OfferIndex) : Call → Except Error OfferIndex
  | .insert id o => x.insert id o
  | .update id o => x.update id o

/-- The index after a call; one that fails leaves it as it was. -/
def after (x : OfferIndex) (c : Call) : OfferIndex :=
  match x.call c with
  | .ok y => y
  | .error _ => x

/-- The index after calls. -/
def run (x : OfferIndex) (cs : List Call) : OfferIndex := cs.foldl after x

/-- The call, if it succeeds. -/
def success (x : OfferIndex) (c : Call) : List Call :=
  match x.call c with
  | .ok _ => [c]
  | .error _ => []

/-- Those of the calls that succeed. -/
def successes : OfferIndex → List Call → List Call
  | _, [] => []
  | x, c :: cs => x.success c ++ successes (x.after c) cs

/-- The offer that the last of the calls for the id has given. -/
def latest? (id : Key) (cs : List Call) : Option Offer :=
  (cs.reverse.find? (·.id == id)).map (·.offer)

theorem latest?_append (id : Key) (cs : List Call) (c : Call) :
    latest? id (cs ++ [c]) = if c.id == id then some c.offer else latest? id cs := by
  rw [latest?, List.reverse_append, List.reverse_singleton, List.singleton_append, List.find?_cons]
  split <;> rename_i h <;> simp [h, latest?]

/-- What the index shows is told by the calls that succeeded. -/
structure Reflects (x : OfferIndex) (cs : List Call) : Prop where
  /-- The ids are those that were inserted, in order. -/
  ids : x.ids = cs.filterMap (·.inserted?)
  /-- None of them is repeated. -/
  distinct : x.ids.Pairwise fun i j => (i == j) = false
  /-- An offer is that of the last call for its id. -/
  latest : ∀ id, x.get? id = latest? id cs
  /-- A lender's ids are those with an offer of the lender. -/
  byLender : ∀ lender, x.byLender lender =
    x.ids.filter fun id => (x.get? id).any (·.lender == lender)
  /-- A listing's ids are those with an offer on the listing. -/
  byListing : ∀ key : ListingKey, x.byListing key =
    x.ids.filter fun id => (x.get? id).any (·.listing == key)
  /-- Every id is listed under one lender and one listing, those of its offer. -/
  listed : ∀ id ∈ x.ids, ∃ o, x.get? id = some o ∧
    (∀ lender, id ∈ x.byLender lender ↔ (o.lender == lender) = true) ∧
    ∀ key : ListingKey, id ∈ x.byListing key ↔ (o.listing == key) = true
  /-- An insertion succeeds for a new id. -/
  insertable : ∀ id o, (∃ y, x.insert id o = .ok y) ↔ ∀ c ∈ cs, (c.id == id) = false
  /-- An update succeeds for an id that is there, if its lender and its listing stay. -/
  updatable : ∀ id o, (∃ y, x.update id o = .ok y) ↔ ∃ c ∈ cs, (c.id == id) = true ∧
    (c.offer.lender == o.lender) = true ∧ (c.offer.listing == o.listing) = true

/-! ### One call -/

/-- The index is coherent, and the calls that succeeded have made it. -/
structure Follows (x : OfferIndex) (cs : List Call) : Prop where
  coherent : x.Coherent
  ids : x.ids = cs.filterMap (·.inserted?)
  latest : ∀ id, x.get? id = latest? id cs
  /-- No offer has moved to another lender or listing. -/
  settled : ∀ c ∈ cs, ∃ o, x.get? c.id = some o ∧ (c.offer.lender == o.lender) = true ∧
    (c.offer.listing == o.listing) = true

theorem follows_empty : empty.Follows [] where
  coherent := coherent_empty
  ids := rfl
  latest _ := rfl
  settled _ hc := absurd hc List.not_mem_nil

/-- Why a call fails, told by the index. -/
def failure? (x : OfferIndex) : Call → Option Error
  | .insert id _ => if (x.get? id).isSome then some (.malformed (.offerExists id.value)) else none
  | .update id o =>
    match x.get? id with
    | none => some (.unknownOffer id)
    | some current =>
      if current.lender == o.lender && current.listing == o.listing then none
      else some (.malformed (.offerMoved id.value))

/-- The index that a call leaves if it succeeds. -/
def written (x : OfferIndex) : Call → OfferIndex
  | .insert id o => x.add id o
  | .update id o => x.replace id o

theorem call_eq (x : OfferIndex) (c : Call) : x.call c =
    match x.failure? c with
    | some e => .error e
    | none => .ok (x.written c) := by
  cases c with
  | insert id o =>
      rw [call, failure?]
      cases h : x.get? id with
      | none => rw [insert_eq_add h]; rfl
      | some o₀ =>
        unfold insert
        have present : x.offers.contains id = true := by
          rw [Table.contains, show x.offers.get? id = some o₀ from h, Option.isSome_some]
        rw [present]
        rfl
  | update id o =>
      rw [call, failure?, update]
      cases h : x.get? id with
      | none => rfl
      | some o₀ =>
          dsimp only
          split <;> rfl

section step
variable {x : OfferIndex} {cs : List Call} {c : Call}

theorem after_of_none (h : x.failure? c = none) : x.after c = x.written c ∧ x.success c = [c] := by
  rw [after, success, call_eq, h]
  exact ⟨rfl, rfl⟩

theorem after_of_some {e : Error} (h : x.failure? c = some e) :
    x.after c = x ∧ x.success c = [] := by
  rw [after, success, call_eq, h]
  exact ⟨rfl, rfl⟩

theorem get?_written (id : Key) :
    (x.written c).get? id = if c.id == id then some c.offer else x.get? id := by
  cases c with
  | insert => exact get?_add id
  | update => exact get?_replace id

theorem get?_congr {id id' : Key} (h : (id == id') = true) : x.get? id = x.get? id' :=
  Table.get?_congr x.offers h

theorem insert_ok {id : Key} {o : Offer} (ok : x.failure? (.insert id o) = none) :
    x.get? id = none := by
  rw [failure?] at ok
  cases h : x.get? id with
  | none => rfl
  | some o₀ =>
      rw [h] at ok
      cases ok

theorem update_ok {id : Key} {o : Offer} (ok : x.failure? (.update id o) = none) :
    ∃ o₀, x.get? id = some o₀ ∧ (o₀.lender == o.lender) = true ∧
      (o₀.listing == o.listing) = true := by
  rw [failure?] at ok
  cases h : x.get? id with
  | none =>
      rw [h] at ok
      cases ok
  | some o₀ =>
      rw [h] at ok
      dsimp only at ok
      split at ok
      · rename_i same
        exact ⟨o₀, rfl, Bool.and_eq_true_iff.1 same⟩
      · cases ok

/-- A call that succeeds writes over no offer of another lender or listing. -/
theorem settled_of_none (ok : x.failure? c = none) {id : Key} (hid : (c.id == id) = true)
    {o : Offer} (stored : x.get? id = some o) :
    (o.lender == c.offer.lender) = true ∧ (o.listing == c.offer.listing) = true := by
  have current : x.get? c.id = some o := (get?_congr hid).trans stored
  cases c with
  | insert => cases (insert_ok ok).symm.trans current
  | update =>
      obtain ⟨o₀, found, same⟩ := update_ok ok
      cases found.symm.trans current
      exact same

/-- A call that succeeds on an index of such calls makes another one. -/
theorem Follows.written (h : x.Follows cs) (ok : x.failure? c = none) :
    (x.written c).Follows (cs ++ [c]) where
  coherent := by
    cases c with
    | insert => exact h.coherent.add (insert_ok ok)
    | update =>
        obtain ⟨o₀, found, lender, listing⟩ := update_ok ok
        exact h.coherent.replace found lender listing
  ids := by
    rw [List.filterMap_append, ← h.ids]
    cases c with
    | insert => exact Table.keys_insert_of_none (insert_ok ok)
    | update =>
        obtain ⟨o₀, found, -⟩ := update_ok ok
        exact (Table.keys_insert_of_get? found).trans (List.append_nil _).symm
  latest id := by rw [get?_written, latest?_append, h.latest]
  settled := by
    rw [List.forall_mem_append, List.forall_mem_singleton]
    constructor
    · intro c' hc'
      obtain ⟨o, stored, lender, listing⟩ := h.settled c' hc'
      rw [get?_written]
      split
      · rename_i same
        obtain ⟨lender', listing'⟩ := settled_of_none ok same stored
        exact ⟨c.offer, rfl, BEq.trans lender lender', BEq.trans listing listing'⟩
      · exact ⟨o, stored, lender, listing⟩
    · exact ⟨c.offer, by rw [get?_written, if_pos BEq.rfl], BEq.rfl, BEq.rfl⟩

theorem Follows.after (h : x.Follows cs) (c : Call) : (x.after c).Follows (cs ++ x.success c) := by
  cases failure : x.failure? c with
  | none =>
      obtain ⟨after, success⟩ := after_of_none failure
      rw [after, success]
      exact h.written failure
  | some e =>
      obtain ⟨after, success⟩ := after_of_some failure
      rw [after, success, List.append_nil]
      exact h

end step

/-! ### All calls -/

theorem Follows.run : ∀ {x : OfferIndex} {done : List Call} (_ : x.Follows done) (cs : List Call),
    (x.run cs).Follows (done ++ x.successes cs)
  | x, done, h, [] => by
      rw [successes, List.append_nil]
      exact h
  | x, done, h, c :: cs => by
      rw [successes, ← List.append_assoc]
      exact (h.after c).run cs

section reflects
variable {x : OfferIndex} {cs : List Call}

theorem Coherent.byLender_eq (hx : x.Coherent) (lender : Key) : x.byLender lender =
    x.ids.filter fun id => (x.get? id).any (·.lender == lender) :=
  (hx.lenders lender).trans (hx.distinct.map_fst_filter (·.lender == lender))

theorem Coherent.byListing_eq (hx : x.Coherent) (key : ListingKey) : x.byListing key =
    x.ids.filter fun id => (x.get? id).any (·.listing == key) :=
  (hx.listings key).trans (hx.distinct.map_fst_filter (·.listing == key))

theorem exists_ok_iff (c : Call) : (∃ y, x.call c = .ok y) ↔ x.failure? c = none := by
  rw [call_eq]
  cases x.failure? c <;> simp

theorem Follows.get?_eq_none_iff (h : x.Follows cs) {id : Key} :
    x.get? id = none ↔ ∀ c ∈ cs, (c.id == id) = false := by
  rw [h.latest, latest?, Option.map_eq_none_iff, List.find?_eq_none]
  simp

theorem Follows.reflects (h : x.Follows cs) : x.Reflects cs where
  ids := h.ids
  distinct := List.pairwise_map.2 h.coherent.distinct
  latest := h.latest
  byLender := h.coherent.byLender_eq
  byListing := h.coherent.byListing_eq
  listed id hid := by
    obtain ⟨o, stored⟩ := Table.exists_of_mem_keys hid
    have found : x.get? id = some o := stored
    refine ⟨o, found, fun lender => ?_, fun key => ?_⟩
    · rw [h.coherent.byLender_eq, List.mem_filter, found, Option.any_some, and_iff_right hid]
    · rw [h.coherent.byListing_eq, List.mem_filter, found, Option.any_some, and_iff_right hid]
  insertable id o := by
    rw [← h.get?_eq_none_iff, show x.insert id o = x.call (.insert id o) from rfl, exists_ok_iff,
      failure?]
    cases x.get? id <;> simp
  updatable id o := by
    rw [show x.update id o = x.call (.update id o) from rfl, exists_ok_iff]
    constructor
    · intro ok
      obtain ⟨o₀, found, same⟩ := update_ok ok
      obtain ⟨c, hc, rfl⟩ := Option.map_eq_some_iff.1 ((h.latest id).symm.trans found)
      have hid := List.find?_some hc
      exact ⟨c, List.mem_reverse.1 (List.mem_of_find?_eq_some hc), hid, same⟩
    · rintro ⟨c, hc, hid, lender, listing⟩
      obtain ⟨o₀, stored, lender', listing'⟩ := h.settled c hc
      rw [get?_congr hid] at stored
      rw [failure?, stored]
      exact if_pos (Bool.and_eq_true_iff.2 ⟨BEq.trans (BEq.symm lender') lender,
        BEq.trans (BEq.symm listing') listing⟩)

end reflects

/-- Whatever calls are made on the empty index, it reflects those that succeeded; one that fails
leaves it as it was. -/
theorem calls_reflected (cs : List Call) :
    (empty.run cs).Reflects (empty.successes cs) ∧
      ∀ c e, (empty.run cs).call c = .error e → (empty.run cs).after c = empty.run cs := by
  refine ⟨(follows_empty.run cs).reflects, fun c e failed => ?_⟩
  rw [after, failed]

/-- An offer of the lender on Alice's first listing. -/
def offerOf (lender : String) (state : OfferState) : Offer where
  lender := lender
  borrower := "alice"
  loanId := .int 0
  position := .int 1
  terms := none
  state := state
  date := none

/-- Two offers come in, and one is refused; the id of the first is not taken again, the second does
not move to another lender, and there is no third. -/
def mixedCalls : List Call :=
  [.insert "1" (offerOf "bob" .published), .insert "2" (offerOf "carol" .published),
   .insert "1" (offerOf "dave" .published), .update "1" (offerOf "bob" .refused),
   .update "2" (offerOf "bob" .published), .update "3" (offerOf "bob" .published)]

theorem calls_reflected_mixed :
    (empty.run mixedCalls).ids = [Key.text "1", Key.text "2"] ∧
      (empty.run mixedCalls).get? "1" = some (offerOf "bob" .refused) ∧
      (empty.run mixedCalls).byLender "bob" = [Key.text "1"] ∧
      (empty.run mixedCalls).call (.insert "2" (offerOf "bob" .published)) =
        .error (.malformed (.offerExists "2")) ∧
      (empty.run mixedCalls).after (.insert "2" (offerOf "bob" .published)) =
        empty.run mixedCalls := by
  obtain ⟨reflects, unchanged⟩ := calls_reflected mixedCalls
  have failed : (empty.run mixedCalls).call (.insert "2" (offerOf "bob" .published)) =
    .error (.malformed (.offerExists "2")) := rfl
  refine ⟨reflects.ids.trans (by decide), (reflects.latest "1").trans (by decide), ?_, failed,
    unchanged _ _ failed⟩
  rw [reflects.byLender, reflects.ids]
  decide

end OfferIndex
end Pawnbook
