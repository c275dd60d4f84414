import Pawnbook.Proofs.Session

/-! # The two state machines

In every reachable session the listings and the offers agree on which loans have started
(`Book.Consistent`), and the next move takes no record further than one edge of its state machine
(`Book.Follows`), however stale or repeated the transaction is that it carries out. -/

namespace Pawnbook

theorem eq_singleton_of_pairwise {ids : List Key} {id id' : Key}
    (distinct : ids.Pairwise fun i j => (i == j) = false)
    (same : ∀ i ∈ ids, (i == id) = true) (mem : id' ∈ ids) : ids = [id'] := by
  cases ids with
  | nil => cases mem
  | cons i rest =>
      cases rest with
      | nil => rw [List.mem_singleton.1 mem]
      | cons j rest =>
          have hne := (List.pairwise_cons.1 distinct).1 j List.mem_cons_self
          have hi := same i List.mem_cons_self
          have hj := same j (List.mem_cons_of_mem _ List.mem_cons_self)
          rw [BEq.trans hi (BEq.symm hj)] at hne
          cases hne

namespace Book

/-- The ids of the accepted offers among those that are listed under a listing. -/
def acceptedOn (b : Book) (key : ListingKey) : List Key :=
  (b.offers.byListing key).filter fun id => (b.storedOffer? id).any (·.state = .accepted)

/-- Listings and offers agree on which loans have started, and offers hold what their states call
for. -/
structure Consistent (b : Book) : Prop where
  /-- A listing with a loan names a start that is not ahead of the chain and the only accepted
  offer on it. -/
  lent : ∀ key l, b.listing? key = some l → l.state.hasLoan = true →
    ∃ id id' start height, l.activeOffer = some id ∧ b.acceptedOn key = [id'] ∧
      (id' == id) = true ∧ l.startBlock = some (.int start) ∧ b.height = .whole height ∧
      start ≤ height
  /-- A listing without a loan names neither, and no offer on it is accepted. -/
  idle : ∀ key l, b.listing? key = some l → l.state.hasLoan = false →
    l.activeOffer = none ∧ l.startBlock = none ∧ b.acceptedOn key = []
  /-- The deposit of an offer is what its state calls for. -/
  escrow : ∀ id o, b.storedOffer? id = some o → ∃ t, o.terms = some t ∧ o.Escrowed t

section consistent
variable {b : Book} {key : ListingKey} {l : Listing}

/-- The accepted offers on a listing are the ones that it names. -/
theorem Coherent.active_of_mem_acceptedOn (hb : b.Coherent) (hl : b.listing? key = some l)
    {id : Key} (h : id ∈ b.acceptedOn key) : ∃ k, l.activeOffer = some k ∧ (k == id) = true := by
  obtain ⟨hm, ha⟩ := List.mem_filter.1 h
  obtain ⟨o, ho, hk⟩ := hb.index.mem_byListing hm
  have ho : b.storedOffer? id = some o := ho
  rw [ho, Option.any_some, decide_eq_true_eq] at ha
  obtain ⟨l', hl', hacc⟩ := (hb.offer id o ho).listed
  rw [b.listing?_congr hk, hl] at hl'
  cases hl'
  exact hacc ha

theorem Coherent.acceptedOn_eq_nil (hb : b.Coherent) (hl : b.listing? key = some l)
    (hn : l.activeOffer = none) : b.acceptedOn key = [] := by
  apply List.eq_nil_iff_forall_not_mem.2
  intro id h
  obtain ⟨k, hk, -⟩ := hb.active_of_mem_acceptedOn hl h
  cases hn.symm.trans hk

theorem Coherent.acceptedOn_eq_singleton (hb : b.Coherent) (hl : b.listing? key = some l)
    {id : Key} {o : Offer} (hid : l.activeOffer = some id) (ho : b.storedOffer? id = some o)
    (ha : o.state = .accepted) (hk : (o.listing == key) = true) :
    ∃ id', b.acceptedOn key = [id'] ∧ (id' == id) = true := by
  obtain ⟨id', hm, hii⟩ := hb.index.exists_mem_byListing (show b.offers.get? id = some o from ho) hk
  have hmem : id' ∈ b.acceptedOn key := by
    refine List.mem_filter.2 ⟨hm, ?_⟩
    rw [b.storedOffer?_congr hii, ho, Option.any_some, decide_eq_true_eq]
    exact ha
  have same : ∀ i ∈ b.acceptedOn key, (i == id) = true := by
    intro i hi
    obtain ⟨k, hkey, hki⟩ := hb.active_of_mem_acceptedOn hl hi
    cases hid.symm.trans hkey
    exact BEq.symm hki
  have distinct := (hb.index.pairwise_byListing key).filter
    fun id => (b.storedOffer? id).any (·.state = .accepted)
  exact ⟨id', eq_singleton_of_pairwise distinct same hmem, hii⟩

theorem Coherent.consistent (hb : b.Coherent) : b.Consistent where
  lent key l hl hs := by
    obtain ⟨id, o, start, height, hid, ho, ha, hk, hstart, hheight, hle⟩ :=
      (hb.listing key l hl).lent hs
    obtain ⟨id', hone, hii⟩ := hb.acceptedOn_eq_singleton hl hid ho ha hk
    exact ⟨id, id', start, height, hid, hone, hii, hstart, hheight, hle⟩
  idle key l hl hs := by
    obtain ⟨ha, hv⟩ := (hb.listing key l hl).idle hs
    exact ⟨ha, hv, hb.acceptedOn_eq_nil hl ha⟩
  escrow id o ho := (hb.offer id o ho).escrow

end consistent
end Book

/-- After every run the records are consistent, and every further move takes each record along at
most one edge of its state machine: assets, the identity and the terms of an offer never change. -/
theorem consistent_and_follows {P : Book → Move → Prop} {s₀ s : Session} (fresh : s₀.IsFresh)
    (run : Reaches P s₀ s) :
    s.book.Consistent ∧ ∀ m, s.book.Follows (s.after m).book := by
  have sound := run.sound fresh
  exact ⟨sound.book.consistent, fun m => (sound.moved m).follows sound.book⟩

theorem consistent_and_follows_lent : Session.lent.book.Consistent ∧
    ∀ m, Session.lent.book.Follows (Session.lent.after m).book := by
  have run : Reaches (fun _ _ => True) Session.opening Session.lent :=
    Session.reaches_lent (by decide +kernel)
  exact consistent_and_follows Session.isFresh_opening run

end Pawnbook
