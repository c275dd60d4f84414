import Pawnbook.Proofs.Application
import Pawnbook.Proofs.Recorded

/-! # Numbers that are counted on

Three counts give out numbers: that of all offers, that of the offers on a listing, and that of a
borrower's listings. A transaction goes on from the counts that it was computed on, and all three
are written in the same transaction as what they number. A count that still agrees with the stored
one is the stored one, so what a transaction writes is numbered by the book that it is applied to,
however long ago it was computed (`Action.Plan.counts`). -/

namespace Pawnbook

section counts
variable {b₀ b : Book}

/-! ### Counts that agree -/

theorem Config.agrees_iff {c d : Config} : c.agrees d = .ok true ↔
    c.name.same d.name = true ∧ c.ownership.agrees d.ownership = true ∧
      (c.feeDistributor == d.feeDistributor) = true ∧ c.feeRate.agrees d.feeRate = .ok true ∧
      c.lastOffer.same d.lastOffer = true := by
  unfold agrees
  constructor
  · intro h
    split at h
    · rename_i parts
      simp only [Bool.and_eq_true] at parts
      obtain ⟨r, rate, h⟩ := bind_ok h
      obtain ⟨rfl, last⟩ := Bool.and_eq_true_iff.1 (Except.ok.inj h)
      exact ⟨parts.1.1, parts.1.2, parts.2, rate, last⟩
    · cases h
  · rintro ⟨name, ownership, distributor, rate, last⟩
    rw [if_pos (by simp [name, ownership, distributor]), rate, last]
    rfl

theorem Config.agrees_recount {c d : Config} (h : c.agrees d = .ok true) (v : Value) :
    { c with lastOffer := v }.agrees { d with lastOffer := v } = .ok true := by
  obtain ⟨name, ownership, distributor, rate, -⟩ := agrees_iff.1 h
  exact agrees_iff.2 ⟨name, ownership, distributor, rate, v.same_refl⟩

theorem Book.Fits.config_agrees {old new : Config} (h : b.Fits (.config old new))
    (misfit : b.misfit = none) : b.config.agrees old = .ok true := by
  obtain ⟨r, hr, he⟩ := h
  have current : b.record? (Change.config old new).slot = .ok (some b.configRecord) := by
    simp [Book.record?, Change.config, Slot.config]
  cases current.symm.trans hr
  rw [Book.configRecord, misfit] at he
  exact he

theorem Book.Fits.lastOffer_eq {old new : Config} (h : b.Fits (.config old new))
    (hb : b.Coherent) (sound : old.Sound) : old.lastOffer = b.config.lastOffer := by
  obtain ⟨m, hm⟩ := sound.count
  obtain ⟨n, hn⟩ := hb.config.count
  have same := (Config.agrees_iff.1 (h.config_agrees hb.misfit)).2.2.2.2
  rw [hn, hm, Value.same_int_iff] at same
  rw [hn, hm, same]

theorem Book.Fits.recounted {old : Config} {last : Value}
    (h : b.Fits (.config old { old with lastOffer := last })) (hb : b.Coherent) (sound : old.Sound)
    (next : old.lastOffer.next = .ok last) :
    ∃ n, b.config.lastOffer = .int n ∧ last = .int (n + 1) ∧
      { b.config with lastOffer := .int (n + 1) }.agrees { old with lastOffer := last } =
        .ok true := by
  have agrees := h.config_agrees hb.misfit
  obtain ⟨n, hn⟩ := hb.config.count
  obtain rfl := Action.next_of_int ((h.lastOffer_eq hb sound).trans hn) next
  exact ⟨n, hn, rfl, Config.agrees_recount agrees _⟩

/-- The listing that an offer was counted on counts one more than the one that is stored. -/
theorem Book.Since.counted (since : b₀.Since b) (before : b₀.Coherent) (after : b.Coherent)
    {key : ListingKey} {l₀ new : Listing} {count : Value}
    (stored : b₀.listings.get? key = some (.listing l₀)) (next : l₀.offerCount.next = .ok count)
    (fits : b.Fits (.listing key (some l₀) new)) :
    ∃ l n, b.listing? key = some l ∧ l.core = l₀.core ∧ l.agrees l₀ = true ∧
      l.offerCount = .int n ∧ count = .int (n + 1) := by
  obtain ⟨l, kept, agrees⟩ := fits.listing
  have kept := Book.listing?_of_get? kept
  obtain ⟨l', kept', core⟩ := since.listing_of_fits before (Book.listing?_of_get? stored) fits
  cases kept'.symm.trans kept
  obtain ⟨n, hn⟩ := (after.listing _ l kept).count
  have same : l.offerCount = l₀.offerCount := congrArg Listing.Core.offerCount core
  exact ⟨l, n, kept, core, agrees, hn, Action.next_of_int (same.symm.trans hn) next⟩

theorem Book.nextId_of_fits (recorded₀ : b₀.Recorded) (recorded : b.Recorded)
    {name : Key} {new : Borrower} (fits : b.Fits (.borrower name (b₀.borrower? name) new)) :
    Borrower.nextId (b.borrower? name) = Borrower.nextId (b₀.borrower? name) := by
  cases known : b₀.borrower? name with
  | none =>
      rw [known] at fits
      rw [Book.borrower?, fits.newBorrower]
      rfl
  | some r =>
      rw [known] at fits
      obtain ⟨r', hr', agrees⟩ := fits.borrower
      have known' : b.borrower? name = some r' := by
        rw [Book.borrower?, hr']
        rfl
      obtain ⟨n, hn, -⟩ := recorded₀.borrower name r known
      obtain ⟨n', hn', -⟩ := recorded.borrower name r' known'
      unfold Borrower.agrees at agrees
      rw [hn, hn', Value.same_int_iff] at agrees
      rw [known', Borrower.nextId, Borrower.nextId, hn, hn', agrees]

end counts

/-! ### What transactions number -/

/-- The key of the offer of a number. -/
def Key.ofOffer (n : Int) : Key := Text.ofInt n

/-- Changes that go on from the numbers of a book: they list under a borrower's next number, make an
offer under the next number of all and at the next place on its listing, or leave the numbers as
they are. -/
inductive Book.Counts (b : Book) : List Change → Prop
  | list {name : String} {old : Option Borrower} {n : Int} {l : Listing}
      (next : Borrower.nextId (b.borrower? name) = .ok (.int n))
      (fresh : b.listings.get? (ListingKey.mk name (.int n)) = none)
      (count : l.offerCount = .int 0) :
      Counts b [.borrower name old ⟨.int n⟩, .listing ⟨name, .int n⟩ none l]
  | relist {key : ListingKey} {old l new : Listing} (stored : b.listing? key = some l)
      (count : new.offerCount = l.offerCount) : Counts b [.listing key (some old) new]
  | offer {config config' : Config} {key : ListingKey} {old l new : Listing} {o : Offer}
      {last n : Int} (counted : b.config.lastOffer = .int last)
      (recounted : config'.lastOffer = .int (last + 1)) (stored : b.listing? key = some l)
      (count : l.offerCount = .int n) (recount : new.offerCount = .int (n + 1))
      (fresh : b.storedOffer? (.ofOffer (last + 1)) = none) (on : o.listing = key)
      (position : o.position = .int (n + 1)) (numbered : (Value.int (last + 1)).Writable) :
      Counts b [.config config config', .listing key (some old) new,
        .offer (.ofOffer (last + 1)) none o]
  | accept {key : ListingKey} {old l new : Listing} {id : Key} {o o' old' : Offer}
      (stored : b.listing? key = some l) (count : new.offerCount = l.offerCount)
      (offer : b.storedOffer? id = some o)
      (same : { o' with state := o.state, deposit := o.deposit } = o) :
      Counts b [.listing key (some old) new, .offer id (some old') o']
  | settle {id : Key} {o o' old' : Offer} (offer : b.storedOffer? id = some o)
      (same : { o' with state := o.state, deposit := o.deposit } = o) :
      Counts b [.offer id (some old') o']
  | configure {config config' : Config} (count : config'.lastOffer = b.config.lastOffer) :
      Counts b [.config config config']

/-- What an action writes to a book that it fits goes on from the numbers of that book. -/
theorem Action.Plan.counts {b₀ b : Book} {e : Envelope} {a : Action} {cs : List Change}
    {ss : List BankSend} {ms : List Message} {as : Attributes} (plan : Plan b₀ e a cs ss ms as)
    (h₀ : b₀.Coherent) (hb : b.Coherent) (since : b₀.Since b) (recorded₀ : b₀.Recorded)
    (recorded : b.Recorded) (fits : ∀ c ∈ cs, b.Fits c) : b.Counts cs := by
  -- a listing that is written again keeps its count, which is the stored one
  have relisted : ∀ {key : ListingKey} {l₀ new : Listing},
      b₀.listings.get? key = some (.listing l₀) → b.Fits (.listing key (some l₀) new) →
      ∃ l, b.listing? key = some l ∧ l₀.offerCount = l.offerCount := by
    intro key l₀ new stored fits
    obtain ⟨l, hl, core⟩ := since.listing_of_fits h₀ (Book.listing?_of_get? stored) fits
    exact ⟨l, hl, (congrArg Listing.Core.offerCount core).symm⟩
  cases plan with
  | @deposit assets terms comment preview id filled shown next =>
      rw [List.forall_mem_cons, List.forall_mem_singleton] at fits
      have next' := (Book.nextId_of_fits recorded₀ recorded fits.1).trans next
      obtain ⟨n, hn⟩ := recorded.exists_nextId e.sender
      cases next'.symm.trans hn
      exact .list hn fits.2.newListing rfl
  | modify stored =>
      obtain ⟨l, hl, count⟩ := relisted stored (fits _ List.mem_cons_self)
      exact .relist hl count
  | withdraw stored =>
      obtain ⟨l, hl, count⟩ := relisted stored (fits _ List.mem_cons_self)
      exact .relist hl count
  | makeOffer stored published funds next counted escrow numbered =>
      rw [List.forall_mem_cons, List.forall_mem_cons, List.forall_mem_singleton] at fits
      obtain ⟨last, hlast, rfl, -⟩ := fits.1.recounted hb h₀.config next
      obtain ⟨l, n, hl, -, -, hn, rfl⟩ := since.counted h₀ hb stored counted fits.2.1
      exact .offer hlast rfl hl hn rfl fits.2.2.newOffer rfl rfl numbered
  | acceptLoan stored published proposed funds next counted escrow payout custody owned numbered =>
      rw [List.forall_mem_cons, List.forall_mem_cons, List.forall_mem_singleton] at fits
      obtain ⟨last, hlast, rfl, -⟩ := fits.1.recounted hb h₀.config next
      obtain ⟨l, n, hl, -, -, hn, rfl⟩ := since.counted h₀ hb stored counted fits.2.1
      exact .offer hlast rfl hl hn rfl fits.2.2.newOffer rfl rfl numbered
  | acceptOffer offer mine stored =>
      rw [List.forall_mem_cons, List.forall_mem_singleton] at fits
      obtain ⟨l, hl, count⟩ := relisted stored fits.1
      exact .accept hl count (since.offer_of_fits h₀ offer fits.2) rfl
  | cancel offer => exact .settle (since.offer_of_fits h₀ offer (fits _ List.mem_cons_self)) rfl
  | refuse offer => exact .settle (since.offer_of_fits h₀ offer (fits _ List.mem_cons_self)) rfl
  | recover offer => exact .settle (since.offer_of_fits h₀ offer (fits _ List.mem_cons_self)) rfl
  | repay stored =>
      obtain ⟨l, hl, count⟩ := relisted stored (fits _ List.mem_cons_self)
      exact .relist hl count
  | claim stored =>
      obtain ⟨l, hl, count⟩ := relisted stored (fits _ List.mem_cons_self)
      exact .relist hl count
  | configure made =>
      have kept := (fits _ List.mem_cons_self).lastOffer_eq hb h₀.config
      cases made <;> exact .configure kept

end Pawnbook
