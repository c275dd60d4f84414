import Pawnbook.Proofs.Session

/-! # Executions are carried out whole or not at all

Whatever pending transaction a book is given, its execution checks every change and every transfer
before it writes anything. The checks compare records with what is stored; the index of offers has
rules of its own, which no check looks at: an offer stays with its lender and on its listing, and no
id is used twice. `Book.Accepts` is what a write needs of a change (`Accepts.write`), and changes
of different slots that keep to those rules are accepted once they have passed the checks
(`accepts_of_changeRefusal?`). Their execution is all or nothing (`execute_whole_or_not`); an offer
that changes hands ends one halfway (`interrupted_halfway`). -/

namespace Pawnbook

/-! ### Changes of the right kind -/

/-- The record belongs into slots of the kind. Nothing is said of kinds that the book does not
store. -/
def Kind.holds : Kind → Stored → Bool
  | config, .config _ | borrower, .borrower _ | listing, .listing _ | offer, .offer _ => true
  | other _, _ => true
  | _, _ => false

theorem Slot.mk_beq_mk (kind : Kind) (k l : Key) :
    (Slot.mk kind k == Slot.mk kind l) = (k == l) := by
  show (kind == kind && k == l) = (k == l)
  rw [BEq.rfl, Bool.true_and]

namespace Change

/-- The records of a change belong into its slot. -/
def isTyped (c : Change) : Bool := c.old.all c.slot.kind.holds && c.new.all c.slot.kind.holds

/-- An offer that is replaced stays with its lender and on its listing. -/
def KeepsParties (c : Change) : Prop :=
  ∀ o o', c.old = some (.offer o) → c.new = some (.offer o') →
    (o.lender == o'.lender) = true ∧ (o.listing == o'.listing) = true

end Change

namespace Book
variable {b b' : Book} {c d : Change}

/-- The change can be written: its slot is one of the book's, its record is of the right kind, and
the index of offers takes it. -/
inductive Accepts (b : Book) : Change → Prop
  | config {key : Key} {old : Option Stored} {new : Config}
      (named : (key == Key.text Slot.configKey) = true) :
      Accepts b ⟨⟨.config, key⟩, old, some (.config new)⟩
  | borrower {key : Key} {old : Option Stored} {new : Borrower} :
      Accepts b ⟨⟨.borrower, key⟩, old, some (.borrower new)⟩
  | listing {key : Key} {old : Option Stored} {new : Listing} :
      Accepts b ⟨⟨.listing, key⟩, old, some (.listing new)⟩
  | newOffer {key : Key} {new : Offer} (fresh : b.storedOffer? key = none) :
      Accepts b ⟨⟨.offer, key⟩, none, some (.offer new)⟩
  | offer {key : Key} {old : Stored} {o new : Offer} (stored : b.storedOffer? key = some o)
      (lender : (o.lender == new.lender) = true) (listing : (o.listing == new.listing) = true) :
      Accepts b ⟨⟨.offer, key⟩, some old, some (.offer new)⟩

theorem Accepts.write (h : b.Accepts c) : b.write c = .ok (b.put c) := by
  cases h with
  | config | borrower | listing => rfl
  | @newOffer key new fresh =>
      show (do return { b with offers := ← b.offers.insert key new }) = _
      rw [OfferIndex.insert_eq_add fresh]
      rfl
  | @offer key old o new stored lender listing =>
      show (do return { b with offers := ← b.offers.update key new }) = _
      rw [OfferIndex.update_eq_replace stored lender listing]
      rfl

theorem Accepts.congr (h : b.Accepts c) (same : b'.offers = b.offers) : b'.Accepts c := by
  have stored : ∀ id, b'.storedOffer? id = b.storedOffer? id := by
    intro id
    rw [storedOffer?, same, storedOffer?]
  cases h with
  | config named => exact .config named
  | borrower => exact .borrower
  | listing => exact .listing
  | newOffer fresh => exact .newOffer ((stored _).trans fresh)
  | offer offer lender listing => exact .offer ((stored _).trans offer) lender listing

/-- A change puts its record into its own slot and into no other. -/
theorem Accepts.record?_put (h : b.Accepts c) (s : Slot) :
    (b.put c).record? s = if c.slot == s then .ok c.new else b.record? s := by
  obtain ⟨kind, key⟩ := s
  cases h with
  | @config named' old new named =>
      cases kind with
      | config =>
          rw [Slot.mk_beq_mk]
          cases same : named' == key with
          | true =>
              have named : (key == Key.text Slot.configKey) = true :=
                BEq.trans (BEq.symm same) named
              show (if key == Key.text Slot.configKey then _ else _) = _
              rw [named]
              rfl
          | false =>
              have other : (key == Key.text Slot.configKey) = false :=
                Bool.eq_false_iff.2 fun h => Bool.eq_false_iff.1 same (BEq.trans named (BEq.symm h))
              show (if key == Key.text Slot.configKey then _ else _) =
                if false then _ else if key == Key.text Slot.configKey then _ else _
              rw [other]
              rfl
      | borrower | listing | offer | other => rfl
  | @borrower named old new =>
      cases kind with
      | borrower =>
          rw [Slot.mk_beq_mk]
          show Except.ok ((b.borrowers.insert named (.borrower new)).get? key) = _
          rw [Table.get?_insert]
          cases named == key <;> rfl
      | config | listing | offer | other => rfl
  | @listing named old new =>
      cases kind with
      | listing =>
          rw [Slot.mk_beq_mk]
          show Except.ok ((b.listings.insert named (.listing new)).get? key) = _
          rw [Table.get?_insert]
          cases named == key <;> rfl
      | config | borrower | offer | other => rfl
  | @newOffer named new =>
      cases kind with
      | offer =>
          rw [Slot.mk_beq_mk]
          show Except.ok (((b.offers.add named new).get? key).map Stored.offer) = _
          rw [OfferIndex.get?_add]
          cases named == key <;> rfl
      | config | borrower | listing | other => rfl
  | @offer named old o new =>
      cases kind with
      | offer =>
          rw [Slot.mk_beq_mk]
          show Except.ok (((b.offers.replace named new).get? key).map Stored.offer) = _
          rw [OfferIndex.get?_replace]
          cases named == key <;> rfl
      | config | borrower | listing | other => rfl

theorem Accepts.put (hd : b.Accepts d) (hc : b.Accepts c) (apart : (c.slot == d.slot) = false) :
    (b.put c).Accepts d := by
  have kept : ∀ {key : Key}, d.slot = ⟨.offer, key⟩ →
      ((b.put c).storedOffer? key).map Stored.offer = (b.storedOffer? key).map Stored.offer := by
    intro key slot
    have same := hc.record?_put ⟨.offer, key⟩
    rw [← slot, apart, slot] at same
    exact Except.ok.inj same
  have stored : ∀ {key : Key}, d.slot = ⟨.offer, key⟩ →
      (b.put c).storedOffer? key = b.storedOffer? key := fun slot =>
    Option.map_injective (fun _ _ same => Stored.offer.inj same) (kept slot)
  cases hd with
  | config named => exact .config named
  | borrower => exact .borrower
  | listing => exact .listing
  | newOffer fresh => exact .newOffer ((stored rfl).trans fresh)
  | offer offer lender listing => exact .offer ((stored rfl).trans offer) lender listing

/-- A change of the right kind that has passed the check is accepted, if it is not an offer that
changes hands. -/
theorem accepts_of_changeRefusal? (typed : c.isTyped = true) (parties : c.KeepsParties)
    (h : b.changeRefusal? c = .ok none) : b.Accepts c := by
  obtain ⟨r, hr, same⟩ := fits_of_changeRefusal? h
  have kept : c.new.isNone = false := by
    unfold changeRefusal? at h
    rw [hr] at h
    dsimp only at h
    rw [same] at h
    have h : (if c.new.isNone then some _ else none) = none := Except.ok.inj h
    split at h
    · cases h
    · rename_i kept
      exact Bool.eq_false_iff.2 kept
  obtain ⟨⟨kind, key⟩, old, new⟩ := c
  rw [Change.isTyped, Bool.and_eq_true] at typed
  obtain ⟨oldTyped, newTyped⟩ := typed
  cases new with
  | none => cases kept
  | some new =>
      cases kind with
      | config =>
          cases new with
          | config =>
              unfold record? at hr
              obtain ⟨named, -⟩ := require_ok hr
              exact .config named
          | borrower | listing | offer | other => cases newTyped
      | borrower =>
          cases new with
          | borrower => exact .borrower
          | config | listing | offer | other => cases newTyped
      | listing =>
          cases new with
          | listing => exact .listing
          | config | borrower | offer | other => cases newTyped
      | offer =>
          cases new with
          | config | borrower | listing | other => cases newTyped
          | offer new =>
              cases hr
              cases old with
              | none => exact .newOffer (Option.map_eq_none_iff.1 (Stored.equals?_none same))
              | some old =>
                  cases old with
                  | config | borrower | listing | other => cases oldTyped
                  | offer old =>
                      obtain ⟨_, stored, agrees⟩ := Stored.equals?_offer same
                      obtain ⟨o, ho, ⟨⟩⟩ := Option.map_eq_some_iff.1 stored
                      obtain ⟨lender, listing⟩ := parties old new rfl rfl
                      exact .offer ho (BEq.trans (Offer.agrees_iff.1 agrees).lender lender)
                        (BEq.trans (Offer.agrees_iff.1 agrees).listing listing)
      | other => cases hr

/-! ### Changes of different slots -/

theorem writeAll_of_accepts : ∀ {cs : List Change} {b : Book},
    (cs.Pairwise fun c d => (c.slot == d.slot) = false) → (∀ c ∈ cs, b.Accepts c) →
    b.writeAll cs = .ok (b.putAll cs)
  | [], _, _, _ => rfl
  | c :: cs, b, apart, accepts => by
      rw [List.pairwise_cons] at apart
      rw [List.forall_mem_cons] at accepts
      obtain ⟨first, rest⟩ := accepts
      exact writeAll_cons first.write
        (writeAll_of_accepts apart.2 fun d hd => (rest d hd).put first (apart.1 d hd))

theorem record?_putAll_of_apart {s : Slot} : ∀ {cs : List Change} {b : Book},
    (cs.Pairwise fun c d => (c.slot == d.slot) = false) → (∀ c ∈ cs, b.Accepts c) →
    (∀ c ∈ cs, (c.slot == s) = false) → (b.putAll cs).record? s = b.record? s
  | [], _, _, _, _ => rfl
  | c :: cs, b, apart, accepts, other => by
      rw [List.pairwise_cons] at apart
      rw [List.forall_mem_cons] at accepts other
      obtain ⟨first, rest⟩ := accepts
      have later := record?_putAll_of_apart apart.2
        (fun d hd => (rest d hd).put first (apart.1 d hd)) other.2
      rw [putAll_cons, later, first.record?_put, other.1]
      rfl

theorem record?_putAll_of_mem : ∀ {cs : List Change} {b : Book},
    (cs.Pairwise fun c d => (c.slot == d.slot) = false) → (∀ c ∈ cs, b.Accepts c) →
    ∀ c ∈ cs, (b.putAll cs).record? c.slot = .ok c.new
  | [], _, _, _, c, hc => by cases hc
  | d :: ds, b, apart, accepts, c, hc => by
      rw [List.pairwise_cons] at apart
      rw [List.forall_mem_cons] at accepts
      obtain ⟨first, rest⟩ := accepts
      have rest : ∀ c ∈ ds, (b.put d).Accepts c :=
        fun c hc => (rest c hc).put first (apart.1 c hc)
      rw [putAll_cons]
      rcases List.mem_cons.1 hc with rfl | hc
      · rw [record?_putAll_of_apart apart.2 rest fun d hd => BEq.symm_false (apart.1 d hd),
          first.record?_put, if_pos BEq.rfl]
      · exact record?_putAll_of_mem apart.2 rest c hc

/-! ### Executions -/

/-- What a pending transaction does to a book when it is carried out: every record that it changes
is the new one, and no other record is touched; every transfer is done; and it is logged, unless it
was empty. -/
structure CarriedOut (b : Book) (p : Pending) (b' : Book) : Prop where
  records : ∀ c ∈ p.changes, b'.record? c.slot = .ok c.new
  others : ∀ s, (∀ c ∈ p.changes, (c.slot == s) = false) → b'.record? s = b.record? s
  transfers : ∃ funded delivered, b.bringInAll p.fundsIn = .ok funded ∧
    funded.deliverAll p.messages = .ok delivered ∧ b'.bank = delivered.bank ∧
    b'.registry = delivered.registry ∧ b'.fees = delivered.fees
  log : b'.log = if p.isEmpty then b.log else b.log ++ [b.nextTransaction p]

theorem carriedOut_of_isEmpty {p : Pending} (h : p.isEmpty = true) : b.CarriedOut p b := by
  have parts := h
  simp only [Pending.isEmpty, Bool.and_eq_true, List.isEmpty_iff] at parts
  obtain ⟨⟨changes, funds⟩, messages⟩ := parts
  refine ⟨?_, fun _ _ => rfl, ⟨b, b, ?_, ?_, rfl, rfl, rfl⟩, ?_⟩
  · rw [changes]
    simp
  · rw [funds]
    rfl
  · rw [messages]
    rfl
  · rw [h]
    rfl

theorem record?_posted (b : Book) (p : Pending) (s : Slot) :
    (b.posted p).record? s = (b.putAll p.changes).record? s := by
  rw [posted_eq]
  rfl

/-- A transaction whose changes are accepted and whose transfers are covered is carried out. -/
theorem carriedOut_posted {p : Pending} {ss : List BankSend} (id : b.requireExecId = .ok ())
    (filled : p.isEmpty = false) (funds : p.fundsIn = ss.map .send)
    (apart : p.changes.Pairwise fun c d => (c.slot == d.slot) = false)
    (accepts : ∀ c ∈ p.changes, b.Accepts c) (covered : b.transferRefusal? p.transfers = none) :
    b.commit p = .ok (b.posted p) ∧ b.CarriedOut p (b.posted p) := by
  have written : ∀ b' : Book, b'.offers = b.offers →
      b'.writeAll p.changes = .ok (b'.putAll p.changes) := fun b' same =>
    writeAll_of_accepts apart fun c hc => (accepts c hc).congr same
  refine ⟨commit_eq_posted id written funds covered, ?_, ?_, ?_, ?_⟩
  · intro c hc
    rw [record?_posted]
    exact record?_putAll_of_mem apart accepts c hc
  · intro s other
    rw [record?_posted]
    exact record?_putAll_of_apart apart accepts other
  · have list : p.transfers = ss.map .send ++ p.messages := by rw [Pending.transfers, funds]
    rw [list] at covered
    obtain ⟨brought, delivered⟩ := deliverAll_of_rehearsal covered
    rw [← list] at delivered
    rw [funds]
    refine ⟨_, _, brought, delivered, ?_, ?_, ?_⟩
    · rw [bank_posted, carryAll_eq]
    · rw [registry_posted, carryAll_eq]
    · rw [fees_posted, carryAll_eq]
  · rw [log_posted, filled]
    rfl

/-- A transaction that has passed the checks is applied and carried out under an id that can be
written, if its changes are of the right kinds and of different slots, no offer changes hands, what
comes with the message are coins, and a verbose book can print it. -/
theorem execute_of_unrefused {p : Pending} {ss : List BankSend} (id : b.requireExecId = .ok ())
    (filled : p.isEmpty = false) (typed : ∀ c ∈ p.changes, c.isTyped = true)
    (funds : p.fundsIn = ss.map .send)
    (apart : p.changes.Pairwise fun c d => (c.slot == d.slot) = false)
    (parties : ∀ c ∈ p.changes, c.KeepsParties) (printable : b.verbose = true → p.Printable)
    (unrefused : b.refusal? p = .ok none) :
    (b.execute p).answer = .ok .applied ∧ (b.execute p).book = b.posted p ∧
      b.CarriedOut p (b.posted p) := by
  obtain ⟨fits, covered⟩ := refusal?_eq_none_iff.1 unrefused
  have accepts : ∀ c ∈ p.changes, b.Accepts c := fun c hc =>
    accepts_of_changeRefusal? (typed c hc) (parties c hc)
      (changesRefusal?_none_iff.1 fits c hc)
  obtain ⟨committed, carried⟩ := carriedOut_posted id filled funds apart accepts covered
  rw [execute_of_committed filled unrefused committed]
  refine ⟨answer_announce _ fun verbose => linesWith_ok (printable ?_) id _, book_announce ..,
    carried⟩
  rw [posted_eq, putAll_eq] at verbose
  exact verbose

end Book

/-- An execution is all or nothing, if the transaction's changes are of the right kinds and of
different slots, no offer changes hands, what comes with the message are coins, and a verbose book
can print the transaction: it is applied, and carried out to the end, or it is not, and nothing of
the book changes. Only where the id of the execution cannot be written, a place in the log is given
out for nothing. -/
theorem execute_whole_or_not {b : Book} {p : Pending} {ss : List BankSend}
    (typed : ∀ c ∈ p.changes, c.isTyped = true) (funds : p.fundsIn = ss.map .send)
    (apart : p.changes.Pairwise fun c d => (c.slot == d.slot) = false)
    (parties : ∀ c ∈ p.changes, c.KeepsParties) (printable : b.verbose = true → p.Printable) :
    ((b.execute p).answer = .ok .applied ∧ b.CarriedOut p (b.execute p).book) ∨
      ((b.execute p).answer ≠ .ok .applied ∧ (b.execute p).book = b) ∨
      ∃ f, b.requireExecId = .error f ∧
        b.execute p = { book := b.numbered, answer := .error (.calculation f) } := by
  cases filled : p.isEmpty with
  | true =>
      have left : b.execute p = { book := b, answer := .ok .applied } := if_pos filled
      rw [left]
      exact .inl ⟨rfl, Book.carriedOut_of_isEmpty filled⟩
  | false =>
      by_cases unrefused : b.refusal? p = .ok none
      · cases id : b.requireExecId with
        | ok =>
            obtain ⟨applied, posted, carried⟩ :=
              Book.execute_of_unrefused id filled typed funds apart parties printable unrefused
            rw [posted]
            exact .inl ⟨applied, carried⟩
        | error f => exact .inr (.inr ⟨f, rfl, Book.execute_of_unwritable filled unrefused id⟩)
      · exact .inr (.inl (Book.execute_of_refused filled unrefused))

namespace Session

/-- Alice has some coins, and nothing else has happened yet. -/
def funded : Session := opening.run [.fund "alice" "stars" (.whole 8)]

/-- Alice deposits some coins for a borrower who is entered, and the contract passes them on. -/
def entry : Pending where
  changes := [.borrower "zed" none ⟨.int 7⟩]
  fundsIn := [.send ⟨"alice", "contract", stars 5, by decide, by decide⟩]
  messages := [.send ⟨"contract", "bob", stars 5, by decide, by decide⟩]
  origin := ⟨.userAction, "alice", .text "enter"⟩
  date := none
  intentId := "entry"

/-- Bob's offer on Alice's listing waits. -/
def proposed : Session := opening.run (lending.take 6)

/-- A borrower is entered, and Bob's offer is handed over to Carol. -/
def handover : Pending where
  changes := .borrower "zed" none ⟨.int 7⟩ :: (proposed.book.storedOffer? "1").toList.map
    fun o => .offer "1" (some o) { o with lender := "carol" }
  fundsIn := []
  messages := []
  origin := ⟨.userAction, "bob", .text "move_offer"⟩
  date := none
  intentId := "handover"

end Session

/-- A transaction that was made by hand is carried out to the end. -/
theorem execute_whole_or_not_entry :
    (Session.funded.book.execute Session.entry).answer = .ok .applied ∧
      Session.funded.book.CarriedOut Session.entry
        (Session.funded.book.execute Session.entry).book := by
  have applied : (Session.funded.book.execute Session.entry).answer.toOption = some .applied := by
    decide +kernel
  have parties : ∀ c ∈ Session.entry.changes, c.KeepsParties := by
    rw [Session.entry, List.forall_mem_singleton]
    rintro o o' ⟨⟩
  have funds : Session.entry.fundsIn =
      List.map .send [⟨"alice", "contract", Session.stars 5, by decide, by decide⟩] := rfl
  have printable : Session.entry.Printable := by
    refine ⟨rfl, ⟨rfl, rfl⟩, nofun, by decide, ?_⟩
    rw [Session.entry, List.forall_mem_singleton, Change.legible_borrower]
    exact ⟨Value.legible_text _, nofun, (Value.legible_int 7).2 rfl⟩
  rcases execute_whole_or_not (b := Session.funded.book) (p := Session.entry)
    (by decide) funds (by decide) parties fun _ => printable with whole | ⟨refused, -⟩ | ⟨f, id, -⟩
  · exact whole
  · exact absurd (toOption_eq_some_iff.1 applied) refused
  · cases id

/-- An offer that changes hands ends an execution halfway: the borrower has been entered by then. -/
theorem interrupted_halfway :
    Reaches (fun _ _ => True) Session.opening Session.proposed ∧
    (∀ c ∈ Session.handover.changes, c.isTyped = true) ∧ Session.handover.fundsIn = [] ∧
    (Session.handover.changes.Pairwise fun c d => (c.slot == d.slot) = false) ∧
    (Session.proposed.book.execute Session.handover).answer =
      .error (.malformed (.offerMoved "1")) ∧
    Session.proposed.book.borrower? "zed" = none ∧
    (Session.proposed.book.execute Session.handover).book.borrower? "zed" = some ⟨.int 7⟩ := by
  refine ⟨Reaches.start.run (by decide +kernel), by decide +kernel, rfl, by decide +kernel,
    by rfl, by decide +kernel, by decide +kernel⟩

end Pawnbook
