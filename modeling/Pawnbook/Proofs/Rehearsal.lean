import Pawnbook.Proofs.Success

/-! # The rehearsal of transfers

Transfers are tried on a sheet of provisional balances and owners before they are carried out.
`Rehearsal.Shadows` says that the sheet, laid over the bank and the registry as they were, shows
every balance and every holder of the bank and the registry as they have become. One transfer of
coins keeps it and fails on both sides or on neither (`Shadows.pay`), hence a rehearsal that
succeeds foretells the delivery of the whole list (`Shadows.run`): `Book.carryAll` is what the
book becomes. It succeeds exactly if every coin is there when its turn comes (`Bank.Covers`) and
every token is handed over by who holds it at that point (`Registry.Honours`), which
`transferRefusal?_eq_none_iff` puts together. -/

namespace Pawnbook

/-! ### Carrying messages out -/

def Bank.carry (b : Bank) : Message → Bank
  | .send s => b.move s.sender s.recipient s.coin
  | .fee f => b.move f.sender f.recipient f.coin
  | .transfer _ | .other _ => b

/-- The registry after a message of the token's holder. -/
def Registry.carry (r : Registry) : Message → Registry
  | .transfer t => r.assign t.nft.token t.recipient
  | .send _ | .fee _ | .other _ => r

def FeeLedger.carry (l : FeeLedger) : Message → FeeLedger
  | .fee f => l.deposit f.addresses f.kind f.coin
  | .send _ | .transfer _ | .other _ => l

/-- The address that pays for a message, and what it pays. -/
def Message.outlay? : Message → Option (Key × Coin)
  | .send s => some (s.sender, s.coin)
  | .fee f => some (f.sender, f.coin)
  | .transfer _ | .other _ => none

/-- Every coin is there when its turn comes. -/
def Bank.Covers : Bank → List Message → Prop
  | _, [] => True
  | b, m :: ms =>
    (∀ x, m.outlay? = some x → (b.balance x.1 x.2.denom).isBelow x.2.worth = false) ∧
      (b.carry m).Covers ms

/-- Every token is handed over by who holds it when its turn comes. -/
def Registry.Honours : Registry → List Message → Prop
  | _, [] => True
  | r, m :: ms =>
    (∀ t, m = .transfer t → (r.holder t.nft.token == t.sender) = true) ∧ (r.carry m).Honours ms

theorem Registry.honours_coins : ∀ {ms : List Message} {r : Registry},
    (∀ m ∈ ms, ∀ t, m ≠ .transfer t) → r.Honours ms
  | [], _, _ => trivial
  | m :: ms, r, h => by
      rw [List.forall_mem_cons] at h
      exact ⟨fun t ht => absurd ht (h.1 t), honours_coins h.2⟩

namespace Book

/-- The book after a message. -/
def carry (b : Book) (m : Message) : Book :=
  { b with bank := b.bank.carry m, registry := b.registry.carry m, fees := b.fees.carry m }

def carryAll (b : Book) (ms : List Message) : Book := ms.foldl carry b

@[simp] theorem carryAll_cons (b : Book) (m : Message) (ms : List Message) :
    b.carryAll (m :: ms) = (b.carry m).carryAll ms := rfl

theorem carryAll_append (b : Book) (ms ns : List Message) :
    b.carryAll (ms ++ ns) = (b.carryAll ms).carryAll ns := List.foldl_append

/-- Messages touch the bank, the registry and the fees, each for itself. -/
theorem carryAll_eq (ms : List Message) : ∀ b : Book, b.carryAll ms =
    { b with
      bank := ms.foldl Bank.carry b.bank
      registry := ms.foldl Registry.carry b.registry
      fees := ms.foldl FeeLedger.carry b.fees } := by
  induction ms with
  | nil => intro b; rfl
  | cons m ms ih => intro b; rw [carryAll_cons, ih]; rfl

theorem bringInAll_sends (ss : List BankSend) : ∀ b : Book,
    b.bringInAll (ss.map .send) = b.deliverAll (ss.map .send) := by
  induction ss with
  | nil => intro b; rfl
  | cons s ss ih =>
      intro b
      show (b.attempt (b.pay s.sender s.recipient s.coin) >>= fun b => b.bringInAll _) =
        (b.attempt (b.pay s.sender s.recipient s.coin) >>= fun b => b.deliverAll _)
      exact congrArg _ (funext ih)

end Book

/-! ### The sheet and what it stands for -/

namespace Rehearsal

theorem run_append (bank : Bank) (registry : Registry) (ns : List Message) :
    ∀ (r : Rehearsal) (ms : List Message), run bank registry r (ms ++ ns) =
      (run bank registry r ms >>= fun r => run bank registry r ns)
  | _, [] => rfl
  | r, m :: ms => by
      show (step bank registry r m >>= fun r => run bank registry r (ms ++ ns)) =
        ((step bank registry r m >>= fun r => run bank registry r ms) >>=
          fun r => run bank registry r ns)
      simp only [run_append bank registry ns _ ms]
      cases step bank registry r m <;> rfl

/-- Laid over the old bank and registry, the sheet shows the new ones. -/
structure Shadows (r : Rehearsal) (bank₀ : Bank) (registry₀ : Registry) (bank : Bank)
    (registry : Registry) : Prop where
  balance : ∀ a d, r.balance bank₀ a d = bank.balance a d
  holder : ∀ t, r.holder registry₀ t = registry.holder t

theorem shadows_start (bank : Bank) (registry : Registry) :
    Shadows {} bank registry bank registry := ⟨fun _ _ => rfl, fun _ => rfl⟩

section steps
variable {r r' : Rehearsal} {bank₀ bank : Bank} {registry₀ registry : Registry}

theorem Shadows.write (h : Shadows r bank₀ registry₀ bank registry) (a d : Key) (n : Number) :
    Shadows { r with balances := r.balances.insert (.pair a d) n } bank₀ registry₀
      (bank.write a d n) registry where
  holder := h.holder
  balance := by
    intro a' d'
    have hb := h.balance a' d'
    unfold Rehearsal.balance at hb ⊢
    rw [Bank.balance_write, Table.get?_insert, Key.pair_beq_pair]
    split
    · rfl
    · exact hb

/-- A transfer of coins fails on the sheet and at the bank, or succeeds on both. -/
theorem Shadows.pay (h : Shadows r bank₀ registry₀ bank registry) (s t : Key) (c : Coin) :
    ((∃ e, r.pay bank₀ s t c = .error e) ∧ ∃ e, bank.send s t c = .error e) ∨
      ∃ r', r.pay bank₀ s t c = .ok r' ∧ bank.send s t c = .ok (bank.move s t c) ∧
        Shadows r' bank₀ registry₀ (bank.move s t c) registry := by
  unfold Rehearsal.pay Bank.send
  rw [h.balance]
  by_cases hb : (bank.balance s c.denom).isBelow c.worth = true
  · left
    rw [if_pos hb, if_pos hb]
    exact ⟨⟨_, rfl⟩, ⟨_, rfl⟩⟩
  · right
    rw [if_neg hb, if_neg hb]
    have hd := h.write s c.denom ((bank.balance s c.denom).sub c.worth)
    refine ⟨_, rfl, rfl, ?_⟩
    rw [hd.balance]
    exact hd.write t c.denom _

theorem Shadows.assign (h : Shadows r bank₀ registry₀ bank registry) (t : Token) (o : Key) :
    Shadows { r with owners := r.owners.insert t o } bank₀ registry₀ bank
      (registry.assign t o) where
  balance := h.balance
  holder := by
    intro t'
    have ht := h.holder t'
    unfold Rehearsal.holder Registry.holder at ht ⊢
    rw [Registry.owner?_assign, Table.get?_insert]
    split
    · rfl
    · exact ht

end steps

/-- A message that is rehearsed with success can be delivered, and the sheet goes on to stand for
the bank and the registry. -/
theorem Shadows.step {r r' : Rehearsal} {bank₀ : Bank} {registry₀ : Registry} {b : Book}
    (h : Shadows r bank₀ registry₀ b.bank b.registry) {m : Message}
    (hs : Rehearsal.step bank₀ registry₀ r m = .ok r') :
    b.deliver m = .ok (b.carry m) ∧
      Shadows r' bank₀ registry₀ (b.carry m).bank (b.carry m).registry := by
  cases m with
  | send s =>
      rcases h.pay s.sender s.recipient s.coin with ⟨⟨e, he⟩, _⟩ | ⟨r₁, hr, hb, hn⟩
      · cases he.symm.trans hs
      · cases hr.symm.trans hs
        refine ⟨?_, hn⟩
        show (do return { b with bank := ← b.bank.send s.sender s.recipient s.coin }) = _
        rw [hb]
        rfl
  | fee f =>
      rcases h.pay f.sender f.recipient f.coin with ⟨⟨e, he⟩, _⟩ | ⟨r₁, hr, hb, hn⟩
      · cases he.symm.trans hs
      · cases hr.symm.trans hs
        refine ⟨?_, hn⟩
        show (do
          let paid ← (do return { b with bank := ← b.bank.send f.sender f.recipient f.coin })
          return { paid with fees := paid.fees.deposit f.addresses f.kind f.coin }) = _
        rw [hb]
        rfl
  | transfer t =>
      obtain ⟨hh, hs⟩ := require_ok hs
      rw [h.holder] at hh
      cases hs
      refine ⟨?_, h.assign t.nft.token t.recipient⟩
      show (do return { b with
        registry := ← b.registry.transfer t.nft.token t.sender t.recipient }) = _
      unfold Registry.transfer
      rw [if_pos hh]
      rfl
  | other v => cases hs

/-- A rehearsal that succeeds foretells the delivery of all messages. -/
theorem Shadows.run {bank₀ : Bank} {registry₀ : Registry} : ∀ {ms : List Message}
    {r r' : Rehearsal} {b : Book}, Shadows r bank₀ registry₀ b.bank b.registry →
    Rehearsal.run bank₀ registry₀ r ms = .ok r' →
    b.deliverAll ms = .ok (b.carryAll ms) ∧
      Shadows r' bank₀ registry₀ (b.carryAll ms).bank (b.carryAll ms).registry
  | [], _, _, _, h, hr => by
      cases hr
      exact ⟨rfl, h⟩
  | m :: ms, r, r', b, h, hr => by
      obtain ⟨r₁, h₁, hr⟩ := bind_ok hr
      obtain ⟨hd, hs⟩ := h.step h₁
      obtain ⟨hds, hss⟩ := Shadows.run hs hr
      refine ⟨?_, hss⟩
      show (b.attempt (b.deliver m) >>= fun b => b.deliverAll ms) = _
      rw [hd]
      exact hds

/-- A message is rehearsed with success exactly if its coin is there and its token is the sender's
to give. -/
theorem Shadows.step_ok_iff {r : Rehearsal} {bank₀ : Bank} {registry₀ : Registry} {b : Book}
    (h : Shadows r bank₀ registry₀ b.bank b.registry) (m : Message) :
    (∃ r', Rehearsal.step bank₀ registry₀ r m = .ok r') ↔
      (∀ x, m.outlay? = some x → (b.bank.balance x.1 x.2.denom).isBelow x.2.worth = false) ∧
        (∀ t, m = .transfer t → (b.registry.holder t.nft.token == t.sender) = true) ∧
        ∀ v, m ≠ .other v := by
  have pay : ∀ (s t : Key) (c : Coin), (∃ r', r.pay bank₀ s t c = .ok r') ↔
      (b.bank.balance s c.denom).isBelow c.worth = false := by
    intro s t c
    unfold Rehearsal.pay
    rw [h.balance]
    by_cases hb : (b.bank.balance s c.denom).isBelow c.worth = true <;> simp [hb]
  cases m with
  | send s =>
      show (∃ r', r.pay bank₀ s.sender s.recipient s.coin = .ok r') ↔ _
      rw [pay]
      simp [Message.outlay?]
  | fee f =>
      show (∃ r', r.pay bank₀ f.sender f.recipient f.coin = .ok r') ↔ _
      rw [pay]
      simp [Message.outlay?]
  | transfer t =>
      unfold Rehearsal.step
      dsimp only
      rw [h.holder]
      by_cases hh : (b.registry.holder t.nft.token == t.sender) = true <;>
        simp [hh, Message.outlay?]
  | other v => simp [Rehearsal.step]

theorem Shadows.run_ok_iff {bank₀ : Bank} {registry₀ : Registry} : ∀ {ms : List Message}
    {r : Rehearsal} {b : Book}, Shadows r bank₀ registry₀ b.bank b.registry →
    ((∃ r', Rehearsal.run bank₀ registry₀ r ms = .ok r') ↔
      b.bank.Covers ms ∧ b.registry.Honours ms ∧ ∀ m ∈ ms, ∀ v, m ≠ .other v)
  | [], r, _, _ => by simp [Rehearsal.run, Bank.Covers, Registry.Honours]
  | m :: ms, r, b, h => by
      rw [List.forall_mem_cons]
      constructor
      · rintro ⟨r', hr⟩
        obtain ⟨r₁, h₁, hr⟩ := bind_ok hr
        obtain ⟨hc, hh, ho⟩ := (h.step_ok_iff m).1 ⟨r₁, h₁⟩
        obtain ⟨hcs, hhs, hos⟩ := (Shadows.run_ok_iff (h.step h₁).2).1 ⟨r', hr⟩
        exact ⟨⟨hc, hcs⟩, ⟨hh, hhs⟩, ho, hos⟩
      · rintro ⟨⟨hc, hcs⟩, ⟨hh, hhs⟩, ho, hos⟩
        obtain ⟨r₁, h₁⟩ := (h.step_ok_iff m).2 ⟨hc, hh, ho⟩
        obtain ⟨r', hr⟩ := (Shadows.run_ok_iff (h.step h₁).2).2 ⟨hcs, hhs, hos⟩
        refine ⟨r', ?_⟩
        show (Rehearsal.step bank₀ registry₀ r m >>= fun r =>
          Rehearsal.run bank₀ registry₀ r ms) = _
        rw [h₁]
        exact hr

end Rehearsal

/-- Transfers are refused unless every coin is there, and every token its sender's, when its turn
comes. -/
theorem Book.transferRefusal?_eq_none_iff {b : Book} {ms : List Message} :
    b.transferRefusal? ms = none ↔
      b.bank.Covers ms ∧ b.registry.Honours ms ∧ ∀ m ∈ ms, ∀ v, m ≠ .other v := by
  rw [← (Rehearsal.shadows_start b.bank b.registry).run_ok_iff]
  unfold transferRefusal?
  cases Rehearsal.run b.bank b.registry {} ms <;> simp

/-- Funds and messages that are rehearsed with success are brought in and delivered. -/
theorem Book.deliverAll_of_rehearsal {b : Book} {ss : List BankSend} {ms : List Message}
    (h : b.transferRefusal? (ss.map .send ++ ms) = none) :
    b.bringInAll (ss.map .send) = .ok (b.carryAll (ss.map .send)) ∧
      (b.carryAll (ss.map .send)).deliverAll ms = .ok (b.carryAll (ss.map .send ++ ms)) := by
  unfold transferRefusal? at h
  split at h
  · cases h
  · rename_i r hr
    rw [Rehearsal.run_append] at hr
    obtain ⟨r₁, h₁, h₂⟩ := bind_ok hr
    obtain ⟨hf, hs⟩ := (Rehearsal.shadows_start b.bank b.registry).run h₁
    obtain ⟨hm, -⟩ := hs.run h₂
    exact ⟨(bringInAll_sends ss b).trans hf, by rw [hm, carryAll_append]⟩

end Pawnbook
