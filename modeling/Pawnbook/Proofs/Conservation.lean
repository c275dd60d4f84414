import Mathlib.Algebra.Ring.Nat
import Pawnbook.Proofs.Flow
import Pawnbook.Proofs.Steps
import Pawnbook.Proofs.Transfers

/-! # Funds are moved, never created

A bank is solvent if every balance on record is a whole number that is not below zero. A coin that
is covered is taken from one balance and put on another, which may be the same one or a new one: the
bank stays solvent, and the sum of its balances in every denomination stays what it was
(`Bank.Solvent.move`). Executions move coins in no other way, whatever they are given and whatever
comes of them. An execution that does not raise also logs what it applies, and the distributor's
receipts are the fees of the log (`Book.fees_execute`). `funds_conserved` is both, over any list of
executions. -/

namespace Pawnbook

/-! ### Balances on record -/

/-- The units that a number counts; there are none below zero. -/
def Number.units (a : Number) : Nat := (a.whole?.getD 0).toNat

theorem Number.units_of_whole? {a : Number} {n : Nat} (h : a.whole? = some (n : Int)) :
    a.units = n := by
  rw [units, h]
  rfl

theorem Number.exists_units {a : Number} :
    (∃ n : Nat, a.whole? = some (n : Int)) ↔ a.whole? = some (a.units : Int) := by
  constructor
  · rintro ⟨n, h⟩
    rw [units_of_whole? h, h]
  · exact fun h => ⟨_, h⟩

instance (a : Number) : Decidable (∃ n : Nat, a.whole? = some (n : Int)) :=
  decidable_of_iff _ Number.exists_units.symm

namespace Bank
variable {b : Bank}

/-- Every balance on record is a whole number and not below zero. -/
def Solvent (b : Bank) : Prop :=
  ∀ account ∈ b.accounts.values, ∀ amount ∈ account.values,
    ∃ n : Nat, amount.whole? = some (n : Int)

instance (b : Bank) : Decidable b.Solvent :=
  inferInstanceAs (Decidable (∀ account ∈ b.accounts.values, ∀ amount ∈ account.values,
    ∃ n : Nat, amount.whole? = some (n : Int)))

/-- The units of a denomination in all accounts together. -/
def supply (b : Bank) (d : Key) : Nat :=
  (b.accounts.values.map fun account => ((account.get? d).getD (.whole 0)).units).sum

theorem solvent_lookup {account : Table Key Number}
    (h : ∀ amount ∈ account.values, ∃ n : Nat, amount.whole? = some (n : Int)) (d : Key) :
    ∃ n : Nat, ((account.get? d).getD (.whole 0)).whole? = some (n : Int) := by
  cases found : account.get? d with
  | none => exact ⟨0, rfl⟩
  | some amount => exact h amount (Table.mem_values_of_get? found)

theorem Solvent.account (h : b.Solvent) (a : Key) :
    ∀ amount ∈ (b.account a).values, ∃ n : Nat, amount.whole? = some (n : Int) := by
  unfold Bank.account
  cases found : b.accounts.get? a with
  | none => exact fun _ none => absurd none List.not_mem_nil
  | some account => exact h account (Table.mem_values_of_get? found)

theorem Solvent.balance (h : b.Solvent) (a d : Key) :
    ∃ n : Nat, (b.balance a d).whole? = some (n : Int) := solvent_lookup (h.account a) d

theorem Solvent.totalSupply_eq (h : b.Solvent) (d : Key) :
    b.totalSupply d = .whole (b.supply d) := by
  have fold : ∀ (accounts : List (Table Key Number)) (sum : Nat),
      (∀ account ∈ accounts, ∀ amount ∈ account.values, ∃ n : Nat,
        amount.whole? = some (n : Int)) →
      accounts.foldl (fun sum a => sum.add ((a.get? d).getD (.whole 0))) (Number.whole sum) =
        .whole ((sum + (accounts.map fun account =>
          ((account.get? d).getD (.whole 0)).units).sum : Nat) : Int) := by
    intro accounts
    induction accounts with
    | nil => intro sum _; rfl
    | cons account accounts ih =>
        intro sum h
        rw [List.forall_mem_cons] at h
        obtain ⟨n, hn⟩ := solvent_lookup h.1 d
        have added : (Number.whole sum).add ((account.get? d).getD (.whole 0)) =
            .whole ((sum + n : Nat) : Int) := by
          unfold Number.add
          rw [hn]
          rfl
        rw [List.foldl_cons, added, ih _ h.2, List.map_cons, List.sum_cons,
          Number.units_of_whole? hn, Nat.add_assoc]
  have sum := fold b.accounts.values 0 h
  rw [Nat.zero_add] at sum
  exact sum

/-! ### Writes and transfers -/

theorem Solvent.write (h : b.Solvent) {a d : Key} {amount : Number} {n : Nat}
    (whole : amount.whole? = some (n : Int)) : (b.write a d amount).Solvent := by
  intro account mem
  rcases Table.mem_values_insert mem with rfl | mem
  · intro amount' mem
    rcases Table.mem_values_insert mem with rfl | mem
    · exact ⟨n, whole⟩
    · exact h.account a amount' mem
  · exact h account mem

theorem supply_write (b : Bank) (a d : Key) (amount : Number) (d' : Key) :
    (b.write a d amount).supply d' + (b.balance a d').units =
      b.supply d' + (if d == d' then amount else b.balance a d').units := by
  have sum := Table.sum_insert (fun account : Table Key Number =>
    ((account.get? d').getD (.whole 0)).units) b.accounts a ((b.account a).insert d amount)
  have old : ((b.accounts.get? a).map fun account : Table Key Number =>
      ((account.get? d').getD (.whole 0)).units).getD 0 = (b.balance a d').units := by
    unfold Bank.balance Bank.account
    cases b.accounts.get? a <;> rfl
  have new : ((((b.account a).insert d amount).get? d').getD (.whole 0)).units =
      (if d == d' then amount else b.balance a d').units := by
    rw [Table.get?_insert, Bank.balance]
    split <;> rfl
  rw [old, new] at sum
  exact sum

/-- A coin that is covered moves from one balance to another, and all balances together stay what
they are; this also holds if the two are one. -/
theorem Solvent.move (h : b.Solvent) {s r : Key} {c : Coin}
    (covered : (b.balance s c.denom).isBelow c.worth = false) :
    (b.move s r c).Solvent ∧ ∀ d, (b.move s r c).supply d = b.supply d := by
  obtain ⟨m, hm⟩ := h.balance s c.denom
  have enough : c.amount ≤ m := by
    rw [Coin.worth, Number.isBelow_of_whole? hm, decide_eq_false_iff_not] at covered
    omega
  have paid : ((b.balance s c.denom).sub c.worth).whole? = some ((m - c.amount : Nat) : Int) := by
    rw [Coin.worth, Number.whole?_sub hm]
    congr 1
    omega
  have hd := h.write paid (a := s) (d := c.denom)
  have debit := b.supply_write s c.denom ((b.balance s c.denom).sub c.worth)
  unfold Bank.move
  dsimp only
  generalize b.write s c.denom ((b.balance s c.denom).sub c.worth) = debited at hd debit ⊢
  obtain ⟨k, hk⟩ := hd.balance r c.denom
  have received : ((debited.balance r c.denom).add c.worth).whole? =
      some ((k + c.amount : Nat) : Int) := by
    rw [Coin.worth, Number.whole?_add hk]
    rfl
  refine ⟨hd.write received, fun d => ?_⟩
  have credit := debited.supply_write r c.denom ((debited.balance r c.denom).add c.worth) d
  have debit := debit d
  by_cases same : ((c.denom : Key) == d) = true
  · rw [if_pos same, Number.units_of_whole? paid, ← b.balance_congr BEq.rfl same,
      Number.units_of_whole? hm] at debit
    rw [if_pos same, Number.units_of_whole? received, ← debited.balance_congr BEq.rfl same,
      Number.units_of_whole? hk] at credit
    omega
  · rw [if_neg same] at debit credit
    omega

end Bank

/-! ### Fees and their receipts -/

/-- The receipt that the distributor writes for a fee. -/
def FeeDeposit.receipt (f : FeeDeposit) : FeeReceipt := ⟨f.addresses, f.kind, f.coin⟩

/-- The fee that a message pays to the distributor. -/
def Message.fee? : Message → Option FeeDeposit
  | .fee f => some f
  | .send _ | .transfer _ | .other _ => none

/-- The fees that a transaction pays to the distributor, in order. -/
def Transaction.fees (t : Transaction) : List FeeDeposit := t.messages.filterMap (·.fee?)

namespace FeeLedger

theorem receipts_carryAll : ∀ (ms : List Message) (l : FeeLedger),
    (ms.foldl carry l).receipts = l.receipts ++ (ms.filterMap (·.fee?)).map (·.receipt)
  | [], l => (List.append_nil _).symm
  | m :: ms, l => by
      rw [List.foldl_cons, receipts_carryAll ms]
      cases m with
      | fee f =>
          rw [carry, receipts_deposit, List.append_assoc]
          rfl
      | send | transfer | other => rfl

theorem total_append {l l' : FeeLedger} {fs : List FeeDeposit}
    (h : l'.receipts = l.receipts ++ fs.map (·.receipt)) (d : Key) :
    l'.total d = l.total d + (fs.map (·.coin.amountIn d)).sum := by
  have sum : ∀ cs : List Coin, ((cs.filter fun c => (c.denom : Key) == d).map (·.amount)).sum =
      (cs.map (·.amountIn d)).sum := by
    intro cs
    induction cs with
    | nil => rfl
    | cons c cs ih =>
        rw [List.filter_cons, List.map_cons, List.sum_cons, ← ih, Coin.amountIn]
        split <;> simp
  have total : ∀ l : FeeLedger, l.total d =
      ((l.receipts.filterMap (·.coin.coin?)).map (·.amountIn d)).sum := fun l => sum _
  have coins : (fs.map (·.receipt)).filterMap (·.coin.coin?) = fs.map (·.coin) := by
    rw [List.filterMap_map]
    exact congrFun List.filterMap_eq_map fs
  rw [total, total, h, List.filterMap_append, coins, List.map_append, List.sum_append, List.map_map]
  rfl

end FeeLedger

/-! ### One execution -/

namespace Book
variable {b b' : Book} {p : Pending}

theorem stepsKeep_supply (supply : Key → Nat) :
    StepsKeep fun b => b.bank.Solvent ∧ ∀ d, b.bank.supply d = supply d := by
  have paid : ∀ {b b' : Book} {s r : Key} {c : Coin},
      (b.bank.Solvent ∧ ∀ d, b.bank.supply d = supply d) → b.pay s r c = .ok b' →
      b'.bank.Solvent ∧ ∀ d, b'.bank.supply d = supply d := by
    intro b b' s r c ⟨solvent, same⟩ h
    obtain ⟨rfl, covered⟩ := pay_ok h
    obtain ⟨moved, kept⟩ := solvent.move (r := r) covered
    exact ⟨moved, fun d => (kept d).trans (same d)⟩
  refine ⟨id, ?_, ?_, ?_, id⟩
  · intro b b' c hb h
    rw [(congrArg Book.bank (write_frame h) :)]
    exact hb
  · intro b b' m hb h
    cases m with
    | send s => exact paid hb h
    | fee f => exact paid hb h
    | transfer | other => cases h
  · intro b b' m hb h
    cases m with
    | send s => exact paid hb h
    | fee f =>
        obtain ⟨b₁, h₁, h⟩ := bind_ok h
        have kept := paid hb h₁
        cases h
        exact kept
    | transfer t =>
        obtain ⟨registry, -, h⟩ := bind_ok h
        cases h
        exact hb
    | other v =>
        cases h
        exact hb

theorem deliverAll_eq_carryAll : ∀ {ms : List Message} {b : Book}, b.deliverAll ms = .ok b' →
    b' = b.carryAll ms
  | [], _, h => by
      cases h
      rfl
  | m :: ms, b, h => by
      obtain ⟨b₁, h₁, h⟩ := bind_ok h
      have carried : b₁ = b.carry m := by
        have h₁ := mapError_ok h₁
        cases m with
        | other v =>
            cases h₁
            rfl
        | send | fee | transfer => exact (deliver_ok (fun v other => by cases other) h₁).1.symm
      rw [deliverAll_eq_carryAll h, carried, carryAll_cons]

/-- What is committed is logged, and the receipts are those of its fees. -/
theorem fees_commit {after : Book} (h : b.commit p = .ok after) :
    after.log = b.log ++ [b.nextTransaction p] ∧ after.fees.receipts =
      b.fees.receipts ++ (b.nextTransaction p).fees.map (·.receipt) := by
  cases id : b.requireExecId with
  | error f =>
      rw [commit_of_unwritable id] at h
      cases h
  | ok =>
  rw [commit_of_writable id] at h
  obtain ⟨written, hw, h⟩ := bind_ok h
  obtain ⟨funded, hf, h⟩ := bind_ok h
  obtain ⟨delivered, hd, h⟩ := bind_ok h
  cases h
  -- Neither writes nor attached funds touch the log or the receipts.
  have before : funded.log = b.log ∧ funded.fees = b.fees := by
    have wrote : (reached (b.numbered.writeAll p.changes)).log = b.log ∧
        (reached (b.numbered.writeAll p.changes)).fees = b.fees :=
      reached_all (I := fun b' => b'.log = b.log ∧ b'.fees = b.fees) (fun _ => rfl)
        (fun _ _ _ => rfl) (fun hb h => by rw [write_frame h]; exact hb) _ ⟨rfl, rfl⟩
    rw [show b.numbered.writeAll p.changes = .ok written from hw] at wrote
    have brought : (reached (written.bringInAll p.fundsIn)).log = b.log ∧
        (reached (written.bringInAll p.fundsIn)).fees = b.fees :=
      reached_all (I := fun b' => b'.log = b.log ∧ b'.fees = b.fees) (fun _ => rfl)
        (fun _ _ _ => rfl) (fun hb h => by rw [bringIn_frame h]; exact hb) p.fundsIn wrote
    rw [hf] at brought
    exact brought
  have carried := deliverAll_eq_carryAll hd
  rw [carryAll_eq] at carried
  constructor
  · show delivered.log ++ _ = _
    rw [(congrArg Book.log carried :), before.1]
  · show delivered.fees.receipts = _
    rw [(congrArg Book.fees carried :), before.2, FeeLedger.receipts_carryAll]
    rfl

/-- What is logged of a pending transaction when it is executed: nothing, unless it is applied and
not empty. -/
def application (b : Book) (p : Pending) : List Transaction :=
  match (b.execute p).answer with
  | .ok .applied => if p.isEmpty then [] else [b.nextTransaction p]
  | _ => []

/-- An execution that does not raise leaves the book alone and logs nothing, or commits the pending
transaction and logs it. -/
theorem application_cases {v : Verdict} (h : (b.execute p).answer = .ok v) :
    ((b.execute p).book = b ∧ b.application p = []) ∨
      (b.commit p = .ok (b.execute p).book ∧ b.application p = [b.nextTransaction p]) := by
  cases filled : p.isEmpty with
  | true =>
      have left : b.execute p = { book := b, answer := .ok .applied } := if_pos filled
      rw [application, left]
      exact .inl ⟨rfl, if_pos filled⟩
  | false =>
      by_cases fits : b.refusal? p = .ok none
      · cases committed : b.commit p with
        | error stop =>
            have raised : (b.execute p).answer = .error stop.error := by
              unfold execute
              rw [if_neg (by simp [filled]), fits]
              dsimp only
              rw [committed]
            cases raised.symm.trans h
        | ok after =>
            have carried := execute_of_committed filled fits committed
            rw [carried] at h
            rw [application, carried, book_announce, h, eq_of_answer_announce h]
            exact .inr ⟨rfl, if_neg (by simp [filled])⟩
      · obtain ⟨unapplied, same⟩ := execute_of_refused filled fits
        rw [same, application]
        refine .inl ⟨rfl, ?_⟩
        split
        · rename_i applied
          exact absurd applied unapplied
        · rfl

/-- An execution that does not raise logs what it applies, and the receipts are those of the fees
in the log. -/
theorem fees_execute {v : Verdict} (h : (b.execute p).answer = .ok v) :
    (b.execute p).book.log = b.log ++ b.application p ∧ (b.execute p).book.fees.receipts =
      b.fees.receipts ++ ((b.application p).flatMap (·.fees)).map (·.receipt) := by
  rcases application_cases h with ⟨unchanged, nothing⟩ | ⟨committed, logged⟩
  · rw [unchanged, nothing]
    exact ⟨(List.append_nil _).symm, (List.append_nil _).symm⟩
  · rw [logged, List.flatMap_singleton]
    exact fees_commit committed

/-! ### All executions -/

/-- The book after pending transactions are executed, one after the other. -/
def executeAll (b : Book) (ps : List Pending) : Book := ps.foldl (fun b p => (b.execute p).book) b

/-- None of the executions raises. -/
def Unraised : Book → List Pending → Prop
  | _, [] => True
  | b, p :: ps => (b.execute p).answer.toOption.isSome = true ∧ (b.execute p).book.Unraised ps

instance decidableUnraised : ∀ (b : Book) (ps : List Pending), Decidable (b.Unraised ps)
  | _, [] => .isTrue trivial
  | b, p :: ps =>
    have := decidableUnraised (b.execute p).book ps
    inferInstanceAs (Decidable (_ ∧ _))

/-- What is logged of pending transactions when they are executed. -/
def applications : Book → List Pending → List Transaction
  | _, [] => []
  | b, p :: ps => b.application p ++ (b.execute p).book.applications ps

theorem supply_executeAll (ps : List Pending) (h : b.bank.Solvent) :
    (b.executeAll ps).bank.Solvent ∧
      ∀ d, (b.executeAll ps).bank.supply d = b.bank.supply d := by
  have run : ∀ (ps : List Pending) (b' : Book),
      (b'.bank.Solvent ∧ ∀ d, b'.bank.supply d = b.bank.supply d) →
      (b'.executeAll ps).bank.Solvent ∧
        ∀ d, (b'.executeAll ps).bank.supply d = b.bank.supply d := by
    intro ps
    induction ps with
    | nil => exact fun _ hb' => hb'
    | cons p ps ih => exact fun b' hb' => ih _ ((stepsKeep_supply _).execute hb' p)
  exact run ps b ⟨h, fun _ => rfl⟩

theorem fees_executeAll : ∀ {ps : List Pending} {b : Book}, b.Unraised ps →
    (b.executeAll ps).log = b.log ++ b.applications ps ∧ (b.executeAll ps).fees.receipts =
      b.fees.receipts ++ ((b.applications ps).flatMap (·.fees)).map (·.receipt)
  | [], b, _ => ⟨(List.append_nil _).symm, (List.append_nil _).symm⟩
  | p :: ps, b, ⟨first, rest⟩ => by
      obtain ⟨v, first⟩ := Option.isSome_iff_exists.1 first
      obtain ⟨log, receipts⟩ := fees_execute (toOption_eq_some_iff.1 first)
      obtain ⟨logs, all⟩ := fees_executeAll rest
      rw [log, List.append_assoc] at logs
      rw [receipts, List.append_assoc, ← List.map_append, ← List.flatMap_append] at all
      exact ⟨logs, all⟩

end Book

/-- Executions only move funds, whatever is executed and whatever comes of it: if no balance is
below zero, none gets there, and the supply of no denomination changes. If none of them raises, the
log goes on with what was applied, the distributor's receipts go on with the fees of that, in order,
and what it has collected grows by their amounts. -/
theorem funds_conserved {b : Book} (ps : List Pending) (solvent : b.bank.Solvent) :
    ((b.executeAll ps).bank.Solvent ∧
        ∀ d, (b.executeAll ps).bank.totalSupply d = b.bank.totalSupply d) ∧
      (b.Unraised ps →
        (b.executeAll ps).log = b.log ++ b.applications ps ∧
        (b.executeAll ps).fees.receipts =
          b.fees.receipts ++ ((b.applications ps).flatMap (·.fees)).map (·.receipt) ∧
        ∀ d, (b.executeAll ps).fees.total d = b.fees.total d +
          (((b.applications ps).flatMap (·.fees)).map (·.coin.amountIn d)).sum) := by
  obtain ⟨still, supply⟩ := Book.supply_executeAll ps solvent
  refine ⟨⟨still, fun d => ?_⟩, fun unraised => ?_⟩
  · rw [still.totalSupply_eq, solvent.totalSupply_eq, supply]
  · obtain ⟨log, receipts⟩ := Book.fees_executeAll unraised
    exact ⟨log, receipts, FeeLedger.total_append receipts⟩

namespace Session

/-- Erin has some coins, and nothing else has happened yet. -/
def endowment : Session := opening.run [.fund "erin" "stars" (.whole 8)]

/-- Erin deposits most of her coins. The contract pays a fee to the distributor and one to itself,
and the rest to an address that has no account yet. -/
def levy : Pending where
  changes := []
  fundsIn := [.send ⟨"erin", "contract", stars 7, by decide, by decide⟩]
  messages :=
    [.fee ⟨"contract", "fees", [], FeeDeposit.fundsKind, stars 2, by decide⟩,
     .fee ⟨"contract", "contract", [], FeeDeposit.fundsKind, stars 1, by decide⟩,
     .send ⟨"contract", "dana", stars 4, by decide, by decide⟩]
  origin := ⟨.userAction, "erin", .text "levy"⟩
  date := none
  intentId := "levy"

/-- Finn pays what he does not have. -/
def overspend : Pending :=
  { levy with
    fundsIn := [.send ⟨"finn", "contract", stars 9, by decide, by decide⟩]
    intentId := "overspend" }

/-- Erin's transaction, Finn's, and Erin's again. -/
def levies : List Pending := [levy, overspend, levy]

end Session

/-- The first of these executions is applied, the second is rejected and the third is a repetition
of the first. Both fees are collected, once. -/
theorem funds_conserved_levies :
    Session.endowment.book.bank.Solvent ∧ Session.endowment.book.Unraised Session.levies ∧
    (Session.endowment.book.applications Session.levies).length = 1 ∧
    ((Session.endowment.book.executeAll Session.levies).bank.Solvent ∧
      ∀ d, (Session.endowment.book.executeAll Session.levies).bank.totalSupply d =
        Session.endowment.book.bank.totalSupply d) ∧
    (Session.endowment.book.executeAll Session.levies).fees.total "stars" = 3 := by
  have solvent : Session.endowment.book.bank.Solvent := by decide +kernel
  have unraised : Session.endowment.book.Unraised Session.levies := by decide +kernel
  obtain ⟨moved, rest⟩ := funds_conserved Session.levies solvent
  obtain ⟨-, -, collected⟩ := rest unraised
  refine ⟨solvent, unraised, by decide +kernel, moved, ?_⟩
  rw [collected]
  decide +kernel

end Pawnbook
