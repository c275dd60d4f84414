import Mathlib.Algebra.Ring.Int.Defs
import Pawnbook.Proofs.Plan
import Pawnbook.Proofs.Rehearsal

/-! # What transfers bring to an address

`Message.flow c d m` is what the address `c` gains in the denomination `d` by a message, below zero
if it pays. A balance that is a whole number stays one, and goes up by the flows of the messages
that are carried out (`Bank.whole?_carryAll`), whatever the balances of the other parties are. -/

namespace Pawnbook

namespace Number

theorem whole?_add {a : Number} {m n : Int} (h : a.whole? = some m) :
    (a.add (.whole n)).whole? = some (m + n) := by
  unfold add
  rw [h]
  rfl

theorem whole?_sub {a : Number} {m n : Int} (h : a.whole? = some m) :
    (a.sub (.whole n)).whole? = some (m - n) := by
  unfold sub
  rw [h]
  rfl

theorem isBelow_of_whole? {a : Number} {m : Int} (h : a.whole? = some m) (n : Int) :
    a.isBelow (.whole n) = decide (m < n) := by
  unfold isBelow
  rw [h]
  rfl

end Number

/-- The amount of a coin in a denomination: nothing if it is of another. -/
def Coin.amountIn (c : Coin) (denom : Key) : Nat := if (c.denom : Key) == denom then c.amount else 0

theorem Coin.amountIn_of_zero {c : Coin} (h : c.amount = 0) (d : Key) : c.amountIn d = 0 := by
  unfold amountIn
  rw [h]
  split <;> rfl

/-- What an address gains by a transfer of a coin. -/
def Coin.flow (coin : Coin) (sender recipient c d : Key) : Int :=
  (if recipient == c then (coin.amountIn d : Int) else 0) -
    (if sender == c then (coin.amountIn d : Int) else 0)

/-- What an address gains by a message in a denomination. -/
def Message.flow (c d : Key) : Message → Int
  | .send s => s.coin.flow s.sender s.recipient c d
  | .fee f => f.coin.flow f.sender f.recipient c d
  | .transfer _ | .other _ => 0

/-- What an address gains by some messages in a denomination. -/
def Message.flowAll (c d : Key) (ms : List Message) : Int := (ms.map (Message.flow c d)).sum

namespace Message
variable {c d : Key}

@[simp] theorem flowAll_nil : flowAll c d [] = 0 := rfl

@[simp] theorem flowAll_cons (m : Message) (ms : List Message) :
    flowAll c d (m :: ms) = m.flow c d + flowAll c d ms := by
  simp [flowAll]

@[simp] theorem flowAll_append (ms ns : List Message) :
    flowAll c d (ms ++ ns) = flowAll c d ms + flowAll c d ns := by
  simp [flowAll]

@[simp] theorem flowAll_transfers (ts : List NftTransfer) : flowAll c d (ts.map .transfer) = 0 := by
  induction ts with
  | nil => rfl
  | cons t ts ih =>
      rw [List.map_cons, flowAll_cons, ih]
      rfl

end Message

/-! ### Balances -/

namespace Bank
variable {b : Bank} {c d : Key} {n : Int}

theorem balance_congr (b : Bank) {a a' d d' : Key} (ha : (a == a') = true)
    (hd : (d == d') = true) : b.balance a d = b.balance a' d' := by
  unfold balance
  rw [account_congr b ha, Table.get?_congr _ hd]

theorem whole?_move (s r : Key) (coin : Coin) (h : (b.balance c d).whole? = some n) :
    ((b.move s r coin).balance c d).whole? = some (n + coin.flow s r c d) := by
  have debit : ((b.write s coin.denom ((b.balance s coin.denom).sub coin.worth)).balance c
      d).whole? = some (n - if s == c then (coin.amountIn d : Int) else 0) := by
    rw [balance_write]
    unfold Coin.amountIn
    by_cases hs : (s == c) = true <;> by_cases hd : ((coin.denom : Key) == d) = true
    · simp only [hs, hd, Bool.and_self, ↓reduceIte]
      rw [b.balance_congr hs hd]
      exact Number.whole?_sub h
    all_goals simp [hs, hd, h]
  unfold move
  dsimp only
  rw [balance_write]
  generalize b.write s coin.denom ((b.balance s coin.denom).sub coin.worth) = debited at *
  unfold Coin.flow
  by_cases hr : (r == c) = true <;> by_cases hd : ((coin.denom : Key) == d) = true
  · simp only [hr, hd, Bool.and_self, ↓reduceIte]
    rw [debited.balance_congr hr hd, Coin.worth, Number.whole?_add debit]
    simp only [Coin.amountIn, hd, ↓reduceIte]
    congr 1
    omega
  all_goals simp [hr, hd, debit, Coin.amountIn, Int.sub_eq_add_neg]

theorem whole?_carry (m : Message) (h : (b.balance c d).whole? = some n) :
    ((b.carry m).balance c d).whole? = some (n + m.flow c d) := by
  cases m with
  | send s => exact whole?_move s.sender s.recipient s.coin h
  | fee f => exact whole?_move f.sender f.recipient f.coin h
  | transfer | other => exact h.trans (by rw [Message.flow, Int.add_zero])

theorem whole?_carryAll : ∀ {ms : List Message} {b : Bank} {n : Int},
    (b.balance c d).whole? = some n →
    ((ms.foldl carry b).balance c d).whole? = some (n + Message.flowAll c d ms)
  | [], b, n, h => h.trans (by rw [Message.flowAll_nil, Int.add_zero])
  | m :: ms, b, n, h => by
      rw [List.foldl_cons, whole?_carryAll (whole?_carry m h), Message.flowAll_cons, Int.add_assoc]

end Bank

/-! ### Coins that are conveyed and charged -/

section flows
variable {c d s r : Key} {coin : Coin} {ss : List BankSend} {fs : List FeeDeposit}

theorem Conveys.flow (h : Conveys s r coin ss) :
    Message.flowAll c d (ss.map .send) = coin.flow s r c d := by
  cases h with
  | nothing hz => simp [Coin.flow, coin.amountIn_of_zero hz]
  | send hd hp => simp [Message.flow]

theorem Conveys.flow_in (h : Conveys s c coin ss) :
    Message.flowAll c d (ss.map .send) = coin.amountIn d := by
  cases h with
  | nothing hz => simp [coin.amountIn_of_zero hz]
  | send hd hp => simp [Message.flow, Coin.flow, hd]

theorem Conveys.flow_out (h : Conveys c r coin ss) :
    Message.flowAll c d (ss.map .send) = -(coin.amountIn d : Int) := by
  cases h with
  | nothing hz => simp [coin.amountIn_of_zero hz]
  | send hd hp =>
      have hr : (r == c) = false := by rw [BEq.comm, hd]
      simp [Message.flow, Coin.flow, hr]

theorem Charges.flow (h : Charges s r coin fs) :
    Message.flowAll c d (fs.map .fee) = coin.flow s r c d := by
  cases h with
  | nothing hz => simp [Coin.flow, coin.amountIn_of_zero hz]
  | fee addresses hp => simp [Message.flow]

/-- A fee costs the contract its amount, unless the contract is its own fee distributor. -/
theorem Charges.flow_out (h : Charges c r coin fs) : Message.flowAll c d (fs.map .fee) =
    if r == c then 0 else -(coin.amountIn d : Int) := by
  rw [h.flow, Coin.flow, if_pos BEq.rfl]
  split
  · exact Int.sub_self _
  · exact Int.zero_sub _

end flows

/-! ### Coins that are there -/

namespace Bank
variable {b : Bank} {c d s r : Key} {coin : Coin} {ss : List BankSend} {fs : List FeeDeposit}
  {n : Int}

theorem covers_append (ns : List Message) : ∀ (ms : List Message) (b : Bank),
    b.Covers (ms ++ ns) ↔ b.Covers ms ∧ (ms.foldl carry b).Covers ns
  | [], b => by simp [Covers]
  | m :: ms, b => by
      rw [List.cons_append, Covers, covers_append ns ms, Covers, and_assoc]
      rfl

theorem covers_transfers (ts : List NftTransfer) (b : Bank) : b.Covers (ts.map .transfer) := by
  induction ts with
  | nil => trivial
  | cons t ts ih => exact ⟨by simp [Message.outlay?], ih⟩

theorem covers_of_conveys (h : Conveys s r coin ss)
    (whole : (b.balance s coin.denom).whole? = some n) (enough : (coin.amount : Int) ≤ n) :
    b.Covers (ss.map .send) := by
  cases h with
  | nothing => trivial
  | send hd hp =>
      refine ⟨?_, trivial⟩
      rintro x ⟨⟩
      exact (Number.isBelow_of_whole? whole _).trans (decide_eq_false (Int.not_lt.2 enough))

theorem covers_of_charges (h : Charges s r coin fs)
    (whole : (b.balance s coin.denom).whole? = some n) (enough : (coin.amount : Int) ≤ n) :
    b.Covers (fs.map .fee) := by
  cases h with
  | nothing => trivial
  | fee addresses hp =>
      refine ⟨?_, trivial⟩
      rintro x ⟨⟩
      exact (Number.isBelow_of_whole? whole _).trans (decide_eq_false (Int.not_lt.2 enough))

theorem nonneg_of_paid (whole : (b.balance c d).whole? = some n) (hn : 0 ≤ n)
    (paid : (b.balance s coin.denom).isBelow coin.worth = false) : 0 ≤ n + coin.flow s r c d := by
  by_cases payer : (s == c) = true ∧ ((coin.denom : Key) == d) = true
  · rw [b.balance_congr payer.1 payer.2, Coin.worth, Number.isBelow_of_whole? whole,
      decide_eq_false_iff_not] at paid
    simp only [Coin.flow, Coin.amountIn, payer.1, payer.2, ↓reduceIte]
    split <;> omega
  · have spent : (if s == c then (coin.amountIn d : Int) else 0) = 0 := by
      unfold Coin.amountIn
      split
      · rename_i hs
        rw [if_neg fun hd => payer ⟨hs, hd⟩]
        rfl
      · rfl
    unfold Coin.flow
    rw [spent]
    split <;> omega

theorem nonneg_of_covers : ∀ {ms : List Message} {b : Bank} {n : Int},
    (b.balance c d).whole? = some n → 0 ≤ n → b.Covers ms → 0 ≤ n + Message.flowAll c d ms
  | [], _, n, _, hn, _ => by simpa using hn
  | m :: ms, b, n, whole, hn, ⟨paid, covered⟩ => by
      have step : 0 ≤ n + m.flow c d := by
        cases m with
        | send s => exact nonneg_of_paid whole hn (paid _ rfl)
        | fee f => exact nonneg_of_paid whole hn (paid _ rfl)
        | transfer | other => simpa [Message.flow] using hn
      have rest := nonneg_of_covers (whole?_carry m whole) step covered
      rwa [Message.flowAll_cons, ← Int.add_assoc]

end Bank
end Pawnbook
