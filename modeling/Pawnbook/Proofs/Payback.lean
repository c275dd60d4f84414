import Pawnbook.Proofs.Precision
import Pawnbook.Proofs.Success

/-! # The lender's share of the interest

At a rate from zero to below one the share that the lender keeps of an interest is the interest
times one less the rate, each of the two results rounded (`Repayment.share`), without its fraction
(`Repayment.lenderInterest_eq`). It cannot be computed only if it is too large for a decimal.
Rounding keeps the order, so the share is never negative, and never more than an interest of at
most fifty digits (`Repayment.lenderInterest_bounds`). -/

namespace Pawnbook
namespace Decimal

/-! ### Rates -/

theorem IsRate.cases {s : Bool} {c : Nat} {e : Int} (hr : (finite s c e).IsRate) :
    (adjusted c e < 0 ∨ c = 0) ∧ (s = true → c = 0) := by
  obtain ⟨-, hbelow, hone⟩ := hr
  simp only [isBelowZero, isAtLeastOne, Bool.and_eq_false_iff] at hbelow hone
  constructor
  · by_cases hz : c = 0
    · exact .inr hz
    · left
      simp_all
  · rintro rfl
    simpa using hbelow

theorem IsRate.worth_bounds {rate : Decimal} (hr : rate.IsRate) :
    0 ≤ rate.worth ∧ rate.worth < 1 := by
  cases rate with
  | infinite | nan => cases hr.1
  | finite s c e =>
      obtain ⟨small, sign⟩ := hr.cases
      have nonneg : 0 ≤ (finite s c e).worth := by
        cases s with
        | true => rw [worth_eq_zero_iff.2 (sign rfl)]
        | false =>
            rw [worth_positive]
            exact mul_nonneg (Nat.cast_nonneg c) (ten_zpow_pos e).le
      have below := (abs_worth_lt_iff (s := s) (c := c) (e := e) 0).2 small.symm
      rw [abs_of_nonneg nonneg, zpow_zero] at below
      exact ⟨nonneg, below⟩

section one
variable {t : ℚ}

theorem limit_gt_one : (1 : ℚ) < limit := one_lt_zpow₀ (by norm_num) (by decide)

theorem rounded_one : rounded 1 = 1 :=
  rounded_of_onGrid (u := 0) ⟨1, by simp⟩ (by decide) (by norm_num [precision])

theorem rounded_le_one {q : ℚ} (h₀ : 0 ≤ q) (h₁ : q ≤ 1) : rounded q ≤ 1 := by
  simpa only [rounded_one] using rounded_mono h₀ h₁

/-- One less a unit behind the fifty digits is rounded to one. -/
theorem rounded_nines : rounded (finite false (10 ^ 51 - 1) (-51)).worth = 1 := by
  have cut : divRound (10 ^ 51 - 1) (excess (10 ^ 51 - 1) (-51)) = 10 ^ 50 := by decide
  have place : (-51 : ℤ) + excess (10 ^ 51 - 1) (-51) = -50 := by decide
  rw [← worth_divRound, cut, place, worth_positive]
  norm_num

theorem rounded_one_sub (ht : 0 ≤ t) (le : t ≤ 10 ^ (-51 : ℤ)) : rounded (1 - t) = 1 := by
  have nines : (finite false (10 ^ 51 - 1) (-51)).worth = 1 - 10 ^ (-51 : ℤ) := by
    rw [worth_positive]
    norm_num
  apply le_antisymm
  · have small : (10 : ℚ) ^ (-51 : ℤ) ≤ 1 := by norm_num
    exact rounded_le_one (by linarith) (by linarith)
  · have lowest := rounded_mono (q := 1 - 10 ^ (-51 : ℤ)) (by norm_num) (sub_le_sub_left le 1)
    rwa [← nines, rounded_nines] at lowest

end one

/-! ### Steps of the calculation -/

/-- A power of ten less a number that is no larger, put together with signs. -/
theorem round_difference {s : Bool} {c n : ℕ} {g : ℤ} (sign : s = true → c = 0) (le : c ≤ n) :
    round (signed (!s) c + signed false n < 0) (signed (!s) c + signed false n).natAbs g =
      round false (n - c) g := by
  have difference : signed (!s) c + signed false n = ((n - c : ℕ) : ℤ) := by
    cases s with
    | true => simp [signed, sign rfl]
    | false =>
        simp only [signed, Bool.not_false, ↓reduceIte, Bool.false_eq_true]
        omega
  rw [difference, decide_eq_false (by omega), Int.natAbs_natCast]

/-- One less a rate is the difference of two whole numbers over a power of ten, rounded. A rate
that is too small to be seen in fifty digits is replaced by a unit behind these, which is rounded
away as the rate is. -/
theorem one_sub_round {rate : Decimal} (hr : rate.IsRate) : ∃ (n : ℕ) (g : ℤ),
    (ofInt 1).sub rate = round false n g ∧
      rounded (finite false n g).worth = rounded (1 - rate.worth) := by
  cases rate with
  | infinite | nan => cases hr.1
  | finite s c e =>
      obtain ⟨small, sign⟩ := hr.cases
      have value : (finite s c e).worth = c * 10 ^ e := by
        rw [← abs_worth s, abs_of_nonneg hr.worth_bounds.1]
      have sum : (ofInt 1).sub (finite s c e) = if (0 : Int) ≤ e then
        addAligned false 1 0 (!s) c e else addAligned (!s) c e false 1 0 := rfl
      have places : (0 : ℤ) + min (-1) ((Text.digitCount 1 : ℤ) - precision - 2) = -51 := rfl
      rw [sum]
      by_cases he : 0 ≤ e
      · obtain rfl : c = 0 := by
          have := Text.digitCount_pos c
          unfold adjusted at small
          omega
        rw [if_pos he, value]
        exact ⟨1, 0, rfl, by simp [worth_positive]⟩
      rw [if_neg he]
      unfold addAligned align
      rw [if_neg (by decide), places]
      dsimp only
      by_cases tiny : adjusted c e < -51
      · rw [if_pos (by simpa using tiny)]
        dsimp only
        by_cases zero : c = 0
        · refine ⟨_, _, round_difference (fun _ => if_pos zero) (by simp [zero]), ?_⟩
          have one : (finite false (10 ^ 51) (-51)).worth = 1 := by
            rw [worth_positive]
            norm_num
          rw [if_pos zero, value, zero, Nat.cast_zero, zero_mul, sub_zero, ← one]
          rfl
        · have le : (c : ℚ) * 10 ^ e ≤ 10 ^ (-51 : ℤ) := by
            rw [← abs_worth s]
            exact ((abs_worth_lt_iff _).2 (.inr tiny)).le
          refine ⟨_, _, round_difference (fun h => absurd (sign h) zero)
            (by simp [zero, tenPow_eq]), ?_⟩
          rw [if_neg zero, value, rounded_one_sub (value ▸ hr.worth_bounds.1) le]
          exact rounded_nines
      · rw [if_neg (by simpa using tiny), Nat.one_mul, tenPow_eq, Int.zero_sub]
        dsimp only
        have le : c ≤ 10 ^ (-e).toNat := by
          have below := hr.worth_bounds.2
          rw [value, ← neg_neg e, zpow_neg, ← Int.toNat_of_nonneg (show 0 ≤ -e by omega),
            zpow_natCast, mul_inv_lt_iff₀ (by positivity), one_mul] at below
          exact_mod_cast below.le
        refine ⟨_, _, round_difference sign le, ?_⟩
        rw [worth_positive, Nat.cast_sub le, sub_mul, value]
        push_cast
        rw [← zpow_natCast, ← zpow_add₀ (by norm_num), Int.toNat_of_nonneg (by omega),
          neg_add_cancel, zpow_zero]

theorem one_sub_eq {rate : Decimal} (hr : rate.IsRate) : ∃ c e,
    (ofInt 1).sub rate = .ok (finite false c e) ∧
      (finite false c e).worth = rounded (1 - rate.worth) := by
  obtain ⟨n, g, sub, worth⟩ := one_sub_round hr
  obtain ⟨low, high⟩ := hr.worth_bounds
  have nonneg : 0 ≤ rounded (1 - rate.worth) := rounded_nonneg (by linarith)
  have le_one : rounded (1 - rate.worth) ≤ 1 := rounded_le_one (by linarith) (by linarith)
  obtain ⟨c, e, -, -, ok, same⟩ := round_of_lt (s := false) (c := n) (e := g) (by
    rw [worth, abs_of_nonneg nonneg]
    exact le_one.trans_lt limit_gt_one)
  exact ⟨c, e, sub.trans ok, same.trans worth⟩

theorem trunc_eq (c : ℕ) (e : ℤ) :
    (finite false c e).trunc = .ok ⌊(finite false c e).worth⌋ := by
  have unsigned : ∀ k : ℕ, signed false k = k := fun _ => rfl
  unfold trunc
  dsimp only
  rw [worth_positive, tenPow_eq, tenPow_eq, unsigned, unsigned]
  by_cases he : 0 ≤ e
  · have whole : (c : ℚ) * 10 ^ e = ((c * 10 ^ e.toNat : ℕ) : ℚ) := by
      push_cast
      rw [← zpow_natCast, Int.toNat_of_nonneg he]
    rw [if_pos he, whole, Int.floor_natCast]
  · have divided : (c : ℚ) * 10 ^ e = (c : ℚ) / ((10 ^ (-e).toNat : ℕ) : ℚ) := by
      push_cast
      rw [← zpow_natCast, Int.toNat_of_nonneg (by omega), zpow_neg, div_inv_eq_mul]
    rw [if_neg he, divided, Rat.floor_natCast_div_natCast]
    split
    · rename_i short
      have small : c < 10 ^ (-e).toNat :=
        (Text.lt_pow_digitCount c).trans_le (Nat.pow_le_pow_right (by decide) short.le)
      rw [Int.ediv_eq_zero_of_lt (Int.natCast_nonneg c) (by exact_mod_cast small)]
    · rfl

end Decimal

/-! ### The share -/

namespace Repayment
open Decimal

/-- The lender's share of an interest before its fraction is cut off: the interest times one less
the rate, both results rounded. -/
def share (interest : ℤ) (rate : ℚ) : ℚ := rounded (interest * rounded (1 - rate))

section share
variable {i j : ℤ} {r s : ℚ} {rate : Decimal}

theorem share_nonneg (hi : 0 ≤ i) (hr : r < 1) : 0 ≤ share i r :=
  rounded_nonneg (mul_nonneg (by exact_mod_cast hi) (rounded_nonneg (by linarith)))

theorem share_mono (hi : 0 ≤ i) (hr : r < 1) (h : i ≤ j) : share i r ≤ share j r := by
  have kept : 0 ≤ rounded (1 - r) := rounded_nonneg (by linarith)
  exact rounded_mono (mul_nonneg (by exact_mod_cast hi) kept)
    (mul_le_mul_of_nonneg_right (by exact_mod_cast h) kept)

theorem share_anti (hi : 0 ≤ i) (hs : s < 1) (h : r ≤ s) : share i s ≤ share i r := by
  have kept : 0 ≤ rounded (1 - s) := rounded_nonneg (by linarith)
  exact rounded_mono (mul_nonneg (by exact_mod_cast hi) kept)
    (mul_le_mul_of_nonneg_left (rounded_mono (by linarith) (by linarith)) (by exact_mod_cast hi))

/-- The share is no larger than a number that rounding leaves alone and that the interest is no
larger than. -/
theorem share_le {b : ℚ} (hi : 0 ≤ i) (h₀ : 0 ≤ r) (h₁ : r < 1) (hb : (i : ℚ) ≤ b)
    (exact : rounded b = b) : share i r ≤ b := by
  have kept : rounded (1 - r) ≤ 1 := rounded_le_one (by linarith) (by linarith)
  have hi : (0 : ℚ) ≤ i := by exact_mod_cast hi
  rw [← exact]
  refine rounded_mono (mul_nonneg hi (rounded_nonneg (by linarith))) ?_
  exact (mul_le_of_le_one_right hi kept).trans hb

/-- The share of an interest that is not too long for a decimal is not either. -/
theorem share_lt_limit {k : ℕ} (hmax : (k : ℤ) ≤ greatestExponent) (hi : 0 ≤ i) (hlt : i < 10 ^ k)
    (h₀ : 0 ≤ r) (h₁ : r < 1) : share i r < limit := by
  have le : (i : ℚ) ≤ 10 ^ (k : ℤ) := by
    rw [zpow_natCast]
    exact_mod_cast hlt.le
  refine (share_le hi h₀ h₁ le (rounded_pow (by unfold leastExponent; omega))).trans_lt ?_
  exact zpow_lt_zpow_right₀ (by norm_num) (by omega)

/-- What is computed of an interest is the share without its fraction, as long as the share is not
too large for a decimal. -/
theorem lenderInterest_eq (hi : 0 ≤ i) (hr : rate.IsRate) :
    lenderInterest (.ofInt i) rate =
      if share i rate.worth < limit then .ok ⌊share i rate.worth⌋ else .error .overflow := by
  obtain ⟨c, e, sub, kept⟩ := one_sub_eq hr
  have whole : Decimal.ofInt i = .finite false i.natAbs 0 := by
    rw [Decimal.ofInt, decide_eq_false (by omega)]
  have product : rounded (finite false (i.natAbs * c) (0 + e)).worth = share i rate.worth := by
    rw [share, ← kept, worth_positive, worth_positive, zero_add]
    push_cast
    rw [Nat.cast_natAbs, abs_of_nonneg hi, mul_assoc]
  have times : (Decimal.ofInt i).mul (finite false c e) =
      round false (i.natAbs * c) (0 + e) := by rw [whole]; rfl
  have magnitude : |rounded (finite false (i.natAbs * c) (0 + e)).worth| = share i rate.worth := by
    rw [product, abs_of_nonneg (share_nonneg hi hr.worth_bounds.2)]
  unfold lenderInterest retained
  rw [sub]
  show ((Decimal.ofInt i).mul (finite false c e) >>= Decimal.trunc) = _
  rw [times]
  split
  · rename_i small
    obtain ⟨c', e', -, -, ok, same⟩ := round_of_lt (by rwa [magnitude])
    rw [ok, ← product, ← same]
    exact trunc_eq c' e'
  · rename_i large
    rw [round_of_limit_le (by rwa [magnitude, ← not_lt])]
    rfl

end share

section bounds
variable {interest amount : ℤ} {rate : Decimal}

/-- At a rate from zero to below one the lender's share of an interest is neither negative nor, if
the interest has at most fifty digits, more than the interest. -/
theorem lenderInterest_bounds (hi : 0 ≤ interest) (hr : rate.IsRate)
    (h : lenderInterest (.ofInt interest) rate = .ok amount) :
    0 ≤ amount ∧ (interest < 10 ^ 50 → amount ≤ interest) := by
  obtain ⟨low, high⟩ := hr.worth_bounds
  rw [lenderInterest_eq hi hr] at h
  split at h
  · cases h
    refine ⟨Int.floor_nonneg.2 (share_nonneg hi high), fun short => ?_⟩
    have le := share_le hi low high le_rfl (rounded_intCast hi short)
    exact_mod_cast (Int.floor_le _).trans le
  · cases h

theorem exists_lenderInterest_ok {k : Nat} (hmax : (k : Int) ≤ Decimal.greatestExponent)
    (hi : 0 ≤ interest) (hlt : interest < 10 ^ k) (hr : rate.IsRate) :
    ∃ amount, lenderInterest (.ofInt interest) rate = .ok amount := by
  obtain ⟨low, high⟩ := hr.worth_bounds
  exact ⟨_, (lenderInterest_eq hi hr).trans (if_pos (share_lt_limit hmax hi hlt low high))⟩

end bounds
end Repayment
end Pawnbook
