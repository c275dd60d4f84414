import Mathlib.Tactic.NormNum
import Pawnbook.Proofs.Payback

/-! # What the lender is paid back

The payback is the principal and the share of the interest without its fraction, where the share is
rounded twice: one less the rate, and its product with the interest (`payback_rounded`). It is
exact as long as the interest and the places of the rate together have at most fifty digits, and at
most one unit off for an interest of at most fifty digits; an interest of one at the smallest rates
is paid back in full (`payback_inexact`). For all numbers rounding keeps the order: a larger
interest or a lower rate never pays back less (`payback_ordered`). -/

namespace Pawnbook
namespace Repayment
open Decimal

/-- At the rate the lender of the principal is paid back the amount. -/
def Pays (principal interest : ℤ) (rate : Decimal) (amount : ℤ) : Prop :=
  lenderPayback (.whole principal) (.ofInt interest) rate = .ok (.whole amount)

section payback
variable {p i j a : ℤ} {r : ℚ} {rate : Decimal}

/-- The payback is the principal and the share, cut off, unless that is too large for a decimal. -/
theorem lenderPayback_eq (p : ℤ) (hi : 0 ≤ i) (hr : rate.IsRate) :
    lenderPayback (.whole p) (.ofInt i) rate =
      if share i rate.worth < limit then .ok (.whole (p + ⌊share i rate.worth⌋))
      else .error (.calculation .overflow) := by
  unfold lenderPayback
  rw [lenderInterest_eq hi hr]
  split <;> rfl

theorem pays_iff (hi : 0 ≤ i) (hr : rate.IsRate) :
    Pays p i rate a ↔ share i rate.worth < limit ∧ p + ⌊share i rate.worth⌋ = a := by
  rw [Pays, lenderPayback_eq p hi hr]
  split
  · rename_i small
    simp [small]
  · rename_i large
    simp [large]

/-! ### Exact shares -/

/-- Rounding to a place moves a number by half a unit of that place at most. -/
theorem abs_rounded_sub_le_of_lt {u : ℤ} {q : ℚ} (hu : leastExponent ≤ u)
    (hlt : |q| < 10 ^ (u + precision)) : |rounded q - q| ≤ 10 ^ u / 2 := by
  by_cases hq : q = 0
  · rw [hq, rounded_zero, sub_zero, abs_zero]
    exact (half_pos (ten_zpow_pos u)).le
  · have finer := zpow_le_zpow_right₀ (by norm_num : (1 : ℚ) ≤ 10) (lastPlace_le hu hq hlt)
    exact (abs_rounded_sub_le q).trans (by linarith)

theorem share_exact {k : ℕ} (hi : 0 ≤ i) (h₀ : 0 ≤ r) (h₁ : r < 1) (places : OnGrid (-k) r)
    (short : i * 10 ^ k < 10 ^ 50) : share i r = i * (1 - r) := by
  rcases hi.eq_or_lt with rfl | positive
  · rw [share, Int.cast_zero, zero_mul, zero_mul, rounded_zero]
  have power : (10 : ℚ) ^ (-(k : ℤ) + precision) * 10 ^ k = 10 ^ 50 := by
    rw [← zpow_natCast, ← zpow_add₀ (by norm_num), precision]
    norm_num
  have below : (i : ℚ) < 10 ^ (-(k : ℤ) + precision) := by
    refine lt_of_mul_lt_mul_right (a := (10 : ℚ) ^ k) ?_ (by positivity)
    rw [power]
    exact_mod_cast short
  have one_le : (1 : ℚ) ≤ i := by exact_mod_cast positive
  have least : leastExponent ≤ -k := by
    have fits : (10 : ℤ) ^ k < 10 ^ 50 := by
      have := le_mul_of_one_le_left (show (0 : ℤ) ≤ 10 ^ k by positivity) positive
      omega
    have := (Nat.pow_lt_pow_iff_right (a := 10) (by decide)).1 (by exact_mod_cast fits)
    unfold leastExponent
    omega
  obtain ⟨n, hn⟩ := places
  have rest : OnGrid (-k) (1 - r) := by
    refine ⟨10 ^ k - n, ?_⟩
    push_cast
    rw [hn, sub_mul, ← zpow_natCast, ← zpow_add₀ (by norm_num), add_neg_cancel, zpow_zero]
  have kept : rounded (1 - r) = 1 - r := by
    refine rounded_of_onGrid rest least ?_
    rw [abs_of_nonneg (by linarith)]
    linarith
  obtain ⟨m, hm⟩ := rest
  rw [share, kept]
  refine rounded_of_onGrid ⟨i * m, by rw [hm]; push_cast; ring⟩ least ?_
  rw [abs_of_nonneg (mul_nonneg (by linarith) (by linarith))]
  exact (mul_le_of_le_one_right (by linarith) (by linarith)).trans_lt below

/-- The share of an interest of at most fifty digits is less than a unit off. -/
theorem abs_share_sub_lt (hi : 0 ≤ i) (h₀ : 0 ≤ r) (h₁ : r < 1) (short : i < 10 ^ 50) :
    |share i r - i * (1 - r)| < 1 := by
  have hi : (0 : ℚ) ≤ i := by exact_mod_cast hi
  have short : (i : ℚ) < 10 ^ 50 := by exact_mod_cast short
  -- one less the rate is rounded at the fiftieth place
  have rest : |rounded (1 - r) - (1 - r)| ≤ 10 ^ (-50 : ℤ) / 2 := by
    rcases h₀.eq_or_lt with rfl | positive
    · rw [sub_zero, rounded_one, sub_self, abs_zero]
      norm_num
    · refine abs_rounded_sub_le_of_lt (by decide) ?_
      rw [abs_of_nonneg (by linarith), precision]
      norm_num
      exact positive
  have kept : |(i : ℚ) * rounded (1 - r) - i * (1 - r)| < 1 / 2 := by
    rw [← mul_sub, abs_mul, abs_of_nonneg hi]
    calc (i : ℚ) * |rounded (1 - r) - (1 - r)| ≤ i * (10 ^ (-50 : ℤ) / 2) :=
          mul_le_mul_of_nonneg_left rest hi
      _ < 10 ^ 50 * (10 ^ (-50 : ℤ) / 2) := mul_lt_mul_of_pos_right short (by norm_num)
      _ = 1 / 2 := by norm_num
  -- and the product at the point
  have product : |share i r - i * rounded (1 - r)| ≤ 1 / 2 := by
    have nonneg : 0 ≤ rounded (1 - r) := rounded_nonneg (by linarith)
    have le_one : rounded (1 - r) ≤ 1 := rounded_le_one (by linarith) (by linarith)
    have half := abs_rounded_sub_le_of_lt (u := 0) (q := i * rounded (1 - r)) (by decide) (by
      rw [abs_of_nonneg (mul_nonneg hi nonneg), zero_add, precision, zpow_natCast]
      exact (mul_le_of_le_one_right hi le_one).trans_lt short)
    rwa [zpow_zero] at half
  calc |share i r - i * (1 - r)|
      = |(share i r - i * rounded (1 - r)) + (i * rounded (1 - r) - i * (1 - r))| := by ring_nf
    _ ≤ |share i r - i * rounded (1 - r)| + |i * rounded (1 - r) - i * (1 - r)| := abs_add_le _ _
    _ < 1 := by linarith

theorem abs_floor_sub_le {x y : ℚ} (h : |x - y| < 1) : |⌊x⌋ - ⌊y⌋| ≤ 1 := by
  rw [abs_lt] at h
  have above : ⌊x⌋ ≤ ⌊y⌋ + 1 := by
    rw [← Int.floor_add_one]
    exact Int.floor_mono (by linarith)
  have below : ⌊y⌋ ≤ ⌊x⌋ + 1 := by
    rw [← Int.floor_add_one]
    exact Int.floor_mono (by linarith)
  rw [abs_le]
  omega

end payback

/-- The lender is paid back the principal and the share of the interest without its fraction, unless
that is too large for a decimal. This is the interest less the fee, computed exactly and without
its fraction, just if rounding has not carried the share over a whole number; it never does if the
interest and the places of the rate have at most fifty digits together, and the payback is at most a
unit off if the interest has at most fifty digits. -/
theorem payback_rounded {given : Value} {rate : Decimal}
    (accepted : Config.checkFeeRate given = .ok rate) (p : ℤ) {i : ℤ} (hi : 0 ≤ i) :
    lenderPayback (.whole p) (.ofInt i) rate =
        (if share i rate.worth < limit then .ok (.whole (p + ⌊share i rate.worth⌋))
          else .error (.calculation .overflow)) ∧
      (Pays p i rate (p + ⌊(i : ℚ) * (1 - rate.worth)⌋) ↔
        share i rate.worth < limit ∧ ⌊share i rate.worth⌋ = ⌊(i : ℚ) * (1 - rate.worth)⌋) ∧
      (∀ k : ℕ, OnGrid (-k) rate.worth → i * 10 ^ k < 10 ^ 50 →
        Pays p i rate (p + ⌊(i : ℚ) * (1 - rate.worth)⌋)) ∧
      (i < 10 ^ 50 → ∃ a, Pays p i rate a ∧ |a - (p + ⌊(i : ℚ) * (1 - rate.worth)⌋)| ≤ 1) := by
  have hr := Config.checkFeeRate_ok accepted
  obtain ⟨low, high⟩ := hr.worth_bounds
  have small : i < 10 ^ 50 → share i rate.worth < limit := fun short =>
    share_lt_limit (by decide) hi short low high
  refine ⟨lenderPayback_eq p hi hr, ?_, fun k places short => ?_, fun short => ?_⟩
  · rw [pays_iff hi hr, add_right_inj]
  · have fewer : i < 10 ^ 50 := by
      have := le_mul_of_one_le_right hi (one_le_pow₀ (show (1 : ℤ) ≤ 10 by decide) (n := k))
      omega
    exact (pays_iff hi hr).2 ⟨small fewer, by rw [share_exact hi low high places short]⟩
  · refine ⟨_, (pays_iff hi hr).2 ⟨small short, rfl⟩, ?_⟩
    rw [add_sub_add_left_eq_sub]
    exact abs_floor_sub_le (abs_share_sub_lt hi low high short)

/-- For a principal of 456 and an interest of 50 at a rate of 0.05 the lender is paid back 503. -/
theorem payback_rounded_thousandths :
    Config.checkFeeRate (.decimal (finite false 50 (-3))) = .ok (finite false 50 (-3)) ∧
      Pays 456 50 (finite false 50 (-3)) 503 := by
  have accepted : Config.checkFeeRate (.decimal (finite false 50 (-3))) =
      .ok (finite false 50 (-3)) := rfl
  obtain ⟨-, -, exact, -⟩ := payback_rounded accepted 456 (i := 50) (by decide)
  have places : OnGrid (-3) (finite false 50 (-3)).worth := worth_onGrid false 50 (-3)
  have worth : (finite false 50 (-3)).worth = 1 / 20 := by
    rw [worth_positive]
    norm_num
  have paid := exact 3 places (by norm_num)
  have floor : ⌊((50 : ℤ) : ℚ) * (1 - 1 / 20)⌋ = 47 := by norm_num
  rw [worth, floor] at paid
  exact ⟨accepted, paid⟩

/-- At a rate of one unit at the fifty-first place nothing is kept of an interest of one, though
less than one is left of it. -/
theorem payback_inexact :
    Config.checkFeeRate (.decimal (finite false 1 (-51))) = .ok (finite false 1 (-51)) ∧
      Pays 0 1 (finite false 1 (-51)) 1 ∧
      0 + ⌊((1 : ℤ) : ℚ) * (1 - (finite false 1 (-51)).worth)⌋ = 0 := by
  refine ⟨rfl, rfl, ?_⟩
  rw [worth_positive]
  norm_num

/-- A larger interest never pays back less, and neither does a lower rate; what is paid back is
never less than the principal. Of an interest of at most fifty digits the lender is paid back no
more than all that is due, so of an exact payment between nothing and the interest is left for the
treasury. The payback can be computed of every interest that a decimal can hold. -/
theorem payback_ordered {given given' : Value} {r s : Decimal}
    (accepted : Config.checkFeeRate given = .ok r) (accepted' : Config.checkFeeRate given' = .ok s)
    (lower : r.worth ≤ s.worth) (p : ℤ) {i j : ℤ} (hi : 0 ≤ i) (less : i ≤ j) :
    (∀ b, Pays p j r b → ∃ a, Pays p i r a ∧ a ≤ b) ∧
      (∀ b, Pays p i r b → ∃ a, Pays p i s a ∧ a ≤ b) ∧
      (∀ a, Pays p i r a → p ≤ a) ∧
      (i < 10 ^ 50 → ∃ a cut, Pays p i r a ∧ p ≤ a ∧ a ≤ p + i ∧
        treasuryCut (.whole (p + i)) (.whole a) = .whole cut ∧ 0 ≤ cut ∧ cut ≤ i) ∧
      ∀ k : ℕ, (k : ℤ) ≤ greatestExponent → i < 10 ^ k → ∃ a, Pays p i r a := by
  have hr := Config.checkFeeRate_ok accepted
  have hs := Config.checkFeeRate_ok accepted'
  obtain ⟨low, high⟩ := hr.worth_bounds
  have nonneg := share_nonneg hi high
  refine ⟨fun b paid => ?_, fun b paid => ?_, fun a paid => ?_, fun short => ?_,
    fun k hmax hlt => ?_⟩
  · obtain ⟨small, rfl⟩ := (pays_iff (hi.trans less) hr).1 paid
    have le := share_mono hi high less
    exact ⟨_, (pays_iff hi hr).2 ⟨le.trans_lt small, rfl⟩,
      Int.add_le_add_left (Int.floor_mono le) p⟩
  · obtain ⟨small, rfl⟩ := (pays_iff hi hr).1 paid
    have le := share_anti hi hs.worth_bounds.2 lower
    exact ⟨_, (pays_iff hi hs).2 ⟨le.trans_lt small, rfl⟩,
      Int.add_le_add_left (Int.floor_mono le) p⟩
  · obtain ⟨-, rfl⟩ := (pays_iff hi hr).1 paid
    exact Int.le_add_of_nonneg_right (Int.floor_nonneg.2 nonneg)
  · have le : ⌊share i r.worth⌋ ≤ i := by
      have le := share_le hi low high le_rfl (rounded_intCast hi short)
      exact_mod_cast (Int.floor_le _).trans le
    have floor := Int.floor_nonneg.2 nonneg
    refine ⟨_, _, (pays_iff hi hr).2 ⟨share_lt_limit (by decide) hi short low high, rfl⟩, ?_, ?_,
      rfl, ?_, ?_⟩ <;> omega
  · exact ⟨_, (pays_iff hi hr).2 ⟨share_lt_limit hmax hi hlt low high, rfl⟩⟩

/-- An interest of more than fifty digits is paid back with four units too many at a rate that is
too small to be seen, and no less than a smaller interest, or one at a higher rate. -/
theorem payback_ordered_overpaid :
    Config.checkFeeRate (.decimal (finite false 1 (-51))) = .ok (finite false 1 (-51)) ∧
      Config.checkFeeRate (.decimal (finite false 5 (-2))) = .ok (finite false 5 (-2)) ∧
      (finite false 1 (-51)).worth ≤ (finite false 5 (-2)).worth ∧
      Pays 456 (10 ^ 50 + 6) (finite false 1 (-51)) (456 + (10 ^ 50 + 10)) ∧
      (∃ a, Pays 456 50 (finite false 1 (-51)) a ∧ a ≤ 456 + (10 ^ 50 + 10)) ∧
      Pays 456 50 (finite false 1 (-51)) 506 ∧
      ∃ a, Pays 456 50 (finite false 5 (-2)) a ∧ a ≤ 506 := by
  have lower : (finite false 1 (-51)).worth ≤ (finite false 5 (-2)).worth := by
    rw [worth_positive, worth_positive]
    norm_num
  have accepted : Config.checkFeeRate (.decimal (finite false 1 (-51))) =
      .ok (finite false 1 (-51)) := rfl
  have accepted' : Config.checkFeeRate (.decimal (finite false 5 (-2))) =
      .ok (finite false 5 (-2)) := rfl
  have overpaid : Pays 456 (10 ^ 50 + 6) (finite false 1 (-51)) (456 + (10 ^ 50 + 10)) := rfl
  have whole : Pays 456 50 (finite false 1 (-51)) 506 := rfl
  obtain ⟨interests, rates, -⟩ := payback_ordered accepted accepted' lower 456 (i := 50)
    (j := 10 ^ 50 + 6) (by decide) (by decide)
  exact ⟨accepted, accepted', lower, overpaid, interests _ overpaid, whole, rates _ whole⟩

end Repayment
end Pawnbook
