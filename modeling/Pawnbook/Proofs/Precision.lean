import Mathlib.Data.Int.Log
import Mathlib.Data.Rat.Floor
import Mathlib.Tactic.FieldSimp
import Mathlib.Tactic.Linarith
import Mathlib.Tactic.Positivity
import Pawnbook.Decimal
import Pawnbook.Proofs.Numeral

/-! # Rounding in exact numbers

`Decimal.worth` is the number that a decimal stands for. `Decimal.rounded` rounds a number to the
digits that a calculation keeps: to `precision` significant digits, none of them behind
`leastExponent`, a half going to the even neighbour (`halfEven`). Calculations round to exactly
that, unless the result is larger than the largest exponent (`round_eq`). Rounding leaves a number
alone that has few enough digits (`rounded_of_onGrid`), keeps the order across changes of the
exponent (`rounded_mono`) and moves a number by half a unit of its last place at most
(`abs_rounded_sub_le`). -/

namespace Pawnbook

/-! ### Divisions -/

namespace Decimal

theorem tenPow_eq (k : Nat) : tenPow k = 10 ^ k := rfl

theorem divRound_le {c k n : Nat} (h : c ≤ n * 10 ^ k) : divRound c k ≤ n := by
  unfold divRound
  split
  · exact Nat.zero_le n
  · rw [tenPow_eq]
    have hpos : 0 < 10 ^ k := Nat.pow_pos (by decide)
    have hq : c / 10 ^ k ≤ n := Nat.div_le_of_le_mul (by rw [Nat.mul_comm]; exact h)
    dsimp only
    split
    · rename_i hr
      -- a fraction is left only below the bound
      have hne : c / 10 ^ k ≠ n := by
        intro he
        have hc := Nat.div_add_mod c (10 ^ k)
        rw [he, Nat.mul_comm] at hc
        omega
      omega
    · exact hq

theorem divRound_zero (c : Nat) : divRound c 0 = c := by
  unfold divRound
  rw [if_neg (Nat.not_lt_zero _), tenPow_zero]
  simp [Nat.mod_one]

end Decimal

/-! ### Halves -/

/-- The nearest whole number, a half going to the even one. -/
def halfEven (x : ℚ) : ℤ :=
  if x - ⌊x⌋ < 1 / 2 then ⌊x⌋
  else if 1 / 2 < x - ⌊x⌋ then ⌊x⌋ + 1
  else ⌊x⌋ + ⌊x⌋ % 2

section halfEven
variable {x y : ℚ}

@[simp] theorem halfEven_intCast (n : ℤ) : halfEven n = n := by simp [halfEven]

theorem halfEven_bounds (x : ℚ) : ⌊x⌋ ≤ halfEven x ∧ halfEven x ≤ ⌊x⌋ + 1 := by
  have hlow := Int.emod_nonneg ⌊x⌋ (by decide : (2 : ℤ) ≠ 0)
  have hhigh := Int.emod_lt_of_pos ⌊x⌋ (by decide : (0 : ℤ) < 2)
  unfold halfEven
  split_ifs <;> omega

theorem halfEven_mono (h : x ≤ y) : halfEven x ≤ halfEven y := by
  rcases (Int.floor_mono h).lt_or_eq with below | same
  · have := (halfEven_bounds x).2
    have := (halfEven_bounds y).1
    omega
  · unfold halfEven
    rw [same]
    have hlow := Int.emod_nonneg ⌊y⌋ (by decide : (2 : ℤ) ≠ 0)
    have hhigh := Int.emod_lt_of_pos ⌊y⌋ (by decide : (0 : ℤ) < 2)
    split_ifs <;> first | omega | (exfalso; linarith)

theorem abs_halfEven_sub_le (x : ℚ) : |(halfEven x : ℚ) - x| ≤ 1 / 2 := by
  have hfloor := Int.floor_le x
  have hlt := Int.lt_floor_add_one x
  unfold halfEven
  split_ifs with below above
  · rw [abs_le]
    constructor <;> linarith
  · rw [abs_le]
    push_cast
    constructor <;> linarith
  · have half : x - ⌊x⌋ = 1 / 2 := le_antisymm (not_lt.1 above) (not_lt.1 below)
    rcases Int.emod_two_eq_zero_or_one ⌊x⌋ with even | odd
    · rw [even, abs_le]
      push_cast
      constructor <;> linarith
    · rw [odd, abs_le]
      push_cast
      constructor <;> linarith

theorem halfEven_neg (x : ℚ) : halfEven (-x) = -halfEven x := by
  by_cases whole : x = ⌊x⌋
  · rw [whole, ← Int.cast_neg, halfEven_intCast, halfEven_intCast]
  · have hfloor := lt_of_le_of_ne (Int.floor_le x) (Ne.symm whole)
    have hlt := Int.lt_floor_add_one x
    have floor_neg : ⌊-x⌋ = -⌊x⌋ - 1 := by
      rw [Int.floor_eq_iff]
      push_cast
      constructor <;> linarith
    unfold halfEven
    rw [floor_neg]
    push_cast
    split_ifs <;> first | omega | (exfalso; linarith)

theorem halfEven_div (c k : ℕ) : halfEven ((c : ℚ) / 10 ^ k) = Decimal.divRound c k := by
  have positive : (0 : ℚ) < 10 ^ k := by positivity
  have floor : ⌊(c : ℚ) / 10 ^ k⌋ = ((c / 10 ^ k : ℕ) : ℤ) := by
    have := Rat.floor_natCast_div_natCast c (10 ^ k)
    push_cast at this ⊢
    exact this
  have parts : (c : ℚ) = 10 ^ k * ((c / 10 ^ k : ℕ) : ℚ) + ((c % 10 ^ k : ℕ) : ℚ) := by
    exact_mod_cast (Nat.div_add_mod c (10 ^ k)).symm
  have rest : (c : ℚ) / 10 ^ k - ((c / 10 ^ k : ℕ) : ℤ) = ((c % 10 ^ k : ℕ) : ℚ) / 10 ^ k := by
    rw [eq_div_iff positive.ne', sub_mul, div_mul_cancel₀ _ positive.ne', Int.cast_natCast]
    linarith
  have below : ((c % 10 ^ k : ℕ) : ℚ) / 10 ^ k < 1 / 2 ↔ 2 * (c % 10 ^ k) < 10 ^ k := by
    rw [div_lt_div_iff₀ positive two_pos, one_mul, mul_comm]
    exact_mod_cast Iff.rfl
  have above : 1 / 2 < ((c % 10 ^ k : ℕ) : ℚ) / 10 ^ k ↔ 10 ^ k < 2 * (c % 10 ^ k) := by
    rw [div_lt_div_iff₀ two_pos positive, one_mul, mul_comm]
    exact_mod_cast Iff.rfl
  unfold halfEven
  rw [floor, rest, if_congr below rfl rfl, if_congr above rfl rfl]
  unfold Decimal.divRound
  rw [Decimal.tenPow_eq]
  by_cases small : Text.digitCount c < k
  · -- a number with fewer digits than are cut off is less than a tenth of a unit
    have tenth : 10 * c < 10 ^ k := by
      calc 10 * c < 10 * 10 ^ Text.digitCount c := by
            have := Text.lt_pow_digitCount c
            omega
        _ = 10 ^ (Text.digitCount c + 1) := (pow_succ' ..).symm
        _ ≤ 10 ^ k := Nat.pow_le_pow_right (by decide) small
    rw [if_pos small, Nat.div_eq_of_lt (by omega), Nat.mod_eq_of_lt (by omega), if_pos (by omega)]
  · rw [if_neg small]
    dsimp only
    split_ifs <;> omega

end halfEven

namespace Decimal

/-! ### Places -/

section places
variable {u v : ℤ} {q r : ℚ}

/-- The number rounded to the place `u`. -/
def toPlace (u : ℤ) (q : ℚ) : ℚ := halfEven (q / 10 ^ u) * 10 ^ u

/-- The number has no digit behind the place `u`. -/
def OnGrid (u : ℤ) (q : ℚ) : Prop := ∃ n : ℤ, q = n * 10 ^ u

theorem ten_zpow_pos (u : ℤ) : (0 : ℚ) < 10 ^ u := zpow_pos (by norm_num) u

theorem OnGrid.finer (h : OnGrid v q) (le : u ≤ v) : OnGrid u q := by
  obtain ⟨n, rfl⟩ := h
  refine ⟨n * 10 ^ (v - u).toNat, ?_⟩
  push_cast
  rw [mul_assoc, ← zpow_natCast, ← zpow_add₀ (by norm_num), Int.toNat_of_nonneg (by omega)]
  congr 2
  omega

theorem onGrid_pow (u : ℤ) : OnGrid u (10 ^ u) := ⟨1, by simp⟩

theorem toPlace_of_onGrid (h : OnGrid u q) : toPlace u q = q := by
  obtain ⟨n, rfl⟩ := h
  rw [toPlace, mul_div_cancel_right₀ _ (ten_zpow_pos u).ne', halfEven_intCast]

theorem toPlace_mono (u : ℤ) (h : q ≤ r) : toPlace u q ≤ toPlace u r := by
  have := halfEven_mono (div_le_div_of_nonneg_right h (ten_zpow_pos u).le)
  exact mul_le_mul_of_nonneg_right (by exact_mod_cast this) (ten_zpow_pos u).le

theorem toPlace_neg (u : ℤ) (q : ℚ) : toPlace u (-q) = -toPlace u q := by
  rw [toPlace, neg_div, halfEven_neg, Int.cast_neg, neg_mul, toPlace]

theorem abs_toPlace_sub_le (u : ℤ) (q : ℚ) : |toPlace u q - q| ≤ 10 ^ u / 2 := by
  have apart : toPlace u q - q = (halfEven (q / 10 ^ u) - q / 10 ^ u) * 10 ^ u := by
    rw [toPlace, sub_mul, div_mul_cancel₀ _ (ten_zpow_pos u).ne']
  rw [apart, abs_mul, abs_of_pos (ten_zpow_pos u)]
  have := mul_le_mul_of_nonneg_right (abs_halfEven_sub_le (q / 10 ^ u)) (ten_zpow_pos u).le
  linarith

end places

/-! ### The number of a decimal -/

/-- The number that a decimal stands for; what is no number counts as zero. -/
def worth : Decimal → ℚ
  | finite s c e => signed s c * 10 ^ e
  | infinite _ | nan .. => 0

section worth
variable {s : Bool} {c : ℕ} {e : ℤ}

theorem abs_worth (s : Bool) (c : ℕ) (e : ℤ) : |(finite s c e).worth| = c * 10 ^ e := by
  have magnitude : |((signed s c : ℤ) : ℚ)| = c := by
    cases s <;> simp [signed]
  rw [worth, abs_mul, magnitude, abs_of_pos (ten_zpow_pos e)]

theorem worth_positive (c : ℕ) (e : ℤ) : (finite false c e).worth = c * 10 ^ e := by
  simp [worth, signed]

theorem worth_negative (c : ℕ) (e : ℤ) :
    (finite true c e).worth = -(finite false c e).worth := by
  simp [worth, signed]

theorem worth_eq_zero_iff : (finite s c e).worth = 0 ↔ c = 0 := by
  rw [← abs_eq_zero, abs_worth, mul_eq_zero, or_iff_left (ten_zpow_pos e).ne', Nat.cast_eq_zero]

theorem worth_mul_ten (s : Bool) (c : ℕ) (e : ℤ) :
    (finite s (c * 10) e).worth = (finite s c (e + 1)).worth := by
  have signs : ((signed s (c * 10) : ℤ) : ℚ) = signed s c * 10 := by
    cases s <;> simp [signed]
  rw [worth, worth, signs, zpow_add_one₀ (by norm_num)]
  ring

theorem worth_onGrid (s : Bool) (c : ℕ) (e : ℤ) : OnGrid e (finite s c e).worth := ⟨_, rfl⟩

/-- The first digit of a decimal stands where the logarithm of its number says. -/
theorem log_worth (s : Bool) (hc : c ≠ 0) (e : ℤ) :
    Int.log 10 |(finite s c e).worth| = adjusted c e := by
  have positive : (0 : ℚ) < c * 10 ^ e :=
    mul_pos (by exact_mod_cast Nat.pos_of_ne_zero hc) (ten_zpow_pos e)
  have digits := Text.digitCount_pos c
  have low : (10 : ℚ) ^ (Text.digitCount c - 1) ≤ c := by
    exact_mod_cast Text.pow_pred_digitCount_le hc
  have high : (c : ℚ) < 10 ^ Text.digitCount c := by exact_mod_cast Text.lt_pow_digitCount c
  rw [abs_worth]
  apply le_antisymm
  · refine Int.lt_add_one_iff.1 ((Int.lt_zpow_iff_log_lt (b := 10) (by decide) positive).1 ?_)
    push_cast
    calc (c : ℚ) * 10 ^ e < 10 ^ Text.digitCount c * 10 ^ e :=
          mul_lt_mul_of_pos_right high (ten_zpow_pos e)
      _ = 10 ^ (adjusted c e + 1) := by
          rw [← zpow_natCast, ← zpow_add₀ (by norm_num)]
          congr 1
          unfold adjusted
          omega
  · refine (Int.zpow_le_iff_le_log (b := 10) (by decide) positive).1 ?_
    push_cast
    calc (10 : ℚ) ^ adjusted c e = 10 ^ (Text.digitCount c - 1) * 10 ^ e := by
          rw [← zpow_natCast, ← zpow_add₀ (by norm_num)]
          congr 1
          unfold adjusted
          omega
      _ ≤ c * 10 ^ e := mul_le_mul_of_nonneg_right low (ten_zpow_pos e).le

theorem abs_worth_lt_iff (k : ℤ) :
    |(finite s c e).worth| < 10 ^ k ↔ c = 0 ∨ adjusted c e < k := by
  by_cases hc : c = 0
  · rw [abs_eq_zero.2 (worth_eq_zero_iff.2 hc)]
    exact iff_of_true (ten_zpow_pos k) (.inl hc)
  · have positive : 0 < |(finite s c e).worth| := abs_pos.2 (mt worth_eq_zero_iff.1 hc)
    have h := Int.lt_zpow_iff_log_lt (b := 10) (x := k) (by decide) positive
    push_cast at h
    rw [h, log_worth s hc, or_iff_right hc]

end worth

/-! ### Rounding -/

/-- The place of the last digit that a calculation keeps of a number. -/
def lastPlace (q : ℚ) : ℤ := max (Int.log 10 |q| + 1 - precision) leastExponent

/-- The number rounded to the digits that a calculation keeps. -/
def rounded (q : ℚ) : ℚ := toPlace (lastPlace q) q

/-- The number rounded to as many significant digits as a calculation keeps, wherever they stand. -/
def significant (q : ℚ) : ℚ := toPlace (Int.log 10 |q| + 1 - precision) q

section rounded
variable {u : ℤ} {q r : ℚ}

/-- Unless there are digits behind the least exponent, all significant digits are kept. -/
theorem rounded_eq_significant (h : OnGrid u q) (hu : leastExponent ≤ u) :
    rounded q = significant q := by
  rcases le_total leastExponent (Int.log 10 |q| + 1 - precision) with place | place
  · rw [rounded, lastPlace, max_eq_left place, significant]
  · rw [rounded, lastPlace, max_eq_right place, significant, toPlace_of_onGrid (h.finer hu),
      toPlace_of_onGrid (h.finer (place.trans hu))]

@[simp] theorem rounded_zero : rounded 0 = 0 := by
  rw [rounded, toPlace, zero_div, ← Int.cast_zero, halfEven_intCast, Int.cast_zero, zero_mul]

theorem lastPlace_le (hu : leastExponent ≤ u) (hq : q ≠ 0) (hlt : |q| < 10 ^ (u + precision)) :
    lastPlace q ≤ u := by
  have h := Int.lt_zpow_iff_log_lt (b := 10) (x := u + precision) (by decide) (abs_pos.2 hq)
  push_cast at h
  have := h.1 hlt
  exact max_le (by omega) hu

/-- A number that has few enough digits, all of them before the last place, is left alone. -/
theorem rounded_of_onGrid (h : OnGrid u q) (hu : leastExponent ≤ u)
    (hlt : |q| < 10 ^ (u + precision)) : rounded q = q := by
  by_cases hq : q = 0
  · rw [hq, rounded_zero]
  · exact toPlace_of_onGrid (h.finer (lastPlace_le hu hq hlt))

theorem rounded_intCast {n : ℤ} (hn : 0 ≤ n) (hlt : n < 10 ^ 50) : rounded n = n := by
  refine rounded_of_onGrid (u := 0) ⟨n, by simp⟩ (by decide) ?_
  rw [zero_add, precision, zpow_natCast, abs_of_nonneg (by exact_mod_cast hn)]
  exact_mod_cast hlt

theorem rounded_pow (hu : leastExponent ≤ u) : rounded (10 ^ u) = 10 ^ u := by
  refine rounded_of_onGrid (onGrid_pow u) hu ?_
  rw [abs_of_pos (ten_zpow_pos u)]
  exact zpow_lt_zpow_right₀ (by norm_num) (by unfold precision; omega)

theorem lastPlace_mono (hq : 0 < q) (h : q ≤ r) : lastPlace q ≤ lastPlace r := by
  unfold lastPlace
  rw [abs_of_pos hq, abs_of_pos (hq.trans_le h)]
  have := Int.log_mono_right (b := 10) hq h
  omega

/-- Rounding keeps the order, also between numbers whose last places are different. -/
theorem rounded_mono (hq : 0 ≤ q) (h : q ≤ r) : rounded q ≤ rounded r := by
  have keeps : ∀ {u : ℤ} {q : ℚ}, 0 ≤ q → 0 ≤ toPlace u q := by
    intro u q hq
    have zero : toPlace u 0 = 0 := toPlace_of_onGrid ⟨0, by simp⟩
    rw [← zero]
    exact toPlace_mono u hq
  rcases hq.eq_or_lt with rfl | positive
  · rw [rounded_zero]
    exact keeps h
  rcases (lastPlace_mono positive h).lt_or_eq with finer | same
  · -- the power of ten at the first digit of `r` lies between them, and on both grids
    have above : lastPlace r = Int.log 10 |r| + 1 - precision := by
      have := le_max_right (Int.log 10 |q| + 1 - precision) leastExponent
      unfold lastPlace at finer ⊢
      omega
    have hr := positive.trans_le h
    have le_r : (10 : ℚ) ^ Int.log 10 |r| ≤ r := by
      have := Int.zpow_log_le_self (b := 10) (by decide) hr
      rw [abs_of_pos hr]
      exact_mod_cast this
    have q_lt : q < 10 ^ Int.log 10 |r| := by
      have bound := Int.lt_zpow_iff_log_lt (b := 10) (x := Int.log 10 |r|) (by decide) positive
      push_cast at bound
      refine bound.2 ?_
      have := le_max_left (Int.log 10 |q| + 1 - precision) leastExponent
      rw [lastPlace, abs_of_pos positive] at finer
      rw [abs_of_pos positive] at this
      omega
    have grid : OnGrid (lastPlace r) (10 ^ Int.log 10 |r|) :=
      (onGrid_pow _).finer (by unfold precision at above; omega)
    calc rounded q ≤ toPlace (lastPlace q) (10 ^ Int.log 10 |r|) := toPlace_mono _ q_lt.le
      _ = 10 ^ Int.log 10 |r| := toPlace_of_onGrid (grid.finer finer.le)
      _ = toPlace (lastPlace r) (10 ^ Int.log 10 |r|) := (toPlace_of_onGrid grid).symm
      _ ≤ rounded r := toPlace_mono _ le_r
  · rw [rounded, same]
    exact toPlace_mono _ h

theorem rounded_nonneg (hq : 0 ≤ q) : 0 ≤ rounded q := by
  simpa using rounded_mono (le_refl 0) hq

/-- Rounding moves a number by half a unit of its last place at most. -/
theorem abs_rounded_sub_le (q : ℚ) : |rounded q - q| ≤ 10 ^ lastPlace q / 2 :=
  abs_toPlace_sub_le _ q

end rounded

/-! ### Calculations round -/

theorem lastPlace_worth (s : Bool) {c : ℕ} (hc : c ≠ 0) (e : ℤ) :
    lastPlace (finite s c e).worth = max (e + Text.digitCount c - precision) leastExponent := by
  rw [lastPlace, log_worth s hc]
  unfold adjusted
  congr 1
  omega

/-- The digits that are cut off are those behind the last place. -/
theorem worth_divRound (s : Bool) (c : ℕ) (e : ℤ) :
    (finite s (divRound c (excess c e)) (e + excess c e)).worth =
      rounded (finite s c e).worth := by
  by_cases hc : c = 0
  · have zero : divRound 0 (excess 0 e) = 0 := Nat.le_zero.1 (divRound_le (Nat.zero_le _))
    rw [hc, zero, worth_eq_zero_iff.2 rfl, worth_eq_zero_iff.2 rfl, rounded_zero]
  by_cases hk : excess c e = 0
  · have place : lastPlace (finite s c e).worth ≤ e := by
      rw [lastPlace_worth s hc]
      unfold excess at hk
      omega
    rw [hk, divRound_zero, Nat.cast_zero, add_zero]
    exact (toPlace_of_onGrid ((worth_onGrid s c e).finer place)).symm
  · have place : lastPlace (finite s c e).worth = e + excess c e := by
      rw [lastPlace_worth s hc]
      unfold excess at hk ⊢
      omega
    have cut : (c : ℚ) * 10 ^ e / 10 ^ (e + (excess c e : ℤ)) = c / 10 ^ excess c e := by
      rw [zpow_add₀ (by norm_num), zpow_natCast]
      field_simp
    have positive : (finite false (divRound c (excess c e)) (e + excess c e)).worth =
        toPlace (e + excess c e) (finite false c e).worth := by
      rw [worth_positive, worth_positive, toPlace, cut, halfEven_div, Int.cast_natCast]
    rw [rounded, place]
    cases s with
    | false => exact positive
    | true => rw [worth_negative, positive, worth_negative, toPlace_neg]

/-- A calculation rounds its exact result, and fails only if that is larger than the largest
exponent. -/
theorem round_eq (s : Bool) (c : ℕ) (e : ℤ) : ∃ c' e', Text.digitCount c' ≤ precision ∧
    leastExponent ≤ e' ∧ (finite s c' e').worth = rounded (finite s c e).worth ∧
    round s c e = if c' = 0 ∨ adjusted c' e' ≤ greatestExponent then .ok (.finite s c' e')
      else .error .overflow := by
  have least : leastExponent ≤ e + excess c e := by
    unfold excess
    omega
  have worth := worth_divRound s c e
  have short : Text.digitCount (divRound c (excess c e)) ≤ precision ∨
      divRound c (excess c e) = 10 ^ precision := by
    have bound : c ≤ 10 ^ precision * 10 ^ excess c e := by
      rw [← Nat.pow_add]
      refine (Text.lt_pow_digitCount c).le.trans (Nat.pow_le_pow_right (by decide) ?_)
      unfold excess
      omega
    exact (divRound_le bound).lt_or_eq.imp_left ((Text.digitCount_le_iff (by decide)).2)
  unfold round
  dsimp only
  rcases short with short | carry
  · refine ⟨_, _, short, least, worth, ?_⟩
    rw [if_neg (Nat.not_lt.2 short)]
    by_cases zero : divRound c (excess c e) = 0
    · simp [zero]
    · by_cases large : greatestExponent < adjusted (divRound c (excess c e)) (e + excess c e)
      · rw [if_pos (by simp [zero, large]), if_neg (by omega)]
      · rw [if_neg (by simp [large]), if_pos (.inr (Int.not_lt.1 large))]
  · have tenth : (10 : ℕ) ^ precision / 10 = 10 ^ (precision - 1) := rfl
    have digits : Text.digitCount (10 ^ (precision - 1)) = precision := by decide
    refine ⟨10 ^ (precision - 1), e + excess c e + 1, digits.le, by omega, ?_, ?_⟩
    · rw [← worth, carry, ← worth_mul_ten]
      rfl
    · rw [carry, tenth, if_pos (by decide)]
      by_cases large : greatestExponent < adjusted (10 ^ (precision - 1)) (e + excess c e + 1)
      · rw [if_pos large, if_neg]
        rintro (zero | small)
        · exact absurd zero (by decide)
        · omega
      · rw [if_neg large, if_pos (.inr (Int.not_lt.1 large))]

/-- The least number beyond those that have an exponent. -/
def limit : ℚ := 10 ^ (greatestExponent + 1)

section limit
variable {s : Bool} {c : ℕ} {e : ℤ}

theorem round_of_lt (h : |rounded (finite s c e).worth| < limit) : ∃ c' e',
    Text.digitCount c' ≤ precision ∧ leastExponent ≤ e' ∧
    round s c e = .ok (.finite s c' e') ∧
    (finite s c' e').worth = rounded (finite s c e).worth := by
  obtain ⟨c', e', short, least, worth, eq⟩ := round_eq s c e
  rw [← worth, limit, abs_worth_lt_iff, Int.lt_add_one_iff] at h
  exact ⟨c', e', short, least, by rw [eq, if_pos h], worth⟩

theorem round_of_limit_le (h : limit ≤ |rounded (finite s c e).worth|) :
    round s c e = .error .overflow := by
  obtain ⟨c', e', -, -, worth, eq⟩ := round_eq s c e
  rw [← worth, limit, ← not_lt, abs_worth_lt_iff, Int.lt_add_one_iff] at h
  rw [eq, if_neg h]

end limit

end Decimal
end Pawnbook
