import Pawnbook.Number
import Pawnbook.Proofs.Precision

/-! # Numbers in order

Decimals are compared by the places of their first digits where these differ, and digit by digit
otherwise. Either way they are compared as the numbers that they stand for (`Decimal.isBelow_iff`,
`Decimal.same_iff`). A deadline that has come at one height has therefore come at every later one,
whatever kind of number it is (`Number.isAtMost_mono`). -/

namespace Pawnbook
namespace Decimal

section finite
variable {s t : Bool} {c d : ℕ} {e f : ℤ}

/-! ### Magnitudes -/

/-- Digits may be counted from any place behind the last one. -/
theorem abs_worth_of_le (s : Bool) (c : ℕ) {g : ℤ} (le : g ≤ e) :
    |(finite s c e).worth| = ((c * tenPow (e - g).toNat : ℕ) : ℚ) * 10 ^ g := by
  rw [abs_worth, tenPow_eq, Nat.cast_mul, Nat.cast_pow, Nat.cast_ofNat, mul_assoc, ← zpow_natCast,
    ← zpow_add₀ (by norm_num), Int.toNat_of_nonneg (by omega), sub_add_cancel]

/-- Digits counted from one place are in the order of the magnitudes. -/
theorem aligned_lt_iff (s : Bool) (c : ℕ) (e : ℤ) (t : Bool) (d : ℕ) (f : ℤ) :
    c * tenPow (e - min e f).toNat < d * tenPow (f - min e f).toNat ↔
      |(finite s c e).worth| < |(finite t d f).worth| := by
  rw [abs_worth_of_le s c (min_le_left e f), abs_worth_of_le t d (min_le_right e f),
    mul_lt_mul_iff_left₀ (ten_zpow_pos _), Nat.cast_lt]

theorem aligned_eq_iff (s : Bool) (c : ℕ) (e : ℤ) (t : Bool) (d : ℕ) (f : ℤ) :
    c * tenPow (e - min e f).toNat = d * tenPow (f - min e f).toNat ↔
      |(finite s c e).worth| = |(finite t d f).worth| := by
  rw [abs_worth_of_le s c (min_le_left e f), abs_worth_of_le t d (min_le_right e f),
    mul_left_inj' (ten_zpow_pos _).ne', Nat.cast_inj]

/-- The number whose first digit stands further right is the smaller one. -/
theorem abs_worth_lt_of_adjusted_lt (s t : Bool) (hd : d ≠ 0) (h : adjusted c e < adjusted d f) :
    |(finite s c e).worth| < |(finite t d f).worth| := by
  have below : |(finite s c e).worth| < 10 ^ adjusted d f := (abs_worth_lt_iff _).2 (.inr h)
  refine below.trans_le (not_lt.1 fun small => ?_)
  rcases (abs_worth_lt_iff _).1 small with zero | lower
  · exact hd zero
  · exact lt_irrefl _ lower

theorem magnitudeBelow_iff (s : Bool) (c : ℕ) (e : ℤ) (t : Bool) (d : ℕ) (f : ℤ) :
    magnitudeBelow c e d f = true ↔ |(finite s c e).worth| < |(finite t d f).worth| := by
  unfold magnitudeBelow
  split
  · rename_i zero
    rw [decide_eq_true_iff]
    rcases zero with rfl | rfl
    · rw [worth_eq_zero_iff.2 rfl, abs_zero, abs_pos, Ne, worth_eq_zero_iff, Nat.pos_iff_ne_zero]
    · rw [worth_eq_zero_iff.2 rfl, abs_zero]
      exact iff_of_false (Nat.not_lt_zero c) (abs_nonneg _).not_gt
  · rename_i nonzero
    rw [not_or] at nonzero
    split
    · rw [decide_eq_true_iff, aligned_lt_iff s c e t d f]
    · rename_i apart
      rw [decide_eq_true_iff]
      refine ⟨abs_worth_lt_of_adjusted_lt s t nonzero.2, fun below => ?_⟩
      by_contra above
      exact below.asymm (abs_worth_lt_of_adjusted_lt t s nonzero.1 (by omega))

/-! ### Signs -/

theorem worth_neg_iff : (finite s c e).worth < 0 ↔ (s && c != 0) = true := by
  have magnitude : 0 < (c : ℚ) * 10 ^ e ↔ c ≠ 0 := by
    rw [mul_pos_iff_of_pos_right (ten_zpow_pos e), Nat.cast_pos, Nat.pos_iff_ne_zero]
  cases s with
  | false =>
      rw [worth_positive, Bool.false_and]
      exact iff_of_false (mul_nonneg (Nat.cast_nonneg c) (ten_zpow_pos e).le).not_gt (by decide)
  | true => rw [worth_negative, worth_positive, neg_lt_zero, magnitude, Bool.true_and, bne_iff_ne]

theorem abs_worth_of_isNegative (h : (s && c != 0) = true) :
    |(finite s c e).worth| = -(finite s c e).worth := abs_of_neg (worth_neg_iff.2 h)

theorem abs_worth_of_not_isNegative (h : (s && c != 0) = false) :
    |(finite s c e).worth| = (finite s c e).worth :=
  abs_of_nonneg (not_lt.1 fun negative =>
    Bool.false_ne_true (h.symm.trans (worth_neg_iff.1 negative)))

theorem worth_eq_of_abs_eq (h : |(finite s c e).worth| = |(finite s d f).worth|) :
    (finite s c e).worth = (finite s d f).worth := by
  rw [abs_worth, abs_worth] at h
  cases s with
  | false => rw [worth_positive, worth_positive, h]
  | true => rw [worth_negative, worth_negative, worth_positive, worth_positive, h]

theorem isBelow_iff :
    (finite s c e).isBelow (finite t d f) = true ↔ (finite s c e).worth < (finite t d f).worth := by
  unfold isBelow
  dsimp only
  split
  · rename_i hs ht
    rw [magnitudeBelow_iff s c e t d f, abs_worth_of_not_isNegative hs,
      abs_worth_of_not_isNegative ht]
  · rename_i hs ht
    rw [magnitudeBelow_iff t d f s c e, abs_worth_of_isNegative hs, abs_worth_of_isNegative ht,
      neg_lt_neg_iff]
  · rename_i neither both
    cases hs : s && c != 0 with
    | false =>
        have ht := Bool.eq_true_of_not_eq_false (neither hs)
        have positive := abs_worth_of_not_isNegative (e := e) hs
        have negative := worth_neg_iff (e := f).2 ht
        exact iff_of_false Bool.false_ne_true
          (negative.le.trans (positive ▸ abs_nonneg _)).not_gt
    | true =>
        have ht := Bool.eq_false_of_not_eq_true (both hs)
        have positive := abs_worth_of_not_isNegative (e := f) ht
        have negative := worth_neg_iff (e := e).2 hs
        exact iff_of_true rfl (negative.trans_le (positive ▸ abs_nonneg _))

theorem same_iff :
    (finite s c e).same (finite t d f) = true ↔ (finite s c e).worth = (finite t d f).worth := by
  unfold same
  dsimp only
  split
  · rename_i zero
    rw [decide_eq_true_iff]
    rcases zero with rfl | rfl
    · rw [worth_eq_zero_iff.2 rfl, eq_comm, eq_comm (a := (0 : ℚ)), worth_eq_zero_iff]
    · rw [worth_eq_zero_iff (c := 0).2 rfl, worth_eq_zero_iff]
  · rename_i nonzero
    rw [not_or] at nonzero
    simp only [Bool.and_eq_true, decide_eq_true_iff, aligned_eq_iff s c e t d f]
    constructor
    · rintro ⟨⟨rfl, -⟩, magnitudes⟩
      exact worth_eq_of_abs_eq magnitudes
    · intro same
      have places : adjusted c e = adjusted d f := by
        rw [← log_worth s nonzero.1, ← log_worth t nonzero.2, same]
      have signs : (s && c != 0) = (t && d != 0) := by
        rw [Bool.eq_iff_iff, ← worth_neg_iff, ← worth_neg_iff, same]
      rw [bne_iff_ne.2 nonzero.1, bne_iff_ne.2 nonzero.2, Bool.and_true, Bool.and_true] at signs
      exact ⟨⟨signs, places⟩, by rw [same]⟩

end finite

/-! ### Decimals that agree, and whole numbers -/

theorem worth_of_agrees {a b : Decimal} (ha : a.isFinite = true) (hb : b.isFinite = true)
    (h : a.agrees b = .ok true) : a.worth = b.worth := by
  unfold agrees at h
  split at h
  · rename_i same
    rw [same]
  · cases a with
    | infinite | nan => cases ha
    | finite s c e =>
    cases b with
    | infinite | nan => cases hb
    | finite t d f => exact same_iff.1 (Except.ok.inj h)

theorem worth_ofInt (n : ℤ) : (ofInt n).worth = n := by
  rcases Int.lt_or_le n 0 with negative | nonneg
  · rw [ofInt, decide_eq_true negative, worth_negative, worth_positive, zpow_zero, mul_one,
      Nat.cast_natAbs, abs_of_neg negative, Int.cast_neg, neg_neg]
  · rw [ofInt, decide_eq_false (Int.not_lt.2 nonneg), worth_positive, zpow_zero, mul_one,
      Nat.cast_natAbs, abs_of_nonneg nonneg]

end Decimal

namespace Number

theorem isAtMost_mono {a : Number} {m n : Int} (h : a.isAtMost (.whole m) = true) (hle : m ≤ n) :
    a.isAtMost (.whole n) = true := by
  unfold isAtMost isBelow same at h ⊢
  cases a with
  | whole k | truth k =>
      simp only [whole?, Bool.or_eq_true, decide_eq_true_iff] at h ⊢
      omega
  | floating x =>
      simp only [whole?, toDecimal, Bool.or_eq_true] at h ⊢
      generalize x.toDecimal = d at h ⊢
      cases d with
      | finite s c e =>
          have atMost : ∀ k : ℤ, (Decimal.finite s c e).isBelow (.ofInt k) = true ∨
              (Decimal.finite s c e).same (.ofInt k) = true ↔
              (Decimal.finite s c e).worth ≤ k := by
            intro k
            rw [← Decimal.worth_ofInt k, le_iff_lt_or_eq]
            exact or_congr Decimal.isBelow_iff Decimal.same_iff
          rw [atMost] at h ⊢
          exact h.trans (by exact_mod_cast hle)
      | infinite s => exact h
      | nan => exact h

end Number
end Pawnbook
