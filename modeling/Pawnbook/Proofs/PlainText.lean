import Pawnbook.Decimal
import Pawnbook.Proofs.Payback
import Pawnbook.Proofs.Spelling
import Pawnbook.Proofs.Success
import Pawnbook.Value.Equality

/-! # Canonical texts of decimals

The canonical text of a decimal writes the rounded number without an exponent, from its shortest
form (`Decimal.Shortest`). Decimals that round to one number have one canonical text, whatever
their written forms (`Decimal.canonicalText_congr`), and the rounded number can be told from the
text (`Decimal.canonicalText_eq_iff`). There is none for a number of more digits than a whole
number is written with (`Decimal.exists_canonicalText_iff`). -/

namespace Pawnbook
namespace Decimal

/-! ### Shortest forms -/

section stripZeros
variable {n c : ℕ} {e : ℤ}

theorem worth_stripZeros (s : Bool) : ∀ (n c : ℕ) (e : ℤ),
    (finite s (stripZeros n c e).1 (stripZeros n c e).2).worth = (finite s c e).worth
  | 0, _, _ => rfl
  | n + 1, c, e => by
      unfold stripZeros
      split
      · rename_i zero
        rw [worth_stripZeros s n, ← worth_mul_ten, Nat.div_mul_cancel (Nat.dvd_of_mod_eq_zero zero)]
      · rfl

/-- No zero is left at the end if as many could be taken off as there are digits. -/
theorem stripZeros_mod_ne_zero : ∀ {n c : ℕ} {e : ℤ}, c ≠ 0 → c < 10 ^ n →
    (stripZeros n c e).1 % 10 ≠ 0
  | 0, c, _, hc, hlt => absurd (Nat.lt_one_iff.1 (by simpa using hlt)) hc
  | n + 1, c, e, hc, hlt => by
      unfold stripZeros
      split
      · exact stripZeros_mod_ne_zero (by omega) (by rw [Nat.pow_succ] at hlt; omega)
      · rename_i nonzero
        exact nonzero

theorem le_stripZeros : ∀ (n c : ℕ) (e : ℤ), e ≤ (stripZeros n c e).2
  | 0, _, e => le_refl e
  | n + 1, c, e => by
      unfold stripZeros
      split
      · exact (Int.le_add_one (le_refl e)).trans (le_stripZeros n (c / 10) (e + 1))
      · exact le_refl e

end stripZeros

/-- The shortest form of a number: zero, or digits without a zero at the end. -/
def Shortest (c : ℕ) (e : ℤ) : Prop := (c = 0 ∧ e = 0) ∨ c % 10 ≠ 0

theorem Shortest.unique {s t : Bool} {c d : ℕ} {e f : ℤ} (hc : Shortest c e) (hd : Shortest d f)
    (h : (finite s c e).worth = (finite t d f).worth) : c = d ∧ e = f ∧ (c ≠ 0 → s = t) := by
  have zero : c = 0 ↔ d = 0 := by
    rw [← worth_eq_zero_iff (s := s) (e := e), h, worth_eq_zero_iff]
  by_cases hc₀ : c = 0
  · have hd₀ := zero.1 hc₀
    obtain rfl : e = 0 := (hc.resolve_right (by simp [hc₀])).2
    obtain rfl : f = 0 := (hd.resolve_right (by simp [hd₀])).2
    exact ⟨hc₀.trans hd₀.symm, rfl, fun h => absurd hc₀ h⟩
  have hd₀ := mt zero.2 hc₀
  have magnitude : (c : ℚ) * 10 ^ e = d * 10 ^ f := by rw [← abs_worth s, h, abs_worth]
  -- the digits with the larger exponent would otherwise end with a zero
  have le : ∀ {c d : ℕ} {e f : ℤ}, d % 10 ≠ 0 → (c : ℚ) * 10 ^ e = d * 10 ^ f → e ≤ f := by
    intro c d e f hd h
    by_contra! lt
    have digits : (d : ℚ) = (c * 10 ^ (e - f).toNat : ℕ) := by
      push_cast
      rw [← zpow_natCast, Int.toNat_of_nonneg (by omega), zpow_sub₀ (by norm_num), ← mul_div_assoc,
        h, mul_div_assoc, div_self (ten_zpow_pos f).ne', mul_one]
    obtain ⟨k, hk⟩ := Nat.exists_eq_succ_of_ne_zero (show (e - f).toNat ≠ 0 by omega)
    rw [Nat.cast_inj, hk, Nat.pow_succ, ← Nat.mul_assoc] at digits
    exact hd (digits ▸ Nat.mul_mod_left _ 10)
  obtain rfl : e = f := le_antisymm (le (hd.resolve_left (by simp [hd₀])) magnitude)
    (le (hc.resolve_left (by simp [hc₀])) magnitude.symm)
  have same : c = d := by exact_mod_cast mul_right_cancel₀ (ten_zpow_pos e).ne' magnitude
  refine ⟨same, rfl, fun _ => ?_⟩
  have positive : (0 : ℚ) < c * 10 ^ e :=
    mul_pos (by exact_mod_cast Nat.pos_of_ne_zero hc₀) (ten_zpow_pos e)
  rw [← same] at h
  cases s <;> cases t <;> simp only [worth_negative, worth_positive] at h
  · rfl
  · linarith
  · linarith
  · rfl

/-- The shortest form of the rounded number. Digits behind the point are left only of a number
that has fewer digits before it than a calculation keeps. -/
theorem reduce_eq (s : Bool) (c : ℕ) (e : ℤ) (h : |rounded (finite s c e).worth| < limit) :
    ∃ c' e', (finite s c e).reduce = .ok (finite s c' e') ∧ Shortest c' e' ∧
      (finite s c' e').worth = rounded (finite s c e).worth ∧
      (e' < 0 → |(finite s c' e').worth| < 10 ^ (precision : ℤ)) := by
  obtain ⟨c', e', short, -, ok, worth⟩ := round_of_lt h
  by_cases hz : c' = 0
  · refine ⟨0, 0, bind_of_ok ok (if_pos hz), .inl ⟨rfl, rfl⟩, ?_, by simp⟩
    rw [← worth, worth_eq_zero_iff.2 hz, worth_eq_zero_iff.2 rfl]
  · have le := le_stripZeros (Text.digitCount c') c' e'
    refine ⟨_, _, bind_of_ok ok (if_neg hz),
      .inr (stripZeros_mod_ne_zero hz (Text.lt_pow_digitCount c')), ?_, fun fraction => ?_⟩
    · rw [worth_stripZeros, worth]
    · rw [worth_stripZeros, abs_worth_lt_iff]
      unfold adjusted
      omega

theorem reduce_overflow {s : Bool} {c : ℕ} {e : ℤ} (h : limit ≤ |rounded (finite s c e).worth|) :
    (finite s c e).reduce = .error .overflow := bind_of_error (round_of_limit_le h)

/-- The canonical text of a number in its shortest form. -/
def shortestText (s : Bool) (c : ℕ) (e : ℤ) : Except Failure String :=
  if 0 ≤ e then
    if (Text.maxDigits : ℤ) ≤ adjusted c e then .error .tooLong
    else .ok (Text.ofInt (signed s (c * 10 ^ e.toNat)))
  else .ok (finite s c e).plainText

theorem canonicalText_of_reduce {d : Decimal} {s : Bool} {c : ℕ} {e : ℤ}
    (h : d.reduce = .ok (finite s c e)) : d.canonicalText = shortestText s c e := by
  refine bind_of_ok h ?_
  unfold shortestText
  dsimp only
  split
  · split <;> rfl
  · rfl

/-! ### Numbers told from their texts -/

theorem toList_pointed (n : ℕ) {e : ℤ} (he : e < 0) : ∃ ws ps,
    (pointed (Text.digits n) (e + (Text.digits n).length)).toList = ws ++ '.' :: ps ∧
      (∀ x ∈ ws ++ ps, x.isDigit = true) ∧ (ps.length : ℤ) = -e ∧
      Nat.ofDigitChars 10 (ws ++ ps) 0 = n := by
  have digit : ∀ x ∈ Text.digits n, x.isDigit = true := fun _ => Text.isDigit_of_mem_digits
  unfold pointed
  split
  · rename_i small
    generalize zeros : (-(e + ((Text.digits n).length : ℤ))).toNat = k
    refine ⟨['0'], List.replicate k '0' ++ Text.digits n, ?_, ?_, ?_, ?_⟩
    · simp only [String.toList_append, String.toList_ofList]
      rfl
    · rw [List.singleton_append, List.forall_mem_cons, List.forall_mem_append]
      exact ⟨rfl, fun x hx => (List.mem_replicate.1 hx).2 ▸ rfl, digit⟩
    · rw [List.length_append, List.length_replicate]
      omega
    · rw [List.singleton_append, ← List.cons_append, ← List.replicate_succ,
        Nat.ofDigitChars_append, Nat.ofDigitChars_replicate_zero, Nat.mul_zero,
        Text.ofDigitChars_digits]
  · rename_i positive
    rw [if_neg (by omega)]
    generalize place : (e + ((Text.digits n).length : ℤ)).toNat = k
    refine ⟨(Text.digits n).take k, (Text.digits n).drop k, ?_, ?_, ?_, ?_⟩
    · simp only [String.toList_append, String.toList_ofList, List.append_assoc]
      rfl
    · rwa [List.take_append_drop]
    · rw [List.length_drop]
      omega
    · rw [List.take_append_drop, Text.ofDigitChars_digits]

section told
variable {s t : Bool} {c d : ℕ} {e f : ℤ} {x : String}

/-- A number with digits behind the point is not written like a whole number. -/
theorem plainText_ne_ofInt (he : e < 0) (n : ℤ) : (finite s c e).plainText ≠ Text.ofInt n := by
  intro same
  obtain ⟨ws, ps, written, -⟩ := toList_pointed c he
  have point : '.' ∈ (Text.ofInt n).toList := by
    rw [← same, plainText, String.toList_append, written]
    simp
  rcases Text.mem_ofInt point with digit | sign
  · exact absurd digit (by decide)
  · exact absurd sign (by decide)

theorem plainText_injective (he : e < 0) (hf : f < 0)
    (h : (finite s c e).plainText = (finite t d f).plainText) : s = t ∧ c = d ∧ e = f := by
  obtain ⟨ws, ps, written, digits, places, value⟩ := toList_pointed c he
  obtain ⟨ws', ps', written', digits', places', value'⟩ := toList_pointed d hf
  have texts := congrArg String.toList h
  rw [plainText, plainText, String.toList_append, String.toList_append, written, written'] at texts
  have unsigned : ∀ {vs qs us : List Char}, (∀ x ∈ vs ++ qs, x.isDigit = true) →
      vs ++ '.' :: qs ≠ '-' :: us := by
    intro vs qs us digits h
    cases vs with
    | nil => cases h
    | cons v vs =>
        obtain ⟨rfl, -⟩ := List.cons.inj h
        exact absurd (digits '-' List.mem_cons_self) (by decide)
  obtain ⟨rfl, rest⟩ : s = t ∧ ws ++ '.' :: ps = ws' ++ '.' :: ps' := by
    cases s <;> cases t
    · exact ⟨rfl, texts⟩
    · exact absurd texts (unsigned digits)
    · exact absurd texts.symm (unsigned digits')
    · exact ⟨rfl, (List.cons.inj texts).2⟩
  rw [List.forall_mem_append] at digits digits'
  have stop : ∀ {cs : List Char}, ∀ x ∈ ('.' :: cs).head?, x.isDigit = false := by
    rintro cs x ⟨⟩
    rfl
  obtain ⟨rfl, behind⟩ := append_eq_append_of_stops Char.isDigit digits.1 digits'.1 stop stop rest
  obtain rfl := (List.cons.inj behind).2
  exact ⟨rfl, value.symm.trans value', by omega⟩

theorem worth_of_nonneg (s : Bool) (c : ℕ) (he : 0 ≤ e) :
    (finite s c e).worth = ((signed s (c * 10 ^ e.toNat) : ℤ) : ℚ) := by
  have power : (10 : ℚ) ^ e = 10 ^ e.toNat := by rw [← zpow_natCast, Int.toNat_of_nonneg he]
  cases s <;> simp [worth, signed, power]

/-- A number can be told from the text of its shortest form. -/
theorem worth_of_shortestText (h : shortestText s c e = .ok x) (h' : shortestText t d f = .ok x) :
    (finite s c e).worth = (finite t d f).worth := by
  unfold shortestText at h h'
  by_cases he : 0 ≤ e <;> by_cases hf : 0 ≤ f
  · rw [if_pos he] at h
    rw [if_pos hf] at h'
    split at h
    · cases h
    split at h'
    · cases h'
    have same := Text.ofInt_injective ((Except.ok.inj h).trans (Except.ok.inj h').symm)
    rw [worth_of_nonneg s c he, worth_of_nonneg t d hf, same]
  · rw [if_pos he] at h
    rw [if_neg hf] at h'
    split at h
    · cases h
    exact absurd ((Except.ok.inj h').trans (Except.ok.inj h).symm)
      (plainText_ne_ofInt (Int.not_le.1 hf) _)
  · rw [if_neg he] at h
    rw [if_pos hf] at h'
    split at h'
    · cases h'
    exact absurd ((Except.ok.inj h).trans (Except.ok.inj h').symm)
      (plainText_ne_ofInt (Int.not_le.1 he) _)
  · rw [if_neg he] at h
    rw [if_neg hf] at h'
    obtain ⟨rfl, rfl, rfl⟩ := plainText_injective (Int.not_le.1 he) (Int.not_le.1 hf)
      ((Except.ok.inj h).trans (Except.ok.inj h').symm)
    rfl

end told

/-! ### Canonical texts -/

/-- Decimals that round to one number have one canonical text, or none for the same reason. -/
theorem canonicalText_congr {a b : Decimal} (ha : a.isFinite = true) (hb : b.isFinite = true)
    (h : rounded a.worth = rounded b.worth) : a.canonicalText = b.canonicalText := by
  cases a with
  | infinite | nan => cases ha
  | finite s c e =>
  cases b with
  | infinite | nan => cases hb
  | finite t d f =>
      rcases lt_or_ge |rounded (finite s c e).worth| limit with small | large
      · obtain ⟨c', e', reduced, shortest, worth, -⟩ := reduce_eq s c e small
        obtain ⟨d', f', reduced', shortest', worth', -⟩ := reduce_eq t d f (h ▸ small)
        obtain ⟨rfl, rfl, sign⟩ := shortest.unique shortest' (by rw [worth, worth', h])
        rw [canonicalText_of_reduce reduced, canonicalText_of_reduce reduced']
        by_cases zero : c' = 0
        · subst zero
          obtain rfl : e' = 0 := (shortest.resolve_right (by simp)).2
          -- zero is written without a sign
          cases s <;> cases t <;> rfl
        · rw [sign zero]
      · rw [canonicalText, canonicalText, reduce_overflow large, reduce_overflow (h ▸ large)]

/-- A number has a canonical text unless it has more digits before the point than a whole number
is written with. -/
theorem exists_canonicalText_iff {a : Decimal} (ha : a.isFinite = true) :
    (∃ t, a.canonicalText = .ok t) ↔ |rounded a.worth| < 10 ^ (Text.maxDigits : ℤ) := by
  cases a with
  | infinite | nan => cases ha
  | finite s c e =>
      have longer : (precision : ℤ) ≤ Text.maxDigits := by decide
      rcases lt_or_ge |rounded (finite s c e).worth| limit with small | large
      · obtain ⟨c', e', reduced, shortest, worth, fraction⟩ := reduce_eq s c e small
        rw [canonicalText_of_reduce reduced, ← worth]
        unfold shortestText
        by_cases he : 0 ≤ e'
        · rw [if_pos he, abs_worth_lt_iff]
          split
          · rename_i long
            refine iff_of_false (by simp) ?_
            rintro (rfl | fits)
            · obtain rfl : e' = 0 := (shortest.resolve_right (by simp)).2
              exact absurd long (by decide)
            · omega
          · rename_i fits
            exact iff_of_true ⟨_, rfl⟩ (.inr (Int.not_le.1 fits))
        · rw [if_neg he]
          refine iff_of_true ⟨_, rfl⟩ ((fraction (Int.not_le.1 he)).trans_le ?_)
          exact zpow_le_zpow_right₀ (by norm_num) longer
      · rw [canonicalText, bind_of_error (reduce_overflow large)]
        refine iff_of_false (by simp) (not_lt.2 (le_trans ?_ large))
        exact zpow_le_zpow_right₀ (by norm_num) (by decide)

theorem exists_shortestText {a : Decimal} {t : String} (ha : a.isFinite = true)
    (h : a.canonicalText = .ok t) :
    ∃ s c e, shortestText s c e = .ok t ∧ Shortest c e ∧
      (finite s c e).worth = rounded a.worth := by
  cases a with
  | infinite | nan => cases ha
  | finite s c e =>
      rcases lt_or_ge |rounded (finite s c e).worth| limit with small | large
      · obtain ⟨c', e', reduced, shortest, worth, -⟩ := reduce_eq s c e small
        exact ⟨s, c', e', (canonicalText_of_reduce reduced).symm.trans h, shortest, worth⟩
      · cases (bind_of_error (reduce_overflow large)).symm.trans h

theorem canonicalText_eq_iff {a b : Decimal} {t : String} (ha : a.isFinite = true)
    (hb : b.isFinite = true) (h : a.canonicalText = .ok t) :
    b.canonicalText = .ok t ↔ rounded b.worth = rounded a.worth := by
  refine ⟨fun h' => ?_, fun same => (canonicalText_congr hb ha same).trans h⟩
  obtain ⟨s, c, e, text, -, worth⟩ := exists_shortestText ha h
  obtain ⟨s', c', e', text', -, worth'⟩ := exists_shortestText hb h'
  rw [← worth, ← worth', worth_of_shortestText text' text]

/-! ### Rates -/

section rates
variable {d d' : Decimal} {t : String}

theorem IsRate.exists_canonicalText (hd : d.IsRate) : ∃ t, d.canonicalText = .ok t := by
  obtain ⟨low, high⟩ := hd.worth_bounds
  rw [exists_canonicalText_iff hd.1, abs_of_nonneg (rounded_nonneg low)]
  calc rounded d.worth ≤ rounded 1 := rounded_mono low high.le
    _ = 1 := rounded_one
    _ < 10 ^ (Text.maxDigits : ℤ) := one_lt_zpow₀ (by norm_num) (by decide)

theorem mem_canonicalText {x : Char} (hd : d.IsRate) (ht : d.canonicalText = .ok t)
    (hx : x ∈ t.toList) : x.isDigit = true ∨ x = '.' := by
  obtain ⟨s, c, e, text, shortest, worth⟩ := exists_shortestText hd.1 ht
  have nonneg : 0 ≤ (finite s c e).worth := by
    rw [worth]
    exact rounded_nonneg hd.worth_bounds.1
  unfold shortestText at text
  by_cases he : 0 ≤ e
  · rw [if_pos he] at text
    split at text
    · cases text
    cases text
    rw [worth_of_nonneg s c he] at nonneg
    rw [Text.ofInt, if_neg (not_lt.2 (by exact_mod_cast nonneg)), String.toList_ofList] at hx
    exact .inl (Text.isDigit_of_mem_digits hx)
  · rw [if_neg he] at text
    cases text
    obtain rfl : s = false := by
      cases s with
      | false => rfl
      | true =>
          rw [worth_negative, neg_nonneg] at nonneg
          have zero : (finite false c e).worth = 0 := le_antisymm nonneg (by
            rw [worth_positive]
            exact mul_nonneg (Nat.cast_nonneg c) (ten_zpow_pos e).le)
          rcases shortest with ⟨-, rfl⟩ | digits
          · exact absurd le_rfl he
          · rw [worth_eq_zero_iff.1 zero] at digits
            exact absurd rfl digits
    obtain ⟨ws, ps, written, digits, -⟩ := toList_pointed c (Int.not_le.1 he)
    rw [plainText, String.toList_append, written] at hx
    rw [List.forall_mem_append] at digits
    rcases List.mem_append.1 hx with sign | hx
    · cases sign
    rcases List.mem_append.1 hx with hx | hx
    · exact .inl (digits.1 x hx)
    · exact (List.mem_cons.1 hx).symm.imp_left (digits.2 x)

/-- The number has no more digits than a calculation keeps, and ends where one may end. -/
def isShort : Decimal → Bool
  | finite _ c e => Text.digitCount c ≤ precision && leastExponent ≤ e
  | _ => false

theorem rounded_of_isShort (short : d.isShort = true) : rounded d.worth = d.worth := by
  cases d with
  | infinite | nan => cases short
  | finite s c e =>
      rw [isShort, Bool.and_eq_true, decide_eq_true_eq, decide_eq_true_eq] at short
      refine rounded_of_onGrid (worth_onGrid s c e) short.2 ((abs_worth_lt_iff _).2 (.inr ?_))
      unfold adjusted
      omega

theorem normalNumber_of_isRate {s : Bool} {c : ℕ} {e : ℤ} (hr : (finite s c e).IsRate) :
    Value.normalNumber (finite s c e) =
      if c = 0 then .int 0 else .decimal (finite s c e).stripped := by
  by_cases zero : c = 0
  · have whole : (finite s c e).whole? = some 0 := if_pos zero
    rw [Value.normalNumber, whole, if_pos zero]
  · have small := hr.cases.1.resolve_right zero
    have broken : (finite s c e).whole? = none := by
      have positive := Text.digitCount_pos c
      unfold adjusted at small
      unfold whole?
      dsimp only
      rw [if_neg zero, if_neg (by omega), if_pos (by omega)]
    rw [Value.normalNumber, broken, if_neg zero]

theorem normalNumber_congr (hd : d.IsRate) (hd' : d'.IsRate) (h : d.worth = d'.worth) :
    Value.normalNumber d = Value.normalNumber d' := by
  cases d with
  | infinite | nan => cases hd.1
  | finite s c e =>
  cases d' with
  | infinite | nan => cases hd'.1
  | finite s' c' e' =>
      have zeros : c = 0 ↔ c' = 0 := by
        rw [← worth_eq_zero_iff (s := s) (e := e), h, worth_eq_zero_iff]
      rw [normalNumber_of_isRate hd, normalNumber_of_isRate hd']
      by_cases zero : c = 0
      · rw [if_pos zero, if_pos (zeros.1 zero)]
      · have nonzero := mt zeros.2 zero
        have shortest : ∀ {c : ℕ} (e : ℤ), c ≠ 0 → Shortest (stripZeros (Text.digitCount c) c e).1
            (stripZeros (Text.digitCount c) c e).2 :=
          fun _ hc => .inr (stripZeros_mod_ne_zero hc (Text.lt_pow_digitCount _))
        obtain ⟨digits, places, signs⟩ := (shortest e zero).unique (shortest e' nonzero)
          ((worth_stripZeros s _ c e).trans (h.trans (worth_stripZeros s' _ c' e').symm))
        have sign : s = s' := signs fun h => by
          have := stripZeros_mod_ne_zero (e := e) zero (Text.lt_pow_digitCount c)
          rw [h] at this
          exact this rfl
        rw [if_neg zero, if_neg nonzero, stripped, stripped]
        dsimp only
        rw [digits, places, sign]

/-- A short rate can be told from its canonical text, up to its written form. -/
theorem normalNumber_eq_of_canonicalText (hd : d.IsRate) (hd' : d'.IsRate)
    (short : d.isShort = true) (short' : d'.isShort = true) (ht : d.canonicalText = .ok t)
    (ht' : d'.canonicalText = .ok t) : Value.normalNumber d = Value.normalNumber d' := by
  have same := (canonicalText_eq_iff hd'.1 hd.1 ht').1 ht
  rw [rounded_of_isShort short, rounded_of_isShort short'] at same
  exact normalNumber_congr hd hd' same

end rates

end Decimal
end Pawnbook
