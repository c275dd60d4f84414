import Mathlib.Algebra.Ring.Nat
import Pawnbook.Text

/-! # Whole numbers that are written and read

A whole number that is written in digits is read back as it was (`readInt_ofInt`), unless it has
more digits than a text may have to be read. -/

namespace Pawnbook
namespace Text

/-! ### Digits -/

theorem digitValue?_digitChar : ∀ d < 10, digitValue? (Nat.digitChar d) = some d := by decide

theorem isNumeralBlank_digitChar : ∀ d < 10, isNumeralBlank (Nat.digitChar d) = false := by decide

theorem digitChar_ne : ∀ d < 10,
    Nat.digitChar d ≠ '_' ∧ Nat.digitChar d ≠ '-' ∧ Nat.digitChar d ≠ '+' := by decide

theorem ofDigits_append (ds : List Nat) (d : Nat) :
    ofDigits (ds ++ [d]) = 10 * ofDigits ds + d := by
  simp [ofDigits]

theorem digits_eq (n : Nat) : ∃ d ds, digits n = (d :: ds).map Nat.digitChar ∧
    (∀ x ∈ d :: ds, x < 10) ∧ ofDigits (d :: ds) = n := by
  induction n using Nat.strongRecOn with
  | ind n ih =>
      unfold digits
      rw [Nat.toDigits_eq_if (by decide)]
      split
      · rename_i hn
        exact ⟨n, [], rfl, by simpa using hn, by simp [ofDigits]⟩
      · obtain ⟨d, ds, hds, hlt, hn⟩ := ih (n / 10) (by omega)
        refine ⟨d, ds ++ [n % 10], ?_, ?_, ?_⟩
        · rw [show Nat.toDigits 10 (n / 10) = _ from hds]
          simp
        · intro x hx
          rw [← List.cons_append, List.mem_append, List.mem_singleton] at hx
          rcases hx with hx | rfl
          · exact hlt x hx
          · exact Nat.mod_lt n (by decide)
        · rw [← List.cons_append, ofDigits_append, hn]
          omega

theorem digitsApart?_map : ∀ {d : Nat} {ds : List Nat}, (∀ x ∈ d :: ds, x < 10) →
    digitsApart? ((d :: ds).map Nat.digitChar) = some (d :: ds)
  | d, [], h => by
      simp [digitsApart?, digitValue?_digitChar d (h d List.mem_cons_self)]
  | d, e :: es, h => by
      have he := digitChar_ne e (h e (by simp))
      have ih := digitsApart?_map fun x hx => h x (List.mem_cons_of_mem d hx)
      rw [List.map_cons] at ih
      rw [List.map_cons, List.map_cons, digitsApart?]
      · rw [digitValue?_digitChar d (h d List.mem_cons_self), ih]
        rfl
      · intro x rest hx
        exact absurd hx he.1

/-! ### How many digits there are -/

theorem lt_pow_digitCount (n : Nat) : n < 10 ^ digitCount n :=
  (Nat.length_toDigits_le_iff (by decide) Nat.length_toDigits_pos).1 (Nat.le_refl _)

theorem digitCount_pos (n : Nat) : 0 < digitCount n := Nat.length_toDigits_pos

theorem digitCount_le_iff {n k : Nat} (hk : 0 < k) : digitCount n ≤ k ↔ n < 10 ^ k :=
  Nat.length_toDigits_le_iff (by decide) hk

theorem pow_le_of_lt_digitCount {n k : Nat} (hk : 0 < k) (h : k < digitCount n) : 10 ^ k ≤ n :=
  Nat.not_lt.1 fun hn => Nat.not_lt.2 ((digitCount_le_iff hk).2 hn) h

theorem pow_pred_digitCount_le {n : Nat} (hn : n ≠ 0) : 10 ^ (digitCount n - 1) ≤ n := by
  have hpos := digitCount_pos n
  by_cases hone : digitCount n = 1
  · rw [hone, Nat.sub_self, Nat.pow_zero]
    omega
  · exact pow_le_of_lt_digitCount (by omega) (by omega)

theorem isShort_iff {n : Int} : isShort n = true ↔ n.natAbs < 10 ^ maxDigits :=
  decide_eq_true_iff.trans (digitCount_le_iff (by decide))

/-- A number no further from zero than one that is written is written as well. -/
theorem isShort_of_le {m n : Int} (h : m.natAbs ≤ n.natAbs) (short : isShort n = true) :
    isShort m = true := isShort_iff.2 (Nat.lt_of_le_of_lt h (isShort_iff.1 short))

/-! ### Numbers -/

theorem readMagnitude_digits {n : Nat} (h : digitCount n ≤ maxDigits) :
    readMagnitude (digits n) = .ok n := by
  obtain ⟨d, ds, hds, hlt, hn⟩ := digits_eq n
  have hall : ∀ c ∈ digits n, isNumeralChar c = true := by
    intro c hc
    rw [hds] at hc
    obtain ⟨x, hx, rfl⟩ := List.mem_map.1 hc
    simp [isNumeralChar, digitValue?_digitChar x (hlt x hx)]
  have hlen : (d :: ds).length = digitCount n := by
    rw [digitCount, hds, List.length_map]
  have htake : (digits n).takeWhile isNumeralChar = digits n := by
    rw [← List.append_nil (digits n), List.takeWhile_append_of_pos hall]
    rfl
  have hdrop : (digits n).dropWhile isNumeralChar = [] := by
    rw [← List.append_nil (digits n), List.dropWhile_append_of_pos hall]
    rfl
  unfold readMagnitude
  rw [htake, hdrop, hds, digitsApart?_map hlt]
  dsimp only
  rw [if_neg (by omega), hn]
  rfl

/-- A number that is not too long to be written is read back. -/
theorem readInt_ofInt {n : Int} (h : isShort n = true) : readInt (ofInt n) = .ok n := by
  have hread := readMagnitude_digits (of_decide_eq_true h)
  obtain ⟨d, ds, hds, hlt, -⟩ := digits_eq n.natAbs
  have hd := hlt d List.mem_cons_self
  rcases Int.lt_or_le n 0 with hn | hn
  · have hs : (ofInt n).toList.dropWhile isNumeralBlank = '-' :: digits n.natAbs := by
      rw [ofInt, if_pos hn, String.toList_ofList, List.dropWhile_cons_of_neg (by decide)]
    unfold readInt
    rw [hs]
    show Except.map (fun k : Int => -k) (do
      return ((← readMagnitude (digits n.natAbs)) : Int)) = _
    rw [hread]
    show Except.ok (-(n.natAbs : Int)) = _
    rw [show -(n.natAbs : Int) = n by omega]
  · have hs : (ofInt n).toList.dropWhile isNumeralBlank = digits n.natAbs := by
      rw [ofInt, if_neg (by omega), String.toList_ofList, hds, List.map_cons,
        List.dropWhile_cons_of_neg (by simp [isNumeralBlank_digitChar d hd])]
    have hc : digits n.natAbs = Nat.digitChar d :: ds.map Nat.digitChar := hds
    unfold readInt
    rw [hs]
    split
    · rename_i cs hcs
      exact absurd (List.cons.inj (hc.symm.trans hcs)).1 (digitChar_ne d hd).2.1
    · rename_i cs hcs
      exact absurd (List.cons.inj (hc.symm.trans hcs)).1 (digitChar_ne d hd).2.2
    · rw [hread]
      show Except.ok (n.natAbs : Int) = _
      rw [Int.natAbs_of_nonneg hn]

end Text
end Pawnbook
