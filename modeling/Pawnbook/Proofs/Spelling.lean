import Mathlib.Algebra.Ring.Nat
import Pawnbook.Text
import Pawnbook.Time

/-! # Texts that tell what they write

A whole number and a time can be told from their texts (`Text.ofInt_injective`,
`Time.text_injective`). Where texts are written one behind the other, they can be told apart if the
first one ends before the first character of some kind (`append_eq_append_of_stops`). -/

namespace Pawnbook

/-- Two lists of one kind of elements, with something behind them that is empty or starts with an
element of another kind, are told apart by the whole. -/
theorem append_eq_append_of_stops {α : Type} (p : α → Bool) : ∀ {as bs rs ss : List α},
    (∀ a ∈ as, p a = true) → (∀ b ∈ bs, p b = true) → (∀ r ∈ rs.head?, p r = false) →
    (∀ s ∈ ss.head?, p s = false) → as ++ rs = bs ++ ss → as = bs ∧ rs = ss
  | [], [], _, _, _, _, _, _, h => ⟨rfl, h⟩
  | [], b :: bs, rs, ss, _, hb, hr, _, h => by
      rw [List.nil_append, List.cons_append] at h
      have kind := hr b (by rw [h]; rfl)
      rw [hb b List.mem_cons_self] at kind
      cases kind
  | a :: as, [], rs, ss, ha, _, _, hs, h => by
      rw [List.nil_append, List.cons_append] at h
      have kind := hs a (by rw [← h]; rfl)
      rw [ha a List.mem_cons_self] at kind
      cases kind
  | a :: as, b :: bs, rs, ss, ha, hb, hr, hs, h => by
      rw [List.forall_mem_cons] at ha hb
      obtain ⟨same, rest⟩ := List.cons.inj h
      obtain ⟨heads, tails⟩ := append_eq_append_of_stops p ha.2 hb.2 hr hs rest
      exact ⟨by rw [same, heads], tails⟩

/-! ### Whole numbers -/

namespace Text

theorem ofDigitChars_digits (n : Nat) : Nat.ofDigitChars 10 (digits n) 0 = n :=
  Nat.ofDigitChars_ten_toDigits

theorem digits_injective {m n : Nat} (h : digits m = digits n) : m = n := by
  rw [← ofDigitChars_digits m, h, ofDigitChars_digits]

theorem isDigit_of_mem_digits {n : Nat} {c : Char} (h : c ∈ digits n) : c.isDigit = true :=
  Nat.isDigit_of_mem_toDigits (by decide) (by decide) h

theorem ofInt_injective {m n : Int} (h : ofInt m = ofInt n) : m = n := by
  -- a minus sign is no digit
  have unsigned : ∀ {i j : Nat}, '-' :: digits i ≠ digits j := by
    intro i j h
    have sign := isDigit_of_mem_digits (n := j) (by rw [← h]; exact List.mem_cons_self)
    exact absurd sign (by decide)
  have h := congrArg String.toList h
  unfold ofInt at h
  split at h
  · split at h
    · rw [String.toList_ofList, String.toList_ofList] at h
      have same := digits_injective (List.cons.inj h).2
      omega
    · exact absurd (by simpa using h) unsigned
  · split at h
    · exact absurd (by simpa using h.symm) unsigned
    · have same : m.natAbs = n.natAbs := digits_injective (by simpa using h)
      omega

theorem mem_ofInt {n : Int} {c : Char} (h : c ∈ (ofInt n).toList) :
    c.isDigit = true ∨ c = '-' := by
  unfold ofInt at h
  split at h
  · rw [String.toList_ofList, List.mem_cons] at h
    exact h.symm.imp isDigit_of_mem_digits id
  · rw [String.toList_ofList] at h
    exact .inl (isDigit_of_mem_digits h)

theorem toList_padded (width n : Nat) :
    (padded width n).toList = List.replicate (width - digitCount n) '0' ++ digits n := by
  rw [padded, String.toList_ofList]
  rfl

theorem isDigit_of_mem_padded {width n : Nat} {c : Char} (h : c ∈ (padded width n).toList) :
    c.isDigit = true := by
  rw [toList_padded, List.mem_append, List.mem_replicate] at h
  rcases h with ⟨-, rfl⟩ | h
  · rfl
  · exact isDigit_of_mem_digits h

theorem padded_injective {width m n : Nat}
    (h : (padded width m).toList = (padded width n).toList) : m = n := by
  have value : ∀ n, Nat.ofDigitChars 10 (padded width n).toList 0 = n := by
    intro n
    rw [toList_padded, Nat.ofDigitChars_append, Nat.ofDigitChars_replicate_zero, Nat.mul_zero,
      ofDigitChars_digits]
  rw [← value m, h, value]

/-- Two numbers written with zeros in front, each with something behind it that starts with no
digit. -/
theorem padded_append {width m n : Nat} {rs ss : List Char}
    (hr : ∀ r ∈ rs.head?, r.isDigit = false) (hs : ∀ s ∈ ss.head?, s.isDigit = false)
    (h : (padded width m).toList ++ rs = (padded width n).toList ++ ss) : m = n ∧ rs = ss := by
  obtain ⟨numbers, rest⟩ := append_eq_append_of_stops Char.isDigit
    (fun _ => isDigit_of_mem_padded) (fun _ => isDigit_of_mem_padded) hr hs h
  exact ⟨padded_injective numbers, rest⟩

end Text

/-! ### Times -/

namespace Time

theorem yearAndDay_injective {m n : Nat} (h : yearAndDay m = yearAndDay n) : m = n := by
  -- a day is counted from the spans of years before it
  have place : ∀ n, n = 146097 * (((yearAndDay n).1 - 1) / 400) +
      36524 * (((yearAndDay n).1 - 1) % 400 / 100) + 1461 * (((yearAndDay n).1 - 1) % 100 / 4) +
      365 * (((yearAndDay n).1 - 1) % 4) + (yearAndDay n).2 := by
    intro n
    have spans : ∀ {a b c d : Nat}, b ≤ 3 → c ≤ 24 → d ≤ 3 →
        (400 * a + 100 * b + 4 * c + d) / 400 = a ∧
        (400 * a + 100 * b + 4 * c + d) % 400 / 100 = b ∧
        (400 * a + 100 * b + 4 * c + d) % 100 / 4 = c ∧
        (400 * a + 100 * b + 4 * c + d) % 4 = d := by omega
    have centuries : min 3 (n % 146097 / 36524) ≤ 3 := Nat.min_le_left _ _
    have fours : (n % 146097 - min 3 (n % 146097 / 36524) * 36524) / 1461 ≤ 24 := by omega
    have years : min 3 ((n % 146097 - min 3 (n % 146097 / 36524) * 36524) % 1461 / 365) ≤ 3 :=
      Nat.min_le_left _ _
    obtain ⟨ha, hb, hc, hd⟩ := spans (a := n / 146097) centuries fours years
    simp only [yearAndDay, Nat.add_sub_cancel]
    rw [ha, hb, hc, hd]
    omega
  rw [place m, h, ← place n]

theorem le_monthAndDay : ∀ (month n : Nat) (ls : List Nat), month ≤ (monthAndDay month n ls).1
  | _, _, [] => Nat.le_refl _
  | month, n, length :: rest => by
      unfold monthAndDay
      split
      · exact Nat.le_refl _
      · exact Nat.le_trans (Nat.le_succ _) (le_monthAndDay (month + 1) (n - length) rest)

theorem monthAndDay_injective : ∀ {ls : List Nat} {month m n : Nat},
    monthAndDay month m ls = monthAndDay month n ls → m = n
  | [], month, m, n, h => by
      have days : m + 1 = n + 1 := (Prod.mk.inj h).2
      omega
  | length :: rest, month, m, n, h => by
      unfold monthAndDay at h
      split at h
      · split at h
        · have days : m + 1 = n + 1 := (Prod.mk.inj h).2
          omega
        · have months := congrArg Prod.fst h
          have bound := le_monthAndDay (month + 1) (n - length) rest
          omega
      · split at h
        · have months := congrArg Prod.fst h
          have bound := le_monthAndDay (month + 1) (m - length) rest
          omega
        · have days := monthAndDay_injective h
          omega

theorem dateOfDay_injective {m n : Nat} (h : dateOfDay m = dateOfDay n) : m = n := by
  obtain ⟨years, months⟩ := Prod.mk.inj h
  have same : monthAndDay 1 (yearAndDay m).2 (monthLengths (yearAndDay m).1) =
      monthAndDay 1 (yearAndDay n).2 (monthLengths (yearAndDay n).1) := months
  have year : (yearAndDay m).1 = (yearAndDay n).1 := years
  rw [year] at same
  exact yearAndDay_injective (Prod.ext year (monthAndDay_injective same))

theorem civil_injective {t u : Time} (h : t.civil = u.civil) : t = u := by
  have date : dateOfDay (t.micros / microsPerDay) = dateOfDay (u.micros / microsPerDay) :=
    Prod.ext (congrArg Civil.year h) (Prod.ext (congrArg Civil.month h) (congrArg Civil.day h))
  have days := dateOfDay_injective date
  have hour : t.micros % microsPerDay / 3600000000 = u.micros % microsPerDay / 3600000000 :=
    congrArg Civil.hour h
  have minute : t.micros % microsPerDay / 60000000 % 60 =
      u.micros % microsPerDay / 60000000 % 60 := congrArg Civil.minute h
  have second : t.micros % microsPerDay / 1000000 % 60 =
      u.micros % microsPerDay / 1000000 % 60 := congrArg Civil.second h
  have micro : t.micros % microsPerDay % 1000000 = u.micros % microsPerDay % 1000000 :=
    congrArg Civil.micro h
  obtain ⟨m, _⟩ := t
  obtain ⟨n, _⟩ := u
  have same : m = n := by
    unfold microsPerDay at days hour minute second micro
    dsimp only at days hour minute second micro
    omega
  subst same
  rfl

theorem toList_text (t : Time) : t.text.toList =
    (Text.padded 4 t.civil.year).toList ++ '-' :: ((Text.padded 2 t.civil.month).toList ++
    '-' :: ((Text.padded 2 t.civil.day).toList ++ 'T' :: ((Text.padded 2 t.civil.hour).toList ++
    ':' :: ((Text.padded 2 t.civil.minute).toList ++
    ':' :: ((Text.padded 2 t.civil.second).toList ++
    if t.civil.micro = 0 then [] else '.' :: (Text.padded 6 t.civil.micro).toList))))) := by
  unfold text textWith dateText clockText
  simp only [String.toList_append, List.append_assoc]
  split <;> simp

theorem text_injective {t u : Time} (h : t.text = u.text) : t = u := by
  have h := congrArg String.toList h
  rw [toList_text, toList_text] at h
  have stop : ∀ {c : Char} {cs : List Char}, c.isDigit = false →
      ∀ x ∈ (c :: cs).head?, x.isDigit = false := by
    rintro c cs hc x ⟨⟩
    exact hc
  obtain ⟨year, h⟩ := Text.padded_append (stop rfl) (stop rfl) h
  obtain ⟨month, h⟩ := Text.padded_append (stop rfl) (stop rfl) (List.cons.inj h).2
  obtain ⟨day, h⟩ := Text.padded_append (stop rfl) (stop rfl) (List.cons.inj h).2
  obtain ⟨hour, h⟩ := Text.padded_append (stop rfl) (stop rfl) (List.cons.inj h).2
  obtain ⟨minute, h⟩ := Text.padded_append (stop rfl) (stop rfl) (List.cons.inj h).2
  have last : ∀ n : Nat, ∀ x ∈ (if n = 0 then [] else '.' :: (Text.padded 6 n).toList).head?,
      x.isDigit = false := by
    intro n
    split
    · nofun
    · exact stop rfl
  obtain ⟨second, h⟩ := Text.padded_append (last _) (last _) (List.cons.inj h).2
  have micro : t.civil.micro = u.civil.micro := by
    split at h
    · split at h
      · omega
      · cases h
    · split at h
      · cases h
      · exact Text.padded_injective (List.cons.inj h).2
  apply civil_injective
  revert year month day hour minute second micro
  generalize t.civil = c, u.civil = d
  intro year month day hour minute second micro
  obtain ⟨_, _, _, _, _, _, _⟩ := c
  obtain ⟨_, _, _, _, _, _, _⟩ := d
  simp_all

theorem mem_text {t : Time} {c : Char} (h : c ∈ t.text.toList) :
    c.isDigit = true ∨ c ∈ ['-', 'T', ':', '.'] := by
  have digit : ∀ {w n : Nat} {p : Prop}, c ∈ (Text.padded w n).toList → c.isDigit = true ∨ p :=
    fun h => .inl (Text.isDigit_of_mem_padded h)
  rw [toList_text] at h
  simp only [List.mem_append, List.mem_cons] at h
  rcases h with h | rfl | h | rfl | h | rfl | h | rfl | h | rfl | h | h
  · exact digit h
  · simp
  · exact digit h
  · simp
  · exact digit h
  · simp
  · exact digit h
  · simp
  · exact digit h
  · simp
  · exact digit h
  · split at h
    · cases h
    · rcases List.mem_cons.1 h with rfl | h
      · simp
      · exact digit h

end Time

end Pawnbook
