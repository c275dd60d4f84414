import Pawnbook.Proofs.Numeral
import Pawnbook.Proofs.Success

/-! # What can be put into texts

Two texts are made of a transaction before it can be applied: the canonical text of its changes and
transfers, from which its id comes, and the texts of its attributes. A value has a canonical text
(`Value.Legible`) unless a decimal in it has none or a whole number in it is too long, and it can be
written as an attribute (`Value.Writable`) unless a whole number in it is too long. A transaction is
computed only if all of it is legible (`Intent.text_ok_iff`), and then it can be printed as well
(`Pending.Legible.printable`): legible values can be compared (`Value.equals_ok`), so the fields
that a change touches can be told from the others (`Transaction.linesWith_ok`). -/

namespace Pawnbook

section chains
variable {ε ε' α β : Type}

theorem exists_bind_ok_iff {x : Except ε α} {f : α → Except ε β} :
    (∃ b, (x >>= f) = .ok b) ↔ ∃ a, x = .ok a ∧ ∃ b, f a = .ok b := by
  constructor
  · rintro ⟨b, h⟩
    obtain ⟨a, ha, hb⟩ := bind_ok h
    exact ⟨a, ha, b, hb⟩
  · rintro ⟨a, rfl, b, hb⟩
    exact ⟨b, hb⟩

theorem exists_mapM_ok_iff {f : α → Except ε β} : ∀ {as : List α},
    (∃ bs, as.mapM f = .ok bs) ↔ ∀ a ∈ as, ∃ b, f a = .ok b
  | [] => ⟨fun _ _ h => absurd h List.not_mem_nil, fun _ => ⟨[], rfl⟩⟩
  | a :: as => by
      rw [List.mapM_cons, exists_bind_ok_iff, List.forall_mem_cons]
      constructor
      · rintro ⟨b, hb, h⟩
        obtain ⟨bs, hbs, -⟩ := exists_bind_ok_iff.1 h
        exact ⟨⟨b, hb⟩, exists_mapM_ok_iff.1 ⟨bs, hbs⟩⟩
      · rintro ⟨⟨b, hb⟩, h⟩
        obtain ⟨bs, hbs⟩ := exists_mapM_ok_iff.2 h
        exact ⟨b, hb, exists_bind_ok_iff.2 ⟨bs, hbs, b :: bs, rfl⟩⟩

theorem mapM_cons_ok {f : α → Except ε β} {a : α} {as : List α} {bs : List β}
    (h : (a :: as).mapM f = .ok bs) :
    ∃ b bs', f a = .ok b ∧ as.mapM f = .ok bs' ∧ bs = b :: bs' := by
  rw [List.mapM_cons] at h
  obtain ⟨b, hb, h⟩ := bind_ok h
  obtain ⟨bs', hbs, h⟩ := bind_ok h
  cases h
  exact ⟨b, bs', hb, hbs, rfl⟩

theorem mem_of_mapM_ok {f : α → Except ε β} : ∀ {as : List α} {bs : List β},
    as.mapM f = .ok bs → ∀ b ∈ bs, ∃ a ∈ as, f a = .ok b
  | [], _, h => by
      cases h
      nofun
  | a :: as, _, h => by
      obtain ⟨b, bs, hb, hbs, rfl⟩ := mapM_cons_ok h
      rw [List.forall_mem_cons]
      refine ⟨⟨a, List.mem_cons_self, hb⟩, fun c hc => ?_⟩
      obtain ⟨a', ha', hf⟩ := mem_of_mapM_ok hbs c hc
      exact ⟨a', List.mem_cons_of_mem _ ha', hf⟩

end chains

namespace Value

/-! ### Legible values -/

/-- The value has a canonical text. -/
def Legible (v : Value) : Prop := ∃ t, v.canonical = .ok t

/-- The value can be written as an attribute. -/
def Writable (v : Value) : Prop := ∃ t, v.written = .ok t

section parts

theorem written_ok_iff {v : Value} {t : String} :
    v.written = .ok t ↔ v.isShort = true ∧ v.label = t := by
  unfold written
  split <;> simp [*]

theorem writable_iff {v : Value} : v.Writable ↔ v.isShort = true := by
  simp only [Writable, written_ok_iff, exists_and_left, exists_eq', and_true]

theorem printed_ok {v : Value} (h : v.isShort = true) : v.printed = .ok v.display := if_pos h

theorem requireShort_ok_iff {vs : List Value} :
    requireShort vs = .ok () ↔ ∀ v ∈ vs, v.isShort = true := by
  unfold requireShort
  split <;> simp_all

theorem canonical_int_ok {n : Int} {t : String} (h : (int n).canonical = .ok t) :
    Text.isShort n = true ∧ t = "N:" ++ Text.ofInt n := by
  obtain ⟨s, hs, h⟩ := bind_ok h
  obtain ⟨short, rfl⟩ := written_ok_iff.1 hs
  cases h
  exact ⟨short, rfl⟩

@[simp] theorem isShort_record {name : String} {fs : List (String × Value)}
    {shown : Option String} :
    (record name fs shown).isShort = true ↔ ∀ f ∈ fs, f.2.isShort = true := by
  rw [isShort]
  induction fs with
  | nil => simp [isShortFields]
  | cons f fs ih => rw [isShortFields, Bool.and_eq_true, ih, List.forall_mem_cons]

@[simp] theorem legible_int (n : Int) : (int n).Legible ↔ Text.isShort n = true :=
  ⟨fun ⟨_, h⟩ => (canonical_int_ok h).1,
    fun h => ⟨_, bind_of_ok (written_ok_iff.2 ⟨h, rfl⟩) rfl⟩⟩

@[simp] theorem legible_null : null.Legible := ⟨_, rfl⟩

@[simp] theorem legible_bool (b : Bool) : (bool b).Legible := by cases b <;> exact ⟨_, rfl⟩

@[simp] theorem legible_float (x : Binary64) : (float x).Legible := ⟨_, rfl⟩

@[simp] theorem legible_text (s : String) : (text s).Legible := ⟨_, rfl⟩

@[simp] theorem legible_time (t : Time) : (time t).Legible := ⟨_, rfl⟩

@[simp] theorem legible_member (type name value : String) : (member type name value).Legible :=
  ⟨_, rfl⟩

theorem legible_decimal {d : Decimal} :
    (decimal d).Legible ↔ ∃ t, d.canonicalText = .ok t := by
  constructor
  · rintro ⟨t, ht⟩
    obtain ⟨s, hs, -⟩ := map_ok ht
    exact ⟨s, hs⟩
  · rintro ⟨t, ht⟩
    exact ⟨"D:" ++ t, by rw [canonical, ht]; rfl⟩

theorem canonicalAll_ok_iff : ∀ {xs : List Value},
    (∃ ts, canonicalAll xs = .ok ts) ↔ ∀ x ∈ xs, x.Legible
  | [] => by simp [canonicalAll]
  | x :: xs => by
      rw [canonicalAll, exists_bind_ok_iff, List.forall_mem_cons, ← canonicalAll_ok_iff]
      constructor
      · rintro ⟨t, ht, h⟩
        obtain ⟨ts, hts, -⟩ := exists_bind_ok_iff.1 h
        exact ⟨⟨t, ht⟩, ts, hts⟩
      · rintro ⟨⟨t, ht⟩, ts, hts⟩
        exact ⟨t, ht, exists_bind_ok_iff.2 ⟨ts, hts, _, rfl⟩⟩

theorem canonicalFields_ok_iff : ∀ {fs : List (String × Value)},
    (∃ ts, canonicalFields fs = .ok ts) ↔ ∀ f ∈ fs, f.2.Legible
  | [] => by simp [canonicalFields]
  | (name, x) :: fs => by
      rw [canonicalFields, exists_bind_ok_iff, List.forall_mem_cons, ← canonicalFields_ok_iff]
      constructor
      · rintro ⟨t, ht, h⟩
        obtain ⟨ts, hts, -⟩ := exists_bind_ok_iff.1 h
        exact ⟨⟨t, ht⟩, ts, hts⟩
      · rintro ⟨⟨t, ht⟩, ts, hts⟩
        exact ⟨t, ht, exists_bind_ok_iff.2 ⟨ts, hts, _, rfl⟩⟩

@[simp] theorem legible_tuple (xs : List Value) : (tuple xs).Legible ↔ ∀ x ∈ xs, x.Legible := by
  rw [Legible, canonical, exists_bind_ok_iff, ← canonicalAll_ok_iff]
  exact ⟨fun ⟨ts, hts, _⟩ => ⟨ts, hts⟩, fun ⟨ts, hts⟩ => ⟨ts, hts, _, rfl⟩⟩

@[simp] theorem legible_list (xs : List Value) : (list xs).Legible ↔ ∀ x ∈ xs, x.Legible := by
  rw [Legible, canonical, exists_bind_ok_iff, ← canonicalAll_ok_iff]
  exact ⟨fun ⟨ts, hts, _⟩ => ⟨ts, hts⟩, fun ⟨ts, hts⟩ => ⟨ts, hts, _, rfl⟩⟩

@[simp] theorem legible_record (name : String) (fs : List (String × Value))
    (shown : Option String) : (record name fs shown).Legible ↔ ∀ f ∈ fs, f.2.Legible := by
  rw [Legible, canonical, exists_bind_ok_iff, ← canonicalFields_ok_iff]
  exact ⟨fun ⟨ts, hts, _⟩ => ⟨ts, hts⟩, fun ⟨ts, hts⟩ => ⟨ts, hts, _, rfl⟩⟩

theorem mem_canonicalEntries {e : Value × Value} : ∀ {es : List (Value × Value)}, e ∈ es →
    (e.1.label, (do return (← canonical e.1) ++ ":" ++ (← canonical e.2))) ∈ canonicalEntries es
  | (k, x) :: es, h => by
      rw [canonicalEntries]
      rcases List.mem_cons.1 h with rfl | h
      · exact List.mem_cons_self
      · exact List.mem_cons_of_mem _ (mem_canonicalEntries h)

theorem Legible.entries {es : List (Value × Value)} (h : (map es).Legible) :
    ∀ e ∈ es, e.1.Legible ∧ e.2.Legible := by
  intro e he
  obtain ⟨t, h⟩ := h
  obtain ⟨_, -, h⟩ := bind_ok h
  obtain ⟨ts, hts, -⟩ := bind_ok h
  have hall := exists_mapM_ok_iff.1 ⟨ts, hts⟩
  obtain ⟨k, hk, h⟩ :=
    exists_bind_ok_iff.1 (hall _ (List.mem_mergeSort.2 (mem_canonicalEntries he)))
  obtain ⟨x, hx, -⟩ := exists_bind_ok_iff.1 h
  exact ⟨⟨k, hk⟩, x, hx⟩

@[simp] theorem legible_ofNumber (n : Number) :
    (ofNumber n).Legible ↔ (ofNumber n).isShort = true := by
  cases n <;> simp [ofNumber, isShort]

theorem legible_ofOption {α : Type} {view : α → Value} {o : Option α} :
    (ofOption view o).Legible ↔ ∀ a ∈ o, (view a).Legible := by
  cases o <;> simp [ofOption]

end parts

mutual

/-- Where there is a canonical text, all whole numbers are written. -/
theorem Legible.isShort : ∀ {v : Value}, v.Legible → v.isShort = true
  | int n, h => (legible_int n).1 h
  | tuple xs, h => isShortAll_of_legible ((legible_tuple xs).1 h)
  | list xs, h => isShortAll_of_legible ((legible_list xs).1 h)
  | map _, h => isShortEntries_of_legible h.entries
  | record .., h => isShortFields_of_legible ((legible_record ..).1 h)
  | null, _ | bool _, _ | float _, _ | decimal _, _ | text _, _ | time _, _ | member .., _ => rfl

theorem isShortAll_of_legible : ∀ {xs : List Value}, (∀ x ∈ xs, x.Legible) → isShortAll xs = true
  | [], _ => rfl
  | _ :: _, h => by
      rw [List.forall_mem_cons] at h
      rw [isShortAll, h.1.isShort, isShortAll_of_legible h.2]
      rfl

theorem isShortEntries_of_legible : ∀ {es : List (Value × Value)},
    (∀ e ∈ es, e.1.Legible ∧ e.2.Legible) → isShortEntries es = true
  | [], _ => rfl
  | (_, _) :: _, h => by
      rw [List.forall_mem_cons] at h
      rw [isShortEntries, h.1.1.isShort, h.1.2.isShort, isShortEntries_of_legible h.2]
      rfl

theorem isShortFields_of_legible : ∀ {fs : List (String × Value)}, (∀ f ∈ fs, f.2.Legible) →
    isShortFields fs = true
  | [], _ => rfl
  | (_, _) :: _, h => by
      rw [List.forall_mem_cons] at h
      rw [isShortFields, h.1.isShort, isShortFields_of_legible h.2]
      rfl

end

/-! ### Comparisons of legible values -/

theorem Legible.quiet {v : Value} {d : Decimal} (h : v.Legible) (hd : v.number? = some d) :
    d.isSignaling = false := by
  cases v with
  | decimal d' =>
      cases hd
      obtain ⟨t, ht⟩ := h
      cases d with
      | finite | infinite => rfl
      | nan s signaling p l =>
          cases signaling with
          | false => rfl
          | true => cases ht
  | bool | int =>
      cases hd
      rfl
  | float x =>
      cases hd
      cases x with
      | finite s m q =>
          simp only [Number.toDecimal, Binary64.toDecimal]
          split <;> rfl
      | infinite | nan => rfl
  | null | text | time | member | tuple | list | map | record => cases hd

theorem Legible.numbers_agree {v w : Value} {a b : Decimal} (hv : v.Legible) (hw : w.Legible)
    (ha : v.number? = some a) (hb : w.number? = some b) : ∃ r, a.equals b = .ok r := by
  rw [Decimal.equals, hv.quiet ha, hw.quiet hb]
  exact ⟨_, rfl⟩

theorem leaves_agree {v w : Value} (hv : v.Legible) (hw : w.Legible) :
    ∃ r, (match v.number?, w.number? with
      | some a, some b => a.agrees b
      | _, _ => .ok (v = w) : Except Decimal.Failure Bool) = .ok r := by
  split
  · rename_i a b ha hb
    unfold Decimal.agrees
    split
    · exact ⟨true, rfl⟩
    · exact hv.numbers_agree hw ha hb
  · exact ⟨_, rfl⟩

mutual

theorem agrees_ok : ∀ {v w : Value}, v.Legible → w.Legible → ∃ r, agrees v w = .ok r
  | tuple xs, w, hv, hw => by
      cases w with
      | tuple ys =>
          rw [legible_tuple] at hv hw
          exact agreeAll_ok hv hw
      | _ => exact leaves_agree hv hw
  | list xs, w, hv, hw => by
      cases w with
      | list ys =>
          rw [legible_list] at hv hw
          show ∃ r, (if xs.length = ys.length then agreeAll xs ys else .ok false) = .ok r
          split
          · exact agreeAll_ok hv hw
          · exact ⟨false, rfl⟩
      | _ => exact leaves_agree hv hw
  | map es, w, hv, hw => by
      cases w with
      | map fs =>
          show ∃ r, (if es.length = fs.length then agreeEntries es fs else .ok false) = .ok r
          split
          · exact agreeEntries_ok (fun e he => (hv.entries e he).2) fun f hf => (hw.entries f hf).2
          · exact ⟨false, rfl⟩
      | _ => exact leaves_agree hv hw
  | record name es shown, w, hv, hw => by
      cases w with
      | record name' fs shown' =>
          rw [legible_record] at hv hw
          show ∃ r, (if name = name' then agreeFields es fs else .ok false) = .ok r
          split
          · exact agreeFields_ok hv hw
          · exact ⟨false, rfl⟩
      | _ => exact leaves_agree hv hw
  | null, w, hv, hw | bool _, w, hv, hw | int _, w, hv, hw | float _, w, hv, hw
  | decimal _, w, hv, hw | text _, w, hv, hw | time _, w, hv, hw | member .., w, hv, hw => by
      cases w <;> exact leaves_agree hv hw

theorem agreeAll_ok : ∀ {xs ys : List Value}, (∀ x ∈ xs, x.Legible) → (∀ y ∈ ys, y.Legible) →
    ∃ r, agreeAll xs ys = .ok r
  | [], [], _, _ => ⟨true, rfl⟩
  | [], _ :: _, _, _ => ⟨false, rfl⟩
  | _ :: _, [], _, _ => ⟨false, rfl⟩
  | x :: xs, y :: ys, hx, hy => by
      obtain ⟨r, hr⟩ := agrees_ok (hx x List.mem_cons_self) (hy y List.mem_cons_self)
      rw [agreeAll, hr]
      cases r with
      | false => exact ⟨false, rfl⟩
      | true =>
          exact agreeAll_ok (fun x h => hx x (List.mem_cons_of_mem _ h))
            fun y h => hy y (List.mem_cons_of_mem _ h)

theorem agreeEntries_ok : ∀ {es fs : List (Value × Value)}, (∀ e ∈ es, e.2.Legible) →
    (∀ f ∈ fs, f.2.Legible) → ∃ r, agreeEntries es fs = .ok r
  | [], _, _, _ => ⟨true, rfl⟩
  | (k, x) :: es, fs, he, hf => by
      rw [agreeEntries]
      split
      · exact ⟨false, rfl⟩
      · rename_i l y hy
        obtain ⟨r, hr⟩ := agrees_ok (he (k, x) List.mem_cons_self)
          (hf (l, y) (List.mem_of_find?_eq_some hy))
        rw [hr]
        cases r with
        | false => exact ⟨false, rfl⟩
        | true => exact agreeEntries_ok (fun e h => he e (List.mem_cons_of_mem _ h)) hf

theorem agreeFields_ok : ∀ {es fs : List (String × Value)}, (∀ e ∈ es, e.2.Legible) →
    (∀ f ∈ fs, f.2.Legible) → ∃ r, agreeFields es fs = .ok r
  | [], [], _, _ => ⟨true, rfl⟩
  | [], _ :: _, _, _ => ⟨false, rfl⟩
  | _ :: _, [], _, _ => ⟨false, rfl⟩
  | (k, x) :: es, (l, y) :: fs, he, hf => by
      obtain ⟨r, hr⟩ := agrees_ok (he (k, x) List.mem_cons_self) (hf (l, y) List.mem_cons_self)
      obtain ⟨r', hr'⟩ := agreeFields_ok (fun e h => he e (List.mem_cons_of_mem _ h))
        fun f h => hf f (List.mem_cons_of_mem _ h)
      rw [agreeFields, hr]
      show ∃ r'', (if (k = l && r) = true then agreeFields es fs else .ok false) = .ok r''
      split
      · exact ⟨r', hr'⟩
      · exact ⟨false, rfl⟩

end

theorem equals_ok {v w : Value} (hv : v.Legible) (hw : w.Legible) : ∃ r, v.equals w = .ok r := by
  unfold equals
  split
  · rename_i a b ha hb
    exact hv.numbers_agree hw ha hb
  · exact agrees_ok hv hw

theorem Legible.field {v x : Value} {name : String} (h : v.Legible)
    (hx : v.field? name = some x) : x.Legible := by
  cases v with
  | record n fs shown =>
      obtain ⟨f, hf, rfl⟩ := Option.map_eq_some_iff.1 hx
      exact (legible_record ..).1 h f (List.mem_of_find?_eq_some hf)
  | map es =>
      obtain ⟨e, he, rfl⟩ := Option.map_eq_some_iff.1 hx
      exact (h.entries e (List.mem_of_find?_eq_some he)).2
  | null | bool | int | float | decimal | text | time | member | tuple | list => cases hx

theorem Legible.fields {v : Value} (h : v.Legible) : ∀ f ∈ v.fields, f.2.Legible := by
  cases v with
  | record n fs shown => exact (legible_record ..).1 h
  | _ => exact fun f hf => absurd hf List.not_mem_nil

/-! ### Attributes -/

@[simp] theorem writable_text (s : String) : (text s).Writable := ⟨s, rfl⟩

theorem label_of_written {v : Value} {t : String} (h : v.written = .ok t) : v.label = t :=
  (written_ok_iff.1 h).2

end Value

/-! ### Legible records -/

section records

theorem Coin.legible_iff {c : Coin} : c.toValue.Legible ↔ Text.isShort c.amount = true := by
  simp [Coin.toValue]

theorem Coin.isShort_iff {c : Coin} : c.toValue.isShort = true ↔ Text.isShort c.amount = true := by
  rw [Coin.toValue, Value.isShort_record, List.forall_mem_cons, List.forall_mem_singleton]
  exact and_iff_right rfl

theorem Terms.legible_iff {t : Terms} :
    t.toValue.Legible ↔ t.principal.toValue.Legible ∧
      (Value.ofNumber t.interest).isShort = true ∧ (Value.ofNumber t.duration).isShort = true := by
  simp [Terms.toValue]

@[simp] theorem Key.legible_text (s : String) : (Key.text s).value.Legible := Value.legible_text s

@[simp] theorem Key.writable_text (s : String) : (Key.text s).value.Writable :=
  Value.writable_text s

theorem Listing.legible_iff {l : Listing} :
    l.toValue.Legible ↔ (∀ a ∈ l.assets, a.toValue.Legible) ∧
      (∀ t ∈ l.terms, t.toValue.Legible) ∧ l.offerCount.Legible ∧
      (∀ k ∈ l.activeOffer, k.value.Legible) ∧ (∀ v ∈ l.startBlock, v.Legible) ∧
      (∀ v ∈ l.comment, v.Legible) ∧ ∀ a ∈ l.preview, a.toValue.Legible := by
  simp [toValue, Value.legible_ofOption, LoanState.toValue]

theorem Offer.legible_iff {o : Offer} :
    o.toValue.Legible ↔ o.lender.value.Legible ∧ o.borrower.value.Legible ∧
      o.loanId.value.Legible ∧ o.position.Legible ∧ (∀ t ∈ o.terms, t.toValue.Legible) ∧
      (∀ t ∈ o.deposit, t.toValue.Legible) ∧ ∀ v ∈ o.comment, v.Legible := by
  simp [toValue, Value.legible_ofOption, OfferState.toValue]

theorem Config.legible_iff {c : Config} :
    c.toValue.Legible ↔ c.name.Legible ∧ c.ownership.owner.value.Legible ∧
      (∀ k ∈ c.ownership.proposed, k.value.Legible) ∧ c.feeDistributor.value.Legible ∧
      (Value.decimal c.feeRate).Legible ∧ c.lastOffer.Legible := by
  simp [toValue, Ownership.toValue, Value.legible_ofOption, and_assoc]

theorem BankSend.legible_iff {s : BankSend} :
    s.toValue.Legible ↔
      s.sender.value.Legible ∧ s.recipient.value.Legible ∧ s.coin.toValue.Legible := by
  simp [toValue]

theorem NftTransfer.legible_iff {t : NftTransfer} :
    t.toValue.Legible ↔
      t.nft.toValue.Legible ∧ t.sender.value.Legible ∧ t.recipient.value.Legible := by
  simp [toValue]

theorem FeeDeposit.legible_iff {f : FeeDeposit} :
    f.toValue.Legible ↔ f.sender.value.Legible ∧ f.recipient.value.Legible ∧
      (∀ k ∈ f.addresses, k.value.Legible) ∧ f.kind.Legible ∧ f.coin.toValue.Legible := by
  simp [toValue]

theorem Message.named_short {m : Message} (h : m.toValue.Legible) :
    ∀ v ∈ m.named, v.isShort = true := by
  cases m with
  | send | transfer | other =>
      rintro v (_ | ⟨_, ⟨⟩⟩)
      exact h.isShort
  | fee f =>
      obtain ⟨sender, recipient, addresses, -, coin⟩ := FeeDeposit.legible_iff.1 h
      simp only [named, List.cons_append, List.nil_append, List.forall_mem_cons,
        List.forall_mem_map]
      exact ⟨sender.isShort, recipient.isShort, coin.isShort, fun k hk => (addresses k hk).isShort⟩

end records

/-! ### Legible changes -/

namespace Change
variable {c : Change}

/-- The slot of the change and both of its records have canonical texts. -/
structure Legible (c : Change) : Prop where
  kind : c.slot.kind.name.value.isShort = true
  key : c.slot.key.value.Legible
  old : c.oldValue.Legible
  new : c.newValue.Legible

theorem changeText_ok_iff : (∃ t, Intent.changeText c = .ok t) ↔ c.Legible := by
  constructor
  · rintro ⟨t, h⟩
    obtain ⟨kind, hkind, h⟩ := bind_ok h
    obtain ⟨k, hk, h⟩ := bind_ok h
    obtain ⟨o, ho, h⟩ := bind_ok h
    obtain ⟨n, hn, -⟩ := bind_ok h
    exact ⟨(Value.written_ok_iff.1 hkind).1, ⟨k, hk⟩, ⟨o, ho⟩, n, hn⟩
  · rintro ⟨kind, ⟨k, hk⟩, ⟨o, ho⟩, n, hn⟩
    exact ⟨_, bind_of_ok (Value.written_ok_iff.2 ⟨kind, rfl⟩) (bind_of_ok hk (bind_of_ok ho
      (bind_of_ok hn rfl)))⟩

section kinds

theorem legible_config {old new : Config} :
    (config old new).Legible ↔ old.toValue.Legible ∧ new.toValue.Legible := by
  constructor
  · exact fun h => ⟨h.old, h.new⟩
  · exact fun h => ⟨rfl, Value.legible_text _, h.1, h.2⟩

theorem legible_borrower {name : Key} {old : Option Borrower} {new : Borrower} :
    (borrower name old new).Legible ↔
      name.value.Legible ∧ (∀ r ∈ old, r.lastId.Legible) ∧ new.lastId.Legible := by
  constructor
  · rintro ⟨-, hk, ho, hn⟩
    refine ⟨hk, ?_, by simpa [newValue, borrower, Stored.toValue, Borrower.toValue,
      Value.ofOption] using hn⟩
    rintro r rfl
    simpa [oldValue, borrower, Stored.toValue, Borrower.toValue, Value.ofOption] using ho
  · rintro ⟨hk, ho, hn⟩
    refine ⟨rfl, hk, ?_, by simpa [newValue, borrower, Stored.toValue, Borrower.toValue,
      Value.ofOption] using hn⟩
    cases old with
    | none => exact Value.legible_null
    | some r =>
        simpa [oldValue, borrower, Stored.toValue, Borrower.toValue, Value.ofOption] using ho

theorem legible_listing {key : ListingKey} {old : Option Listing} {new : Listing} :
    (listing key old new).Legible ↔ (key.borrower.value.Legible ∧ key.id.value.Legible) ∧
      (∀ l ∈ old, l.toValue.Legible) ∧ new.toValue.Legible := by
  have hkey : (listing key old new).slot.key.value.Legible ↔
      key.borrower.value.Legible ∧ key.id.value.Legible := by
    simp [listing, Slot.listing, ListingKey.toKey, Key.pair]
  constructor
  · rintro ⟨-, hk, ho, hn⟩
    refine ⟨hkey.1 hk, ?_, hn⟩
    rintro l rfl
    exact ho
  · rintro ⟨hk, ho, hn⟩
    refine ⟨rfl, hkey.2 hk, ?_, hn⟩
    cases old with
    | none => exact Value.legible_null
    | some l => exact ho l rfl

theorem legible_offer {id : Key} {old : Option Offer} {new : Offer} :
    (offer id old new).Legible ↔
      id.value.Legible ∧ (∀ o ∈ old, o.toValue.Legible) ∧ new.toValue.Legible := by
  constructor
  · rintro ⟨-, hk, ho, hn⟩
    refine ⟨hk, ?_, hn⟩
    rintro o rfl
    exact ho
  · rintro ⟨hk, ho, hn⟩
    refine ⟨rfl, hk, ?_, hn⟩
    cases old with
    | none => exact Value.legible_null
    | some o => exact ho o rfl

end kinds

theorem fieldChange?_ok {old : Value} {f : String × Value} (ho : old.Legible)
    (hf : f.2.Legible) : ∃ r, fieldChange? old f = .ok r := by
  have before : ((old.field? f.1).getD .null).Legible := by
    cases hx : old.field? f.1 with
    | none => exact Value.legible_null
    | some x => exact ho.field hx
  obtain ⟨same, hs⟩ := Value.equals_ok before hf
  exact exists_bind_ok_iff.2 ⟨same, hs, _, rfl⟩

theorem Legible.changedFields (h : c.Legible) : ∃ fs, c.changedFields = .ok fs := by
  unfold Change.changedFields fieldsBetween
  split
  · exact ⟨_, rfl⟩
  · obtain ⟨fs, hfs⟩ := exists_mapM_ok_iff.2 fun f hf => fieldChange?_ok h.old (h.new.fields f hf)
    exact exists_bind_ok_iff.2 ⟨fs, hfs, _, rfl⟩

theorem legible_of_fieldChange? {old : Value} {f : String × Value} {r : String × Value × Value}
    (ho : old.Legible) (hf : f.2.Legible) (h : fieldChange? old f = .ok (some r)) :
    r.2.1.Legible ∧ r.2.2.Legible := by
  obtain ⟨same, -, h⟩ := bind_ok h
  cases same with
  | true => cases h
  | false =>
      cases h
      refine ⟨?_, hf⟩
      cases hx : old.field? f.1 with
      | none => exact Value.legible_null
      | some x => exact ho.field hx

theorem legible_of_fieldsBetween {old new : Value} {fs : List (String × Value × Value)}
    (ho : old.Legible) (hn : new.Legible) (h : fieldsBetween old new = .ok fs) :
    ∀ f ∈ fs, f.2.1.Legible ∧ f.2.2.Legible := by
  unfold fieldsBetween at h
  split at h
  · cases h
    rintro _ hr
    obtain ⟨f, hf, rfl⟩ := List.mem_map.1 hr
    exact ⟨Value.legible_null, hn.fields f hf⟩
  · obtain ⟨rs, hrs, h⟩ := bind_ok h
    cases h
    intro r hr
    obtain ⟨_, hr, rfl⟩ := List.mem_filterMap.1 hr
    obtain ⟨f, hf, h⟩ := mem_of_mapM_ok hrs _ hr
    exact legible_of_fieldChange? ho (hn.fields f hf) h

theorem fieldRow_ok {f : String × Value × Value} (ho : f.2.1.Legible) (hn : f.2.2.Legible) :
    ∃ row, fieldRow f = .ok row :=
  ⟨_, bind_of_ok (Value.printed_ok ho.isShort) (bind_of_ok (Value.printed_ok hn.isShort) rfl)⟩

theorem Legible.rows (h : c.Legible) : ∃ rows, c.rows = .ok rows := by
  obtain ⟨fs, hfs⟩ := h.changedFields
  obtain ⟨rows, hrows⟩ : ∃ rows, fs.mapM fieldRow = .ok rows :=
    exists_mapM_ok_iff.2 fun f hf =>
      have legible := legible_of_fieldsBetween h.old h.new hfs f hf
      fieldRow_ok legible.1 legible.2
  exact ⟨_, bind_of_ok (Value.written_ok_iff.2 ⟨h.kind, rfl⟩)
    (bind_of_ok (Value.written_ok_iff.2 ⟨h.key.isShort, rfl⟩)
      (bind_of_ok hfs (bind_of_ok hrows rfl)))⟩

end Change

/-- Who asked for what can be written. -/
structure Origin.IsShort (o : Origin) : Prop where
  source : o.source.value.isShort = true
  action : o.action.isShort = true

/-- A transaction has a canonical text if its changes and its transfers have one each, and if its
origin can be written. -/
theorem Intent.text_ok_iff {cs : List Change} {fs ms : List Message} {o : Origin} :
    (∃ t, Intent.text cs fs ms o = .ok t) ↔
      o.IsShort ∧ (∀ c ∈ cs, c.Legible) ∧ ∀ m ∈ fs ++ ms, m.toValue.Legible := by
  have fundsText : ∀ m, (∃ t, fundsText m = .ok t) ↔ m.toValue.Legible := by
    intro m
    rw [Intent.fundsText, exists_bind_ok_iff]
    exact ⟨fun ⟨t, ht, _⟩ => ⟨t, ht⟩, fun ⟨t, ht⟩ => ⟨t, ht, _, rfl⟩⟩
  have messageText : ∀ m, (∃ t, messageText m = .ok t) ↔ m.toValue.Legible := by
    intro m
    rw [Intent.messageText, exists_bind_ok_iff]
    exact ⟨fun ⟨t, ht, _⟩ => ⟨t, ht⟩, fun ⟨t, ht⟩ => ⟨t, ht, _, rfl⟩⟩
  simp only [List.forall_mem_append, ← Change.changeText_ok_iff, ← fundsText]
  rw [show (∀ m ∈ ms, ∃ t, Intent.fundsText m = .ok t) ↔
      ∀ m ∈ ms, ∃ t, Intent.messageText m = .ok t by simp only [fundsText, messageText],
    ← exists_mapM_ok_iff, ← exists_mapM_ok_iff, ← exists_mapM_ok_iff, Intent.text,
    exists_bind_ok_iff]
  constructor
  · rintro ⟨_, ho, h⟩
    obtain ⟨c, hc, h⟩ := exists_bind_ok_iff.1 h
    obtain ⟨f, hf, h⟩ := exists_bind_ok_iff.1 h
    obtain ⟨m, hm, -⟩ := exists_bind_ok_iff.1 h
    have short := Value.requireShort_ok_iff.1 ho
    exact ⟨⟨short _ (by simp), short _ (by simp)⟩, ⟨c, hc⟩, ⟨f, hf⟩, m, hm⟩
  · rintro ⟨ho, ⟨c, hc⟩, ⟨f, hf⟩, m, hm⟩
    have short : Value.requireShort [o.source.value, o.action] = .ok () :=
      Value.requireShort_ok_iff.2 (by simp [ho.source, ho.action])
    exact ⟨(), short, exists_bind_ok_iff.2 ⟨c, hc, exists_bind_ok_iff.2 ⟨f, hf,
      exists_bind_ok_iff.2 ⟨m, hm, _, rfl⟩⟩⟩⟩

/-- The origin of a pending transaction can be written, and its changes and its transfers have
canonical texts. -/
structure Pending.Legible (p : Pending) : Prop where
  origin : p.origin.IsShort
  changes : ∀ c ∈ p.changes, c.Legible
  transfers : ∀ m ∈ p.transfers, m.toValue.Legible

theorem Pending.intentText_ok_iff {p : Pending} : (∃ t, p.intentText = .ok t) ↔ p.Legible :=
  Intent.text_ok_iff.trans
    ⟨fun h => ⟨h.1, h.2.1, h.2.2⟩, fun h => ⟨h.origin, h.changes, h.transfers⟩⟩

/-! ### Printable transactions -/

/-- All that is printed of a pending transaction that was applied can be written. -/
structure Pending.Printable (p : Pending) : Prop where
  intentId : p.intentId.value.isShort = true
  origin : p.origin.IsShort
  attributes : ∀ e ∈ p.attributes, e.1.value.isShort = true ∧ e.2.isShort = true
  transfers : ∀ m ∈ p.transfers, ∀ v ∈ m.named, v.isShort = true
  changes : ∀ c ∈ p.changes, c.Legible

theorem Pending.Legible.printable {p : Pending} (h : p.Legible)
    (intentId : p.intentId.value.isShort = true)
    (attributes : ∀ e ∈ p.attributes, e.1.value.isShort = true ∧ e.2.isShort = true) :
    p.Printable where
  intentId := intentId
  origin := h.origin
  attributes := attributes
  transfers := fun m hm => Message.named_short (h.transfers m hm)
  changes := h.changes

theorem Transaction.changeRows_ok {t : Transaction} (h : ∀ c ∈ t.changes, c.Legible) :
    ∃ rows, t.changeRows = .ok rows := by
  unfold changeRows
  split
  · exact ⟨[], rfl⟩
  · obtain ⟨rows, hrows⟩ := exists_mapM_ok_iff.2 fun c hc => (h c hc).rows
    exact ⟨_, bind_of_ok hrows rfl⟩

namespace Book
variable {b : Book} {p : Pending}

theorem requireExecId_ok_iff :
    b.requireExecId = .ok () ↔
      b.name.isShort = true ∧ (Value.ofNumber b.height).isShort = true := by
  rw [requireExecId, Value.requireShort_ok_iff]
  simp

/-- What is logged of a printable transaction under an id that can be written can be printed. -/
theorem linesWith_ok (h : p.Printable) (id : b.requireExecId = .ok ()) (outcome : String) :
    ∃ lines, (b.nextTransaction p).linesWith outcome = .ok lines := by
  obtain ⟨name, height⟩ := requireExecId_ok_iff.1 id
  have head : Value.requireShort (b.nextTransaction p).headValues = .ok () := by
    rw [Value.requireShort_ok_iff, Transaction.headValues]
    simp only [List.forall_mem_append, List.forall_mem_cons, List.forall_mem_flatMap]
    exact ⟨⟨h.intentId, name, height, h.origin.source, h.origin.action, nofun⟩,
      fun e he => ⟨(h.attributes e he).1, (h.attributes e he).2, nofun⟩⟩
  have transfers :
      Value.requireShort ((b.nextTransaction p).transfers.flatMap Message.named) = .ok () :=
    Value.requireShort_ok_iff.2 (List.forall_mem_flatMap.2 h.transfers)
  obtain ⟨rows, hrows⟩ := Transaction.changeRows_ok (t := b.nextTransaction p) h.changes
  exact ⟨_, bind_of_ok (bind_of_ok (bind_of_ok head rfl)
    (bind_of_ok (bind_of_ok transfers rfl) (bind_of_ok hrows rfl))) rfl⟩

/-- A verdict is given if its lines can be written, where the book prints them. -/
theorem answer_announce {lines : Except Decimal.Failure (List String)} (verdict : Verdict)
    (h : b.verbose = true → ∃ ls, lines = .ok ls) :
    (b.announce verdict lines).answer = .ok verdict := by
  unfold announce
  split
  · rename_i verbose
    obtain ⟨ls, rfl⟩ := h verbose
    rfl
  · rfl

end Book

end Pawnbook
