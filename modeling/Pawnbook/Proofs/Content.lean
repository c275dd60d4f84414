import Pawnbook.Proofs.Legible
import Pawnbook.Proofs.Order
import Pawnbook.Proofs.PlainText

/-! # Equal contents have one text

The fields of records and transfers are declared to hold values of one type each (`FieldType`).
Values of one declared type that are equal have one canonical text, numbers whatever their written
forms (`FieldType.canonical_of_agrees`), and they have none only if a number in them is too long to
be written (`FieldType.legible_iff`). So transactions with equal changes, transfers and origins have
one text, and one id (`Pending.Agrees.intentText`). -/

namespace Pawnbook

/-! ### Numbers in values -/

namespace Value

mutual

/-- The sizes of the numbers that stand in a value: of a whole number as it is, of a decimal when it
is rounded to the digits of a calculation. Maps are left out. -/
def sizes : Value → List ℚ
  | int n => [|(n : ℚ)|]
  | decimal d => [|Decimal.rounded d.worth|]
  | tuple xs | list xs => sizesAll xs
  | record _ fs _ => sizesFields fs
  | _ => []

def sizesAll : List Value → List ℚ
  | [] => []
  | x :: xs => sizes x ++ sizesAll xs

def sizesFields : List (String × Value) → List ℚ
  | [] => []
  | (_, x) :: fs => sizes x ++ sizesFields fs

end

theorem sizesAll_eq (xs : List Value) : sizesAll xs = xs.flatMap sizes := by
  induction xs with
  | nil => rfl
  | cons x xs ih => rw [sizesAll, ih, List.flatMap_cons]

theorem sizesFields_eq (fs : List (String × Value)) : sizesFields fs = fs.flatMap (·.2.sizes) := by
  induction fs with
  | nil => rfl
  | cons f fs ih => rw [sizesFields, ih, List.flatMap_cons]

theorem legible_int_iff {n : ℤ} : (int n).Legible ↔ |(n : ℚ)| < 10 ^ (Text.maxDigits : ℤ) := by
  rw [legible_int, Text.isShort_iff, ← Int.cast_abs, Int.abs_eq_natAbs, zpow_natCast]
  exact_mod_cast Iff.rfl

end Value

/-! ### Declared types -/

/-- What a place of a record is declared to hold. -/
inductive FieldType where
  | text
  | whole
  | decimal
  | time
  /-- A member of an enumeration. -/
  | member (type : String)
  /-- A name, or a borrower's name with the number of a listing. -/
  | key
  | optional (content : FieldType)
  | sequence (item : FieldType)
  /-- A record of one of the given names, with the fields given for that name. -/
  | record (forms : List (String × List (String × FieldType)))

namespace FieldType

mutual

/-- The value is of the declared type. -/
def holds : FieldType → Value → Bool
  | text, .text _ | whole, .int _ | time, .time _ => true
  | decimal, .decimal d => d.isFinite
  | member type, .member type' _ _ => type = type'
  | key, .text _ => true
  | key, .tuple [.text _, .int _] => true
  | optional _, .null => true
  | optional content, v => holds content v
  | sequence item, .tuple xs => xs.all (holds item)
  | record forms, .record name fs _ => holdsForm forms name fs
  | _, _ => false

/-- The fields are those of the form of that name. -/
def holdsForm : List (String × List (String × FieldType)) → String → List (String × Value) → Bool
  | [], _, _ => false
  | (form, types) :: forms, name, fs =>
    if form = name then holdsFields types fs else holdsForm forms name fs

/-- The fields have the declared names and types, in order. -/
def holdsFields : List (String × FieldType) → List (String × Value) → Bool
  | [], [] => true
  | (name, type) :: types, (name', v) :: fs =>
    name = name' && holds type v && holdsFields types fs
  | _, _ => false

end

/-! Equal values of one declared type. -/

section equal
open Value

variable {v w : Value}

theorem eq_null_of_agrees (h : v.agrees .null = .ok true) : v = .null := by
  cases v <;> simp_all [agrees, number?, asNumber?]

theorem null_eq_of_agrees (h : Value.null.agrees w = .ok true) : w = .null := by
  cases w <;> simp_all [agrees, number?, asNumber?]

theorem agreeAll_cons {x y : Value} {xs ys : List Value}
    (h : agreeAll (x :: xs) (y :: ys) = .ok true) :
    x.agrees y = .ok true ∧ agreeAll xs ys = .ok true := by
  obtain ⟨b, hb, h⟩ := bind_ok h
  cases b with
  | false => cases h
  | true => exact ⟨hb, h⟩

theorem agreeFields_cons {k l : String} {x y : Value} {fs gs : List (String × Value)}
    (h : agreeFields ((k, x) :: fs) ((l, y) :: gs) = .ok true) :
    k = l ∧ x.agrees y = .ok true ∧ agreeFields fs gs = .ok true := by
  obtain ⟨b, hb, h⟩ := bind_ok h
  cases b with
  | false => simp [pure, Except.pure] at h
  | true =>
      split at h
      · rename_i same
        exact ⟨by simpa using same, hb, h⟩
      · cases h

@[simp] theorem holds_record (forms : List (String × List (String × FieldType))) (name : String)
    (fs : List (String × Value)) (shown : Option String) :
    (record forms).holds (.record name fs shown) = holdsForm forms name fs := rfl

theorem holds_optional {content : FieldType} (hv : v ≠ .null) :
    (optional content).holds v = content.holds v := by
  cases v <;> first | rfl | exact absurd rfl hv

theorem canonicalAll_of_agreeAll {item : FieldType}
    (items : ∀ {x y : Value}, item.holds x = true → item.holds y = true →
      x.agrees y = .ok true → x.canonical = y.canonical) :
    ∀ {xs ys : List Value}, xs.all item.holds = true → ys.all item.holds = true →
      agreeAll xs ys = .ok true → canonicalAll xs = canonicalAll ys
  | [], [], _, _, _ => rfl
  | [], _ :: _, _, _, h => by cases h
  | _ :: _, [], _, _, h => by cases h
  | x :: xs, y :: ys, hx, hy, h => by
      rw [List.all_cons, Bool.and_eq_true] at hx hy
      obtain ⟨first, rest⟩ := agreeAll_cons h
      rw [canonicalAll, canonicalAll, items hx.1 hy.1 first,
        canonicalAll_of_agreeAll items hx.2 hy.2 rest]

theorem int_eq_of_agrees {m n : ℤ} (h : (int m).agrees (.int n) = .ok true) : m = n := by
  have same : (Decimal.ofInt m).worth = (Decimal.ofInt n).worth :=
    Decimal.worth_of_agrees rfl rfl h
  rw [Decimal.worth_ofInt, Decimal.worth_ofInt] at same
  exact_mod_cast same

/-- A type of values that have one form each. -/
def isPlain : FieldType → Bool
  | text | whole | time | member _ | key => true
  | optional content => content.isPlain
  | decimal | sequence _ | record _ => false

theorem holds_key (h : key.holds v = true) :
    (∃ s, v = .text s) ∨ ∃ s n, v = .tuple [.text s, .int n] := by
  unfold holds at h
  split at h <;> simp_all

theorem eq_of_agrees : ∀ {type : FieldType} {v w : Value}, type.isPlain = true →
    type.holds v = true → type.holds w = true → v.agrees w = .ok true → v = w
  | text, v, w, _, hv, hw, h | time, v, w, _, hv, hw, h | member _, v, w, _, hv, hw, h => by
      cases v <;> first | exact of_decide_eq_true (Except.ok.inj h) | cases hv
  | whole, v, w, _, hv, hw, h => by
      cases v with
      | int m =>
          cases w with
          | int n => rw [int_eq_of_agrees h]
          | _ => cases hw
      | _ => cases hv
  | key, v, w, _, hv, hw, h => by
      rcases holds_key hv with ⟨s, rfl⟩ | ⟨s, m, rfl⟩
      · exact of_decide_eq_true (Except.ok.inj h)
      · rcases holds_key hw with ⟨t, rfl⟩ | ⟨t, n, rfl⟩
        · exact of_decide_eq_true (Except.ok.inj h)
        · obtain ⟨names, rest⟩ := agreeAll_cons h
          cases of_decide_eq_true (Except.ok.inj names)
          rw [int_eq_of_agrees (agreeAll_cons rest).1]
  | optional content, v, w, plain, hv, hw, h => by
      by_cases hv₀ : v = .null
      · subst hv₀
        exact (null_eq_of_agrees h).symm
      · by_cases hw₀ : w = .null
        · subst hw₀
          exact eq_null_of_agrees h
        · rw [holds_optional hv₀] at hv
          rw [holds_optional hw₀] at hw
          exact eq_of_agrees (show content.isPlain = true from plain) hv hw h

mutual

/-- Equal values of one declared type have one canonical text. -/
theorem canonical_of_agrees : ∀ {type : FieldType} {v w : Value}, type.holds v = true →
    type.holds w = true → v.agrees w = .ok true → v.canonical = w.canonical
  | text, v, w, hv, hw, h | whole, v, w, hv, hw, h | time, v, w, hv, hw, h
  | member _, v, w, hv, hw, h | key, v, w, hv, hw, h => by
      rw [eq_of_agrees (by rfl) hv hw h]
  | decimal, v, w, hv, hw, h => by
      cases v with
      | decimal a =>
          cases w with
          | decimal b =>
              have worth := Decimal.worth_of_agrees hv hw h
              rw [canonical, canonical, Decimal.canonicalText_congr hv hw (by rw [worth])]
          | _ => cases hw
      | _ => cases hv
  | optional content, v, w, hv, hw, h => by
      by_cases hv₀ : v = .null
      · subst hv₀
        rw [null_eq_of_agrees h]
      · by_cases hw₀ : w = .null
        · subst hw₀
          exact absurd (eq_null_of_agrees h) hv₀
        · rw [holds_optional hv₀] at hv
          rw [holds_optional hw₀] at hw
          exact canonical_of_agrees hv hw h
  | sequence item, v, w, hv, hw, h => by
      cases v with
      | tuple xs =>
          cases w with
          | tuple ys =>
              rw [canonical, canonical,
                canonicalAll_of_agreeAll (fun hx hy h => canonical_of_agrees hx hy h) hv hw h]
          | _ => cases hw
      | _ => cases hv
  | record forms, v, w, hv, hw, h => by
      cases v with
      | record name fs =>
          cases w with
          | record name' gs =>
              rw [agrees] at h
              split at h
              · rename_i same
                subst same
                rw [canonical, canonical, canonicalFields_of_holdsForm hv hw h]
              · cases h
          | _ => cases hw
      | _ => cases hv

theorem canonicalFields_of_holdsForm : ∀ {forms : List (String × List (String × FieldType))}
    {name : String} {fs gs : List (String × Value)}, holdsForm forms name fs = true →
    holdsForm forms name gs = true → agreeFields fs gs = .ok true →
    canonicalFields fs = canonicalFields gs
  | [], _, _, _, hf, _, _ => by cases hf
  | (form, types) :: forms, name, fs, gs, hf, hg, h => by
      rw [holdsForm] at hf hg
      split at hf
      · rename_i same
        rw [if_pos same] at hg
        exact canonicalFields_of_holdsFields hf hg h
      · rename_i other
        rw [if_neg other] at hg
        exact canonicalFields_of_holdsForm hf hg h

theorem canonicalFields_of_holdsFields : ∀ {types : List (String × FieldType)}
    {fs gs : List (String × Value)}, holdsFields types fs = true → holdsFields types gs = true →
    agreeFields fs gs = .ok true → canonicalFields fs = canonicalFields gs
  | [], [], [], _, _, _ => rfl
  | [], [], _ :: _, _, hg, _ => by cases hg
  | [], _ :: _, _, hf, _, _ => by cases hf
  | _ :: _, [], _, hf, _, _ => by cases hf
  | _ :: _, _ :: _, [], _, hg, _ => by cases hg
  | (name, type) :: types, (k, x) :: fs, (l, y) :: gs, hf, hg, h => by
      simp only [holdsFields, Bool.and_eq_true] at hf hg
      obtain ⟨rfl, first, rest⟩ := agreeFields_cons h
      rw [canonicalFields, canonicalFields, canonical_of_agrees hf.1.2 hg.1.2 first,
        canonicalFields_of_holdsFields hf.2 hg.2 rest]

end

end equal

/-! Texts of values of a declared type. -/

section legible
variable {v : Value}

theorem legible_of_holds_text (h : text.holds v = true) : v.Legible := by
  cases v <;> first | exact ⟨_, rfl⟩ | cases h

theorem key_legible_iff (h : key.holds v = true) :
    v.Legible ↔ ∀ x ∈ v.sizes, x < 10 ^ (Text.maxDigits : ℤ) := by
  rcases holds_key h with ⟨s, rfl⟩ | ⟨s, n, rfl⟩
  · exact iff_of_true ⟨_, rfl⟩ nofun
  · rw [Value.legible_tuple, List.forall_mem_cons, List.forall_mem_singleton,
      Value.legible_int_iff, Value.sizes, Value.sizesAll_eq]
    simp [Value.sizes]

mutual

/-- A value of a declared type has a canonical text if the numbers in it are not too long. -/
theorem legible_iff : ∀ {type : FieldType} {v : Value}, type.holds v = true →
    (v.Legible ↔ ∀ x ∈ v.sizes, x < 10 ^ (Text.maxDigits : ℤ))
  | text, v, h | time, v, h | member _, v, h => by
      cases v <;> first | exact iff_of_true ⟨_, rfl⟩ nofun | cases h
  | whole, v, h => by
      cases v with
      | int n =>
          rw [Value.sizes, List.forall_mem_singleton]
          exact Value.legible_int_iff
      | _ => cases h
  | key, v, h => key_legible_iff h
  | decimal, v, h => by
      cases v with
      | decimal d =>
          rw [Value.sizes, List.forall_mem_singleton, ← Decimal.exists_canonicalText_iff h,
            Value.legible_decimal]
      | _ => cases h
  | optional content, v, h => by
      by_cases hv : v = .null
      · subst hv
        simp [Value.sizes]
      · rw [holds_optional hv] at h
        exact legible_iff h
  | sequence item, v, h => by
      cases v with
      | tuple xs =>
          rw [Value.legible_tuple, Value.sizes, Value.sizesAll_eq, List.forall_mem_flatMap]
          exact forall₂_congr fun x hx => legible_iff (List.all_eq_true.1 h x hx)
      | _ => cases h
  | record forms, v, h => by
      cases v with
      | record name fs =>
          rw [Value.legible_record, Value.sizes, Value.sizesFields_eq, List.forall_mem_flatMap]
          exact forall₂_congr fun f hf => form_legible_iff h f hf
      | _ => cases h

theorem form_legible_iff : ∀ {forms : List (String × List (String × FieldType))} {name : String}
    {fs : List (String × Value)}, holdsForm forms name fs = true → ∀ f ∈ fs, (f.2.Legible ↔
      ∀ x ∈ f.2.sizes, x < 10 ^ (Text.maxDigits : ℤ))
  | [], _, _, h => by cases h
  | (form, types) :: forms, name, fs, h => by
      rw [holdsForm] at h
      split at h
      · exact fields_legible_iff h
      · exact form_legible_iff h

theorem fields_legible_iff : ∀ {types : List (String × FieldType)} {fs : List (String × Value)},
    holdsFields types fs = true → ∀ f ∈ fs, (f.2.Legible ↔
      ∀ x ∈ f.2.sizes, x < 10 ^ (Text.maxDigits : ℤ))
  | [], [], _ => nofun
  | [], _ :: _, h => by cases h
  | _ :: _, [], h => by cases h
  | (name, type) :: types, (k, x) :: fs, h => by
      simp only [holdsFields, Bool.and_eq_true] at h
      rw [List.forall_mem_cons]
      exact ⟨legible_iff h.1.2, fields_legible_iff h.2⟩

end

end legible

/-! The types of the fields of records and transfers. -/

def coin : FieldType := record [("Coin", [("denom", text), ("amount", whole)])]

def terms : FieldType :=
  record [("LoanTerms",
    [("principal", coin), ("interest", whole), ("duration_in_blocks", whole)])]

def asset : FieldType :=
  record
    [("Cw721Coin", [("address", text), ("token_id", text)]),
     ("Sg721Token", [("address", text), ("token_id", text)]),
     ("Cw1155Coin", [("address", text), ("token_id", text), ("value", whole)]),
     ("Cw20Coin", [("address", text), ("amount", whole)]),
     ("NativeCoin", [("coin", coin)])]

def owner : FieldType :=
  record [("OwnerStruct", [("owner", text), ("new_owner", optional text)])]

def stored : FieldType :=
  record
    [("ContractInfo",
      [("name", text), ("owner", owner), ("fee_distributor", text), ("fee_rate", decimal),
       ("global_offer_index", whole)]),
     ("BorrowerInfo", [("last_collateral_id", whole)]),
     ("CollateralInfo",
      [("associated_assets", sequence asset), ("list_date", time), ("state", member "LoanState"),
       ("terms", optional terms), ("offer_amount", whole), ("active_offer", optional text),
       ("start_block", optional whole), ("comment", optional text),
       ("loan_preview", optional asset)]),
     ("OfferInfo",
      [("lender", text), ("borrower", text), ("loan_id", whole), ("offer_id", whole),
       ("terms", terms), ("state", member "OfferState"), ("list_date", time),
       ("deposited_funds", optional coin), ("comment", optional text)])]

def change : FieldType :=
  record [("RecordChange",
    [("kind", text), ("key", key), ("old", optional stored), ("new", optional stored)])]

def send : FieldType :=
  record [("BankSend", [("sender", text), ("recipient", text), ("coin", coin)])]

def message : FieldType :=
  record
    [("BankSend", [("sender", text), ("recipient", text), ("coin", coin)]),
     ("NftTransfer", [("asset", asset), ("sender", text), ("recipient", text)]),
     ("FeeDeposit",
      [("sender", text), ("recipient", text), ("addresses", sequence text), ("fee_type", text),
       ("coin", coin)])]

def origin : FieldType :=
  record [("TransactionOrigin",
    [("origin_type", member "OriginType"), ("source_id", text), ("action", optional text)])]

end FieldType

/-! ### Transactions -/

namespace Pending

/-- The fields of the changes, the transfers and the origin hold values of their declared types. -/
structure Declared (p : Pending) : Prop where
  changes : p.changes.all (FieldType.change.holds ·.toValue) = true
  fundsIn : p.fundsIn.all (FieldType.send.holds ·.toValue) = true
  messages : p.messages.all (FieldType.message.holds ·.toValue) = true
  origin : FieldType.origin.holds p.origin.toValue = true

/-- The changes, the transfers and the origins are equal, one by one and field by field. -/
structure Agrees (p q : Pending) : Prop where
  changes : Value.agreeAll (p.changes.map (·.toValue)) (q.changes.map (·.toValue)) = .ok true
  fundsIn : Value.agreeAll (p.fundsIn.map (·.toValue)) (q.fundsIn.map (·.toValue)) = .ok true
  messages : Value.agreeAll (p.messages.map (·.toValue)) (q.messages.map (·.toValue)) = .ok true
  origin : p.origin.toValue.agrees q.origin.toValue = .ok true

/-- The sizes of the numbers in the changes and the transfers. -/
def sizes (p : Pending) : List ℚ :=
  p.changes.flatMap (·.toValue.sizes) ++ p.transfers.flatMap (·.toValue.sizes)

end Pending

section parts
open FieldType

/-- Equal lists of parts of one declared type are written alike, if equal parts are. -/
theorem mapM_of_agreeAll {α β : Type} {view : α → Value} {write : α → Except Decimal.Failure β}
    {type : FieldType} (parts : ∀ {a b : α}, type.holds (view a) = true →
      type.holds (view b) = true → (view a).agrees (view b) = .ok true → write a = write b) :
    ∀ {as bs : List α}, as.all (type.holds <| view ·) = true →
      bs.all (type.holds <| view ·) = true →
      Value.agreeAll (as.map view) (bs.map view) = .ok true → as.mapM write = bs.mapM write
  | [], [], _, _, _ => rfl
  | [], _ :: _, _, _, h => by cases h
  | _ :: _, [], _, _, h => by cases h
  | a :: as, b :: bs, ha, hb, h => by
      rw [List.all_cons, Bool.and_eq_true] at ha hb
      obtain ⟨first, rest⟩ := agreeAll_cons h
      rw [List.mapM_cons, List.mapM_cons, parts ha.1 hb.1 first,
        mapM_of_agreeAll parts ha.2 hb.2 rest]

theorem holds_change {c : Change} (h : change.holds c.toValue = true) :
    text.holds c.slot.kind.name.value = true ∧ key.holds c.slot.key.value = true ∧
      (optional stored).holds c.oldValue = true ∧ (optional stored).holds c.newValue = true := by
  simpa [change, Change.toValue, holdsForm, holdsFields, and_assoc] using h

theorem changeText_of_agrees {c d : Change} (hc : change.holds c.toValue = true)
    (hd : change.holds d.toValue = true) (h : c.toValue.agrees d.toValue = .ok true) :
    Intent.changeText c = Intent.changeText d := by
  obtain ⟨kind, key, old, new⟩ := holds_change hc
  obtain ⟨kind', key', old', new'⟩ := holds_change hd
  rw [Change.toValue, Change.toValue, Value.agrees, if_pos rfl] at h
  obtain ⟨-, kinds, h⟩ := agreeFields_cons h
  obtain ⟨-, keys, h⟩ := agreeFields_cons h
  obtain ⟨-, olds, h⟩ := agreeFields_cons h
  obtain ⟨-, news, -⟩ := agreeFields_cons h
  have names : c.slot.kind.name.value = d.slot.kind.name.value := eq_of_agrees rfl kind kind' kinds
  rw [Intent.changeText, Intent.changeText, canonical_of_agrees key key' keys,
    canonical_of_agrees old old' olds, canonical_of_agrees new new' news, names]

theorem transferText_of_agrees {word : String} {type : FieldType} {m n : Message}
    (hm : type.holds m.toValue = true) (hn : type.holds n.toValue = true)
    (h : m.toValue.agrees n.toValue = .ok true) :
    (do return word ++ (← m.toValue.canonical) : Except Decimal.Failure String) =
      do return word ++ (← n.toValue.canonical) := by
  rw [canonical_of_agrees hm hn h]

theorem holds_origin {o : Origin} (h : origin.holds o.toValue = true) :
    (member "OriginType").holds o.kind.toValue = true ∧ text.holds o.source.value = true ∧
      (optional text).holds o.action = true := by
  simpa [origin, Origin.toValue, holdsForm, holdsFields, and_assoc] using h

theorem OriginKind.toValue_injective {k l : OriginKind} (h : k.toValue = l.toValue) : k = l := by
  cases k <;> cases l <;> first | rfl | exact absurd h (by decide)

theorem origin_eq_of_agrees {o o' : Origin} (ho : origin.holds o.toValue = true)
    (ho' : origin.holds o'.toValue = true) (h : o.toValue.agrees o'.toValue = .ok true) :
    o = o' := by
  obtain ⟨kind, source, action⟩ := holds_origin ho
  obtain ⟨kind', source', action'⟩ := holds_origin ho'
  rw [Origin.toValue, Origin.toValue, Value.agrees, if_pos rfl] at h
  obtain ⟨-, kinds, h⟩ := agreeFields_cons h
  obtain ⟨-, sources, h⟩ := agreeFields_cons h
  obtain ⟨-, actions, -⟩ := agreeFields_cons h
  have sameKind := OriginKind.toValue_injective (eq_of_agrees rfl kind kind' kinds)
  have sameSource := eq_of_agrees rfl source source' sources
  have sameAction := eq_of_agrees rfl action action' actions
  obtain ⟨k, ⟨s⟩, a⟩ := o
  obtain ⟨k', ⟨s'⟩, a'⟩ := o'
  cases sameKind
  cases sameSource
  cases sameAction
  rfl

end parts

namespace Pending
variable {p q : Pending}

theorem Agrees.intentText (hp : p.Declared) (hq : q.Declared) (h : p.Agrees q) :
    p.intentText = q.intentText := by
  have funds : p.fundsIn.mapM Intent.fundsText = q.fundsIn.mapM Intent.fundsText :=
    mapM_of_agreeAll transferText_of_agrees hp.fundsIn hq.fundsIn h.fundsIn
  have messages : p.messages.mapM Intent.messageText = q.messages.mapM Intent.messageText :=
    mapM_of_agreeAll transferText_of_agrees hp.messages hq.messages h.messages
  rw [Pending.intentText, Pending.intentText, Intent.text, Intent.text,
    mapM_of_agreeAll changeText_of_agrees hp.changes hq.changes h.changes, funds, messages,
    origin_eq_of_agrees hp.origin hq.origin h.origin]

theorem Declared.origin_short (hp : p.Declared) : p.origin.IsShort := by
  obtain ⟨-, source, action⟩ := holds_origin hp.origin
  refine ⟨(FieldType.legible_of_holds_text source).isShort, ?_⟩
  by_cases absent : p.origin.action = .null
  · rw [absent]
    rfl
  · rw [FieldType.holds_optional absent] at action
    exact (FieldType.legible_of_holds_text action).isShort

theorem Declared.legible_iff (hp : p.Declared) : (∃ t, p.intentText = .ok t) ↔
    ∀ x ∈ p.sizes, x < 10 ^ (Text.maxDigits : ℤ) := by
  have changes : ∀ c ∈ p.changes, (c.Legible ↔
      ∀ x ∈ c.toValue.sizes, x < 10 ^ (Text.maxDigits : ℤ)) := by
    intro c hc
    have typed := List.all_eq_true.1 hp.changes c hc
    rw [← FieldType.legible_iff typed, Change.toValue, Value.legible_record]
    have kind := FieldType.legible_of_holds_text (holds_change typed).1
    simp only [List.forall_mem_cons]
    exact ⟨fun h => ⟨kind, h.key, h.old, h.new, nofun⟩,
      fun h => ⟨h.1.isShort, h.2.1, h.2.2.1, h.2.2.2.1⟩⟩
  have transfers : ∀ m ∈ p.transfers, (m.toValue.Legible ↔
      ∀ x ∈ m.toValue.sizes, x < 10 ^ (Text.maxDigits : ℤ)) := by
    rw [Pending.transfers, List.forall_mem_append]
    exact ⟨fun m hm => FieldType.legible_iff (List.all_eq_true.1 hp.fundsIn m hm),
      fun m hm => FieldType.legible_iff (List.all_eq_true.1 hp.messages m hm)⟩
  rw [intentText_ok_iff, sizes, List.forall_mem_append, List.forall_mem_flatMap,
    List.forall_mem_flatMap, ← forall₂_congr changes, ← forall₂_congr transfers]
  exact ⟨fun h => ⟨h.changes, h.transfers⟩, fun h => ⟨hp.origin_short, h.1, h.2⟩⟩

end Pending

open Decimal in
/-- Equal transactions, whose values are of the declared types, have one text, unless a number in
them has more digits before the point than a whole number is written with. Two decimals have one
canonical text if and only if they are one number when they are rounded to the digits of a
calculation, and not longer than that. -/
theorem equal_contents_one_text (p q : Pending) (s t : Bool) (c d : ℕ) (e f : ℤ) :
    (p.Declared → q.Declared → p.Agrees q →
        p.intentText = q.intentText ∧ ((∃ x, p.intentText = .ok x) ↔
          ∀ x ∈ p.sizes, x < 10 ^ (Text.maxDigits : ℤ))) ∧
      (leastExponent ≤ e → leastExponent ≤ f →
        ((∃ x, (finite s c e).canonicalText = .ok x ∧ (finite t d f).canonicalText = .ok x) ↔
          significant (finite s c e).worth = significant (finite t d f).worth ∧
            |significant (finite s c e).worth| < 10 ^ (Text.maxDigits : ℤ))) := by
  refine ⟨fun hp hq same => ⟨same.intentText hp hq, hp.legible_iff⟩, fun he hf => ?_⟩
  rw [← rounded_eq_significant (worth_onGrid s c e) he,
    ← rounded_eq_significant (worth_onGrid t d f) hf,
    ← exists_canonicalText_iff (show (finite s c e).isFinite = true from rfl)]
  constructor
  · rintro ⟨x, hx, hx'⟩
    exact ⟨(canonicalText_eq_iff rfl rfl hx').1 hx, x, hx⟩
  · rintro ⟨same, x, hx⟩
    exact ⟨x, hx, (canonicalText_congr rfl rfl same).symm.trans hx⟩

/-- The owner of a contract sets its fee rate. -/
def Pending.ofRate (rate : Decimal) : Pending where
  changes :=
    let config : Config := ⟨.text "loans", ⟨"owner", none⟩, "treasury", .ofInt 0, .int 0⟩
    [.config config { config with feeRate := rate }]
  fundsIn := []
  messages := []
  origin := ⟨.admin, "owner", .text "set_fee_rate"⟩
  date := none
  intentId := .text ""

/-- A rate has one text with zeros at its end and without. -/
theorem equal_contents_one_text_padded :
    (Pending.ofRate (.finite false 5 (-2))).Declared ∧
      (Pending.ofRate (.finite false 500 (-4))).Declared ∧
      (Pending.ofRate (.finite false 5 (-2))).Agrees (Pending.ofRate (.finite false 500 (-4))) ∧
      (Pending.ofRate (.finite false 5 (-2))).intentText =
        (Pending.ofRate (.finite false 500 (-4))).intentText ∧
      (Decimal.finite false 5 (-2)).canonicalText = .ok "0.05" ∧
      (Decimal.finite false 500 (-4)).canonicalText = .ok "0.05" ∧
      Decimal.significant (Decimal.finite false 5 (-2)).worth =
        Decimal.significant (Decimal.finite false 500 (-4)).worth := by
  have declared : (Pending.ofRate (.finite false 5 (-2))).Declared := ⟨rfl, rfl, rfl, rfl⟩
  have declared' : (Pending.ofRate (.finite false 500 (-4))).Declared := ⟨rfl, rfl, rfl, rfl⟩
  have same : (Pending.ofRate (.finite false 5 (-2))).Agrees
      (Pending.ofRate (.finite false 500 (-4))) := ⟨rfl, rfl, rfl, rfl⟩
  have text : (Decimal.finite false 5 (-2)).canonicalText = .ok "0.05" := rfl
  have text' : (Decimal.finite false 500 (-4)).canonicalText = .ok "0.05" := rfl
  obtain ⟨texts, numbers⟩ := equal_contents_one_text (Pending.ofRate (.finite false 5 (-2)))
    (Pending.ofRate (.finite false 500 (-4))) false false 5 500 (-2) (-4)
  exact ⟨declared, declared', same, (texts declared declared' same).1, text, text',
    ((numbers (by decide) (by decide)).1 ⟨_, text, text'⟩).1⟩

/-- A power of ten that a decimal can hold and a whole number cannot be written with has no
canonical text, and neither has a transaction that sets it as the rate. -/
theorem power_without_text :
    Decimal.leastExponent ≤ 4300 ∧ 4300 ≤ Decimal.greatestExponent ∧
      (Decimal.finite false 1 4300).canonicalText = .error .tooLong ∧
      (Pending.ofRate (.finite false 1 4300)).Declared ∧
      (Pending.ofRate (.finite false 1 4300)).intentText = .error .tooLong :=
  ⟨by decide, by decide, rfl, ⟨rfl, rfl, rfl, rfl⟩, rfl⟩

end Pawnbook
