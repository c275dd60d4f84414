import Pawnbook.Proofs.Legible
import Pawnbook.Proofs.PlainText

/-! # Canonical texts that tell what they write

Canonical texts are put together without quotes: whatever stands in a text of a value stands in the
canonical text as well, the marks between the parts of a record included. Values that hold none of
the marks that end a part (`Value.isClear`) can be told from their canonical texts, whatever is
written behind them (`Value.canonical_append`): every kind of value begins in its own way
(`Value.heading`), and what is written behind a part begins with a mark that the part does not
hold. -/

namespace Pawnbook

/-! ### Marks -/

namespace Text

/-- A mark that ends a part of a canonical text. -/
def isStop (c : Char) : Bool := c ∈ [',', ')', ']', '|']

/-- A mark between the parts of a canonical text. -/
def isMark (c : Char) : Bool := isStop c || c ∈ ['(', '[', '=', ':']

theorem isMark_of_isStop {c : Char} (h : isStop c = true) : isMark c = true := by
  rw [isMark, h, Bool.true_or]

theorem isStop_of_isDigit {c : Char} (h : c.isDigit = true) : isStop c = false := by
  cases hs : isStop c with
  | false => rfl
  | true =>
      simp only [isStop, List.mem_cons, List.not_mem_nil, or_false, decide_eq_true_eq] at hs
      rcases hs with rfl | rfl | rfl | rfl <;> cases h

/-- The text holds no mark that ends a part. -/
def isUnbroken (s : String) : Bool := s.toList.all fun c => !isStop c

def isWord (s : String) : Bool := s.toList.all fun c => !isMark c

/-- Nothing, or what begins with a mark that ends a part. -/
def Stopped (cs : List Char) : Prop := ∀ c ∈ cs.head?, isStop c = true

theorem stopped_nil : Stopped [] := nofun

theorem stopped_cons {c : Char} {cs : List Char} (h : isStop c = true) : Stopped (c :: cs) := by
  rintro _ ⟨⟩
  exact h

/-- Unbroken texts with something behind them that ends a part are told apart. -/
theorem unbroken_append {s t : String} {rs ss : List Char} (hs : isUnbroken s = true)
    (ht : isUnbroken t = true) (hr : Stopped rs) (hr' : Stopped ss)
    (h : s.toList ++ rs = t.toList ++ ss) : s = t ∧ rs = ss := by
  have stops : ∀ {cs : List Char}, Stopped cs → ∀ c ∈ cs.head?, (!isStop c) = false := by
    intro cs h c hc
    rw [h c hc]
    rfl
  obtain ⟨same, rest⟩ := append_eq_append_of_stops (fun c => !isStop c) (List.all_eq_true.1 hs)
    (List.all_eq_true.1 ht) (stops hr) (stops hr') h
  exact ⟨String.toList_inj.1 same, rest⟩

theorem unbroken_append_append {start s t : String} {rs ss : List Char}
    (hs : isUnbroken s = true) (ht : isUnbroken t = true) (hr : Stopped rs) (hr' : Stopped ss)
    (h : (start ++ s).toList ++ rs = (start ++ t).toList ++ ss) : s = t ∧ rs = ss := by
  rw [String.toList_append, String.toList_append, List.append_assoc, List.append_assoc] at h
  exact unbroken_append hs ht hr hr' (List.append_cancel_left h)

theorem isUnbroken_of_digits {s : String} (marks : List Char) (free : marks.any isStop = false)
    (h : ∀ c ∈ s.toList, c.isDigit = true ∨ c ∈ marks) : isUnbroken s = true := by
  refine List.all_eq_true.2 fun c hc => ?_
  rw [Bool.not_eq_true']
  rcases h c hc with digit | mark
  · exact isStop_of_isDigit digit
  · exact Bool.eq_false_iff.2 (List.any_eq_false.1 free c mark)

theorem isUnbroken_ofInt (n : Int) : isUnbroken (ofInt n) = true :=
  isUnbroken_of_digits ['-'] rfl fun _ hc =>
    (mem_ofInt hc).imp_right List.mem_singleton.2

/-- Texts with a mark in front of each. -/
def tails (mark : Char) (ts : List String) : List Char := ts.flatMap fun t => mark :: t.toList

theorem tails_cons (mark : Char) (t : String) (ts : List String) :
    tails mark (t :: ts) = mark :: (t.toList ++ tails mark ts) := rfl

theorem tails_append (mark : Char) (ts us : List String) :
    tails mark (ts ++ us) = tails mark ts ++ tails mark us := List.flatMap_append

theorem stopped_tails {mark : Char} (stop : isStop mark = true) (ts : List String)
    {rs : List Char} (hr : Stopped rs) : Stopped (tails mark ts ++ rs) := by
  cases ts with
  | nil => exact hr
  | cons t ts => exact stopped_cons stop

theorem toList_join_cons (mark : Char) (t : String) : ∀ ts : List String,
    (Text.join (String.ofList [mark]) (t :: ts)).toList = t.toList ++ tails mark ts
  | [] => by
      rw [Text.join, String.intercalate_singleton]
      exact (List.append_nil _).symm
  | u :: us => by
      have rest := toList_join_cons mark u us
      rw [Text.join, String.toList_intercalate, String.toList_ofList] at rest ⊢
      rw [List.map_cons, List.map_cons, List.intercalate_cons_cons, ← List.map_cons, rest,
        tails_cons, List.append_assoc]
      rfl

/-- The text begins with a character that ends no part. -/
def Starts (t : String) : Prop := ∃ c cs, t.toList = c :: cs ∧ isStop c = false

/-- Texts joined by commas before a mark that ends a part are equal only if the texts behind commas
are. -/
theorem tails_of_join (close : Char) (stop : isStop close = true)
    {ts us : List String} {rs ss : List Char} (hts : ∀ t ∈ ts, Starts t) (hus : ∀ u ∈ us, Starts u)
    (h : (Text.join "," ts).toList ++ close :: rs = (Text.join "," us).toList ++ close :: ss) :
    tails ',' ts ++ close :: rs = tails ',' us ++ close :: ss := by
  have comma : "," = String.ofList [','] := rfl
  -- a part does not begin with the mark that ends them all
  have begins : ∀ {u : String} {us : List String} {xs ys : List Char}, Starts u →
      close :: xs ≠ (Text.join "," (u :: us)).toList ++ ys := by
    rintro u us xs ys ⟨c, cs, hc, free⟩ h
    rw [comma, toList_join_cons, hc] at h
    rw [← (List.cons.inj h).1, stop] at free
    cases free
  cases ts with
  | nil =>
      cases us with
      | nil => exact h
      | cons u us => exact absurd h (begins (hus u List.mem_cons_self))
  | cons t ts =>
      cases us with
      | nil => exact absurd h.symm (begins (hts t List.mem_cons_self))
      | cons u us =>
          rw [comma, toList_join_cons, toList_join_cons] at h
          rw [tails_cons, tails_cons]
          exact congrArg (',' :: ·) h

end Text

namespace Value
open Text

/-! ### Clear values -/

/-- The states of listings and offers. -/
def states : List Value :=
  LoanState.all.map LoanState.toValue ++ OfferState.all.map OfferState.toValue

mutual

/-- The value can be told from its canonical text: no text in it holds a mark that ends a part, and
its decimals are short rates. -/
def isClear : Value → Bool
  | null | bool _ | int _ | time _ => true
  | text s => isUnbroken s
  | decimal d => d.isShort && d.isFinite && !d.isBelowZero && !d.isAtLeastOne
  | member type name value => states.contains (member type name value)
  | tuple xs => areClear xs
  | record name fs _ => isWord name && fieldsClear fs
  | float _ | list _ | map _ => false

def areClear : List Value → Bool
  | [] => true
  | x :: xs => isClear x && areClear xs

/-- The names of fields are words, and their values are clear. -/
def fieldsClear : List (String × Value) → Bool
  | [] => true
  | (name, x) :: fs => isWord name && isClear x && fieldsClear fs

end

/-! ### Beginnings -/

/-- The word that a canonical text begins with, and the mark behind it. -/
def heading : Value → String × List Char
  | null => ("null", [])
  | bool true => ("true", [])
  | bool false => ("false", [])
  | member .. => ("E", [':'])
  | decimal _ => ("D", [':'])
  | int _ => ("N", [':'])
  | text _ => ("S", [':'])
  | time _ => ("T", [':'])
  | record name _ _ => (name, ['('])
  | map _ => ("", ['\x7b'])
  | tuple _ | list _ => ("", ['['])
  | float _ => ("R", [':'])

section heading
variable {v w : Value} {s t : String}

/-- A canonical text begins with its heading, and is no longer than that if no mark is in it. -/
theorem exists_body (h : v.canonical = .ok s) :
    ∃ body, s.toList = v.heading.1.toList ++ (v.heading.2 ++ body) ∧
      (v.heading.2 = [] → body = []) := by
  have marked : ∀ {c : Char} {cs body : List Char}, c :: cs = [] → body = [] :=
    fun h => absurd h (List.cons_ne_nil _ _)
  cases v with
  | null => cases h; exact ⟨[], rfl, fun _ => rfl⟩
  | bool b => cases b <;> cases h <;> exact ⟨[], rfl, fun _ => rfl⟩
  | int n =>
      obtain ⟨-, rfl⟩ := canonical_int_ok h
      exact ⟨(Text.ofInt n).toList, by simp [heading], marked⟩
  | float x =>
      cases h
      exact ⟨x.text.toList, by simp [heading], marked⟩
  | text x =>
      cases h
      exact ⟨x.toList, by simp [heading], marked⟩
  | time x =>
      cases h
      exact ⟨x.text.toList, by simp [heading], marked⟩
  | decimal d =>
      obtain ⟨t, ht, rfl⟩ := map_ok h
      exact ⟨t.toList, by simp [heading], marked⟩
  | member type name value =>
      cases h
      refine ⟨(type ++ "." ++ value).toList, ?_, marked⟩
      simp [heading]
  | tuple xs | list xs =>
      obtain ⟨ts, hts, h⟩ := bind_ok h
      cases h
      refine ⟨(Text.join "," ts ++ "]").toList, ?_, marked⟩
      simp [heading]
  | record name fs shown =>
      obtain ⟨ts, hts, h⟩ := bind_ok h
      cases h
      refine ⟨(Text.join "," ts ++ ")").toList, ?_, marked⟩
      simp [heading]
  | map es =>
      obtain ⟨_, -, h⟩ := bind_ok h
      obtain ⟨ts, hts, h⟩ := bind_ok h
      cases h
      refine ⟨(Text.join "," ts ++ "\x7d").toList, ?_, marked⟩
      simp [heading]

theorem heading_word (h : v.isClear = true) : isWord v.heading.1 = true := by
  cases v with
  | bool b => cases b <;> decide
  | record name fs shown => exact (Bool.and_eq_true_iff.1 h).1
  | float | list | map => cases h
  | null | int | text | time | decimal | member | tuple =>
      dsimp only [heading]
      decide

theorem heading_mark (h : v.isClear = true) :
    v.heading.2 = [] ∨ ∃ c, v.heading.2 = [c] ∧ isMark c = true ∧ isStop c = false := by
  cases v with
  | null => exact .inl rfl
  | bool b => cases b <;> exact .inl rfl
  | float | list | map => cases h
  | int | text | time | decimal | member | tuple | record => exact .inr ⟨_, rfl, rfl, rfl⟩

/-- Clear values with equal canonical texts, whatever is written behind these, have one heading. -/
theorem heading_eq {rs ss : List Char} (hv : v.isClear = true) (hw : w.isClear = true)
    (ht : v.canonical = .ok s) (hu : w.canonical = .ok t) (hr : Stopped rs) (hs : Stopped ss)
    (h : s.toList ++ rs = t.toList ++ ss) : v.heading = w.heading := by
  obtain ⟨body, begins, bare⟩ := exists_body ht
  obtain ⟨body', begins', bare'⟩ := exists_body hu
  rw [begins, begins', List.append_assoc, List.append_assoc, List.append_assoc,
    List.append_assoc] at h
  -- behind the word stands a mark, or a stop
  have marked : ∀ {v : Value} {body rs : List Char}, v.isClear = true → Stopped rs →
      (v.heading.2 = [] → body = []) →
      ∀ c ∈ (v.heading.2 ++ (body ++ rs)).head?, (!isMark c) = false := by
    intro v body rs hv hr bare c hc
    rw [Bool.not_eq_false']
    rcases heading_mark hv with none | ⟨m, mark, isMark, -⟩
    · rw [none, bare none] at hc
      exact isMark_of_isStop (hr c hc)
    · rw [mark] at hc
      cases hc
      exact isMark
  obtain ⟨word, rest⟩ := append_eq_append_of_stops (fun c => !isMark c)
    (List.all_eq_true.1 (heading_word hv)) (List.all_eq_true.1 (heading_word hw))
    (marked hv hr bare) (marked hw hs bare') h
  refine Prod.ext (String.toList_inj.1 word) ?_
  -- a mark that ends no part is no stop
  have apart : ∀ {c : Char} {cs rs : List Char}, isStop c = false → Stopped rs → c :: cs ≠ rs := by
    rintro c cs rs free stopped rfl
    rw [stopped c rfl] at free
    cases free
  rcases heading_mark hv with none | ⟨m, mark, -, free⟩
  · rcases heading_mark hw with none' | ⟨m', mark', -, free'⟩
    · rw [none, none']
    · rw [none, bare none, mark'] at rest
      exact absurd rest.symm (apart free' hr)
  · rcases heading_mark hw with none' | ⟨m', mark', -, free'⟩
    · rw [none', bare' none', mark] at rest
      exact absurd rest (apart free hs)
    · rw [mark, mark'] at rest ⊢
      rw [(List.cons.inj rest).1]

/-- A canonical text of a clear value begins with a character that ends no part. -/
theorem starts_of_canonical (hv : v.isClear = true) (h : v.canonical = .ok s) : Starts s := by
  obtain ⟨body, begins, -⟩ := exists_body h
  have free : ∀ {c : Char}, isMark c = false → isStop c = false := by
    intro c hc
    cases hs : isStop c with
    | false => rfl
    | true =>
        rw [isMark_of_isStop hs] at hc
        cases hc
  have word := List.all_eq_true.1 (heading_word hv)
  have mark := heading_mark hv
  cases letters : v.heading.1.toList with
  | cons c cs =>
      rw [letters] at begins word
      have unmarked := word c List.mem_cons_self
      rw [Bool.not_eq_true'] at unmarked
      exact ⟨c, _, begins, free unmarked⟩
  | nil =>
      rw [letters] at begins
      rcases mark with none | ⟨m, mark, -, other⟩
      · cases v with
        | null => simp [heading] at letters
        | bool b => cases b <;> simp [heading] at letters
        | _ => cases none
      · rw [mark] at begins
        exact ⟨m, _, begins, other⟩

end heading

/-! ### Values are told apart -/

section leaves
variable {v w : Value} {s t : String} {rs ss : List Char}

theorem isUnbroken_time (t : Time) : isUnbroken t.text = true :=
  isUnbroken_of_digits ['-', 'T', ':', '.'] rfl fun _ hc => Time.mem_text hc

theorem rate_of_isClear {d : Decimal} (h : (decimal d).isClear = true) :
    d.IsRate ∧ d.isShort = true := by
  simp only [isClear, Bool.and_eq_true, Bool.not_eq_true'] at h
  exact ⟨⟨h.1.1.2, h.1.2, h.2⟩, h.1.1.1⟩

theorem isUnbroken_decimal {d : Decimal} (h : (decimal d).isClear = true)
    (ht : d.canonicalText = .ok t) : isUnbroken t = true := by
  obtain ⟨rate, -⟩ := rate_of_isClear h
  exact isUnbroken_of_digits ['.'] rfl fun _ hc =>
    (Decimal.mem_canonicalText rate ht hc).imp_right List.mem_singleton.2

theorem states_told : (∀ x ∈ states, ∀ s ∈ x.canonical.toOption, isUnbroken s = true) ∧
    ∀ x ∈ states, ∀ y ∈ states, x.canonical.toOption = y.canonical.toOption → x = y := by decide

theorem leaf_append (hv : v.isClear = true) (hw : w.isClear = true)
    (ht : v.canonical = .ok s) (hu : w.canonical = .ok t) (hr : Stopped rs) (hs : Stopped ss)
    (h : s.toList ++ rs = t.toList ++ ss) (leaf : v.heading.2 = [] ∨ v.heading.2 = [':']) :
    v.normal = w.normal ∧ rs = ss := by
  have same := heading_eq hv hw ht hu hr hs h
  cases v with
  | null =>
      cases w with
      | null =>
          cases ht
          cases hu
          exact ⟨rfl, List.append_cancel_left h⟩
      | bool c => cases c <;> simp [heading] at same
      | _ => simp [heading] at same
  | bool b =>
      cases w with
      | bool c =>
          cases b <;> cases c <;> cases ht <;> cases hu
          · exact ⟨rfl, List.append_cancel_left h⟩
          · simp [heading] at same
          · simp [heading] at same
          · exact ⟨rfl, List.append_cancel_left h⟩
      | _ => cases b <;> simp [heading] at same
  | int m =>
      cases w with
      | int n =>
          obtain ⟨-, rfl⟩ := canonical_int_ok ht
          obtain ⟨-, rfl⟩ := canonical_int_ok hu
          obtain ⟨texts, rest⟩ :=
            unbroken_append_append (isUnbroken_ofInt m) (isUnbroken_ofInt n) hr hs h
          exact ⟨by rw [ofInt_injective texts], rest⟩
      | bool c => cases c <;> simp [heading] at same
      | _ => simp [heading] at same
  | text x =>
      cases w with
      | text y =>
          cases ht
          cases hu
          obtain ⟨texts, rest⟩ := unbroken_append_append hv hw hr hs h
          exact ⟨by rw [texts], rest⟩
      | bool c => cases c <;> simp [heading] at same
      | _ => simp [heading] at same
  | time x =>
      cases w with
      | time y =>
          cases ht
          cases hu
          obtain ⟨texts, rest⟩ :=
            unbroken_append_append (isUnbroken_time x) (isUnbroken_time y) hr hs h
          exact ⟨by rw [Time.text_injective texts], rest⟩
      | bool c => cases c <;> simp [heading] at same
      | _ => simp [heading] at same
  | decimal d =>
      cases w with
      | decimal e =>
          obtain ⟨x, hx, rfl⟩ := map_ok ht
          obtain ⟨y, hy, rfl⟩ := map_ok hu
          obtain ⟨texts, rest⟩ :=
            unbroken_append_append (isUnbroken_decimal hv hx) (isUnbroken_decimal hw hy) hr hs h
          obtain ⟨rate, short⟩ := rate_of_isClear hv
          obtain ⟨rate', short'⟩ := rate_of_isClear hw
          rw [← texts] at hy
          exact ⟨Decimal.normalNumber_eq_of_canonicalText rate rate' short short' hx hy, rest⟩
      | bool c => cases c <;> simp [heading] at same
      | _ => simp [heading] at same
  | member type name value =>
      cases w with
      | member type' name' value' =>
          have mem := List.contains_iff_mem.1 hv
          have mem' := List.contains_iff_mem.1 hw
          obtain ⟨unbroken, told⟩ := states_told
          obtain ⟨texts, rest⟩ := unbroken_append (unbroken _ mem _ (toOption_eq_some_iff.2 ht))
            (unbroken _ mem' _ (toOption_eq_some_iff.2 hu)) hr hs h
          refine ⟨?_, rest⟩
          rw [told _ mem _ mem' (by rw [ht, hu, texts])]
      | bool c => cases c <;> simp [heading] at same
      | _ => simp [heading] at same
  | tuple | record => rcases leaf with leaf | leaf <;> cases leaf
  | float | list | map => cases hv

end leaves

/-! What is written of a sequence and of a record. -/

theorem canonicalAll_cons {x : Value} {xs : List Value} {ts : List String}
    (h : canonicalAll (x :: xs) = .ok ts) :
    ∃ t us, x.canonical = .ok t ∧ canonicalAll xs = .ok us ∧ ts = t :: us := by
  obtain ⟨t, ht, h⟩ := bind_ok h
  obtain ⟨us, hus, h⟩ := bind_ok h
  cases h
  exact ⟨t, us, ht, hus, rfl⟩

theorem canonicalFields_cons {name : String} {x : Value} {fs : List (String × Value)}
    {ts : List String} (h : canonicalFields ((name, x) :: fs) = .ok ts) :
    ∃ t us, x.canonical = .ok t ∧ canonicalFields fs = .ok us ∧ ts = (name ++ "=" ++ t) :: us := by
  obtain ⟨t, ht, h⟩ := bind_ok h
  obtain ⟨us, hus, h⟩ := bind_ok h
  cases h
  exact ⟨t, us, ht, hus, rfl⟩

theorem starts_of_canonicalAll : ∀ {xs : List Value} {ts : List String}, areClear xs = true →
    canonicalAll xs = .ok ts → ∀ t ∈ ts, Starts t
  | [], ts, _, h => by
      cases h
      simp
  | x :: xs, ts, hx, h => by
      rw [areClear, Bool.and_eq_true] at hx
      obtain ⟨t, us, ht, hus, rfl⟩ := canonicalAll_cons h
      rw [List.forall_mem_cons]
      exact ⟨starts_of_canonical hx.1 ht, starts_of_canonicalAll hx.2 hus⟩

theorem starts_of_canonicalFields : ∀ {fs : List (String × Value)} {ts : List String},
    fieldsClear fs = true → canonicalFields fs = .ok ts → ∀ t ∈ ts, Starts t
  | [], ts, _, h => by
      cases h
      simp
  | (name, x) :: fs, ts, hf, h => by
      rw [fieldsClear, Bool.and_eq_true, Bool.and_eq_true] at hf
      obtain ⟨t, us, ht, hus, rfl⟩ := canonicalFields_cons h
      rw [List.forall_mem_cons]
      refine ⟨?_, starts_of_canonicalFields hf.2 hus⟩
      have word := List.all_eq_true.1 hf.1.1
      cases letters : name.toList with
      | nil => exact ⟨'=', t.toList, by simp [letters], rfl⟩
      | cons c cs =>
          refine ⟨c, cs ++ '=' :: t.toList, by simp [letters], ?_⟩
          have free := word c (by rw [letters]; exact List.mem_cons_self)
          cases hs : isStop c with
          | false => rfl
          | true =>
              rw [isMark_of_isStop hs] at free
              cases free

mutual

/-- Clear values are told apart by their canonical texts, whatever is written behind them. -/
theorem canonical_append : ∀ {v w : Value} {s t : String} {rs ss : List Char}, v.isClear = true →
    w.isClear = true → v.canonical = .ok s → w.canonical = .ok t → Stopped rs → Stopped ss →
    s.toList ++ rs = t.toList ++ ss → v.normal = w.normal ∧ rs = ss
  | null, _, _, _, _, _, hv, hw, ht, hu, hr, hs, h
  | bool true, _, _, _, _, _, hv, hw, ht, hu, hr, hs, h
  | bool false, _, _, _, _, _, hv, hw, ht, hu, hr, hs, h =>
      leaf_append hv hw ht hu hr hs h (.inl rfl)
  | int _, _, _, _, _, _, hv, hw, ht, hu, hr, hs, h
  | text _, _, _, _, _, _, hv, hw, ht, hu, hr, hs, h
  | time _, _, _, _, _, _, hv, hw, ht, hu, hr, hs, h
  | decimal _, _, _, _, _, _, hv, hw, ht, hu, hr, hs, h
  | member .., _, _, _, _, _, hv, hw, ht, hu, hr, hs, h =>
      leaf_append hv hw ht hu hr hs h (.inr rfl)
  | float _, _, _, _, _, _, hv, _, _, _, _, _, _ | list _, _, _, _, _, _, hv, _, _, _, _, _, _
  | map _, _, _, _, _, _, hv, _, _, _, _, _, _ => by
      cases hv
  | tuple xs, w, s, t, rs, ss, hv, hw, ht, hu, hr, hs, h => by
      have same := heading_eq hv hw ht hu hr hs h
      obtain ⟨ts, hts, ht⟩ := bind_ok ht
      cases ht
      cases w with
      | tuple ys =>
          obtain ⟨us, hus, hu⟩ := bind_ok hu
          cases hu
          simp only [String.toList_append, List.append_assoc] at h
          have behind := tails_of_join ']' rfl (starts_of_canonicalAll hv hts)
            (starts_of_canonicalAll hw hus) (List.append_cancel_left h)
          obtain ⟨parts, rest⟩ := canonicalAll_append hv hw hts hus behind
          exact ⟨by rw [normal, normal, parts], rest⟩
      | list => cases hw
      | bool c => cases c <;> simp [heading] at same
      | _ => simp [heading] at same
  | record name fs _, w, s, t, rs, ss, hv, hw, ht, hu, hr, hs, h => by
      have same := heading_eq hv hw ht hu hr hs h
      obtain ⟨ts, hts, ht⟩ := bind_ok ht
      cases ht
      cases w with
      | record name' gs _ =>
          obtain ⟨us, hus, hu⟩ := bind_ok hu
          cases hu
          obtain rfl : name = name' := congrArg Prod.fst same
          have fields := (Bool.and_eq_true_iff.1 hv).2
          have fields' := (Bool.and_eq_true_iff.1 hw).2
          simp only [String.toList_append, List.append_assoc] at h
          have behind := tails_of_join ')' rfl (starts_of_canonicalFields fields hts)
            (starts_of_canonicalFields fields' hus)
            (List.append_cancel_left (List.append_cancel_left h))
          obtain ⟨parts, rest⟩ := canonicalFields_append fields fields' hts hus behind
          exact ⟨by rw [normal, normal, parts], rest⟩
      | bool c => cases c <;> simp [heading] at same
      | _ => simp [heading] at same

theorem canonicalAll_append : ∀ {xs ys : List Value} {ts us : List String} {rs ss : List Char},
    areClear xs = true → areClear ys = true → canonicalAll xs = .ok ts → canonicalAll ys = .ok us →
    tails ',' ts ++ ']' :: rs = tails ',' us ++ ']' :: ss → normalAll xs = normalAll ys ∧ rs = ss
  | [], [], _, _, _, _, _, _, ht, hu, h => by
      cases ht
      cases hu
      exact ⟨rfl, (List.cons.inj h).2⟩
  | [], y :: ys, _, _, _, _, _, _, ht, hu, h => by
      cases ht
      obtain ⟨u, us, -, -, rfl⟩ := canonicalAll_cons hu
      cases h
  | x :: xs, [], _, _, _, _, _, _, ht, hu, h => by
      cases hu
      obtain ⟨t, ts, -, -, rfl⟩ := canonicalAll_cons ht
      cases h
  | x :: xs, y :: ys, _, _, _, _, hx, hy, ht, hu, h => by
      rw [areClear, Bool.and_eq_true] at hx hy
      obtain ⟨t, ts, written, hts, rfl⟩ := canonicalAll_cons ht
      obtain ⟨u, us, written', hus, rfl⟩ := canonicalAll_cons hu
      rw [tails_cons, tails_cons, List.cons_append, List.cons_append, List.append_assoc,
        List.append_assoc] at h
      have h := (List.cons.inj h).2
      obtain ⟨first, h⟩ :=
        canonical_append hx.1 hy.1 written written' (stopped_tails rfl ts (stopped_cons rfl))
          (stopped_tails rfl us (stopped_cons rfl)) h
      obtain ⟨others, rest⟩ := canonicalAll_append hx.2 hy.2 hts hus h
      exact ⟨by rw [normalAll, first, others, normalAll], rest⟩

theorem canonicalFields_append : ∀ {fs gs : List (String × Value)} {ts us : List String}
    {rs ss : List Char}, fieldsClear fs = true → fieldsClear gs = true →
    canonicalFields fs = .ok ts → canonicalFields gs = .ok us →
    tails ',' ts ++ ')' :: rs = tails ',' us ++ ')' :: ss →
    normalFields fs = normalFields gs ∧ rs = ss
  | [], [], _, _, _, _, _, _, ht, hu, h => by
      cases ht
      cases hu
      exact ⟨rfl, (List.cons.inj h).2⟩
  | [], (_, _) :: gs, _, _, _, _, _, _, ht, hu, h => by
      cases ht
      obtain ⟨u, us, -, -, rfl⟩ := canonicalFields_cons hu
      cases h
  | (_, _) :: fs, [], _, _, _, _, _, _, ht, hu, h => by
      cases hu
      obtain ⟨t, ts, -, -, rfl⟩ := canonicalFields_cons ht
      cases h
  | (name, x) :: fs, (name', y) :: gs, _, _, _, _, hf, hg, ht, hu, h => by
      rw [fieldsClear, Bool.and_eq_true, Bool.and_eq_true] at hf hg
      obtain ⟨t, ts, written, hts, rfl⟩ := canonicalFields_cons ht
      obtain ⟨u, us, written', hus, rfl⟩ := canonicalFields_cons hu
      rw [tails_cons, tails_cons, List.cons_append, List.cons_append] at h
      have h := (List.cons.inj h).2
      simp only [String.toList_append, List.append_assoc] at h
      have equals : ∀ cs, ∀ c ∈ ("=".toList ++ cs).head?, (!isMark c) = false := by
        rintro cs c ⟨⟩
        rfl
      -- the name of a field ends before the equals sign
      obtain ⟨names, values⟩ := append_eq_append_of_stops (fun c => !isMark c)
        (List.all_eq_true.1 hf.1.1) (List.all_eq_true.1 hg.1.1) (equals _) (equals _) h
      obtain rfl := String.toList_inj.1 names
      obtain ⟨first, h⟩ := canonical_append hf.1.2 hg.1.2 written written'
        (stopped_tails rfl ts (stopped_cons rfl)) (stopped_tails rfl us (stopped_cons rfl))
        (List.append_cancel_left values)
      obtain ⟨others, rest⟩ := canonicalFields_append hf.2 hg.2 hts hus h
      exact ⟨by rw [normalFields, first, others, normalFields], rest⟩

end

end Value
end Pawnbook
