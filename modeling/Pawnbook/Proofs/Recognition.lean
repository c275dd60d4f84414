import Pawnbook.Proofs.Encoding
import Pawnbook.Proofs.Replay

/-! # Transactions that are recognized

A book recognizes a transaction that it has applied by the id of its intent, which is made from the
canonical text of what the transaction does. Different transactions can have one text, since the
texts that a caller gives are written into it without quotes. Clear transactions
(`Pending.isClear`) can be told from their texts (`Pending.sameIntent_of_text`). Where only such
are computed, and no two texts share an id, a book recognizes what it has applied and nothing else
(`already_applied_sound`); of others it can take one for another (`collided_applied`). -/

namespace Pawnbook
open Text

/-! ### Clear transactions -/

/-- One of the four kinds of records. -/
def Kind.isStored : Kind → Bool
  | config | borrower | listing | offer => true
  | other _ => false

/-- The change is of a kind that the book stores, and its key and its records are clear. -/
def Change.isClear (c : Change) : Bool :=
  c.slot.kind.isStored && c.slot.key.value.isClear && c.oldValue.isClear &&
    c.newValue.isClear

/-- The origin names its source and its action, by texts that hold no mark that ends a part. -/
def Origin.isClear (o : Origin) : Bool :=
  match o.source.value, o.action with
  | .text s, .text a => isUnbroken s && isUnbroken a && a != ""
  | _, _ => false

namespace Pending

/-- What the transaction does can be told from its text. -/
def isClear (p : Pending) : Bool :=
  p.changes.all (·.isClear) && p.fundsIn.all (·.toValue.isClear) &&
    p.messages.all (·.toValue.isClear) && p.origin.isClear

/-- The transactions do the same, for the same sender: their changes, their funds, their messages
and their origins are equal. -/
structure SameIntent (p q : Pending) : Prop where
  changes : p.changes.map (·.toValue.normal) = q.changes.map (·.toValue.normal)
  fundsIn : p.fundsIn.map (·.toValue.normal) = q.fundsIn.map (·.toValue.normal)
  messages : p.messages.map (·.toValue.normal) = q.messages.map (·.toValue.normal)
  origin : p.origin = q.origin

theorem SameIntent.refl (p : Pending) : p.SameIntent p := ⟨rfl, rfl, rfl, rfl⟩

end Pending

/-- The pending transaction that was applied. -/
def Transaction.pending (t : Transaction) : Pending where
  changes := t.changes
  fundsIn := t.fundsIn
  messages := t.messages
  origin := t.origin
  date := t.date
  attributes := t.attributes
  intentId := t.intentId

/-! ### Parts of an intent -/

namespace Intent

section parts
variable {rs ss : List Char} {s t : String}

theorem isUnbroken_kind {k : Kind} (h : k.isStored = true) : isUnbroken k.name.label = true := by
  cases k with
  | other => cases h
  | config | borrower | listing | offer => decide

theorem kind_injective {k l : Kind} (hk : k.isStored = true) (hl : l.isStored = true)
    (h : k.name.label = l.name.label) : k = l := by
  cases k with
  | other => cases hk
  | config | borrower | listing | offer =>
      cases l with
      | other => cases hl
      | config | borrower | listing | offer => first | rfl | exact absurd h (by decide)

theorem changeText_append {c d : Change} (hc : c.isClear = true) (hd : d.isClear = true)
    (ht : changeText c = .ok s) (hu : changeText d = .ok t) (hr : Stopped rs) (hs : Stopped ss)
    (h : s.toList ++ rs = t.toList ++ ss) : c.toValue.normal = d.toValue.normal ∧ rs = ss := by
  obtain ⟨name, hname, ht⟩ := bind_ok ht
  obtain ⟨key, hkey, ht⟩ := bind_ok ht
  obtain ⟨old, hold, ht⟩ := bind_ok ht
  obtain ⟨new, hnew, ht⟩ := bind_ok ht
  obtain ⟨name', hname', hu⟩ := bind_ok hu
  obtain ⟨key', hkey', hu⟩ := bind_ok hu
  obtain ⟨old', hold', hu⟩ := bind_ok hu
  obtain ⟨new', hnew', hu⟩ := bind_ok hu
  obtain rfl := Value.label_of_written hname
  obtain rfl := Value.label_of_written hname'
  cases ht
  cases hu
  simp only [Change.isClear, Bool.and_eq_true] at hc hd
  obtain ⟨⟨⟨kind, keyClear⟩, oldClear⟩, newClear⟩ := hc
  obtain ⟨⟨⟨kind', keyClear'⟩, oldClear'⟩, newClear'⟩ := hd
  have bar : ∀ cs : List Char, Stopped ("|".toList ++ cs) := fun _ => stopped_cons rfl
  simp only [String.toList_append, List.append_assoc] at h
  obtain ⟨kinds, h⟩ := unbroken_append (isUnbroken_kind kind) (isUnbroken_kind kind') (bar _)
    (bar _) (List.append_cancel_left h)
  obtain ⟨keys, h⟩ := Value.canonical_append keyClear keyClear' hkey hkey' (bar _) (bar _)
    (List.append_cancel_left h)
  obtain ⟨olds, h⟩ := Value.canonical_append oldClear oldClear' hold hold' (bar _) (bar _)
    (List.append_cancel_left h)
  obtain ⟨news, rest⟩ := Value.canonical_append newClear newClear' hnew hnew' hr hs
    (List.append_cancel_left h)
  have kinds := kind_injective kind kind' kinds
  refine ⟨?_, rest⟩
  simp only [Change.toValue, Value.normal, Value.normalFields, kinds, keys, olds, news]

theorem transferText_append {word : String} {m n : Message} (hm : m.toValue.isClear = true)
    (hn : n.toValue.isClear = true) (ht : m.toValue.canonical.map (word ++ ·) = .ok s)
    (hu : n.toValue.canonical.map (word ++ ·) = .ok t) (hr : Stopped rs) (hs : Stopped ss)
    (h : s.toList ++ rs = t.toList ++ ss) : m.toValue.normal = n.toValue.normal ∧ rs = ss := by
  obtain ⟨x, hx, rfl⟩ := map_ok ht
  obtain ⟨y, hy, rfl⟩ := map_ok hu
  simp only [String.toList_append, List.append_assoc] at h
  exact Value.canonical_append hm hn hx hy hr hs (List.append_cancel_left h)

theorem originText_append {k l : OriginKind} {x y : String} (hx : isUnbroken x = true)
    (hy : isUnbroken y = true) (hr : Stopped rs) (hs : Stopped ss)
    (h : ("origin:" ++ k.text ++ ":" ++ x).toList ++ rs =
      ("origin:" ++ l.text ++ ":" ++ y).toList ++ ss) : (k = l ∧ x = y) ∧ rs = ss := by
  have same : k = l := by
    simp only [String.toList_append, List.append_assoc] at h
    have h := List.append_cancel_left h
    cases k <;> cases l <;> first | rfl | cases h
  subst same
  obtain ⟨sources, rest⟩ := unbroken_append_append hx hy hr hs h
  exact ⟨⟨rfl, sources⟩, rest⟩

end parts

/-! ### Lists of parts -/

/-- Nothing is written behind, or a part that begins with another letter. -/
def Behind (letter : Char) (cs : List Char) : Prop :=
  Stopped cs ∧ ∀ rest, cs ≠ '|' :: letter :: rest

theorem behind_nil (letter : Char) : Behind letter [] := ⟨stopped_nil, nofun⟩

theorem Behind.tails {letter other : Char} {ts : List String} {cs : List Char}
    (h : Behind letter cs) (differ : other ≠ letter)
    (begins : ∀ t ∈ ts, ∃ rest, t.toList = other :: rest) :
    Behind letter (tails '|' ts ++ cs) := by
  refine ⟨stopped_tails rfl ts h.1, ?_⟩
  cases ts with
  | nil => exact h.2
  | cons t ts =>
      obtain ⟨rest, ht⟩ := begins t List.mem_cons_self
      intro behind same
      rw [tails_cons, ht] at same
      exact differ (List.cons.inj (List.cons.inj same).2).1

section lists
variable {α : Type} {text : α → Except Decimal.Failure String} {view : α → Value}
  {clear : α → Bool} {letter : Char}

/-- Parts that begin with one letter, and are told apart one by one, are told apart as a list, if
what is written behind them begins with another letter. -/
theorem tails_told (begins : ∀ {a t}, text a = .ok t → ∃ rest, t.toList = letter :: rest)
    (told : ∀ {a b : α} {s t : String} {rs ss : List Char}, clear a = true → clear b = true →
      text a = .ok s → text b = .ok t → Stopped rs → Stopped ss →
      s.toList ++ rs = t.toList ++ ss → view a = view b ∧ rs = ss) :
    ∀ {as bs : List α} {ts us : List String} {rs ss : List Char}, as.all clear = true →
      bs.all clear = true → as.mapM text = .ok ts → bs.mapM text = .ok us → Behind letter rs →
      Behind letter ss → tails '|' ts ++ rs = tails '|' us ++ ss →
      as.map view = bs.map view ∧ rs = ss
  | [], [], _, _, _, _, _, _, ht, hu, _, _, h => by
      cases ht
      cases hu
      exact ⟨rfl, h⟩
  | [], b :: bs, _, _, _, _, _, _, ht, hu, hr, _, h => by
      cases ht
      obtain ⟨u, us, hb, -, rfl⟩ := mapM_cons_ok hu
      obtain ⟨rest, first⟩ := begins hb
      rw [tails_cons, first] at h
      exact absurd h (hr.2 _)
  | a :: as, [], _, _, _, _, _, _, ht, hu, _, hs, h => by
      cases hu
      obtain ⟨t, ts, ha, -, rfl⟩ := mapM_cons_ok ht
      obtain ⟨rest, first⟩ := begins ha
      rw [tails_cons, first] at h
      exact absurd h.symm (hs.2 _)
  | a :: as, b :: bs, _, _, _, _, hc, hd, ht, hu, hr, hs, h => by
      rw [List.all_cons, Bool.and_eq_true] at hc hd
      obtain ⟨t, ts, ha, hts, rfl⟩ := mapM_cons_ok ht
      obtain ⟨u, us, hb, hus, rfl⟩ := mapM_cons_ok hu
      rw [tails_cons, tails_cons, List.cons_append, List.cons_append, List.append_assoc,
        List.append_assoc] at h
      obtain ⟨first, h⟩ := told hc.1 hd.1 ha hb (stopped_tails rfl ts hr.1)
        (stopped_tails rfl us hs.1) (List.cons.inj h).2
      obtain ⟨others, rest⟩ := tails_told begins told hc.2 hd.2 hts hus hr hs h
      exact ⟨by rw [List.map_cons, first, others, List.map_cons], rest⟩

end lists

/-! Every kind of part has a letter of its own. -/

section letters
variable {t : String}

theorem changeText_begins {c : Change} (h : changeText c = .ok t) :
    ∃ rest, t.toList = 'c' :: rest := by
  obtain ⟨name, -, h⟩ := bind_ok h
  obtain ⟨key, -, h⟩ := bind_ok h
  obtain ⟨old, -, h⟩ := bind_ok h
  obtain ⟨new, -, h⟩ := bind_ok h
  cases h
  simp

theorem fundsText_begins {m : Message} (h : fundsText m = .ok t) :
    ∃ rest, t.toList = 'f' :: rest := by
  obtain ⟨text, -, rfl⟩ := map_ok h
  simp

theorem messageText_begins {m : Message} (h : messageText m = .ok t) :
    ∃ rest, t.toList = 'm' :: rest := by
  obtain ⟨text, -, rfl⟩ := map_ok h
  simp

theorem behind_messages {letter : Char} {ms : List Message} {ts : List String}
    (differ : 'm' ≠ letter) (h : ms.mapM messageText = .ok ts) :
    Behind letter (tails '|' ts) := by
  rw [← List.append_nil (tails '|' ts)]
  refine (behind_nil letter).tails differ fun t ht => ?_
  obtain ⟨m, -, hm⟩ := mem_of_mapM_ok h t ht
  exact messageText_begins hm

theorem behind_funds {ms : List Message} {ts : List String} (h : ms.mapM messageText = .ok ts) :
    Behind 'f' (tails '|' ts) := behind_messages (by decide) h

theorem behind_changes {fs ms : List Message} {ts us : List String}
    (hf : fs.mapM fundsText = .ok ts) (hm : ms.mapM messageText = .ok us) :
    Behind 'c' (tails '|' ts ++ tails '|' us) := by
  have last : Behind 'c' (tails '|' us) := behind_messages (by decide) hm
  refine last.tails (show 'f' ≠ 'c' by decide) fun t ht => ?_
  obtain ⟨m, -, hm⟩ := mem_of_mapM_ok hf t ht
  exact fundsText_begins hm

end letters

theorem toList_text {cs : List Change} {fs ms : List Message} {kind : OriginKind} {s a t : String}
    (named : a ≠ "") (h : text cs fs ms ⟨kind, .text s, .text a⟩ = .ok t) :
    ∃ ts us vs, cs.mapM changeText = .ok ts ∧ fs.mapM fundsText = .ok us ∧
      ms.mapM messageText = .ok vs ∧ t.toList = ("origin:" ++ kind.text ++ ":" ++ s).toList ++
        '|' :: (("action:" ++ a).toList ++ (tails '|' ts ++ (tails '|' us ++ tails '|' vs))) := by
  obtain ⟨-, -, h⟩ := bind_ok h
  obtain ⟨ts, hts, h⟩ := bind_ok h
  obtain ⟨us, hus, h⟩ := bind_ok h
  obtain ⟨vs, hvs, h⟩ := bind_ok h
  cases h
  refine ⟨ts, us, vs, hts, hus, hvs, ?_⟩
  have parts : originText ⟨kind, .text s, .text a⟩ =
      ["origin:" ++ kind.text ++ ":" ++ s, "action:" ++ a] := by
    have meant : (Value.text a).isVoid = false := decide_eq_false named
    rw [originText, Origin.namedAction?, meant]
    rfl
  have bar : "|" = String.ofList ['|'] := rfl
  rw [parts, bar, List.append_assoc, List.append_assoc, List.cons_append, toList_join_cons,
    List.cons_append, List.nil_append, tails_cons, tails_append, tails_append]

end Intent

theorem Origin.named_of_isClear {o : Origin} (h : o.isClear = true) : ∃ kind s a,
    o = ⟨kind, .text s, .text a⟩ ∧ isUnbroken s = true ∧ isUnbroken a = true ∧ a ≠ "" := by
  obtain ⟨kind, ⟨source⟩, action⟩ := o
  unfold isClear at h
  split at h
  · rename_i s a hs ha
    cases hs
    cases ha
    simp only [Bool.and_eq_true, bne_iff_ne] at h
    exact ⟨kind, s, a, rfl, h.1.1, h.1.2, h.2⟩
  · cases h

/-- Clear transactions of one text do the same. -/
theorem Pending.sameIntent_of_text {p q : Pending} {t : String} (hp : p.isClear = true)
    (hq : q.isClear = true) (ht : p.intentText = .ok t) (hu : q.intentText = .ok t) :
    p.SameIntent q := by
  simp only [isClear, Bool.and_eq_true] at hp hq
  obtain ⟨⟨⟨changes, funds⟩, messages⟩, origin⟩ := hp
  obtain ⟨⟨⟨changes', funds'⟩, messages'⟩, origin'⟩ := hq
  obtain ⟨k, s, a, ho, source, action, named⟩ := Origin.named_of_isClear origin
  obtain ⟨k', s', a', ho', source', action', named'⟩ := Origin.named_of_isClear origin'
  rw [intentText, ho] at ht
  rw [intentText, ho'] at hu
  obtain ⟨ts, us, vs, hts, hus, hvs, written⟩ := Intent.toList_text named ht
  obtain ⟨ts', us', vs', hts', hus', hvs', written'⟩ := Intent.toList_text named' hu
  have afterFunds := Intent.behind_funds hvs
  have afterFunds' := Intent.behind_funds hvs'
  have afterChanges := Intent.behind_changes hus hvs
  have afterChanges' := Intent.behind_changes hus' hvs'
  obtain ⟨⟨kinds, sources⟩, h⟩ := Intent.originText_append source source' (stopped_cons rfl)
    (stopped_cons rfl) (written.symm.trans written')
  obtain ⟨actions, h⟩ := unbroken_append_append action action'
    (stopped_tails rfl ts afterChanges.1) (stopped_tails rfl ts' afterChanges'.1)
    (List.cons.inj h).2
  obtain ⟨sameChanges, h⟩ := Intent.tails_told Intent.changeText_begins
    Intent.changeText_append changes changes' hts hts' afterChanges afterChanges' h
  obtain ⟨sameFunds, h⟩ := Intent.tails_told Intent.fundsText_begins
    Intent.transferText_append funds funds' hus hus' afterFunds afterFunds' h
  obtain ⟨sameMessages, -⟩ := Intent.tails_told Intent.messageText_begins
    Intent.transferText_append messages messages' hvs hvs' (Intent.behind_nil 'm')
    (Intent.behind_nil 'm') (by rw [h])
  refine ⟨sameChanges, sameFunds, sameMessages, ?_⟩
  rw [ho, ho', kinds, sources, actions]

/-! ### Recognition -/

/-- The transaction is clear, and known by the id of its text. -/
structure Pending.Told (p : Pending) : Prop where
  clear : p.isClear = true
  id : ∃ t, p.intentText = .ok t ∧ p.intentId = .text (Intent.id t)

/-- The log holds clear transactions only, and one for every id that the book remembers. -/
structure Book.Recalls (b : Book) : Prop where
  log : ∀ t ∈ b.log, t.pending.Told
  seen : ∀ k ∈ b.seen, ∃ t ∈ b.log, t.intentId = k

namespace Book
variable {b : Book} {p : Pending}

theorem Recalls.posted (h : b.Recalls) (told : p.Told) : (b.posted p).Recalls := by
  constructor
  · rw [log_posted, List.forall_mem_append, List.forall_mem_singleton]
    exact ⟨h.log, told⟩
  · have kept : ∀ k ∈ b.seen, ∃ t ∈ b.log ++ [b.nextTransaction p], t.intentId = k := by
      intro k hk
      obtain ⟨t, ht, same⟩ := h.seen k hk
      exact ⟨t, List.mem_append_left _ ht, same⟩
    rw [seen_posted, log_posted]
    split
    · exact kept
    · rw [List.forall_mem_append, List.forall_mem_singleton]
      exact ⟨kept, _, List.mem_append_right _ List.mem_cons_self, rfl⟩

/-- Only an intent that is remembered is taken for one that was applied. -/
theorem seen_of_alreadyApplied (h : (b.execute p).answer = .ok .alreadyApplied) :
    b.seen.contains p.intentId = true ∧ (b.execute p).book = b := by
  unfold execute at h ⊢
  split at h
  · cases h
  · rename_i filled
    rw [if_neg filled]
    split at h
    · cases h
    · split at h
      · rename_i seen
        rw [if_pos seen]
        exact ⟨seen, book_announce ..⟩
      · cases eq_of_answer_announce h
    · split at h
      · cases h
      · cases eq_of_answer_announce h

theorem submit_ok {found : Option Transaction} (h : (b.submit p).answer = .ok found) :
    ((b.execute p).answer = .ok .applied ∨ (b.execute p).answer = .ok .alreadyApplied) ∧
      (b.execute p).book.findTransaction? p.intentId = found := by
  dsimp only [submit] at h
  split at h
  · cases h
  · cases h
  · rename_i verdict other answer
    rw [answer]
    cases verdict with
    | applied => exact ⟨.inl rfl, Except.ok.inj h⟩
    | alreadyApplied => exact ⟨.inr rfl, Except.ok.inj h⟩
    | rejected => exact absurd rfl other

end Book

/-- Every transaction that is computed is clear. -/
def Clearly (b : Book) : Move → Prop
  | .compute e a => ∀ p ∈ (b.transact e a).toOption, p.isClear = true
  | _ => True

instance decidableClearly : ∀ (b : Book) (m : Move), Decidable (Clearly b m)
  | b, .compute e a =>
    inferInstanceAs (Decidable (∀ p ∈ (b.transact e a).toOption, p.isClear = true))
  | _, .execute _ | _, .advance .. | _, .fund .. | _, .mint .. | _, .transfer .. => .isTrue trivial

/-- What is kept was computed from clear texts, and the book recalls what it has applied. -/
structure Session.Recalls (s : Session) : Prop where
  kept : ∀ p ∈ s.kept, p.Told
  book : s.book.Recalls

section recognition
variable {b : Book} {e : Envelope} {a : Action} {p : Pending} {s₀ s s' : Session}

theorem Pending.Told.of_transact (sent : b.transact e a = .ok p) (clear : p.isClear = true) :
    p.Told := ⟨clear, transact_intentId sent⟩

theorem Session.Sound.recalls_after {P : Book → Move → Prop} {m : Move} (sound : s.Sound P)
    (h : s.Recalls) (allowed : Clearly s.book m) : (s.after m).Recalls := by
  constructor
  · intro p hp
    rcases s.kept_after m hp with hp | ⟨-, e, a, rfl, sent⟩
    · exact h.kept p hp
    · exact .of_transact sent (allowed p (toOption_eq_some_iff.2 sent))
  · have moved := sound.moved m
    cases m with
    | compute e a =>
        rw [book_after_compute]
        exact h.book
    | execute place =>
        dsimp only [Session.after]
        split
        · rename_i p hp
          have mem := List.mem_of_getElem? hp
          obtain ⟨b₀, e, a, ss, as, source⟩ := sound.kept p mem
          rw [withBook]
          rcases source.computed.execute source.coherent source.since sound.book with
            left | ⟨-, left⟩ | ⟨-, -, -, -, -, posted⟩
          · rw [left]
            exact h.book
          · rw [left]
            exact ⟨h.book.log, h.book.seen⟩
          · rw [posted]
            exact h.book.posted (h.kept p mem)
        · exact h.book
    | advance | fund | mint | transfer =>
        generalize (s.after _).book = b' at moved ⊢
        cases moved with
        | still => exact h.book
        | _ => exact ⟨h.book.log, h.book.seen⟩

theorem Reaches.recalls (run : Reaches Clearly s s') (sound : s.Sound Clearly) (h : s.Recalls) :
    s'.Sound Clearly ∧ s'.Recalls := by
  induction run with
  | start => exact ⟨sound, h⟩
  | step m run allowed ih => exact ⟨ih.1.after allowed, ih.1.recalls_after ih.2 allowed⟩

theorem Session.IsFresh.recalls (h : s.IsFresh) : s.Recalls := by
  refine ⟨?_, ?_, ?_⟩
  · rw [h.kept]
    nofun
  · rw [h.log]
    nofun
  · rw [h.seen]
    nofun

/-- A clear transaction whose id a book remembers was applied by it. -/
theorem Book.Recalls.recognized (h : b.Recalls) (told : p.Told)
    (seen : b.seen.contains p.intentId = true)
    (apart : ∀ t ∈ b.log, ∀ u w, t.pending.intentText = .ok u → p.intentText = .ok w →
      Intent.id u = Intent.id w → u = w) :
    ∃ t ∈ b.log, t.pending.SameIntent p ∧ b.findTransaction? p.intentId = some t := by
  obtain ⟨clear, w, hw, identified⟩ := told
  have applied : b.Applied p.intentId := by
    obtain ⟨k, hk, same⟩ := List.contains_iff_exists_mem_beq.1 seen
    obtain ⟨t, ht, ident⟩ := h.seen k hk
    refine ⟨seen, t, ht, ?_⟩
    rw [identified] at same ⊢
    rw [ident, Key.eq_text_of_beq same]
  rw [identified] at applied ⊢
  obtain ⟨t, ht, ident, found⟩ := applied.findTransaction?
  obtain ⟨clear', u, hu, identified'⟩ := h.log t ht
  have ids : Intent.id u = Intent.id w := Value.text.inj (congrArg Key.value
    (identified'.symm.trans ident))
  rw [apart t ht u w hu hw ids] at hu
  exact ⟨t, ht, Pending.sameIntent_of_text clear' clear hu hw, found⟩

end recognition

/-- When a book takes a clear transaction for one that was applied, or a submission answers a logged
transaction, that one does the same: it makes the same changes and the same transfers, for the same
sender. What the run computed is clear, and no logged transaction has the id of another text. -/
theorem already_applied_sound {s₀ s₁ s : Session} {e : Envelope} {a : Action} {p : Pending}
    (fresh : s₀.IsFresh) (run : Reaches Clearly s₀ s₁) (sent : s₁.book.transact e a = .ok p)
    (clear : p.isClear = true) (later : Reaches Clearly s₁ s)
    (apart : ∀ t ∈ s.book.log, ∀ u w, t.pending.intentText = .ok u → p.intentText = .ok w →
      Intent.id u = Intent.id w → u = w) :
    ((s.book.execute p).answer = .ok .alreadyApplied →
        ∃ t ∈ s.book.log, t.pending.SameIntent p ∧ (s.book.submit p).answer = .ok (some t)) ∧
      ∀ t, (s.book.submit p).answer = .ok (some t) → t.pending.SameIntent p := by
  obtain ⟨ss, as, computed⟩ := transact_plan sent
  have told : p.Told := .of_transact sent clear
  obtain ⟨before, recalled⟩ := run.recalls fresh.sound fresh.recalls
  obtain ⟨sound, recalls⟩ := later.recalls before recalled
  have since := (later.precedes before).2.since
  have recognized : (s.book.execute p).answer = .ok .alreadyApplied →
      ∃ t ∈ s.book.log, t.pending.SameIntent p ∧ (s.book.submit p).answer = .ok (some t) := by
    intro answer
    obtain ⟨seen, book⟩ := Book.seen_of_alreadyApplied answer
    obtain ⟨t, ht, same, found⟩ := recalls.book.recognized told seen apart
    refine ⟨t, ht, same, ?_⟩
    dsimp only [Book.submit]
    rw [answer, book, found]
  refine ⟨recognized, fun t submitted => ?_⟩
  obtain ⟨answer | answer, found⟩ := Book.submit_ok submitted
  · obtain ⟨-, -, -, posted⟩ := computed.posted_of_applied before.book since sound.book answer
    rw [posted, Book.findTransaction?_posted] at found
    cases found
    exact .refl p
  · obtain ⟨t', -, same, submitted'⟩ := recognized answer
    cases submitted.symm.trans submitted'
    exact same

namespace Session

/-- The session after a call: its transaction is computed and applied at once. -/
def called (s : Session) (e : Envelope) (a : Action) : Session :=
  (s.after (.compute e a)).after (.execute s.kept.length)

theorem called_eq {s : Session} {e : Envelope} {a : Action} {p : Pending}
    (sent : s.book.transact e a = .ok p) :
    s.called e a = ⟨(s.book.execute p).book, s.kept ++ [p]⟩ := by
  have computed : s.after (.compute e a) = { s with kept := s.kept ++ [p] } := by
    dsimp only [after]
    rw [sent]
  rw [called, computed]
  dsimp only [after]
  rw [List.getElem?_concat_length]
  rfl

/-- After a call its transaction is logged, and another one with the same id that does not fit is
taken for it. -/
theorem Sound.recognizes_called {P : Book → Move → Prop} {s : Session} {e : Envelope} {a : Action}
    {p q : Pending} (sound : s.Sound P) (sent : s.book.transact e a = .ok p)
    (applied : (s.book.execute p).answer.toOption = some .applied) (filled : q.isEmpty = false)
    (same : q.intentId = p.intentId)
    (refused : ((s.book.execute p).book.refusal? q).toOption.join.isSome = true) :
    ((s.called e a).book.execute q).answer = .ok .alreadyApplied ∧
      (s.called e a).book.log = s.book.log ++ [s.book.nextTransaction p] := by
  obtain ⟨ss, as, computed⟩ := transact_plan sent
  obtain ⟨-, -, -, posted⟩ := computed.posted_of_applied sound.book (.refl _) sound.book
    (toOption_eq_some_iff.1 applied)
  obtain ⟨id, named⟩ := computed.intentId
  have short : q.intentId.value.isShort = true := by rw [same, named]; rfl
  obtain ⟨reason, hr⟩ := Option.isSome_iff_exists.1 refused
  have refusal := toOption_eq_some_iff.1 (Option.join_eq_some_iff.1 hr)
  rw [called_eq sent]
  dsimp only
  rw [posted] at refusal ⊢
  have recorded := s.book.applied_posted p
  rw [← same] at recorded
  exact ⟨(Book.execute_again filled refusal recorded short).1, s.book.log_posted p⟩

end Session

/-- Alice lists her token, and the same transaction is recognized. -/
theorem already_applied_sound_listed : ∃ p,
    Session.minted.book.transact (Session.alice []) Session.offering = .ok p ∧
    ((Session.minted.called (Session.alice []) Session.offering).book.execute p).answer =
      .ok .alreadyApplied ∧
    ∃ t ∈ (Session.minted.called (Session.alice []) Session.offering).book.log,
      t.pending.SameIntent p := by
  have sent : ∃ p ∈ (Session.minted.book.transact (Session.alice [])
        Session.offering).toOption,
      p.isClear = true ∧ (Session.minted.book.execute p).answer.toOption = some .applied ∧
      ((Session.minted.book.execute p).book.refusal? p).toOption.join.isSome = true := by
    decide +kernel
  obtain ⟨p, sent, clear, applied, refused⟩ := sent
  have sent := toOption_eq_some_iff.1 sent
  obtain ⟨ss, as, computed⟩ := transact_plan sent
  have run : Reaches Clearly Session.opening Session.minted := Reaches.start.run ⟨trivial, trivial⟩
  have allowed : Clearly Session.minted.book (.compute (Session.alice []) Session.offering) := by
    intro q hq
    rw [sent] at hq
    cases hq
    exact clear
  have later : Reaches Clearly Session.minted
      (Session.minted.called (Session.alice []) Session.offering) :=
    .step _ (.step _ .start allowed) trivial
  obtain ⟨answer, log⟩ := (run.sound Session.isFresh_opening).recognizes_called sent applied
    computed.isEmpty_eq_false rfl refused
  obtain ⟨recognized, -⟩ := already_applied_sound Session.isFresh_opening run sent clear later (by
    -- the one logged transaction has the text of this one
    intro t ht u w hu hw _
    rw [log] at ht
    rcases List.mem_append.1 ht with ht | ht
    · cases ht
    · cases List.mem_singleton.1 ht
      exact Except.ok.inj (hu.symm.trans hw))
  obtain ⟨t, ht, same, -⟩ := recognized answer
  exact ⟨p, sent, answer, t, ht, same⟩

namespace Session

/-- A token whose id reads like the end of a record. -/
def disguised : Nft := ⟨.cw721, ⟨"cats", "1,token_id=S:2"⟩⟩

/-- Another token that is written alike. -/
def double : Nft := ⟨.cw721, ⟨"cats,token_id=S:1", "2"⟩⟩

/-- The new contract, and Alice has both tokens. -/
def doubled : Session := opening.run [.mint (.nft disguised) "alice", .mint (.nft double) "alice"]

/-- A token is listed without terms. -/
def listingOf (nft : Nft) : Action := .deposit [.nft nft] none none none

end Session

/-- Two different transactions can have one text. Once the one was applied, the other is taken for
it, though no logged transaction does the same. -/
theorem collided_applied :
    Reaches (fun _ _ => True) Session.opening Session.doubled ∧
    ∃ q, Session.doubled.book.transact (Session.alice []) (Session.listingOf Session.double) =
        .ok q ∧
      ((Session.doubled.called (Session.alice [])
        (Session.listingOf Session.disguised)).book.execute q).answer = .ok .alreadyApplied ∧
      ∀ t ∈ (Session.doubled.called (Session.alice [])
          (Session.listingOf Session.disguised)).book.log,
        t.pending.intentText = q.intentText ∧ ¬ t.pending.SameIntent q := by
  have sent : ∃ p ∈ (Session.doubled.book.transact (Session.alice [])
        (Session.listingOf Session.disguised)).toOption,
      ∃ q ∈ (Session.doubled.book.transact (Session.alice [])
        (Session.listingOf Session.double)).toOption,
      p.intentText.toOption = q.intentText.toOption ∧
      p.changes.map (·.toValue.normal) ≠ q.changes.map (·.toValue.normal) ∧
      (Session.doubled.book.execute p).answer.toOption = some .applied ∧
      ((Session.doubled.book.execute p).book.refusal? q).toOption.join.isSome = true := by
    decide +kernel
  obtain ⟨p, sent, q, sent', texts, differ, applied, refused⟩ := sent
  have sent := toOption_eq_some_iff.1 sent
  have sent' := toOption_eq_some_iff.1 sent'
  obtain ⟨t, written, identified⟩ := transact_intentId sent
  obtain ⟨t', written', identified'⟩ := transact_intentId sent'
  rw [written, written'] at texts
  obtain rfl : t = t' := Option.some.inj texts
  obtain ⟨ss, as, computed⟩ := transact_plan sent'
  have run : Reaches (fun _ _ => True) Session.opening Session.doubled :=
    Reaches.start.run ⟨trivial, trivial, trivial⟩
  obtain ⟨answer, log⟩ := (run.sound Session.isFresh_opening).recognizes_called sent applied
    computed.isEmpty_eq_false (identified'.trans identified.symm) refused
  refine ⟨run, q, sent', answer, fun t ht => ?_⟩
  rw [log] at ht
  rcases List.mem_append.1 ht with ht | ht
  · cases ht
  · cases List.mem_singleton.1 ht
    exact ⟨written.trans written'.symm, fun same => differ same.changes⟩

end Pawnbook
