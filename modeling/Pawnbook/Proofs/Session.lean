import Mathlib.Algebra.Ring.Int.Defs
import Pawnbook.Proofs.Posting

/-! # Sessions

A session is a book together with the pending transactions that were computed on it and kept. Its
moves compute a transaction on the current book, carry out one that was kept, at any later time and
any number of times, move the chain on, and change what lies outside the contract: balances and
tokens. `Reaches P s₀` are the sessions reachable by moves that a policy `P` allows.

`Session.Sound` is the one invariant of all sessions: the book is coherent, and every pending
transaction was computed on an earlier coherent book. From it a move of a session is one of seven
changes of the book (`Book.Moved`), and an invariant of books has to be proved of these only
(`Reaches.invariant`). -/

namespace Pawnbook

/-! ### Sessions and their moves -/

/-- A book, and the transactions that were computed and kept. -/
structure Session where
  book : Book
  kept : List Pending

/-- A step of a session. -/
inductive Move where
  /-- Compute the transaction of an action and keep it. -/
  | compute (e : Envelope) (a : Action)
  /-- Carry out the kept transaction at a place. -/
  | execute (place : Nat)
  /-- Move the chain on by some blocks. -/
  | advance (blocks : Int) (secondsPerBlock : Number)
  /-- Set a balance. -/
  | fund (address denom : Key) (amount : Number)
  /-- Enter a token outside the contract. -/
  | mint (asset : Asset) (owner : Key)
  /-- Transfer a token outside the contract. -/
  | transfer (token : Token) (sender recipient : Key)

namespace Session

def withBook (s : Session) (b : Book) : Session := { s with book := b }

/-- The session with another book, or as it was. -/
def tryBook (s : Session) (r : Except Error Book) : Session :=
  match r with
  | .ok b => s.withBook b
  | .error _ => s

/-- The session after a move. A move that fails leaves it alone. -/
def after (s : Session) : Move → Session
  | .compute e a =>
    match s.book.transact e a with
    | .ok p => { s with kept := s.kept ++ [p] }
    | .error _ => s
  | .execute place =>
    match s.kept[place]? with
    | some p => s.withBook (s.book.execute p).book
    | none => s
  | .advance blocks secondsPerBlock =>
    s.withBook (s.book.advance (.whole blocks) secondsPerBlock).book
  | .fund address denom amount => s.tryBook (s.book.setBalance address denom amount)
  | .mint asset owner => s.tryBook (s.book.mint asset owner)
  | .transfer token sender recipient =>
    s.tryBook do
      return { s.book with registry := ← s.book.registry.transfer token sender recipient }

/-- A new contract: its configuration comes from an instantiation, and nothing is recorded yet.
Bank, registry and fees are whatever they are. -/
structure IsFresh (s : Session) : Prop where
  kept : s.kept = []
  config : ∃ e name feeDistributor feeRate owner,
    Config.instantiate e name feeDistributor feeRate owner = .ok s.book.config
  misfit : s.book.misfit = none
  height : ∃ n : Int, s.book.height = .whole n
  borrowers : s.book.borrowers = .empty
  listings : s.book.listings = .empty
  offers : s.book.offers = .empty
  seen : s.book.seen = []
  log : s.book.log = []
  nextSequence : s.book.nextSequence = 0

/-- A new contract with a fee rate of five percent, in test mode so that balances can be set. -/
def opening : Session where
  book :=
    { name := .text "pawn"
      config :=
        { name := .text "pawn", ownership := { owner := "owner" }, feeDistributor := "fees"
          feeRate := .finite false 5 (-2) }
      time := Book.defaultTime
      testMode := true }
  kept := []

theorem isFresh_opening : opening.IsFresh where
  kept := rfl
  config :=
    ⟨⟨"owner", [], by decide⟩, .text "pawn", "fees", .decimal (.finite false 5 (-2)), "", rfl⟩
  misfit := rfl
  height := ⟨12345, rfl⟩
  borrowers := rfl
  listings := rfl
  offers := rfl
  seen := rfl
  log := rfl
  nextSequence := rfl

end Session

/-- The sessions reachable from `s₀` by moves that the policy `P` allows on the book at hand. -/
inductive Reaches (P : Book → Move → Prop) (s₀ : Session) : Session → Prop
  | start : Reaches P s₀ s₀
  | step {s : Session} (m : Move) (run : Reaches P s₀ s) (allowed : P s.book m) :
      Reaches P s₀ (s.after m)

theorem Reaches.trans {P : Book → Move → Prop} {s₀ s₁ s : Session} (run : Reaches P s₀ s₁)
    (later : Reaches P s₁ s) : Reaches P s₀ s := by
  induction later with
  | start => exact run
  | step m later allowed ih => exact .step m ih allowed

theorem Reaches.weaken {P Q : Book → Move → Prop} {s₀ s : Session} (run : Reaches P s₀ s)
    (h : ∀ b m, P b m → Q b m) : Reaches Q s₀ s := by
  induction run with
  | start => exact .start
  | step m run allowed ih => exact .step m ih (h _ m allowed)

namespace Session

def run (s : Session) (ms : List Move) : Session := ms.foldl after s

/-- The policy allows the moves one after the other. -/
def Allows (P : Book → Move → Prop) : Session → List Move → Prop
  | _, [] => True
  | s, m :: ms => P s.book m ∧ (s.after m).Allows P ms

instance decidableAllows {P : Book → Move → Prop} [∀ b m, Decidable (P b m)] :
    ∀ (s : Session) (ms : List Move), Decidable (s.Allows P ms)
  | _, [] => .isTrue trivial
  | s, m :: ms =>
    have := decidableAllows (P := P) (s.after m) ms
    inferInstanceAs (Decidable (P s.book m ∧ (s.after m).Allows P ms))

end Session

theorem Reaches.run {P : Book → Move → Prop} {s₀ : Session} : ∀ {ms : List Move} {s : Session},
    Reaches P s₀ s → s.Allows P ms → Reaches P s₀ (s.run ms)
  | [], _, h, _ => h
  | m :: _, _, h, ⟨allowed, rest⟩ => (Reaches.step m h allowed).run rest

namespace Session

/-- The token that Alice lists. -/
def cat : Nft := ⟨.cw721, ⟨"cats", "1"⟩⟩

/-- Coins of one denomination. -/
def stars (amount : Nat) : Coin := ⟨"stars", amount, by decide⟩

def alice (funds : List Tender) : Envelope := ⟨"alice", funds, by decide⟩

def bob (funds : List Tender) : Envelope := ⟨"bob", funds, by decide⟩

def carol (funds : List Tender) : Envelope := ⟨"carol", funds, by decide⟩

def owner : Envelope := ⟨"owner", [], by decide⟩

/-- Alice lists her token at terms of her own. Bob makes her another offer, and Carol takes her
terms. -/
def lending : List Move :=
  [.mint (.nft cat) "alice",
   .compute ⟨"alice", [], by decide⟩
    (.deposit [.nft cat] (some (.ofNat (stars 500) 50 10)) none none),
   .execute 0,
   .fund "bob" "stars" (.whole 1000),
   .compute ⟨"bob", [.coin (stars 1000)], by decide⟩
    (.makeOffer ⟨"alice", .int 0⟩ (some (.ofNat (stars 1000) 120 100)) none),
   .execute 1,
   .fund "carol" "stars" (.whole 1000),
   .compute ⟨"carol", [.coin (stars 500)], by decide⟩ (.acceptLoan ⟨"alice", .int 0⟩ none),
   .execute 2]

/-- The new contract after these moves: Bob's offer waits, and Carol's loan runs. -/
def lent : Session := opening.run lending

theorem reaches_lent {P : Book → Move → Prop} (h : opening.Allows P lending) :
    Reaches P opening lent := Reaches.start.run h

/-- Carol's loan to Alice, and Alice has enough to repay it. -/
def repayable : Session := opening.run (lending ++ [.fund "alice" "stars" (.whole 600)])

/-- Bob's offer and Carol's loan are left alone for so many blocks that their number cannot be
written. -/
def aged : Session := lent.run [.advance (10 ^ Text.maxDigits) (.whole 0)]

theorem book_after_compute (s : Session) (e : Envelope) (a : Action) :
    (s.after (.compute e a)).book = s.book := by
  dsimp only [after]
  split <;> rfl

end Session

/-! ### What a move does to the book -/

/-- A pending transaction that was computed on an earlier, coherent book. -/
structure Pending.Sourced (P : Book → Move → Prop) (b : Book) (p : Pending) (b₀ : Book)
    (e : Envelope) (a : Action) (ss : List BankSend) (as : Attributes) : Prop where
  allowed : P b₀ (.compute e a)
  coherent : b₀.Coherent
  since : b₀.Since b
  computed : Computed b₀ e a p ss as

/-- The book is coherent, and every kept transaction was computed on an earlier such book. -/
structure Session.Sound (P : Book → Move → Prop) (s : Session) : Prop where
  book : s.book.Coherent
  kept : ∀ p ∈ s.kept, ∃ b₀ e a ss as, p.Sourced P s.book b₀ e a ss as

/-- What a move can do to the book of a sound session. -/
inductive Book.Moved (P : Book → Move → Prop) (b : Book) : Move → Book → Prop
  | still {m : Move} : Moved P b m b
  | post {place : Nat} {p : Pending} {b₀ : Book} {e : Envelope} {a : Action} {ss : List BankSend}
      {as : Attributes} (source : p.Sourced P b b₀ e a ss as)
      (posting : Action.Posting b b₀.config e a p.changes ss p.messages as)
      (honoured : b.registry.Honours p.transfers) (covered : b.bank.Covers p.transfers)
      (fits : b.changesRefusal? p.changes = .ok none) (id : b.requireExecId = .ok ()) :
      Moved P b (.execute place) (b.posted p)
  /-- At a height that cannot be written. -/
  | number {place : Nat} {f : Decimal.Failure} (id : b.requireExecId = .error f) :
      Moved P b (.execute place) b.numbered
  | advance {blocks : Int} {seconds : Number} {height height' : Int} {time : Time}
      (stands : b.height = .whole height) (forward : height ≤ height') :
      Moved P b (.advance blocks seconds) { b with height := .whole height', time }
  | fund {address denom : Key} {amount : Number} :
      Moved P b (.fund address denom amount)
        { b with bank := b.bank.write address denom amount }
  | mint {nft : Nft} {owner : Key} :
      Moved P b (.mint (.nft nft) owner) { b with registry := b.registry.assign nft.token owner }
  | transfer {token : Token} {sender recipient : Key}
      (held : (b.registry.holder token == sender) = true) :
      Moved P b (.transfer token sender recipient)
        { b with registry := b.registry.assign token recipient }

/-- What a move does to a book is a matter of the policy only as far as it allowed what is carried
out. -/
theorem Book.Moved.weaken {P Q : Book → Move → Prop} {b b' : Book} {m : Move}
    (h : b.Moved P m b') (weaker : ∀ b m, P b m → Q b m) : b.Moved Q m b' := by
  cases h with
  | still => exact .still
  | post source posting honoured covered fits id =>
      exact .post ⟨weaker _ _ source.allowed, source.coherent, source.since, source.computed⟩
        posting honoured covered fits id
  | number id => exact .number id
  | advance stands forward => exact .advance stands forward
  | fund => exact .fund
  | mint => exact .mint
  | transfer held => exact .transfer held

section moves
variable {P : Book → Move → Prop} {s : Session}

theorem Book.setBalance_ok {b b' : Book} {address denom : Key} {amount : Number}
    (h : b.setBalance address denom amount = .ok b') :
    b' = { b with bank := b.bank.write address denom amount } := by
  obtain ⟨-, h⟩ := require_ok h
  obtain ⟨bank, hb, h⟩ := bind_ok h
  obtain ⟨-, hb⟩ := refuse_ok hb
  cases hb
  cases h
  rfl

theorem Book.mint_ok {b b' : Book} {asset : Asset} {owner : Key} (h : b.mint asset owner = .ok b') :
    ∃ nft, asset = .nft nft ∧ b' = { b with registry := b.registry.assign nft.token owner } := by
  obtain ⟨registry, hr, h⟩ := bind_ok h
  cases h
  cases asset with
  | nft n =>
      cases hr
      exact ⟨n, rfl, rfl⟩
  | cw1155 | cw20 | native => cases hr

theorem Book.advance_moved {b : Book} {height : Int} (hb : b.height = .whole height)
    (blocks : Int) (seconds : Number) :
    Moved P b (.advance blocks seconds) (b.advance (.whole blocks) seconds).book := by
  unfold advance
  split
  · exact .still
  · rename_i hn
    rw [Number.isNegative_whole, decide_eq_true_eq] at hn
    have hraised : b.height.add (.whole blocks) = .whole (height + blocks) := by
      rw [hb, Number.add_whole]
    have hle : height ≤ height + blocks := by omega
    rw [hraised]
    have moved : ∀ time, Moved P b (.advance blocks seconds)
        { b with height := .whole (height + blocks), time } := fun time => .advance hb hle
    dsimp only
    split
    · exact moved _
    · exact moved b.time

/-- A move of a sound session does one of the seven things to its book. -/
theorem Session.Sound.moved (h : s.Sound P) (m : Move) :
    s.book.Moved P m (s.after m).book := by
  cases m with
  | compute e a =>
      rw [Session.book_after_compute]
      exact .still
  | execute place =>
      dsimp only [after]
      split
      · rename_i p hp
        obtain ⟨b₀, e, a, ss, as, hs⟩ := h.kept p (List.mem_of_getElem? hp)
        rcases hs.computed.execute hs.coherent hs.since h.book with
          hb | ⟨⟨f, id⟩, hb⟩ | ⟨id, fits, hpost, hh, hc, hb⟩
        · rw [withBook, hb]
          exact .still
        · rw [withBook, hb]
          exact .number id
        · rw [withBook, hb]
          exact .post hs hpost hh hc fits id
      · exact .still
  | advance blocks seconds =>
      obtain ⟨n, hn⟩ := h.book.height
      exact Book.advance_moved hn blocks seconds
  | fund address denom amount =>
      dsimp only [after, tryBook]
      split
      · rename_i b' hb
        rw [withBook, Book.setBalance_ok hb]
        exact .fund
      · exact .still
  | mint asset owner =>
      dsimp only [after, tryBook]
      split
      · rename_i b' hb
        obtain ⟨nft, rfl, rfl⟩ := Book.mint_ok hb
        exact .mint
      · exact .still
  | transfer token sender recipient =>
      dsimp only [after, tryBook]
      split
      · rename_i b' hb
        obtain ⟨registry, hr, hb⟩ := bind_ok hb
        obtain ⟨hheld, hr⟩ := require_ok hr
        cases hr
        cases hb
        exact .transfer hheld
      · exact .still

end moves

/-! ### Sound sessions -/

section sound
variable {P : Book → Move → Prop} {b b' : Book} {m : Move} {s₀ s : Session}

theorem Book.Moved.follows (h : b.Moved P m b') (hb : b.Coherent) : b.Follows b' := by
  cases h with
  | still => exact .refl b
  | post source posting => exact ((posting.edit hb).follows hb).alike (b.alike_posted _)
  | @advance blocks seconds height height' time stands forward =>
      refine { Follows.refl b with height := ?_ }
      intro n hn
      cases stands.symm.trans hn
      exact ⟨height', rfl, forward⟩
  | number | fund | mint | transfer => exact (Follows.refl b).alike ⟨rfl, rfl, rfl, rfl, rfl, rfl⟩

theorem Book.Moved.coherent (h : b.Moved P m b') (hb : b.Coherent) : b'.Coherent := by
  have since := (h.follows hb).since
  cases h with
  | still => exact hb
  | post source posting => exact ((posting.edit hb).coherent hb).alike (b.alike_posted _)
  | advance =>
      exact hb.of_since since hb.config hb.misfit hb.index (fun key l hl => .inr ⟨l, hl, rfl⟩)
        fun _ _ ho => .inr ho
  | number | fund | mint | transfer => exact hb.alike ⟨rfl, rfl, rfl, rfl, rfl, rfl⟩

/-- The kept transactions after a move are those before it, and the one that it computed. -/
theorem Session.kept_after (s : Session) (m : Move) {p : Pending} (hp : p ∈ (s.after m).kept) :
    p ∈ s.kept ∨
      (s.after m).book = s.book ∧ ∃ e a, m = .compute e a ∧ s.book.transact e a = .ok p := by
  cases m with
  | compute e a =>
      dsimp only [after] at hp ⊢
      split at hp
      · rename_i p' hp'
        rcases List.mem_append.1 hp with hp | hp
        · exact .inl hp
        · rw [List.mem_singleton] at hp
          subst hp
          exact .inr ⟨rfl, e, a, rfl, hp'⟩
      · exact .inl hp
  | execute place =>
      dsimp only [after] at hp
      split at hp <;> exact .inl hp
  | advance => exact .inl hp
  | fund | mint | transfer =>
      dsimp only [after, tryBook] at hp
      split at hp <;> exact .inl hp

theorem Session.Sound.after (h : s.Sound P) (allowed : P s.book m) : (s.after m).Sound P := by
  have hm := h.moved m
  have onward : s.book.Since (s.after m).book := (hm.follows h.book).since
  constructor
  · exact hm.coherent h.book
  · intro p hp
    rcases s.kept_after m hp with hp | ⟨hb, e, a, rfl, ht⟩
    · obtain ⟨b₀, e, a, ss, as, hs⟩ := h.kept p hp
      have since := hs.since.trans onward
      exact ⟨b₀, e, a, ss, as, hs.allowed, hs.coherent, since, hs.computed⟩
    · obtain ⟨ss, as, hc⟩ := transact_plan ht
      exact ⟨s.book, e, a, ss, as, allowed, h.book, onward, hc⟩

theorem Config.sound_of_instantiate {e : Envelope} {name rate : Value} {feeDistributor owner : Key}
    {c : Config} (h : instantiate e name feeDistributor rate owner = .ok c) : c.Sound := by
  obtain ⟨_, -, h⟩ := bind_ok h
  obtain ⟨feeRate, hr, h⟩ := bind_ok h
  cases h
  exact ⟨checkFeeRate_ok hr, 0, rfl⟩

theorem Session.IsFresh.sound (h : s.IsFresh) : s.Sound P where
  book := by
    obtain ⟨e, name, feeDistributor, rate, owner, hc⟩ := h.config
    refine ⟨Config.sound_of_instantiate hc, h.misfit, h.height, ?_, ?_, ?_⟩
    · rw [h.offers]
      exact OfferIndex.coherent_empty
    · intro key l hl
      rw [Book.listing?, h.listings] at hl
      cases hl
    · intro id o ho
      rw [Book.storedOffer?, h.offers] at ho
      cases ho
  kept p hp := by
    rw [h.kept] at hp
    cases hp

theorem Reaches.sound (run : Reaches P s₀ s) (fresh : s₀.IsFresh) : s.Sound P := by
  induction run with
  | start => exact fresh.sound
  | step m run allowed ih => exact ih.after allowed

/-- An invariant of books holds after every run if the changes of sound sessions keep it. -/
theorem Reaches.invariant {I : Book → Prop} (run : Reaches P s₀ s) (fresh : s₀.IsFresh)
    (start : I s₀.book)
    (step : ∀ {b m b'}, b.Coherent → P b m → b.Moved P m b' → I b → I b') : I s.book := by
  induction run with
  | start => exact start
  | step m run allowed ih =>
      have hs := run.sound fresh
      exact step hs.book allowed (hs.moved m) ih

end sound
end Pawnbook
