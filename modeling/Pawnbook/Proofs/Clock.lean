import Mathlib.Algebra.Ring.Int.Defs
import Pawnbook.Action.Message
import Pawnbook.Proofs.Flow
import Pawnbook.Proofs.Session
import Pawnbook.Proofs.Steps

/-! # Height and time

A block takes six seconds, so height and time should go on together. Messages and executions touch
neither (`Book.stepsKeep_clock`). Moving the chain on raises the height first; where the calendar
has no time for the blocks, the time then stays behind. `height_and_time` says of every run how far
height and time have come: the time lacks the blocks that were missed, and nothing else. A failed
call that raises the height takes a loan past its deadline (`failed_pass_defaults`). -/

namespace Pawnbook

/-! ### The calendar -/

namespace Time

/-- The microseconds of all years that the calendar has. -/
def calendar : Int := 3652059 * 86400000000

variable {t : Time} {span : Int}

theorem after_within (forward : 0 ≤ span) (within : t.micros + span < calendar) :
    ∃ t', t.after span = .ok t' ∧ (t'.micros : Int) = t.micros + span := by
  unfold calendar at within
  have days : 0 ≤ Int.fdiv span microsPerDay ∧ Int.fdiv span microsPerDay ≤ 3652059 := by
    rw [Int.fdiv_eq_ediv_of_nonneg _ (by decide), microsPerDay]
    omega
  unfold after
  rw [if_neg (by omega), if_neg (by omega), dif_pos ⟨by omega, within⟩]
  exact ⟨_, rfl, by simp only; omega⟩

theorem after_beyond (beyond : calendar ≤ t.micros + span) : ∃ e, t.after span = .error e := by
  unfold calendar at beyond
  unfold after
  dsimp only
  split
  · exact ⟨_, rfl⟩
  · split
    · exact ⟨_, rfl⟩
    · rw [dif_neg (by omega)]
      exact ⟨_, rfl⟩

end Time

namespace Book

/-! ### Moving the chain on -/

/-- The microseconds of a block. -/
def blockMicros : Int := 6000000

/-- The book with its height raised by some blocks. -/
def raised (b : Book) (k : Int) : Book := { b with height := b.height.add (.whole k) }

section advance
variable {b : Book} {k : Int}

theorem advance_backwards (h : k < 0) : b.advance (.whole k) blockSeconds =
    { book := b, answer := .error (.malformed (.backwards (.whole k))) } := by
  unfold advance
  rw [if_pos (by rw [Number.isNegative_whole]; exact decide_eq_true h)]

theorem timeAfter_blocks (t : Time) (k : Int) :
    timeAfter t ((Number.whole k).mul blockSeconds) =
      (t.after (blockMicros * k)).mapError .time := by
  have micros : k * 6 * Time.microsPerSecond = blockMicros * k := by
    rw [blockMicros, Time.microsPerSecond]
    omega
  rw [← micros]
  rfl

theorem advance_within (forward : 0 ≤ k)
    (within : b.time.micros + blockMicros * k < Time.calendar) :
    ∃ time : Time, (time.micros : Int) = b.time.micros + blockMicros * k ∧
      b.advance (.whole k) blockSeconds =
        { book := { b.raised k with time }, answer := .ok () } := by
  obtain ⟨time, reached, micros⟩ :=
    Time.after_within (by rw [blockMicros]; omega : 0 ≤ blockMicros * k) within
  refine ⟨time, micros, ?_⟩
  unfold advance
  rw [if_neg (by rw [Number.isNegative_whole, decide_eq_true_eq]; omega), timeAfter_blocks, reached]
  rfl

theorem nonneg_of_beyond (beyond : Time.calendar ≤ b.time.micros + blockMicros * k) : 0 ≤ k := by
  have inRange := b.time.inRange
  rw [Time.calendar, blockMicros] at beyond
  omega

/-- Where the calendar ends, the call fails, with the height raised. -/
theorem advance_beyond (beyond : Time.calendar ≤ b.time.micros + blockMicros * k) :
    ∃ e, b.advance (.whole k) blockSeconds =
      { book := b.raised k, answer := .error (.time e) } := by
  have forward := nonneg_of_beyond beyond
  obtain ⟨e, unreached⟩ := Time.after_beyond beyond
  refine ⟨e, ?_⟩
  unfold advance
  rw [if_neg (by rw [Number.isNegative_whole, decide_eq_true_eq]; omega), timeAfter_blocks,
    unreached]
  rfl

end advance

/-! ### Executions -/

theorem stepsKeep_clock (height : Number) (time : Time) :
    StepsKeep fun b => b.height = height ∧ b.time = time where
  numbered := id
  write hb h := by rw [write_frame h]; exact hb
  bringIn hb h := by rw [bringIn_frame h]; exact hb
  deliver hb h := by rw [deliver_frame h]; exact hb
  record := id

theorem clock_submit (b : Book) (p : Pending) :
    (b.submit p).book.height = b.height ∧ (b.submit p).book.time = b.time :=
  (stepsKeep_clock b.height b.time).execute ⟨rfl, rfl⟩ p

theorem clock_handle (b : Book) (e : Envelope) (a : Action) :
    (b.handle e a).book.height = b.height ∧ (b.handle e a).book.time = b.time := by
  unfold handle
  split
  · exact b.clock_submit _
  · exact ⟨rfl, rfl⟩

end Book

/-! ### Turns -/

/-- What can happen to a book from outside. -/
inductive Turn where
  /-- The chain is moved on by some blocks. -/
  | pass (blocks : Int)
  /-- A message is handled. -/
  | message (e : Envelope) (a : Action)
  /-- A pending transaction is submitted, wherever it comes from. -/
  | submit (p : Pending)

/-- The blocks by which a turn raises the height. -/
def Turn.blocks : Turn → Int
  | pass k => max k 0
  | message .. | submit _ => 0

namespace Book

/-- The book after a turn, whether it raises or not. -/
def turn (b : Book) : Turn → Book
  | .pass k => (b.advance (.whole k) blockSeconds).book
  | .message e a => (b.handle e a).book
  | .submit p => (b.submit p).book

/-- The blocks of a turn that the calendar has no time for. -/
def missed (b : Book) : Turn → Int
  | .pass k => if Time.calendar ≤ b.time.micros + blockMicros * k then k else 0
  | .message .. | .submit _ => 0

def turns (b : Book) (ts : List Turn) : Book := ts.foldl turn b

/-- The blocks of some turns that the calendar had no time for when it came to them. -/
def missedIn : Book → List Turn → Int
  | _, [] => 0
  | b, t :: ts => b.missed t + (b.turn t).missedIn ts

/-- How far height and time have come from one book to another: the height by some blocks, and the
time by those of them that were not missed. -/
structure Elapsed (b b' : Book) (blocks missed : Int) : Prop where
  height : ∀ {h : Int}, b.height.whole? = some h → b'.height.whole? = some (h + blocks)
  time : (b'.time.micros : Int) = b.time.micros + blockMicros * (blocks - missed)
  missed_nonneg : 0 ≤ missed
  missed_le : missed ≤ blocks

theorem Elapsed.trans {b b' b'' : Book} {k m k' m' : Int} (first : b.Elapsed b' k m)
    (second : b'.Elapsed b'' k' m') : b.Elapsed b'' (k + k') (m + m') where
  height stands := by rw [second.height (first.height stands), Int.add_assoc]
  time := by
    have h₁ := first.time
    have h₂ := second.time
    unfold blockMicros at h₁ h₂ ⊢
    omega
  missed_nonneg := Int.add_nonneg first.missed_nonneg second.missed_nonneg
  missed_le := Int.add_le_add first.missed_le second.missed_le

theorem elapsed_of_still {b b' : Book} (h : b'.height = b.height ∧ b'.time = b.time) :
    b.Elapsed b' 0 0 where
  height stands := by rw [h.1, stands, Int.add_zero]
  time := by rw [h.2, Int.sub_self, Int.mul_zero, Int.add_zero]
  missed_nonneg := Int.le_refl 0
  missed_le := Int.le_refl 0

theorem elapsed_turn (b : Book) (t : Turn) : b.Elapsed (b.turn t) t.blocks (b.missed t) := by
  cases t with
  | message e a => exact elapsed_of_still (b.clock_handle e a)
  | submit p => exact elapsed_of_still (b.clock_submit p)
  | pass k =>
      unfold turn Turn.blocks missed
      dsimp only
      by_cases beyond : Time.calendar ≤ b.time.micros + blockMicros * k
      · obtain ⟨e, failed⟩ := advance_beyond beyond
        have forward := nonneg_of_beyond beyond
        rw [failed, if_pos beyond, Int.max_eq_left forward]
        exact
          { height := Number.whole?_add
            time := by rw [Int.sub_self, Int.mul_zero, Int.add_zero]; rfl
            missed_nonneg := forward
            missed_le := Int.le_refl k }
      · rw [if_neg beyond]
        by_cases forward : 0 ≤ k
        · obtain ⟨time, micros, moved⟩ := advance_within forward (Int.not_le.1 beyond)
          rw [moved, Int.max_eq_left forward]
          exact
            { height := Number.whole?_add
              time := by rw [Int.sub_zero]; exact micros
              missed_nonneg := Int.le_refl 0
              missed_le := forward }
        · rw [advance_backwards (Int.not_le.1 forward),
            Int.max_eq_right (Int.le_of_lt (Int.not_le.1 forward))]
          exact elapsed_of_still ⟨rfl, rfl⟩

theorem elapsed_turns : ∀ (ts : List Turn) (b : Book),
    b.Elapsed (b.turns ts) (ts.map (·.blocks)).sum (b.missedIn ts)
  | [], _ => elapsed_of_still ⟨rfl, rfl⟩
  | t :: ts, b => (b.elapsed_turn t).trans (elapsed_turns ts (b.turn t))

end Book

/-- Whatever happens to a book, its height never falls, and its time goes on six seconds for every
block by which the height has risen, less those that the calendar had no time for: height and time
go together just as long as there are none. A call that moves the chain back raises and does
nothing; one that stays within the calendar moves height and time; one that leaves it raises, and
moves the height alone. -/
theorem height_and_time {b : Book} {h : Int} (stands : b.height.whole? = some h)
    (ts : List Turn) : ∃ n : Int, (b.turns ts).height.whole? = some n ∧ h ≤ n ∧
      ((b.turns ts).time.micros : Int) =
        b.time.micros + Book.blockMicros * (n - h - b.missedIn ts) ∧
      0 ≤ b.missedIn ts ∧
      (((b.turns ts).time.micros : Int) = b.time.micros + Book.blockMicros * (n - h) ↔
        b.missedIn ts = 0) ∧
      (∀ k < 0, (b.turns ts).advance (.whole k) Book.blockSeconds =
        { book := b.turns ts, answer := .error (.malformed (.backwards (.whole k))) }) ∧
      (∀ k ≥ 0, (b.turns ts).time.micros + Book.blockMicros * k < Time.calendar →
        ∃ time : Time, (time.micros : Int) = (b.turns ts).time.micros + Book.blockMicros * k ∧
          ((b.turns ts).raised k).height.whole? = some (n + k) ∧
          (b.turns ts).advance (.whole k) Book.blockSeconds =
            { book := { (b.turns ts).raised k with time }, answer := .ok () }) ∧
      ∀ k, Time.calendar ≤ (b.turns ts).time.micros + Book.blockMicros * k →
        ∃ e, ((b.turns ts).raised k).height.whole? = some (n + k) ∧
          (b.turns ts).advance (.whole k) Book.blockSeconds =
            { book := (b.turns ts).raised k, answer := .error (.time e) } := by
  have elapsed := b.elapsed_turns ts
  have height := elapsed.height stands
  have raised : ∀ k, ((b.turns ts).raised k).height.whole? = some _ := fun k =>
    Number.whole?_add height
  have bounds := Int.le_trans elapsed.missed_nonneg elapsed.missed_le
  have time := elapsed.time
  refine ⟨_, height, by omega, ?_, elapsed.missed_nonneg, ?_, fun k => Book.advance_backwards,
    fun k forward within => ?_, fun k beyond => ?_⟩
  · rw [time, Int.add_comm h, Int.add_sub_cancel]
  · rw [time, Int.add_comm h, Int.add_sub_cancel, Book.blockMicros]
    omega
  · obtain ⟨time, micros, moved⟩ := Book.advance_within forward within
    exact ⟨time, micros, raised k, moved⟩
  · obtain ⟨e, failed⟩ := Book.advance_beyond beyond
    exact ⟨e, raised k, failed⟩

namespace Session

/-- Alice's loan is repaid between calls that go on, fail and go on again. -/
def pastCalendar : List Turn :=
  [.pass 3, .message (alice [.coin (stars 550)]) (.repay (.int 0)), .pass (-1),
   .pass 100000000000, .pass 2]

end Session

/-- Of these blocks five have a time, and a hundred billion have none. -/
theorem height_and_time_repaid :
    Session.repayable.book.height.whole? = some 12345 ∧
    Session.repayable.book.missedIn Session.pastCalendar = 100000000000 ∧
    (Session.repayable.book.turns Session.pastCalendar).height.whole? = some 100000012350 ∧
    ((Session.repayable.book.turns Session.pastCalendar).time.micros : Int) =
      Session.repayable.book.time.micros + Book.blockMicros * 5 := by
  have stands : Session.repayable.book.height.whole? = some 12345 := by decide +kernel
  have missed : Session.repayable.book.missedIn Session.pastCalendar = 100000000000 := by
    decide +kernel
  have raised : (Session.repayable.book.turns Session.pastCalendar).height.whole? =
      some 100000012350 := by decide +kernel
  obtain ⟨n, height, -, time, -⟩ := height_and_time stands Session.pastCalendar
  cases height.symm.trans raised
  rw [missed] at time
  exact ⟨stands, missed, raised, time⟩

/-- A call that fails takes a loan past its deadline: the time stands still, but Alice can no longer
repay her loan, and Carol can claim the token. -/
theorem failed_pass_defaults :
    (∃ e, (Session.repayable.book.advance (.whole 100000000000) Book.blockSeconds).answer =
      .error (.time e)) ∧
    (Session.repayable.book.turn (.pass 100000000000)).time = Session.repayable.book.time ∧
    Session.repayable.book.height.whole? = some 12345 ∧
    (Session.repayable.book.turn (.pass 100000000000)).height.whole? = some 100000012345 ∧
    (Session.repayable.book.transact (Session.alice [.coin (Session.stars 550)])
      (.repay (.int 0))).toOption.isSome = true ∧
    (Session.repayable.book.transact (Session.carol [])
      (.claimDefault ⟨"alice", .int 0⟩)).toOption.isSome = false ∧
    ((Session.repayable.book.turn (.pass 100000000000)).transact
      (Session.alice [.coin (Session.stars 550)]) (.repay (.int 0))).toOption.isSome = false ∧
    ((Session.repayable.book.turn (.pass 100000000000)).transact (Session.carol [])
      (.claimDefault ⟨"alice", .int 0⟩)).toOption.isSome = true := by
  obtain ⟨e, failed⟩ := Book.advance_beyond (b := Session.repayable.book) (k := 100000000000)
    (by decide +kernel)
  exact ⟨⟨e, by rw [failed]⟩, by decide +kernel, by decide +kernel, by decide +kernel,
    by decide +kernel, by decide +kernel, by decide +kernel, by decide +kernel⟩

end Pawnbook
