import Pawnbook.Proofs.Commit

/-! # What every step of an execution keeps

Whatever pending transaction is executed, the book goes through single steps: a place in the log is
given out, changes are written, coins are brought in, messages are delivered, and the transaction is
logged. An error may end the execution after any of them. What each step keeps, the execution
keeps, whether it comes to its end or not (`StepsKeep.execute`). -/

namespace Pawnbook
namespace Book
variable {b b' : Book}

/-! ### What a step touches -/

/-- A write touches nothing but records. -/
theorem write_frame {c : Change} (h : b.write c = .ok b') : b' =
    { b with
      config := b'.config
      misfit := b'.misfit
      borrowers := b'.borrowers
      listings := b'.listings
      offers := b'.offers } := by
  unfold write at h
  split at h
  · cases h
    unfold writeConfig
    split <;> rfl
  · cases h
    rfl
  · cases h
    rfl
  · unfold writeOffer at h
    split at h
    · dsimp only at h
      split at h <;>
      · obtain ⟨offers, -, h⟩ := bind_ok h
        cases h
        rfl
    · cases h
  · cases h
    rfl

theorem pay_frame {sender recipient : Key} {coin : Coin}
    (h : b.pay sender recipient coin = .ok b') : b' = { b with bank := b'.bank } := by
  obtain ⟨bank, -, h⟩ := bind_ok h
  cases h
  rfl

theorem bringIn_frame {m : Message} (h : b.bringIn m = .ok b') :
    b' = { b with bank := b'.bank } := by
  cases m with
  | send s => exact pay_frame h
  | fee f => exact pay_frame h
  | transfer | other => cases h

theorem deliver_frame {m : Message} (h : b.deliver m = .ok b') : b' =
    { b with
      bank := b'.bank
      registry := b'.registry
      fees := b'.fees } := by
  cases m with
  | send s =>
      have paid := pay_frame (show b.pay s.sender s.recipient s.coin = .ok b' from h)
      rw [paid]
  | fee f =>
      obtain ⟨paid, hp, h⟩ := bind_ok h
      cases h
      rw [pay_frame hp]
  | transfer t =>
      obtain ⟨registry, -, h⟩ := bind_ok h
      cases h
      rfl
  | other v =>
      cases h
      rfl

/-! ### From steps to executions -/

/-- The book that some steps have led to, whether an error has ended them or not. -/
def reached : Except Interrupted Book → Book
  | .ok b => b
  | .error stop => stop.book

/-- Each step of an execution keeps what is said of the book. -/
structure StepsKeep (I : Book → Prop) : Prop where
  numbered : ∀ {b : Book}, I b → I b.numbered
  write : ∀ {b b' : Book} {c : Change}, I b → b.write c = .ok b' → I b'
  bringIn : ∀ {b b' : Book} {m : Message}, I b → b.bringIn m = .ok b' → I b'
  deliver : ∀ {b b' : Book} {m : Message}, I b → b.deliver m = .ok b' → I b'
  record : ∀ {b : Book} {t : Transaction}, I b → I (b.record t)

section kept
variable {I : Book → Prop}

theorem reached_attempt {r : Except Error Book} (hb : I b) (h : ∀ b', r = .ok b' → I b') :
    I (reached (b.attempt r)) := by
  cases r with
  | error e => exact hb
  | ok b' => exact h b' rfl

theorem reached_bind {x : Except Interrupted Book} {f : Book → Except Interrupted Book}
    (hx : I (reached x)) (hf : ∀ b', I b' → I (reached (f b'))) : I (reached (x >>= f)) := by
  cases x with
  | error stop => exact hx
  | ok b' => exact hf b' hx

/-- What one step keeps, a list of steps keeps, however far it comes. -/
theorem reached_all {α : Type} {step : Book → α → Except Error Book}
    {all : Book → List α → Except Interrupted Book} (nil : ∀ b, all b [] = .ok b)
    (cons : ∀ b x xs, all b (x :: xs) = (b.attempt (step b x) >>= fun b => all b xs))
    (keeps : ∀ {b b' : Book} {x : α}, I b → step b x = .ok b' → I b') :
    ∀ (xs : List α) {b : Book}, I b → I (reached (all b xs))
  | [], b, hb => by
      rw [nil]
      exact hb
  | x :: xs, b, hb => by
      rw [cons]
      exact reached_bind (reached_attempt hb fun _ h => keeps hb h) fun b' hb' =>
        reached_all nil cons keeps xs hb'

namespace StepsKeep

theorem commit (h : StepsKeep I) (hb : I b) (p : Pending) : I (reached (b.commit p)) := by
  have named : ∀ r : Except Error Unit,
      I (reached (b.numbered.attempt (r >>= fun _ => .ok b.numbered))) := fun r =>
    reached_attempt (h.numbered hb) fun _ started => by
      obtain ⟨_, -, ⟨⟩⟩ := bind_ok started
      exact h.numbered hb
  have written : ∀ b', I b' → I (reached (b'.writeAll p.changes)) := fun _ hb' =>
    reached_all (fun _ => rfl) (fun _ _ _ => rfl) h.write p.changes hb'
  have funded : ∀ b', I b' → I (reached (b'.bringInAll p.fundsIn)) := fun _ hb' =>
    reached_all (fun _ => rfl) (fun _ _ _ => rfl) h.bringIn p.fundsIn hb'
  have delivered : ∀ b', I b' → I (reached (b'.deliverAll p.messages)) := fun _ hb' =>
    reached_all (fun _ => rfl) (fun _ _ _ => rfl) h.deliver p.messages hb'
  exact reached_bind (named _) fun b₁ h₁ => reached_bind (written b₁ h₁) fun b₂ h₂ =>
    reached_bind (funded b₂ h₂) fun b₃ h₃ => reached_bind (delivered b₃ h₃) fun _ h₄ =>
      h.record h₄

/-- What each step keeps, an execution keeps, whatever comes of it. -/
theorem execute (h : StepsKeep I) (hb : I b) (p : Pending) : I (b.execute p).book := by
  unfold Book.execute
  split
  · exact hb
  · split
    · exact hb
    · split <;>
      · rw [book_announce]
        exact hb
    · have kept := h.commit hb p
      split
      · rename_i stop ended
        rw [ended] at kept
        exact kept
      · rename_i after committed
        rw [committed] at kept
        rw [book_announce]
        exact kept

end StepsKeep
end kept
end Book
end Pawnbook
