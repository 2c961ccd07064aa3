import Docwright.Service.Feed

/-!
# Feeds after some requests

`drop` is what remains of a feed after so many requests. A feed is ordinary if
none of its answers is an interruption, and then so is what remains of it.
-/

namespace Docwright

namespace Feed

variable {α : Type}

def drop : Nat → Feed α → Feed α
  | 0, feed => feed
  | n + 1, feed => feed.tail.drop n

theorem drop_drop (feed : Feed α) (m n : Nat) : (feed.drop m).drop n = feed.drop (m + n) := by
  induction m generalizing feed with
  | zero => rw [Nat.zero_add, drop]
  | succ m ih => rw [drop, ih, Nat.succ_add, drop]

theorem head_drop (feed : Feed α) (n : Nat) : (feed.drop n).head = feed.answer n := by
  induction n generalizing feed with
  | zero => rfl
  | succ n ih => exact ih feed.tail

/-- No answer of the feed is an interruption. -/
def Ordinary (feed : Feed α) : Prop :=
  ∀ n kind message, feed.answer n ≠ .error (.interruption kind message)

theorem Ordinary.head {feed : Feed α} (h : feed.Ordinary) (kind message : String) :
    feed.head ≠ .error (.interruption kind message) := h 0 kind message

theorem Ordinary.tail {feed : Feed α} (h : feed.Ordinary) : feed.tail.Ordinary :=
  fun n => h (n + 1)

theorem Ordinary.drop {feed : Feed α} (h : feed.Ordinary) (n : Nat) : (feed.drop n).Ordinary := by
  induction n generalizing feed with
  | zero => exact h
  | succ n ih => exact ih h.tail

def isInterruption : Except Failure α → Bool
  | .error (.interruption _ _) => true
  | _ => false

theorem answer_mem (feed : Feed α) (n : Nat) : feed.answer n ∈ feed.after :: feed.next := by
  induction n generalizing feed with
  | zero =>
      unfold answer head
      cases hnext : feed.next with
      | nil => simp
      | cons answer rest => simp
  | succ n ih =>
      have hrest : feed.answer (n + 1) ∈ feed.tail.after :: feed.tail.next := ih feed.tail
      unfold tail at hrest
      cases hnext : feed.next with
      | nil => simpa [hnext] using hrest
      | cons answer rest =>
          rw [hnext] at hrest
          rcases List.mem_cons.1 hrest with hafter | hmem
          · exact List.mem_cons.2 (Or.inl hafter)
          · exact List.mem_cons_of_mem _ (List.mem_cons_of_mem _ hmem)

theorem ordinary_of_not_isInterruption {feed : Feed α}
    (h : (feed.after :: feed.next).all (!isInterruption ·) = true) : feed.Ordinary := by
  intro n kind message hanswer
  have hordinary := List.all_eq_true.1 h _ (feed.answer_mem n)
  rw [hanswer] at hordinary
  exact absurd hordinary (by simp [isInterruption])

end Feed

end Docwright
