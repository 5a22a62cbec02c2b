import Mathlib.Data.List.Basic
import Mathlib.Tactic.Lemma

/-!
# Write-through stores

A store kept twice, in memory and in a database.  Every write changes the memory first and the
database second; a database write may fail, which ends the operation there.  So after a failure
the memory is exactly one write ahead of the database.
-/

namespace Sast

/-- A store with its database copy. -/
structure Mirrored (S : Type) where
  memory : S
  database : S

variable {S : Type}

/-- Perform the writes of an operation one after another; the database write with the given number
fails. -/
def Mirrored.perform (m : Mirrored S) : List (S → S) → Option Nat → Mirrored S
  | [], _ => m
  | w :: _, some 0 => ⟨w m.memory, m.database⟩
  | w :: ws, some (n + 1) =>
      Mirrored.perform ⟨w m.memory, w m.database⟩ ws (some n)
  | w :: ws, none => Mirrored.perform ⟨w m.memory, w m.database⟩ ws none

/-- No write of the operation fails. -/
def Completes (ws : List (S → S)) : Option Nat → Prop
  | none => True
  | some n => ws.length ≤ n

instance (ws : List (S → S)) (fails : Option Nat) : Decidable (Completes ws fails) := by
  cases fails with
  | none => exact isTrue trivial
  | some n => exact inferInstanceAs (Decidable (ws.length ≤ n))

/-- All writes, one after another. -/
def writeAll (ws : List (S → S)) (s : S) : S := ws.foldl (fun s w => w s) s

/-- An operation whose writes succeed performs them on both copies. -/
lemma Mirrored.perform_completes {ws : List (S → S)} :
    ∀ {m : Mirrored S} {fails : Option Nat}, Completes ws fails →
      m.perform ws fails = ⟨writeAll ws m.memory, writeAll ws m.database⟩ := by
  induction ws with
  | nil =>
      intro m fails _
      cases fails <;> rfl
  | cons w ws ih =>
      intro m fails h
      cases fails with
      | none =>
          have hrest : Completes ws none := trivial
          exact ih hrest
      | some n =>
          cases n with
          | zero => exact absurd h (Nat.not_succ_le_zero _)
          | succ n =>
              have hrest : Completes ws (some n) := Nat.le_of_succ_le_succ h
              exact ih hrest

/-- **After a failure the memory is one write ahead of the database.** -/
theorem Mirrored.perform_fails {ws : List (S → S)} :
    ∀ {m : Mirrored S} {n : Nat}, n < ws.length →
      m.perform ws (some n)
        = ⟨writeAll (ws.take (n + 1)) m.memory, writeAll (ws.take n) m.database⟩ := by
  induction ws with
  | nil =>
      intro m n h
      exact absurd h (Nat.not_lt_zero n)
  | cons w ws ih =>
      intro m n h
      cases n with
      | zero => rfl
      | succ n =>
          have hrest := ih (m := ⟨w m.memory, w m.database⟩) (Nat.lt_of_succ_lt_succ h)
          simpa [Mirrored.perform, writeAll] using hrest

/-- A restart reads the memory back from the database. -/
def Mirrored.restart (load : S → S) (m : Mirrored S) : Mirrored S := ⟨load m.database, m.database⟩

end Sast
