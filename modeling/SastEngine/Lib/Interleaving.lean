import SastEngine.Lib.Run

/-!
# Interleaved tasks over shared state

Tasks of a type `τ` work on shared state `σ`, one atomic access at a time.  A move starts a task
or lets one of the tasks make its next access; a list of moves is an interleaving.
-/

namespace Sast

/-- The shared state and the tasks, in the order in which they were started. -/
structure Pool (σ τ : Type) where
  shared : σ
  tasks : List τ

/-- A move of the scheduler. -/
inductive Move (τ : Type) where
  | start (t : τ)
  | advance (i : Nat)

variable {σ τ : Type} (access : σ → τ → σ × τ)

/-- One move.  A task that does not exist makes no access. -/
def Pool.step (p : Pool σ τ) : Move τ → Pool σ τ
  | .start t => { p with tasks := p.tasks ++ [t] }
  | .advance i =>
      match p.tasks[i]? with
      | none => p
      | some t => ⟨(access p.shared t).1, p.tasks.set i (access p.shared t).2⟩

/-- Only tasks of one kind are started, and only accesses of one kind are made. -/
def Pool.Allows (starts : Pool σ τ → τ → Prop) (accesses : σ → τ → Prop) (p : Pool σ τ) :
    Move τ → Prop
  | .start t => starts p t
  | .advance i => ∀ t ∈ p.tasks[i]?, accesses p.shared t

instance (starts : Pool σ τ → τ → Prop) (accesses : σ → τ → Prop)
    [∀ p t, Decidable (starts p t)] [∀ s t, Decidable (accesses s t)] (p : Pool σ τ)
    (move : Move τ) : Decidable (p.Allows starts accesses move) := by
  cases move with
  | start t => exact inferInstanceAs (Decidable (starts p t))
  | advance i => exact inferInstanceAs (Decidable (∀ t ∈ p.tasks[i]?, accesses p.shared t))

variable {access}

/-- Advancing a task lets it make its next access, or does nothing. -/
lemma Pool.step_advance (p : Pool σ τ) (access : σ → τ → σ × τ) (i : Nat) :
    (p.tasks[i]? = none ∧ p.step access (.advance i) = p)
      ∨ ∃ pre t post, p.tasks[i]? = some t ∧ p.tasks = pre ++ t :: post
        ∧ p.step access (.advance i)
          = ⟨(access p.shared t).1, pre ++ (access p.shared t).2 :: post⟩ := by
  simp only [Pool.step]
  cases ht : p.tasks[i]? with
  | none => exact Or.inl ⟨rfl, rfl⟩
  | some t =>
      obtain ⟨hi, rfl⟩ := List.getElem?_eq_some_iff.1 ht
      refine Or.inr ⟨p.tasks.take i, p.tasks[i], p.tasks.drop (i + 1), rfl, ?_, ?_⟩
      · rw [← List.drop_eq_getElem_cons hi, List.take_append_drop]
      · simp only [List.set_eq_take_append_cons_drop, if_pos hi]

/-- **The interleaving rule.**  What holds before any task is started, and is kept by starting a
task and by every access of a task among the others, holds after every interleaving. -/
theorem Pool.exec_invariant {starts : Pool σ τ → τ → Prop} {accesses : σ → τ → Prop}
    (Inv : σ → List τ → Prop)
    (hstart : ∀ s ts t, Inv s ts → starts ⟨s, ts⟩ t → Inv s (ts ++ [t]))
    (haccess : ∀ s pre t post, Inv s (pre ++ t :: post) → accesses s t →
      Inv (access s t).1 (pre ++ (access s t).2 :: post))
    {p : Pool σ τ} {moves : List (Move τ)} (h0 : Inv p.shared p.tasks)
    (hallowed : Throughout (Pool.step access) (Pool.Allows starts accesses) p moves) :
    Inv (exec (Pool.step access) p moves).shared (exec (Pool.step access) p moves).tasks := by
  refine Sast.exec_invariant (fun p => Inv p.shared p.tasks) ?_ h0 hallowed
  intro p move hinv hmove
  cases move with
  | start t => exact hstart p.shared p.tasks t hinv hmove
  | advance i =>
      rcases p.step_advance access i with ⟨-, hsame⟩ | ⟨pre, t, post, ht, hsplit, hnext⟩
      · rw [hsame]
        exact hinv
      · rw [hnext]
        exact haccess p.shared pre t post (hsplit ▸ hinv) (hmove t ht)

end Sast
