import Mathlib.Data.List.Forall2
import Mathlib.Tactic.Lemma

/-!
# Computations that may raise

Inversion of a successful computation: a chain of binds succeeds exactly when each part does, and
relabelling exceptions does not touch success.
-/

namespace Sast

variable {ε ε' α β : Type}

lemma bind_eq_ok {x : Except ε α} {f : α → Except ε β} {b : β} :
    (x >>= f) = .ok b ↔ ∃ a, x = .ok a ∧ f a = .ok b := by
  cases x <;> simp [bind, Except.bind]

lemma pure_eq_ok {a b : α} : (pure a : Except ε α) = .ok b ↔ a = b := by
  simp [pure, Except.pure]

lemma mapError_eq_ok {x : Except ε α} {f : ε → ε'} {a : α} :
    x.mapError f = .ok a ↔ x = .ok a := by
  cases x <;> simp [Except.mapError]

lemma map_eq_ok {x : Except ε α} {f : α → β} {b : β} :
    x.map f = .ok b ↔ ∃ a, x = .ok a ∧ f a = b := by
  cases x <;> simp [Except.map]

lemma mapM_cons_eq_ok {f : α → Except ε β} {a : α} {as : List α} {bs : List β} :
    (a :: as).mapM f = .ok bs ↔ ∃ b, f a = .ok b ∧ ∃ bs', as.mapM f = .ok bs' ∧ b :: bs' = bs := by
  simp only [List.mapM_cons, bind_eq_ok, pure_eq_ok]

/-- Successful results correspond to the elements. -/
lemma mapM_forall₂ {f : α → Except ε β} {as : List α} :
    ∀ {bs : List β}, as.mapM f = .ok bs → List.Forall₂ (fun a b => f a = .ok b) as bs := by
  induction as with
  | nil =>
      intro bs h
      rw [List.mapM_nil, pure_eq_ok] at h
      subst h
      exact .nil
  | cons a as ih =>
      intro bs h
      obtain ⟨b, hb, bs', hbs', rfl⟩ := mapM_cons_eq_ok.1 h
      exact .cons hb (ih hbs')

end Sast
