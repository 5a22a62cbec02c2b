import Mathlib.Data.List.Basic
import Mathlib.Order.Lattice
import Mathlib.Tactic.Lemma

/-!
# Grading by thresholds

A table lists grades, each with the value from which on it is given; the first entry that a value
reaches grades it.  If every entry is at least as good as those below it, more is never graded
worse, in whatever order the thresholds stand.
-/

namespace Sast

variable {α β : Type} [LinearOrder α]

/-- The grade of the first entry that the value reaches, and the lowest grade if it reaches none. -/
def grade (thresholds : List (α × β)) (lowest : β) (value : α) : β :=
  ((thresholds.find? fun entry => entry.1 ≤ value).map Prod.snd).getD lowest

lemma grade_nil (lowest : β) (value : α) : grade [] lowest value = lowest := rfl

lemma grade_cons (entry : α × β) (thresholds : List (α × β)) (lowest : β) (value : α) :
    grade (entry :: thresholds) lowest value
      = if entry.1 ≤ value then entry.2 else grade thresholds lowest value := by
  rw [grade, List.find?_cons]
  by_cases h : entry.1 ≤ value <;> simp [h, grade]

/-- A grade is one of the table, or the lowest one. -/
lemma grade_mem (thresholds : List (α × β)) (lowest : β) (value : α) :
    grade thresholds lowest value ∈ lowest :: thresholds.map Prod.snd := by
  induction thresholds with
  | nil => exact List.mem_cons_self
  | cons entry thresholds ih =>
      rw [grade_cons]
      split_ifs with h
      · simp
      · rcases List.mem_cons.1 ih with heq | hmem
        · rw [heq]
          exact List.mem_cons_self
        · simp only [List.map_cons, List.mem_cons]
          exact Or.inr (Or.inr hmem)

/-- **More is never graded worse.** -/
theorem grade_mono (AtLeast : β → β → Prop) (hrefl : ∀ g, AtLeast g g)
    {thresholds : List (α × β)} {lowest : β}
    (htable : thresholds.Pairwise fun upper lower => AtLeast upper.2 lower.2)
    (hlowest : ∀ entry ∈ thresholds, AtLeast entry.2 lowest) {less more : α} (h : less ≤ more) :
    AtLeast (grade thresholds lowest more) (grade thresholds lowest less) := by
  induction thresholds with
  | nil => exact hrefl lowest
  | cons entry thresholds ih =>
      rw [List.pairwise_cons] at htable
      rw [List.forall_mem_cons] at hlowest
      simp only [grade_cons]
      split_ifs with hmore hless hless
      · exact hrefl entry.2
      · rcases List.mem_cons.1 (grade_mem thresholds lowest less) with heq | hmem
        · rw [heq]
          exact hlowest.1
        · obtain ⟨lower, hlower, heq⟩ := List.mem_map.1 hmem
          rw [← heq]
          exact htable.1 lower hlower
      · exact absurd (hless.trans h) hmore
      · exact ih htable.2 hlowest.2

end Sast
