import Mathlib.Data.List.Sort
import Mathlib.Tactic.Lemma

/-!
# Rankings and their cuts

A ranking is a stable sort.  Sorting commutes with the selection of elements, whatever is selected,
and depends on the order of the elements that are there alone.  A cut takes the first elements of a
ranking for which there is something to show.
-/

namespace Sast

variable {α β : Type}

/-! ## Stable sorts -/

section Sorts

variable {r : α → α → Prop} [DecidableRel r]

lemma filter_orderedInsert [IsTrans α r] (p : α → Bool) {a : α} {xs : List α} (h : xs.Pairwise r) :
    (xs.orderedInsert r a).filter p
      = if p a = true then (xs.filter p).orderedInsert r a else xs.filter p := by
  induction xs with
  | nil => by_cases ha : p a = true <;> simp [ha]
  | cons b xs ih =>
      rw [List.pairwise_cons] at h
      by_cases hab : r a b
      · -- everything below `b` comes after `a` as well
        have hall : ∀ c ∈ (b :: xs).filter p, r a c := by
          intro c hc
          rcases List.mem_cons.1 (List.mem_of_mem_filter hc) with rfl | hmem
          · exact hab
          · exact Trans.trans hab (h.1 c hmem)
        rw [List.orderedInsert_cons, if_pos hab, List.filter_cons]
        split_ifs
        · cases hfilter : (b :: xs).filter p with
          | nil => rfl
          | cons c cs =>
              have hac : r a c := hall c (by rw [hfilter]; exact List.mem_cons_self)
              rw [List.orderedInsert_cons, if_pos hac]
        · rfl
      · rw [List.orderedInsert_cons, if_neg hab, List.filter_cons, List.filter_cons, ih h.2]
        by_cases hb : p b = true
        · by_cases ha : p a = true
          · simp [ha, hb, List.orderedInsert_cons, hab]
          · simp [ha, hb]
        · simp [hb]

/-- **Selecting from a ranking** is ranking what is selected. -/
theorem filter_insertionSort [IsTrans α r] [Std.Total r] (p : α → Bool) (xs : List α) :
    (xs.insertionSort r).filter p = (xs.filter p).insertionSort r := by
  induction xs with
  | nil => rfl
  | cons a xs ih =>
      rw [List.insertionSort_cons, filter_orderedInsert p (List.pairwise_insertionSort r xs), ih,
        List.filter_cons]
      split_ifs
      · rw [List.insertionSort_cons]
      · rfl

end Sorts

/-! ## Cuts -/

/-- What is shown of the elements for which there is something to show. -/
lemma map_filterMap_eq_map_filter {γ : Type} {find : α → Option β} {p : α → Bool} {f : β → γ}
    {g : α → γ} {as : List α} (hnone : ∀ a ∈ as, p a = false → find a = none)
    (hsome : ∀ a ∈ as, p a = true → ∃ b, find a = some b ∧ f b = g a) :
    (as.filterMap find).map f = (as.filter p).map g := by
  induction as with
  | nil => rfl
  | cons a as ih =>
      rw [List.forall_mem_cons] at hnone hsome
      have hrest := ih hnone.2 hsome.2
      cases hp : p a with
      | false => simp [hp, hnone.1 hp, hrest]
      | true =>
          obtain ⟨b, hb, heq⟩ := hsome.1 hp
          simp [hp, hb, heq, hrest]

/-- The loop that shows the elements for which there is something to show, until there are `n`. -/
def showUpTo (n : Nat) (find : α → Option β) (shown : List β) : List α → List β
  | [] => shown
  | a :: as =>
      match find a with
      | none => showUpTo n find shown as
      | some b =>
          if (shown ++ [b]).length = n then shown ++ [b] else showUpTo n find (shown ++ [b]) as

/-- **A cut shows the first of all that could be shown.** -/
theorem showUpTo_eq_take (find : α → Option β) (as : List α) :
    ∀ {n : Nat} {shown : List β}, shown.length < n →
      showUpTo n find shown as = (shown ++ as.filterMap find).take n := by
  induction as with
  | nil =>
      intro n shown h
      rw [showUpTo, List.filterMap_nil, List.append_nil, List.take_of_length_le h.le]
  | cons a as ih =>
      intro n shown h
      rw [showUpTo, List.filterMap_cons]
      cases find a with
      | none => exact ih h
      | some b =>
          have hlength : (shown ++ [b]).length = shown.length + 1 := List.length_append
          have hnext : shown ++ b :: as.filterMap find = (shown ++ [b]) ++ as.filterMap find :=
            List.append_cons ..
          rw [hnext]
          dsimp only
          split_ifs with hfull
          · rw [List.take_left' hfull]
          · rw [ih (by omega)]

end Sast
