import Mathlib.Data.List.Pairwise
import Mathlib.Logic.Function.Basic
import Mathlib.Order.Nat
import Mathlib.Tactic.Lemma

/-!
# Breadth-first search up to a depth

A queue holds nodes with the depths at which they were found.  A node that is taken from the queue
is expanded unless it is at the bound or was expanded before.  Nodes come out of the queue in the
order of their depths, so that a node is first taken at its distance from the start, and leaving it
out later loses no path (`Explored`).  Every edge is put into the queue at most once, which bounds
the number of rounds (`search_spec`).
-/

namespace Sast

section Search

variable {α : Type} (next : α → List α)

/-- A walk of so many steps. -/
inductive StepsTo : α → Nat → α → Prop
  | nil (a : α) : StepsTo a 0 a
  | cons {a b c : α} {n : Nat} : b ∈ next a → StepsTo b n c → StepsTo a (n + 1) c

variable {next}

/-- One more step at the end. -/
lemma StepsTo.concat {a b c : α} {n : Nat} (h : StepsTo next a n b) (hc : c ∈ next b) :
    StepsTo next a (n + 1) c := by
  induction h with
  | nil a => exact .cons hc (.nil c)
  | cons hb _ ih => exact .cons hb (ih hc)

variable (next) (target : α) (bound : Nat)

/-- The loop over the queue; `none` where the fuel does not suffice. -/
def boundedSearch [DecidableEq α] : Nat → List α → List (α × Nat) → Option Bool
  | 0, _, _ => none
  | _ + 1, _, [] => some false
  | fuel + 1, visited, (current, depth) :: queue =>
      if current = target then some true
      else if bound ≤ depth ∨ current ∈ visited then boundedSearch fuel visited queue
      else boundedSearch fuel (current :: visited)
        (queue ++ (next current).map fun b => (b, depth + 1))

/-! ## The invariant -/

/-- A node that can be reached in so many steps was expanded no later, or is in the queue no later,
or came out of it at the bound. -/
def Handled (at_ : α → Nat) (visited : List α) (queue : List (α × Nat)) (b : α) (n : Nat) : Prop :=
  b ∈ visited ∧ at_ b ≤ n ∨ (∃ m ≤ n, (b, m) ∈ queue) ∨ bound ≤ n ∧ b ≠ target

/-- What holds before every round, where `at_` is the depth at which a node was expanded. -/
structure Explored (start : α) (at_ : α → Nat) (visited : List α) (queue : List (α × Nat)) :
    Prop where
  sound : ∀ q ∈ queue, StepsTo next start q.2 q.1 ∧ q.2 ≤ bound
  missed : target ∉ visited
  start : Handled target bound at_ visited queue start 0
  closed : ∀ a ∈ visited, ∀ b ∈ next a, Handled target bound at_ visited queue b (at_ a + 1)
  later : ∀ a ∈ visited, ∀ q ∈ queue, at_ a ≤ q.2
  sorted : queue.Pairwise fun q q' => q.2 ≤ q'.2
  level : ∀ q ∈ queue, ∀ q' ∈ queue, q'.2 ≤ q.2 + 1

variable {next target bound} {start : α} {at_ : α → Nat} {visited : List α}
  {queue : List (α × Nat)}

lemma explored_start : Explored next target bound start at_ [] [(start, 0)] where
  sound := by simpa using StepsTo.nil start
  missed := by simp
  start := Or.inr (Or.inl ⟨0, le_refl 0, by simp⟩)
  closed := by simp
  later := by simp
  sorted := by simp
  level := by simp

/-- When the queue is empty, the target cannot be reached within the bound. -/
lemma Explored.not_reached (h : Explored next target bound start at_ visited []) {n : Nat}
    (hn : n ≤ bound) : ¬ StepsTo next start n target := by
  have hend : ∀ {a b : α} {n m : Nat}, StepsTo next a n b → b = target → m + n ≤ bound →
      ¬ Handled target bound at_ visited [] a m := by
    intro a b n m hwalk
    induction hwalk generalizing m with
    | nil a =>
        rintro rfl - (⟨hmem, -⟩ | ⟨_, -, hmem⟩ | ⟨-, hne⟩)
        · exact h.missed hmem
        · cases hmem
        · exact hne rfl
    | cons hb hrest ih =>
        rintro heq hle (⟨hmem, hat⟩ | ⟨_, -, hmem⟩ | ⟨hbound, -⟩)
        · exact ih heq (by omega) (h.closed _ hmem _ hb)
        · cases hmem
        · omega
  exact fun hwalk => hend hwalk rfl (by simpa using hn) h.start

/-- A round that takes a node out and leaves it. -/
lemma Explored.skip {c : α} {m : Nat} (h : Explored next target bound start at_ visited
      ((c, m) :: queue)) (hc : c ≠ target) (hskip : bound ≤ m ∨ c ∈ visited) :
    Explored next target bound start at_ visited queue := by
  have hhandled : ∀ {b n}, Handled target bound at_ visited ((c, m) :: queue) b n →
      Handled target bound at_ visited queue b n := by
    rintro b n (hvisited | ⟨m', hle, hmem⟩ | hbound)
    · exact Or.inl hvisited
    · rcases List.mem_cons.1 hmem with heq | hmem
      · obtain ⟨rfl, rfl⟩ := Prod.mk.inj heq
        rcases hskip with hskip | hskip
        · exact Or.inr (Or.inr ⟨hskip.trans hle, hc⟩)
        · exact Or.inl ⟨hskip, (h.later _ hskip _ List.mem_cons_self).trans hle⟩
      · exact Or.inr (Or.inl ⟨m', hle, hmem⟩)
    · exact Or.inr (Or.inr hbound)
  exact
    { sound := fun q hq => h.sound q (List.mem_cons_of_mem _ hq)
      missed := h.missed
      start := hhandled h.start
      closed := fun a ha b hb => hhandled (h.closed a ha b hb)
      later := fun a ha q hq => h.later a ha q (List.mem_cons_of_mem _ hq)
      sorted := h.sorted.of_cons
      level := fun q hq q' hq' =>
        h.level q (List.mem_cons_of_mem _ hq) q' (List.mem_cons_of_mem _ hq') }

/-- A round that expands a node. -/
lemma Explored.expand [DecidableEq α] {c : α} {m : Nat}
    (h : Explored next target bound start at_ visited ((c, m) :: queue)) (hc : c ≠ target)
    (hm : m < bound) (hnew : c ∉ visited) :
    Explored next target bound start (Function.update at_ c m) (c :: visited)
      (queue ++ (next c).map fun b => (b, m + 1)) := by
  have hat : ∀ a ∈ visited, Function.update at_ c m a = at_ a := fun a ha =>
    Function.update_of_ne (by rintro rfl; exact hnew ha) _ _
  have hhandled : ∀ {b n}, Handled target bound at_ visited ((c, m) :: queue) b n →
      Handled target bound (Function.update at_ c m) (c :: visited)
        (queue ++ (next c).map fun b => (b, m + 1)) b n := by
    rintro b n (⟨hmem, hle⟩ | ⟨m', hle, hmem⟩ | hbound)
    · exact Or.inl ⟨List.mem_cons_of_mem _ hmem, by rwa [hat b hmem]⟩
    · rcases List.mem_cons.1 hmem with heq | hmem
      · obtain ⟨rfl, rfl⟩ := Prod.mk.inj heq
        exact Or.inl ⟨List.mem_cons_self, by rwa [Function.update_self]⟩
      · exact Or.inr (Or.inl ⟨m', hle, List.mem_append_left _ hmem⟩)
    · exact Or.inr (Or.inr hbound)
  have hfirst : ∀ q ∈ queue, m ≤ q.2 := fun q hq => (List.pairwise_cons.1 h.sorted).1 q hq
  have hlast : ∀ q ∈ queue, q.2 ≤ m + 1 := fun q hq =>
    h.level (c, m) List.mem_cons_self q (List.mem_cons_of_mem _ hq)
  have hqueue : ∀ q ∈ queue ++ (next c).map (fun b => (b, m + 1)), m ≤ q.2 ∧ q.2 ≤ m + 1 := by
    intro q hq
    rcases List.mem_append.1 hq with hq | hq
    · exact ⟨hfirst q hq, hlast q hq⟩
    · obtain ⟨b, -, rfl⟩ := List.mem_map.1 hq
      exact ⟨Nat.le_succ m, le_refl _⟩
  constructor
  · intro q hq
    rcases List.mem_append.1 hq with hq | hq
    · exact h.sound q (List.mem_cons_of_mem _ hq)
    · obtain ⟨b, hb, rfl⟩ := List.mem_map.1 hq
      exact ⟨(h.sound _ List.mem_cons_self).1.concat hb, hm⟩
  · rintro (_ | ⟨_, hmem⟩)
    · exact hc rfl
    · exact h.missed hmem
  · exact hhandled h.start
  · intro a ha b hb
    rcases List.mem_cons.1 ha with rfl | ha
    · rw [Function.update_self]
      exact Or.inr (Or.inl ⟨m + 1, le_refl _,
        List.mem_append_right _ (List.mem_map_of_mem hb)⟩)
    · rw [hat a ha]
      exact hhandled (h.closed a ha b hb)
  · intro a ha q hq
    rcases List.mem_cons.1 ha with rfl | ha
    · rw [Function.update_self]
      exact (hqueue q hq).1
    · rw [hat a ha]
      exact (h.later a ha (c, m) List.mem_cons_self).trans (hqueue q hq).1
  · refine List.pairwise_append.2 ⟨h.sorted.of_cons, ?_, ?_⟩
    · exact List.pairwise_map.2 (List.pairwise_of_forall fun _ _ => le_refl _)
    · intro q hq q' hq'
      obtain ⟨b, -, rfl⟩ := List.mem_map.1 hq'
      exact hlast q hq
  · intro q hq q' hq'
    have hlow := (hqueue q hq).1
    have hhigh := (hqueue q' hq').2
    omega

/-- A search that ends has the answer. -/
lemma Explored.answer [DecidableEq α] {found : Bool} :
    ∀ {fuel : Nat} {at_ : α → Nat} {visited : List α} {queue : List (α × Nat)},
      Explored next target bound start at_ visited queue →
      boundedSearch next target bound fuel visited queue = some found →
      (found = true ↔ ∃ n ≤ bound, StepsTo next start n target)
  | 0, _, _, _, _, hrun => by cases hrun
  | _ + 1, _, _, [], h, hrun => by
      cases hrun
      simpa using fun n hn => h.not_reached hn
  | fuel + 1, _, visited, (c, m) :: queue, h, hrun => by
      rw [boundedSearch] at hrun
      by_cases hc : c = target
      · subst hc
        rw [if_pos rfl] at hrun
        cases hrun
        obtain ⟨hwalk, hm⟩ := h.sound _ List.mem_cons_self
        simpa using ⟨m, hm, hwalk⟩
      · rw [if_neg hc] at hrun
        by_cases hskip : bound ≤ m ∨ c ∈ visited
        · rw [if_pos hskip] at hrun
          exact (h.skip hc hskip).answer hrun
        · rw [if_neg hskip] at hrun
          have hnew := not_or.1 hskip
          exact (h.expand hc (Nat.lt_of_not_le hnew.1) hnew.2).answer hrun

end Search

/-! ## Over a list of edges -/

section Edges

variable {α : Type} [DecidableEq α] (edges : List (α × α)) (target : α) (bound : Nat)

/-- The ends of the edges that start at a node. -/
def ends (a : α) : List α :=
  (edges.filter fun e => e.1 = a).map Prod.snd

/-- How many edges start at nodes that have not been expanded. -/
def pending (visited : List α) : Nat :=
  (edges.filter fun e => e.1 ∉ visited).length

variable {edges target bound}

lemma pending_cons {a : α} {visited : List α} (ha : a ∉ visited) :
    pending edges (a :: visited) + (ends edges a).length = pending edges visited := by
  simp only [pending, ends, List.length_map]
  induction edges with
  | nil => rfl
  | cons e edges ih =>
      by_cases he : e.1 = a
      · simp [he, ha] at ih ⊢
        omega
      · by_cases hv : e.1 ∈ visited <;> simp [he, hv] at ih ⊢ <;> omega

/-- Every round takes a node out of the queue, and no edge is put in twice. -/
lemma exists_boundedSearch_eq_some :
    ∀ {fuel : Nat} {visited : List α} {queue : List (α × Nat)},
      queue.length + pending edges visited < fuel →
      ∃ found, boundedSearch (ends edges) target bound fuel visited queue = some found
  | 0, _, _, hfuel => absurd hfuel (Nat.not_lt_zero _)
  | _ + 1, _, [], _ => ⟨false, rfl⟩
  | fuel + 1, visited, (c, m) :: queue, hfuel => by
      rw [boundedSearch]
      by_cases hc : c = target
      · exact ⟨true, if_pos hc⟩
      · rw [if_neg hc]
        rw [List.length_cons] at hfuel
        by_cases hskip : bound ≤ m ∨ c ∈ visited
        · rw [if_pos hskip]
          exact exists_boundedSearch_eq_some (by omega)
        · rw [if_neg hskip]
          apply exists_boundedSearch_eq_some
          have hpending : pending edges (c :: visited) + (ends edges c).length =
              pending edges visited := pending_cons (not_or.1 hskip).2
          rw [List.length_append, List.length_map]
          omega

/-- The search ends, and finds the target exactly when it can be reached within the bound. -/
theorem search_spec (edges : List (α × α)) (target : α) (bound : Nat) (start : α) :
    ∃ found, (∀ fuel, edges.length + 2 ≤ fuel →
        boundedSearch (ends edges) target bound fuel [] [(start, 0)] = some found) ∧
      (found = true ↔ ∃ n ≤ bound, StepsTo (ends edges) start n target) := by
  have hends : ∀ fuel, edges.length + 2 ≤ fuel →
      ∃ found, boundedSearch (ends edges) target bound fuel [] [(start, 0)] = some found := by
    intro fuel hfuel
    apply exists_boundedSearch_eq_some
    have hle : pending edges [] ≤ edges.length := List.length_filter_le _ _
    rw [List.length_singleton]
    omega
  have hanswer : ∀ {fuel found},
      boundedSearch (ends edges) target bound fuel [] [(start, 0)] = some found →
      (found = true ↔ ∃ n ≤ bound, StepsTo (ends edges) start n target) := by
    intro fuel found hrun
    have hstart : Explored (ends edges) target bound start (fun _ => 0) [] [(start, 0)] :=
      explored_start
    exact hstart.answer hrun
  obtain ⟨found, hfound⟩ := hends _ (le_refl _)
  refine ⟨found, fun fuel hfuel => ?_, hanswer hfound⟩
  obtain ⟨found', hfound'⟩ := hends fuel hfuel
  have heq : found' = found := Bool.eq_iff_iff.2 ((hanswer hfound').trans (hanswer hfound).symm)
  rw [hfound', heq]

end Edges

end Sast
