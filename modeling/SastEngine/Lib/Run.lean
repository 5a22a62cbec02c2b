import Mathlib.Data.List.Basic
import Mathlib.Data.List.Induction
import Mathlib.Tactic.Tauto

/-!
# Runs of a deterministic step function

A run is a list of operations executed one after the other.  `Throughout P` says that `P` holds
of the state before each operation and that operation.  Three rules carry the arguments about
runs: an invariant kept by every admissible step holds at the end (`exec_invariant`), two step
conditions that agree under an invariant hold throughout the same runs (`throughout_congr`), and
what holds at the end was established by some step and kept since (`exec_origin`).
-/

namespace Sast

variable {σ α : Type}

/-- The state after executing `ops` from `s`. -/
def exec (step : σ → α → σ) (s : σ) (ops : List α) : σ := ops.foldl step s

@[simp] lemma exec_nil (step : σ → α → σ) (s : σ) : exec step s [] = s := rfl

@[simp] lemma exec_cons (step : σ → α → σ) (s : σ) (a : α) (ops : List α) :
    exec step s (a :: ops) = exec step (step s a) ops := rfl

lemma exec_append (step : σ → α → σ) (s : σ) (xs ys : List α) :
    exec step s (xs ++ ys) = exec step (exec step s xs) ys := List.foldl_append

lemma exec_concat (step : σ → α → σ) (s : σ) (xs : List α) (a : α) :
    exec step s (xs ++ [a]) = step (exec step s xs) a := by simp [exec_append]

/-- `P` holds of every operation of the run in the state it is executed in. -/
def Throughout (step : σ → α → σ) (P : σ → α → Prop) : σ → List α → Prop
  | _, [] => True
  | s, a :: ops => P s a ∧ Throughout step P (step s a) ops

lemma throughout_cons {step : σ → α → σ} {P : σ → α → Prop} {s : σ} {a : α} {ops : List α} :
    Throughout step P s (a :: ops) ↔ P s a ∧ Throughout step P (step s a) ops := Iff.rfl

/-- Whether a decidable condition holds throughout a run is decided by executing the run. -/
def decideThroughout (step : σ → α → σ) (P : σ → α → Prop) [∀ s a, Decidable (P s a)] :
    (s : σ) → (ops : List α) → Decidable (Throughout step P s ops)
  | _, [] => isTrue trivial
  | s, a :: ops =>
      have := decideThroughout step P (step s a) ops
      inferInstanceAs (Decidable (P s a ∧ Throughout step P (step s a) ops))

instance (step : σ → α → σ) (P : σ → α → Prop) [∀ s a, Decidable (P s a)] (s : σ)
    (ops : List α) : Decidable (Throughout step P s ops) := decideThroughout step P s ops

/-- `Throughout`, read off a run cut at one of its operations. -/
lemma throughout_iff (step : σ → α → σ) (P : σ → α → Prop) (s : σ) (ops : List α) :
    Throughout step P s ops
      ↔ ∀ pre a post, ops = pre ++ a :: post → P (exec step s pre) a := by
  induction ops generalizing s with
  | nil => simp [Throughout]
  | cons a ops ih =>
      simp only [Throughout, ih]
      constructor
      · rintro ⟨h0, h⟩ pre b post heq
        cases pre with
        | nil => obtain ⟨rfl, -⟩ := List.cons.inj heq; exact h0
        | cons c pre =>
            obtain ⟨rfl, htl⟩ := List.cons.inj heq
            exact h pre b post htl
      · intro h
        refine ⟨h [] a ops rfl, fun pre b post heq => ?_⟩
        simpa using h (a :: pre) b post (by rw [heq]; rfl)

lemma throughout_append {step : σ → α → σ} {P : σ → α → Prop} {s : σ} {xs ys : List α} :
    Throughout step P s (xs ++ ys)
      ↔ Throughout step P s xs ∧ Throughout step P (exec step s xs) ys := by
  induction xs generalizing s with
  | nil => simp [Throughout]
  | cons a xs ih => simp only [List.cons_append, Throughout, exec_cons, ih, and_assoc]

lemma throughout_and {step : σ → α → σ} {P Q : σ → α → Prop} {s : σ} {ops : List α} :
    Throughout step (fun s a => P s a ∧ Q s a) s ops
      ↔ Throughout step P s ops ∧ Throughout step Q s ops := by
  induction ops generalizing s with
  | nil => simp [Throughout]
  | cons a ops ih =>
      simp only [Throughout, ih]
      tauto

lemma throughout_true {step : σ → α → σ} {s : σ} (ops : List α) :
    Throughout step (fun _ _ => True) s ops := by
  induction ops generalizing s with
  | nil => trivial
  | cons a ops ih => exact ⟨trivial, ih⟩

/-- A condition on the operations alone. -/
lemma throughout_ops {step : σ → α → σ} {P : α → Prop} {s : σ} {ops : List α} :
    Throughout step (fun _ a => P a) s ops ↔ ∀ a ∈ ops, P a := by
  induction ops generalizing s with
  | nil => simp [Throughout]
  | cons a ops ih => rw [throughout_cons, ih, List.forall_mem_cons]

/-- `P` holds of some operation of the run in the state it is executed in. -/
def Sometime (step : σ → α → σ) (P : σ → α → Prop) : σ → List α → Prop
  | _, [] => False
  | s, a :: ops => P s a ∨ Sometime step P (step s a) ops

lemma sometime_append {step : σ → α → σ} {P : σ → α → Prop} {s : σ} {xs ys : List α} :
    Sometime step P s (xs ++ ys) ↔ Sometime step P s xs ∨ Sometime step P (exec step s xs) ys := by
  induction xs generalizing s with
  | nil => simp [Sometime]
  | cons a xs ih => simp only [List.cons_append, Sometime, exec_cons, ih, or_assoc]

/-- The first thing seen in a run. -/
def firstSeen {β : Type} (step : σ → α → σ) (see : σ → α → Option β) : σ → List α → Option β
  | _, [] => none
  | s, a :: ops => (see s a).or (firstSeen step see (step s a) ops)

lemma firstSeen_append {β : Type} (step : σ → α → σ) (see : σ → α → Option β) (s : σ)
    (xs ys : List α) : firstSeen step see s (xs ++ ys)
      = (firstSeen step see s xs).or (firstSeen step see (exec step s xs) ys) := by
  induction xs generalizing s with
  | nil => rfl
  | cons a xs ih => rw [List.cons_append, firstSeen, firstSeen, ih, Option.or_assoc, exec_cons]

lemma firstSeen_concat {β : Type} (step : σ → α → σ) (see : σ → α → Option β) (s : σ)
    (xs : List α) (a : α) : firstSeen step see s (xs ++ [a])
      = (firstSeen step see s xs).or (see (exec step s xs) a) := by
  rw [firstSeen_append, firstSeen, firstSeen, Option.or_none]

/-- **The invariant rule.**  What admissible steps keep, an admissible run keeps. -/
theorem exec_invariant {step : σ → α → σ} {Ok : σ → α → Prop} (Inv : σ → Prop)
    (hstep : ∀ s a, Inv s → Ok s a → Inv (step s a)) {s : σ} {ops : List α}
    (h0 : Inv s) (hok : Throughout step Ok s ops) : Inv (exec step s ops) := by
  induction ops generalizing s with
  | nil => exact h0
  | cons a ops ih => exact ih (hstep s a h0 hok.1) hok.2

/-- **The congruence rule.**  Two step conditions that agree wherever an invariant holds, one of
which keeps that invariant, hold throughout the same runs. -/
theorem throughout_congr {step : σ → α → σ} {Ok P Q : σ → α → Prop} (Inv : σ → Prop)
    (hiff : ∀ s a, Inv s → Ok s a → (P s a ↔ Q s a))
    (hstep : ∀ s a, Inv s → Ok s a → P s a → Inv (step s a)) {s : σ} {ops : List α}
    (h0 : Inv s) (hok : Throughout step Ok s ops) :
    Throughout step P s ops ↔ Throughout step Q s ops := by
  induction ops generalizing s with
  | nil => simp [Throughout]
  | cons a ops ih =>
      have ha := hiff s a h0 hok.1
      simp only [Throughout]
      constructor
      · rintro ⟨hp, hrest⟩
        exact ⟨ha.1 hp, (ih (hstep s a h0 hok.1 hp) hok.2).1 hrest⟩
      · rintro ⟨hq, hrest⟩
        have hp := ha.2 hq
        exact ⟨hp, (ih (hstep s a h0 hok.1 hp) hok.2).2 hrest⟩

/-- **The origin rule.**  Under an invariant, a property of the state that only certain steps
establish, and that other steps at most keep, was established by the last of those steps. -/
theorem exec_origin {step : σ → α → σ} (Inv : σ → Prop) {Has : σ → Prop}
    {By Keep : σ → α → Prop} (hinv : ∀ s a, Inv s → Inv (step s a))
    (hstep : ∀ s a, Inv s → Has (step s a) → By s a ∨ (Has s ∧ Keep s a))
    {s : σ} (hinv0 : Inv s) (h0 : ¬ Has s) (ops : List α) (h : Has (exec step s ops)) :
    ∃ pre a post, ops = pre ++ a :: post ∧ By (exec step s pre) a
      ∧ Throughout step Keep (step (exec step s pre) a) post := by
  have hall : ∀ ops, Inv (exec step s ops) := by
    intro ops
    induction ops using List.reverseRecOn with
    | nil => exact hinv0
    | append_singleton ops b ih => exact exec_concat step s ops b ▸ hinv _ b ih
  induction ops using List.reverseRecOn with
  | nil => exact absurd h h0
  | append_singleton ops b ih =>
      rw [exec_concat] at h
      rcases hstep _ b (hall ops) h with hby | ⟨hhas, hkeep⟩
      · exact ⟨ops, b, [], rfl, hby, trivial⟩
      · obtain ⟨pre, a, post, heq, hby, hsince⟩ := ih hhas
        refine ⟨pre, a, post ++ [b], by simp [heq], hby,
          throughout_append.2 ⟨hsince, ?_, trivial⟩⟩
        rw [heq, exec_append, exec_cons] at hkeep
        exact hkeep

/-- What every step keeps, a run keeps. -/
lemma exec_keeps {step : σ → α → σ} (Inv : σ → Prop) (hinv : ∀ s a, Inv s → Inv (step s a)) {s : σ}
    (h0 : Inv s) (ops : List α) : Inv (exec step s ops) :=
  exec_invariant Inv (fun s a h _ => hinv s a h) h0 (throughout_true ops)

/-- **The since rule.**  Under an invariant, a property of the state that some steps establish, some
others keep, and no other step leaves, holds at the end of a run exactly if one of its steps
established it and all later ones kept it. -/
theorem exec_since {step : σ → α → σ} (Inv : σ → Prop) {Has : σ → Prop} {By Keep : σ → α → Prop}
    (hinv : ∀ s a, Inv s → Inv (step s a))
    (hstep : ∀ s a, Inv s → (Has (step s a) ↔ By s a ∨ (Has s ∧ Keep s a))) {s : σ}
    (hinv0 : Inv s) (h0 : ¬ Has s) (ops : List α) : Has (exec step s ops)
      ↔ ∃ pre a post, ops = pre ++ a :: post ∧ By (exec step s pre) a
        ∧ Throughout step Keep (step (exec step s pre) a) post := by
  induction ops using List.reverseRecOn with
  | nil =>
      refine iff_of_false h0 ?_
      rintro ⟨pre, a, post, heq, -⟩
      exact List.append_ne_nil_of_right_ne_nil pre (List.cons_ne_nil a post) heq.symm
  | append_singleton ops b ih =>
      rw [exec_concat, hstep _ b (exec_keeps Inv hinv hinv0 ops), ih]
      constructor
      · rintro (hby | ⟨⟨pre, a, post, rfl, hby, hsince⟩, hkeep⟩)
        · exact ⟨ops, b, [], rfl, hby, trivial⟩
        · refine ⟨pre, a, post ++ [b], by simp, hby, throughout_append.2 ⟨hsince, ?_, trivial⟩⟩
          rw [exec_append, exec_cons] at hkeep
          exact hkeep
      · rintro ⟨pre, a, post, heq, hby, hsince⟩
        rcases List.eq_nil_or_concat' post with rfl | ⟨post, c, rfl⟩
        · obtain ⟨rfl, hlast⟩ := List.append_inj' heq rfl
          exact Or.inl (List.singleton_inj.1 hlast ▸ hby)
        · rw [← List.cons_append, ← List.append_assoc] at heq
          obtain ⟨rfl, hlast⟩ := List.append_inj' heq rfl
          obtain ⟨hsince, hkeep, -⟩ := throughout_append.1 hsince
          refine Or.inr ⟨⟨pre, a, post, rfl, hby, hsince⟩, ?_⟩
          rw [exec_append, exec_cons, List.singleton_inj.1 hlast]
          exact hkeep

/-- A register shows a value after a step if the step set it, or if it was there and the step has
neither set nor cleared the register. -/
theorem register_step {β : Type} {step : σ → α → σ} (view : σ → Option β)
    (Sets : β → σ → α → Prop) (Clears : σ → α → Prop)
    (hsets : ∀ b s a, Sets b s a → view (step s a) = some b)
    (hclears : ∀ s a, Clears s a → view (step s a) = none)
    (hkeeps : ∀ s a, (∀ b, ¬ Sets b s a) → ¬ Clears s a → view (step s a) = view s) (b : β) (s : σ)
    (a : α) : view (step s a) = some b
      ↔ Sets b s a ∨ (view s = some b ∧ (∀ b', ¬ Sets b' s a) ∧ ¬ Clears s a) := by
  constructor
  · intro h
    by_cases hset : ∃ b', Sets b' s a
    · obtain ⟨b', hb'⟩ := hset
      obtain rfl := Option.some.inj ((hsets b' s a hb').symm.trans h)
      exact Or.inl hb'
    · have hclear : ¬ Clears s a := fun hclear => by
        rw [hclears s a hclear] at h
        cases h
      have hnone : ∀ b', ¬ Sets b' s a := fun b' hb' => hset ⟨b', hb'⟩
      exact Or.inr ⟨(hkeeps s a hnone hclear).symm.trans h, hnone, hclear⟩
  · rintro (hset | ⟨h, hnone, hclear⟩)
    · exact hsets b s a hset
    · exact (hkeeps s a hnone hclear).trans h

/-- **The register rule.**  What a register shows at the end of a run, if anything, was set by one
of its steps, after which no step has set or cleared the register. -/
theorem exec_register {β : Type} {step : σ → α → σ} (view : σ → Option β) (Sets : β → σ → α → Prop)
    (Clears : σ → α → Prop) (hsets : ∀ b s a, Sets b s a → view (step s a) = some b)
    (hclears : ∀ s a, Clears s a → view (step s a) = none)
    (hkeeps : ∀ s a, (∀ b, ¬ Sets b s a) → ¬ Clears s a → view (step s a) = view s) {s : σ}
    (h0 : view s = none) (b : β) (ops : List α) : view (exec step s ops) = some b
      ↔ ∃ pre a post, ops = pre ++ a :: post ∧ Sets b (exec step s pre) a
        ∧ Throughout step (fun s a => (∀ b', ¬ Sets b' s a) ∧ ¬ Clears s a)
          (step (exec step s pre) a) post := by
  have hempty : ¬ view s = some b := by
    rw [h0]
    exact Option.some_ne_none b ∘ Eq.symm
  exact @exec_since σ α step (fun _ => True) (fun s => view s = some b) (Sets b)
    (fun s a => (∀ b', ¬ Sets b' s a) ∧ ¬ Clears s a) (fun _ _ _ => trivial)
    (fun s a _ => register_step view Sets Clears hsets hclears hkeeps b s a) s trivial hempty ops

/-! ## Histories -/

/-- Operations with the given properties occur in the run, the last of them first in the list. -/
def InOrder (step : σ → α → σ) (s : σ) : List (σ → α → Prop) → List α → Prop
  | [], _ => True
  | P :: Ps, ops => ∃ pre a post, ops = pre ++ a :: post ∧ P (exec step s pre) a
      ∧ InOrder step s Ps pre

/-- A property of the state, and the operations that establish it. -/
structure Milestone (σ α : Type) where
  Has : σ → Prop
  By : σ → α → Prop

/-- **The history rule.**  Under an invariant, where each milestone is established only by
operations that find the next one passed, a run that passes the first has passed all of them, the
last one first. -/
theorem exec_history {step : σ → α → σ} (Inv : σ → Prop) (hinv : ∀ s a, Inv s → Inv (step s a))
    {s : σ} (hinv0 : Inv s) {milestones : List (Milestone σ α)}
    (hstep : ∀ m ∈ milestones, ∀ s a, Inv s → m.Has (step s a) → m.By s a ∨ m.Has s)
    (hchain : milestones.IsChain fun later earlier => ∀ s a, Inv s → later.By s a → earlier.Has s)
    (h0 : ∀ m ∈ milestones, ¬ m.Has s) (ops : List α)
    (h : ∀ m ∈ milestones.head?, m.Has (exec step s ops)) :
    InOrder step s (milestones.map Milestone.By) ops := by
  induction milestones generalizing ops with
  | nil => trivial
  | cons m milestones ih =>
      have hkeep : ∀ s a, Inv s → m.Has (step s a) → m.By s a ∨ (m.Has s ∧ True) := by
        intro s a hs hhas
        exact (hstep m List.mem_cons_self s a hs hhas).imp_right fun h => ⟨h, trivial⟩
      obtain ⟨pre, a, post, heq, hby, -⟩ :=
        exec_origin Inv hinv hkeep hinv0 (h0 m List.mem_cons_self) ops (h m rfl)
      refine ⟨pre, a, post, heq, hby, ?_⟩
      refine ih (fun m' hm' => hstep m' (List.mem_cons_of_mem m hm')) hchain.of_cons
        (fun m' hm' => h0 m' (List.mem_cons_of_mem m hm')) pre ?_
      intro next hnext
      cases milestones with
      | nil => cases hnext
      | cons m' milestones =>
          obtain rfl : m' = next := Option.some.inj hnext
          exact (List.isChain_cons_cons.1 hchain).1 _ a (exec_keeps Inv hinv hinv0 pre) hby

end Sast
