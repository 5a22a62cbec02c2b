import SastEngine.Lib.Run

/-!
# Loops that may stop

A loop runs its body over a list and stops when the body raises.  The body returns the state it
leaves in both cases.
-/

namespace Sast

variable {σ α β ε : Type}

/-- Run the body over the list until it raises. -/
def loop (body : σ → α → σ × Option ε) : σ → List α → σ × Option ε
  | s, [] => (s, none)
  | s, a :: as =>
      match body s a with
      | (s', none) => loop body s' as
      | (s', some e) => (s', some e)

/-- The state the body leaves. -/
def afterBody (body : σ → α → σ × Option ε) (s : σ) (a : α) : σ := (body s a).1

/-- The body does not raise. -/
def Continues (body : σ → α → σ × Option ε) (s : σ) (a : α) : Prop := (body s a).2 = none

/-- Go on if nothing was raised. -/
def andThen (r : σ × Option ε) (next : σ → σ × Option ε) : σ × Option ε :=
  match r with
  | (s, none) => next s
  | (s, some e) => (s, some e)

lemma andThen_of_none {r : σ × Option ε} (next : σ → σ × Option ε) (h : r.2 = none) :
    andThen r next = next r.1 := by
  obtain ⟨s, e⟩ := r
  cases h
  rfl

lemma andThen_of_some {r : σ × Option ε} (next : σ → σ × Option ε) {e : ε} (h : r.2 = some e) :
    andThen r next = r := by
  obtain ⟨s, e⟩ := r
  cases h
  rfl

/-- What holds after the first part and is kept by the second holds after both. -/
lemma andThen_invariant {Inv : σ → Prop} {r : σ × Option ε} {next : σ → σ × Option ε}
    (h : Inv r.1) (hnext : ∀ s, Inv s → Inv (next s).1) : Inv (andThen r next).1 := by
  cases hr : r.2 with
  | none => rw [andThen_of_none next hr]; exact hnext _ h
  | some e => rw [andThen_of_some next hr]; exact h

variable {body : σ → α → σ × Option ε} {s : σ}

@[simp] lemma loop_nil : loop body s [] = (s, none) := rfl

lemma loop_cons_of_continues {a : α} {as : List α} (h : Continues body s a) :
    loop body s (a :: as) = loop body (afterBody body s a) as := by
  unfold Continues at h
  rw [loop, afterBody]
  split
  · next s' heq => rw [heq]
  · next s' e heq => rw [heq] at h; cases h

lemma loop_cons_of_raises {a : α} {as : List α} {e : ε} (h : (body s a).2 = some e) :
    loop body s (a :: as) = (afterBody body s a, some e) := by
  rw [loop, afterBody]
  split
  · next s' heq => rw [heq] at h; cases h
  · next s' e' heq => rw [heq] at h ⊢; cases h; rfl

/-- A loop whose body never raises runs to its end. -/
lemma loop_of_throughout {as : List α} (h : Throughout (afterBody body) (Continues body) s as) :
    loop body s as = (exec (afterBody body) s as, none) := by
  induction as generalizing s with
  | nil => rfl
  | cons a as ih => rw [loop_cons_of_continues h.1, ih h.2]; rfl

/-- A loop stops where its body raises first. -/
lemma loop_of_raises {pre post : List α} {a : α} {e : ε}
    (hpre : Throughout (afterBody body) (Continues body) s pre)
    (hraise : (body (exec (afterBody body) s pre) a).2 = some e) :
    loop body s (pre ++ a :: post) = (afterBody body (exec (afterBody body) s pre) a, some e) := by
  induction pre generalizing s with
  | nil => exact loop_cons_of_raises hraise
  | cons b pre ih =>
      rw [List.cons_append, loop_cons_of_continues hpre.1]
      exact ih hpre.2 hraise

/-- **A loop runs to its end or stops where its body raises first.** -/
theorem loop_cases (body : σ → α → σ × Option ε) (s : σ) (as : List α) :
    (Throughout (afterBody body) (Continues body) s as
        ∧ loop body s as = (exec (afterBody body) s as, none))
    ∨ ∃ pre a post e, as = pre ++ a :: post
        ∧ Throughout (afterBody body) (Continues body) s pre
        ∧ (body (exec (afterBody body) s pre) a).2 = some e
        ∧ loop body s as = (afterBody body (exec (afterBody body) s pre) a, some e) := by
  induction as generalizing s with
  | nil => exact Or.inl ⟨trivial, rfl⟩
  | cons a as ih =>
      cases hbody : (body s a).2 with
      | some e => exact Or.inr ⟨[], a, as, e, rfl, trivial, hbody, loop_cons_of_raises hbody⟩
      | none =>
          rw [loop_cons_of_continues hbody]
          rcases ih (afterBody body s a) with ⟨hall, hloop⟩ | ⟨pre, b, post, e, has, hpre, hb, hloop⟩
          · exact Or.inl ⟨⟨hbody, hall⟩, hloop⟩
          · exact Or.inr ⟨a :: pre, b, post, e, by rw [has]; rfl, ⟨hbody, hpre⟩, hb, hloop⟩

/-- The loop runs to its end iff the body never raises. -/
lemma loop_snd_eq_none_iff {as : List α} :
    (loop body s as).2 = none ↔ Throughout (afterBody body) (Continues body) s as := by
  constructor
  · intro h
    rcases loop_cases body s as with ⟨hall, -⟩ | ⟨pre, a, post, e, -, -, -, hloop⟩
    · exact hall
    · rw [hloop] at h
      cases h
  · intro h
    rw [loop_of_throughout h]

/-- A loop over images. -/
lemma loop_map (body : σ → β → σ × Option ε) (f : α → β) (s : σ) (as : List α) :
    loop (fun s a => body s (f a)) s as = loop body s (as.map f) := by
  induction as generalizing s with
  | nil => rfl
  | cons a as ih =>
      simp only [loop, List.map_cons]
      cases body s (f a) with
      | mk s' e =>
          cases e with
          | none => exact ih s'
          | some e => rfl

/-- **What the body keeps, the loop keeps**, also when it stops. -/
theorem loop_invariant (Inv : σ → Prop) (hbody : ∀ s a, Inv s → Inv (body s a).1) {as : List α}
    (h : Inv s) : Inv (loop body s as).1 := by
  induction as generalizing s with
  | nil => exact h
  | cons a as ih =>
      rw [loop]
      have hstep := hbody s a h
      split
      · next s' heq => rw [heq] at hstep; exact ih hstep
      · next s' e heq => rw [heq] at hstep; exact hstep

end Sast
