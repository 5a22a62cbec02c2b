import Mathlib.Data.List.Chain
import Mathlib.Data.List.Induction
import Mathlib.Tactic.Lemma

/-!
# Journals of a state machine

An append-only list of entries, each with the state before it and the state after it.  The first
entry has no state before it and opens in the initial state; every later one starts in the state
the entry before it ended in and makes an allowed move.
-/

namespace Sast

variable {E S : Type}

/-- The moves of a state machine and how its journal entries record them. -/
structure Moves (E S : Type) where
  start : S
  allowed : S → S → Prop
  before : E → Option S
  after : E → S

variable (m : Moves E S)

/-- `Journal m es s`: the entries lead from the opening to the current state `s`. -/
inductive Journal : List E → S → Prop
  | opened {e : E} : m.before e = none → m.after e = m.start → Journal [e] m.start
  | moved {es : List E} {s : S} {e : E} : Journal es s → m.before e = some s →
      m.allowed s (m.after e) → Journal (es ++ [e]) (m.after e)

/-- An entry continues where another one ended. -/
def Follows (e e' : E) : Prop :=
  m.before e' = some (m.after e) ∧ m.allowed (m.after e) (m.after e')

/-- No move leaves the state. -/
def Moves.Final (s : S) : Prop := ∀ s', ¬ m.allowed s s'

variable {m} {es : List E} {s : S}

namespace Journal

lemma ne_nil (h : Journal m es s) : es ≠ [] := by
  cases h with
  | opened => simp
  | moved => simp

/-- The first entry opens the journal. -/
lemma head (h : Journal m es s) :
    ∃ e rest, es = e :: rest ∧ m.before e = none ∧ m.after e = m.start := by
  induction h with
  | @opened e hbefore hafter => exact ⟨e, [], rfl, hbefore, hafter⟩
  | @moved es s last _ _ _ ih =>
      obtain ⟨e, rest, rfl, hbefore, hafter⟩ := ih
      exact ⟨e, rest ++ [last], rfl, hbefore, hafter⟩

/-- The last entry ends in the current state. -/
lemma last (h : Journal m es s) : es.getLast?.map m.after = some s := by
  cases h with
  | opened _ hafter => simp [hafter]
  | moved => simp

/-- Each entry continues where the one before it ended. -/
lemma linked (h : Journal m es s) : es.IsChain (Follows m) := by
  induction h with
  | opened => exact List.isChain_singleton _
  | @moved es s e hjournal hbefore hallowed ih =>
      rw [List.isChain_append]
      refine ⟨ih, List.isChain_singleton e, ?_⟩
      intro x hx y hy
      have hlast := hjournal.last
      rw [hx] at hlast
      obtain rfl := Option.some.inj hlast
      obtain rfl : e = y := by simpa using hy
      exact ⟨hbefore, hallowed⟩

/-- **Nothing follows an entry that ends in a final state.** -/
theorem eq_nil_of_final (h : Journal m es s) {pre post : List E} {e : E}
    (heq : es = pre ++ e :: post) (hfinal : m.Final (m.after e)) : post = [] := by
  cases post with
  | nil => rfl
  | cons e' post =>
      have hlinked := h.linked
      rw [heq, List.isChain_append] at hlinked
      obtain ⟨-, hfollows⟩ := (List.isChain_cons_cons.1 hlinked.2.1).1
      exact absurd hfollows (hfinal _)

/-- **The entries determine the current state**, whatever their order: it is the one that is
entered more often than it is left. -/
theorem countP_after [DecidableEq S] (h : Journal m es s) (v : S) :
    es.countP (fun e => m.after e = v)
      = es.countP (fun e => m.before e = some v) + if v = s then 1 else 0 := by
  induction h with
  | opened hbefore hafter =>
      simp only [List.countP_singleton, hbefore, hafter, eq_comm (a := v)]
      simp
  | moved _ hbefore _ ih =>
      simp only [List.countP_append, List.countP_singleton, ih, hbefore, Option.some.injEq,
        decide_eq_true_eq, eq_comm (a := v)]

/-- Two journals of the same entries, in any order, end in the same state. -/
lemma state_eq_of_perm {es' : List E} {s' : S} (h : Journal m es s) (h' : Journal m es' s')
    (hperm : es.Perm es') : s = s' := by
  classical
  have hs := h.countP_after s
  have hs' := h'.countP_after s
  rw [if_pos rfl, hperm.countP_eq, hperm.countP_eq] at hs
  by_contra hne
  rw [if_neg hne] at hs'
  omega

/-- While the current state is not final, no entry ends in a final state. -/
lemma not_final_of_mem (h : Journal m es s) (hs : ¬ m.Final s) {e : E} (he : e ∈ es) :
    ¬ m.Final (m.after e) := by
  intro hfinal
  obtain ⟨pre, post, rfl⟩ := List.append_of_mem he
  obtain rfl := h.eq_nil_of_final rfl hfinal
  have hlast := h.last
  rw [List.getLast?_concat, Option.map_some, Option.some.injEq] at hlast
  exact hs (hlast ▸ hfinal)

/-- **At most one entry ends in a final state.** -/
theorem countP_final_le_one (h : Journal m es s) {p : E → Bool}
    (hp : ∀ e, p e = true → m.Final (m.after e)) : es.countP p ≤ 1 := by
  cases h with
  | opened => exact List.countP_le_length.trans (by simp)
  | @moved es s e hjournal hbefore hallowed =>
      have hnone : es.countP p = 0 := by
        rw [List.countP_eq_zero]
        intro x hx hpx
        exact hjournal.not_final_of_mem (fun hfinal => hfinal _ hallowed) hx (hp x hpx)
      rw [List.countP_append, hnone, Nat.zero_add]
      exact List.countP_le_length.trans (by simp)

end Journal

end Sast
