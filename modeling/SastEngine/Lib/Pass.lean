import Mathlib.Data.List.Forall2
import SastEngine.Lib.Flow

/-!
# Passes with merges

A pass walks a command once in source order and carries one state.  Where control flow joins, it
merges: the states after two branches, and the state before a block with the one after it.  A loop
over items binds its variables first, and its `else` also runs where nothing was bound.  What
the merge does is a parameter, so that passes with different merges, and over different states,
can be compared along the same walk (`states_related`).
-/

namespace Sast

variable {E σ τ : Type}

/-- What a pass does where control flow joins. -/
structure Merge (σ : Type) where
  /-- after two branches, from the state before them -/
  branches : σ → σ → σ → σ
  /-- at the `else` of a loop, from the states before and after the binding -/
  skipped : σ → σ → σ
  /-- after a block that may be left early -/
  partly : σ → σ → σ
  /-- after a block that runs to its end -/
  fully : σ → σ → σ

/-- The state after a pass over a command. -/
def passEnd (δ : E → σ → σ) (m : Merge σ) : Cmd E → σ → σ
  | .skip, s | .exit, s | .unhandled, s => s
  | .event e, s => δ e s
  | .seq a b, s => passEnd δ m b (passEnd δ m a s)
  | .choice a b, s => m.branches s (passEnd δ m a s) (passEnd δ m b s)
  | .loop h b o, s =>
      let s₁ := passEnd δ m h s
      m.branches s₁ (passEnd δ m b s₁) (passEnd δ m o s₁)
  | .each i n b o, s =>
      let s₀ := passEnd δ m i s
      let s₁ := passEnd δ m n s₀
      m.branches s₁ (passEnd δ m b s₁) (passEnd δ m o (m.skipped s₀ s₁))
  | .tryCatch b o f h, s =>
      let s₁ := m.partly s (passEnd δ m b s)
      let s₂ := m.partly s₁ (passEnd δ m o s₁)
      passEnd δ m h (m.fully s₂ (passEnd δ m f s₂))
  | .handle h r, s => passEnd δ m r (m.partly s (passEnd δ m h s))
  | .guard b, s => m.partly s (passEnd δ m b s)

/-- The events that a pass comes to, each with the state there. -/
def passStates (δ : E → σ → σ) (m : Merge σ) : Cmd E → σ → List (E × σ)
  | .skip, _ | .exit, _ | .unhandled, _ => []
  | .event e, s => [(e, s)]
  | .seq a b, s => passStates δ m a s ++ passStates δ m b (passEnd δ m a s)
  | .choice a b, s => passStates δ m a s ++ passStates δ m b s
  | .loop h b o, s =>
      let s₁ := passEnd δ m h s
      passStates δ m h s ++ (passStates δ m b s₁ ++ passStates δ m o s₁)
  | .each i n b o, s =>
      let s₀ := passEnd δ m i s
      let s₁ := passEnd δ m n s₀
      passStates δ m i s ++ passStates δ m n s₀
        ++ (passStates δ m b s₁ ++ passStates δ m o (m.skipped s₀ s₁))
  | .tryCatch b o f h, s =>
      let s₁ := m.partly s (passEnd δ m b s)
      let s₂ := m.partly s₁ (passEnd δ m o s₁)
      passStates δ m b s ++ passStates δ m o s₁ ++ passStates δ m f s₂
        ++ passStates δ m h (m.fully s₂ (passEnd δ m f s₂))
  | .handle h r, s =>
      passStates δ m h s ++ passStates δ m r (m.partly s (passEnd δ m h s))
  | .guard b, s => passStates δ m b s

/-! ## Related passes -/

section Related

variable {δ : E → σ → σ} {δ' : E → τ → τ} {m : Merge σ} {m' : Merge τ} {R : σ → τ → Prop}

/-- The two kinds of states stay related by what happens along a pass. -/
structure Related (δ : E → σ → σ) (m : Merge σ) (δ' : E → τ → τ) (m' : Merge τ)
    (R : σ → τ → Prop) : Prop where
  event : ∀ e s t, R s t → R (δ e s) (δ' e t)
  branches : ∀ s t a a' b b', R s t → R a a' → R b b' →
    R (m.branches s a b) (m'.branches t a' b')
  skipped : ∀ s t a a', R s t → R a a' → R (m.skipped s a) (m'.skipped t a')
  partly : ∀ s t a a', R s t → R a a' → R (m.partly s a) (m'.partly t a')
  fully : ∀ s t a a', R s t → R a a' → R (m.fully s a) (m'.fully t a')

/-- Passes from related states end in related states. -/
lemma passEnd_related (h : Related δ m δ' m' R) (c : Cmd E) :
    ∀ {s : σ} {t : τ}, R s t → R (passEnd δ m c s) (passEnd δ' m' c t) := by
  induction c with
  | skip | exit | unhandled =>
      intro s t hst
      exact hst
  | event e =>
      intro s t hst
      exact h.event e s t hst
  | seq a b iha ihb =>
      intro s t hst
      exact ihb (iha hst)
  | choice a b iha ihb =>
      intro s t hst
      exact h.branches _ _ _ _ _ _ hst (iha hst) (ihb hst)
  | loop hd b o ihh ihb iho =>
      intro s t hst
      exact h.branches _ _ _ _ _ _ (ihh hst) (ihb (ihh hst)) (iho (ihh hst))
  | each i n b o ihi ihn ihb iho =>
      intro s t hst
      have hbound := ihn (ihi hst)
      have hskipped := h.skipped _ _ _ _ (ihi hst) hbound
      exact h.branches _ _ _ _ _ _ hbound (ihb hbound) (iho hskipped)
  | tryCatch b o f hd ihb iho ihf ihh =>
      intro s t hst
      have h₁ := h.partly _ _ _ _ hst (ihb hst)
      have h₂ := h.partly _ _ _ _ h₁ (iho h₁)
      exact ihh (h.fully _ _ _ _ h₂ (ihf h₂))
  | handle hd r ihh ihr =>
      intro s t hst
      exact ihr (h.partly _ _ _ _ hst (ihh hst))
  | guard b ih =>
      intro s t hst
      exact h.partly _ _ _ _ hst (ih hst)

/-- The same event, with related states. -/
def SameVisit (R : σ → τ → Prop) (v : E × σ) (w : E × τ) : Prop := v.1 = w.1 ∧ R v.2 w.2

/-- **Passes from related states come to the same events in related states.** -/
theorem states_related (h : Related δ m δ' m' R) (c : Cmd E) :
    ∀ {s : σ} {t : τ}, R s t →
      List.Forall₂ (SameVisit R) (passStates δ m c s) (passStates δ' m' c t) := by
  have hend : ∀ (c : Cmd E) {s : σ} {t : τ}, R s t → R (passEnd δ m c s) (passEnd δ' m' c t) :=
    fun c => passEnd_related h c
  induction c with
  | skip | exit | unhandled =>
      intro s t _
      exact .nil
  | event e =>
      intro s t hst
      exact .cons ⟨rfl, hst⟩ .nil
  | seq a b iha ihb =>
      intro s t hst
      exact List.rel_append (iha hst) (ihb (hend a hst))
  | choice a b iha ihb =>
      intro s t hst
      exact List.rel_append (iha hst) (ihb hst)
  | loop hd b o ihh ihb iho =>
      intro s t hst
      have hhead := hend hd hst
      exact List.rel_append (ihh hst) (List.rel_append (ihb hhead) (iho hhead))
  | each i n b o ihi ihn ihb iho =>
      intro s t hst
      have hitem := hend i hst
      have hbound := hend n hitem
      have hskipped := h.skipped _ _ _ _ hitem hbound
      exact List.rel_append (List.rel_append (ihi hst) (ihn hitem))
        (List.rel_append (ihb hbound) (iho hskipped))
  | tryCatch b o f hd ihb iho ihf ihh =>
      intro s t hst
      have h₁ := h.partly _ _ _ _ hst (hend b hst)
      have h₂ := h.partly _ _ _ _ h₁ (hend o h₁)
      have h₃ := h.fully _ _ _ _ h₂ (hend f h₂)
      exact List.rel_append (List.rel_append (List.rel_append (ihb hst) (iho h₁)) (ihf h₂))
        (ihh h₃)
  | handle hd r ihh ihr =>
      intro s t hst
      exact List.rel_append (ihh hst) (ihr (h.partly _ _ _ _ hst (hend hd hst)))
  | guard b ih =>
      intro s t hst
      exact ih hst

end Related

/-! ## Invariants -/

section Invariant

variable {δ : E → σ → σ} {m : Merge σ} {I : σ → Prop}

/-- The merge of the passes that carry nothing. -/
def unitMerge : Merge Unit := ⟨fun _ _ _ => (), fun _ _ => (), fun _ _ => (), fun _ _ => ()⟩

/-- **What every step and every merge keeps holds wherever the pass comes.** -/
theorem states_invariant
    (h : Related δ m (fun _ _ => ()) unitMerge fun (s : σ) (_ : Unit) => I s) (c : Cmd E) {s : σ}
    (hs : I s) : ∀ v ∈ passStates δ m c s, I v.2 := by
  intro v hv
  have hrelated := states_related h c (t := ()) hs
  obtain ⟨i, hi, rfl⟩ := List.getElem_of_mem hv
  exact (List.Forall₂.get hrelated hi (hrelated.length_eq ▸ hi)).2

end Invariant

end Sast
