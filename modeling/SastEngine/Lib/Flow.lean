import Mathlib.Data.Set.Lattice
import Mathlib.Tactic.Lemma

/-!
# Structured control flow and one-pass analyses

Commands over arbitrary events, with their control-flow paths, and the analysis that walks a
command once in source order and unites what the branches yield.  A path (`Run`, `Reach`) repeats
loops, leaves blocks by exceptions and returns, and chooses one branch.  A sweep (`Sweep`,
`SweepReach`) follows the analysis instead: it goes through the body of a loop at most once, takes
the `else` of a loop only in place of the body, ignores exits, and passes the parts of a `try` in
the order body, `else`, `finally`, handlers.

For transfer functions that distribute over unions, the analysis computes exactly the union over
the sweeps (`mem_after_iff`, `visits_iff`); whether it covers the paths is then a question about
paths and sweeps only.
-/

namespace Sast

/-- Commands over events `E`.  In `each`, `item` runs for every item of the loop and `bind` for the
first one only. -/
inductive Cmd (E : Type) where
  | skip
  | event (e : E)
  | exit
  | seq (first second : Cmd E)
  | choice (left right : Cmd E)
  | loop (head body orelse : Cmd E)
  | each (item bind body orelse : Cmd E)
  | tryCatch (body orelse final handlers : Cmd E)
  | handle (handler rest : Cmd E)
  | unhandled
  | guard (body : Cmd E)

/-- How a path leaves a command. -/
inductive Exit where
  | normal
  | raised
  | returned
deriving DecidableEq

/-- A `finally` block that exits itself replaces the exit it was entered with. -/
def Exit.replacing : Exit → Exit → Exit
  | .normal, before => before
  | after, _ => after

variable {E σ τ : Type}

/-! ## Paths -/

/-- `Run δ c s x s'`: some path through `c` that starts in state `s` leaves it by `x` in `s'`.  An
event may raise before or after its effect. -/
inductive Run (δ : E → σ → σ) : Cmd E → σ → Exit → σ → Prop
  | skip (s) : Run δ .skip s .normal s
  | event (e s) : Run δ (.event e) s .normal (δ e s)
  | raisedBefore (e s) : Run δ (.event e) s .raised s
  | raisedAfter (e s) : Run δ (.event e) s .raised (δ e s)
  | exit (s) : Run δ .exit s .returned s
  | seq {a b s s₁ x s₂} : Run δ a s .normal s₁ → Run δ b s₁ x s₂ → Run δ (.seq a b) s x s₂
  | seqExit {a b s x s₁} : Run δ a s x s₁ → x ≠ .normal → Run δ (.seq a b) s x s₁
  | left {a b s x s₁} : Run δ a s x s₁ → Run δ (.choice a b) s x s₁
  | right {a b s x s₁} : Run δ b s x s₁ → Run δ (.choice a b) s x s₁
  | loopExit {h b o s x s₁} : Run δ h s x s₁ → x ≠ .normal → Run δ (.loop h b o) s x s₁
  | loopElse {h b o s s₁ x s₂} :
      Run δ h s .normal s₁ → Run δ o s₁ x s₂ → Run δ (.loop h b o) s x s₂
  | loopNext {h b o s s₁ s₂ x s₃} : Run δ h s .normal s₁ → Run δ b s₁ .normal s₂ →
      Run δ (.loop h b o) s₂ x s₃ → Run δ (.loop h b o) s x s₃
  | loopBody {h b o s s₁ x s₂} :
      Run δ h s .normal s₁ → Run δ b s₁ x s₂ → x ≠ .normal → Run δ (.loop h b o) s x s₂
  | eachDone {i n b o s x s₁} : Run δ o s x s₁ → Run δ (.each i n b o) s x s₁
  | eachNext {i n b o s x s₁} : Run δ (.seq (.seq i n) (.seq b (.each i .skip b o))) s x s₁ →
      Run δ (.each i n b o) s x s₁
  | tryElse {b o f h s s₁ x s₂ y s₃} : Run δ b s .normal s₁ → Run δ o s₁ x s₂ →
      Run δ f s₂ y s₃ → Run δ (.tryCatch b o f h) s (y.replacing x) s₃
  | tryCaught {b o f h s s₁ x s₂ y s₃} : Run δ b s .raised s₁ → Run δ h s₁ x s₂ →
      Run δ f s₂ y s₃ → Run δ (.tryCatch b o f h) s (y.replacing x) s₃
  | tryEscape {b o f h s x s₁ y s₂} : Run δ b s x s₁ → x ≠ .normal →
      Run δ f s₁ y s₂ → Run δ (.tryCatch b o f h) s (y.replacing x) s₂
  | caught {h r s x s₁} : Run δ h s x s₁ → Run δ (.handle h r) s x s₁
  | otherwise {h r s x s₁} : Run δ r s x s₁ → Run δ (.handle h r) s x s₁
  | guard {b s x s₁} : Run δ b s x s₁ → Run δ (.guard b) s x s₁
  | swallowed {b s s₁} : Run δ b s .raised s₁ → Run δ (.guard b) s .normal s₁

/-- `Reach δ c s e s'`: some path through `c` that starts in `s` comes to the event `e` in `s'`. -/
inductive Reach (δ : E → σ → σ) : Cmd E → σ → E → σ → Prop
  | event (e s) : Reach δ (.event e) s e s
  | first {a b s e s'} : Reach δ a s e s' → Reach δ (.seq a b) s e s'
  | second {a b s s₁ e s'} :
      Run δ a s .normal s₁ → Reach δ b s₁ e s' → Reach δ (.seq a b) s e s'
  | left {a b s e s'} : Reach δ a s e s' → Reach δ (.choice a b) s e s'
  | right {a b s e s'} : Reach δ b s e s' → Reach δ (.choice a b) s e s'
  | loopHead {h b o s e s'} : Reach δ h s e s' → Reach δ (.loop h b o) s e s'
  | loopBody {h b o s s₁ e s'} :
      Run δ h s .normal s₁ → Reach δ b s₁ e s' → Reach δ (.loop h b o) s e s'
  | loopElse {h b o s s₁ e s'} :
      Run δ h s .normal s₁ → Reach δ o s₁ e s' → Reach δ (.loop h b o) s e s'
  | loopNext {h b o s s₁ s₂ e s'} : Run δ h s .normal s₁ → Run δ b s₁ .normal s₂ →
      Reach δ (.loop h b o) s₂ e s' → Reach δ (.loop h b o) s e s'
  | eachDone {i n b o s e s'} : Reach δ o s e s' → Reach δ (.each i n b o) s e s'
  | eachNext {i n b o s e s'} : Reach δ (.seq (.seq i n) (.seq b (.each i .skip b o))) s e s' →
      Reach δ (.each i n b o) s e s'
  | tryBody {b o f h s e s'} : Reach δ b s e s' → Reach δ (.tryCatch b o f h) s e s'
  | tryElse {b o f h s s₁ e s'} :
      Run δ b s .normal s₁ → Reach δ o s₁ e s' → Reach δ (.tryCatch b o f h) s e s'
  | tryHandlers {b o f h s s₁ e s'} :
      Run δ b s .raised s₁ → Reach δ h s₁ e s' → Reach δ (.tryCatch b o f h) s e s'
  | finalElse {b o f h s s₁ x s₂ e s'} : Run δ b s .normal s₁ → Run δ o s₁ x s₂ →
      Reach δ f s₂ e s' → Reach δ (.tryCatch b o f h) s e s'
  | finalCaught {b o f h s s₁ x s₂ e s'} : Run δ b s .raised s₁ → Run δ h s₁ x s₂ →
      Reach δ f s₂ e s' → Reach δ (.tryCatch b o f h) s e s'
  | finalEscape {b o f h s x s₁ e s'} : Run δ b s x s₁ → x ≠ .normal →
      Reach δ f s₁ e s' → Reach δ (.tryCatch b o f h) s e s'
  | caught {h r s e s'} : Reach δ h s e s' → Reach δ (.handle h r) s e s'
  | otherwise {h r s e s'} : Reach δ r s e s' → Reach δ (.handle h r) s e s'
  | guard {b s e s'} : Reach δ b s e s' → Reach δ (.guard b) s e s'

/-! ## Sweeps -/

/-- `Sweep δ c s s'`: some walk through `c` in the order of the analysis leads from `s` to `s'`. -/
inductive Sweep (δ : E → σ → σ) : Cmd E → σ → σ → Prop
  | skip (s) : Sweep δ .skip s s
  | event (e s) : Sweep δ (.event e) s (δ e s)
  | exit (s) : Sweep δ .exit s s
  | seq {a b s s₁ s₂} : Sweep δ a s s₁ → Sweep δ b s₁ s₂ → Sweep δ (.seq a b) s s₂
  | left {a b s s₁} : Sweep δ a s s₁ → Sweep δ (.choice a b) s s₁
  | right {a b s s₁} : Sweep δ b s s₁ → Sweep δ (.choice a b) s s₁
  | loopBody {h b o s s₁ s₂} : Sweep δ h s s₁ → Sweep δ b s₁ s₂ → Sweep δ (.loop h b o) s s₂
  | loopElse {h b o s s₁ s₂} : Sweep δ h s s₁ → Sweep δ o s₁ s₂ → Sweep δ (.loop h b o) s s₂
  | eachBody {i n b o s s₁ s₂} :
      Sweep δ (.seq i n) s s₁ → Sweep δ b s₁ s₂ → Sweep δ (.each i n b o) s s₂
  | eachElse {i n b o s s₁ s₂} :
      Sweep δ (.seq i n) s s₁ → Sweep δ o s₁ s₂ → Sweep δ (.each i n b o) s s₂
  | tryCatch {b o f h s s₁ s₂ s₃ s₄} : Sweep δ b s s₁ → Sweep δ o s₁ s₂ → Sweep δ f s₂ s₃ →
      Sweep δ h s₃ s₄ → Sweep δ (.tryCatch b o f h) s s₄
  | handle {h r s s₁ s₂} : Sweep δ h s s₁ → Sweep δ r s₁ s₂ → Sweep δ (.handle h r) s s₂
  | unhandled (s) : Sweep δ .unhandled s s
  | guard {b s s₁} : Sweep δ b s s₁ → Sweep δ (.guard b) s s₁

/-- `SweepReach δ c s e s'`: some such walk that starts in `s` comes to the event `e` in `s'`. -/
inductive SweepReach (δ : E → σ → σ) : Cmd E → σ → E → σ → Prop
  | event (e s) : SweepReach δ (.event e) s e s
  | first {a b s e s'} : SweepReach δ a s e s' → SweepReach δ (.seq a b) s e s'
  | second {a b s s₁ e s'} :
      Sweep δ a s s₁ → SweepReach δ b s₁ e s' → SweepReach δ (.seq a b) s e s'
  | left {a b s e s'} : SweepReach δ a s e s' → SweepReach δ (.choice a b) s e s'
  | right {a b s e s'} : SweepReach δ b s e s' → SweepReach δ (.choice a b) s e s'
  | loopHead {h b o s e s'} : SweepReach δ h s e s' → SweepReach δ (.loop h b o) s e s'
  | loopBody {h b o s s₁ e s'} :
      Sweep δ h s s₁ → SweepReach δ b s₁ e s' → SweepReach δ (.loop h b o) s e s'
  | loopElse {h b o s s₁ e s'} :
      Sweep δ h s s₁ → SweepReach δ o s₁ e s' → SweepReach δ (.loop h b o) s e s'
  | eachHead {i n b o s e s'} :
      SweepReach δ (.seq i n) s e s' → SweepReach δ (.each i n b o) s e s'
  | eachBody {i n b o s s₁ e s'} :
      Sweep δ (.seq i n) s s₁ → SweepReach δ b s₁ e s' → SweepReach δ (.each i n b o) s e s'
  | eachElse {i n b o s s₁ e s'} :
      Sweep δ (.seq i n) s s₁ → SweepReach δ o s₁ e s' → SweepReach δ (.each i n b o) s e s'
  | tryBody {b o f h s e s'} : SweepReach δ b s e s' → SweepReach δ (.tryCatch b o f h) s e s'
  | tryElse {b o f h s s₁ e s'} :
      Sweep δ b s s₁ → SweepReach δ o s₁ e s' → SweepReach δ (.tryCatch b o f h) s e s'
  | tryFinal {b o f h s s₁ s₂ e s'} : Sweep δ b s s₁ → Sweep δ o s₁ s₂ →
      SweepReach δ f s₂ e s' → SweepReach δ (.tryCatch b o f h) s e s'
  | tryHandlers {b o f h s s₁ s₂ s₃ e s'} : Sweep δ b s s₁ → Sweep δ o s₁ s₂ →
      Sweep δ f s₂ s₃ → SweepReach δ h s₃ e s' → SweepReach δ (.tryCatch b o f h) s e s'
  | caught {h r s e s'} : SweepReach δ h s e s' → SweepReach δ (.handle h r) s e s'
  | otherwise {h r s s₁ e s'} :
      Sweep δ h s s₁ → SweepReach δ r s₁ e s' → SweepReach δ (.handle h r) s e s'
  | guard {b s e s'} : SweepReach δ b s e s' → SweepReach δ (.guard b) s e s'

/-- Every command can be swept. -/
lemma exists_sweep (δ : E → σ → σ) (c : Cmd E) (s : σ) : ∃ s', Sweep δ c s s' := by
  induction c generalizing s with
  | skip => exact ⟨s, .skip s⟩
  | event e => exact ⟨δ e s, .event e s⟩
  | exit => exact ⟨s, .exit s⟩
  | seq a b iha ihb =>
      obtain ⟨s₁, h₁⟩ := iha s
      obtain ⟨s₂, h₂⟩ := ihb s₁
      exact ⟨s₂, .seq h₁ h₂⟩
  | choice a b iha ihb =>
      obtain ⟨s₁, h₁⟩ := iha s
      exact ⟨s₁, .left h₁⟩
  | loop h b o ihh ihb iho =>
      obtain ⟨s₁, h₁⟩ := ihh s
      obtain ⟨s₂, h₂⟩ := ihb s₁
      exact ⟨s₂, .loopBody h₁ h₂⟩
  | each i n b o ihi ihn ihb iho =>
      obtain ⟨s₁, h₁⟩ := ihi s
      obtain ⟨s₂, h₂⟩ := ihn s₁
      obtain ⟨s₃, h₃⟩ := ihb s₂
      exact ⟨s₃, .eachBody (.seq h₁ h₂) h₃⟩
  | tryCatch b o f h ihb iho ihf ihh =>
      obtain ⟨s₁, h₁⟩ := ihb s
      obtain ⟨s₂, h₂⟩ := iho s₁
      obtain ⟨s₃, h₃⟩ := ihf s₂
      obtain ⟨s₄, h₄⟩ := ihh s₃
      exact ⟨s₄, .tryCatch h₁ h₂ h₃ h₄⟩
  | handle h r ihh ihr =>
      obtain ⟨s₁, h₁⟩ := ihh s
      obtain ⟨s₂, h₂⟩ := ihr s₁
      exact ⟨s₂, .handle h₁ h₂⟩
  | unhandled => exact ⟨s, .unhandled s⟩
  | guard b ih =>
      obtain ⟨s₁, h₁⟩ := ih s
      exact ⟨s₁, .guard h₁⟩

/-! ## Images of sweeps -/

section Image

variable {δ : E → σ → σ} {δ' : E → τ → τ} {φ : σ → τ}

lemma Sweep.map (hφ : ∀ e s, φ (δ e s) = δ' e (φ s)) {c : Cmd E} {s s' : σ}
    (h : Sweep δ c s s') : Sweep δ' c (φ s) (φ s') := by
  induction h with
  | skip s => exact .skip _
  | event e s => exact hφ e s ▸ .event e (φ s)
  | exit s => exact .exit _
  | seq _ _ ih₁ ih₂ => exact .seq ih₁ ih₂
  | left _ ih => exact .left ih
  | right _ ih => exact .right ih
  | loopBody _ _ ih₁ ih₂ => exact .loopBody ih₁ ih₂
  | loopElse _ _ ih₁ ih₂ => exact .loopElse ih₁ ih₂
  | eachBody _ _ ih₁ ih₂ => exact .eachBody ih₁ ih₂
  | eachElse _ _ ih₁ ih₂ => exact .eachElse ih₁ ih₂
  | tryCatch _ _ _ _ ih₁ ih₂ ih₃ ih₄ => exact .tryCatch ih₁ ih₂ ih₃ ih₄
  | handle _ _ ih₁ ih₂ => exact .handle ih₁ ih₂
  | unhandled s => exact .unhandled _
  | guard _ ih => exact .guard ih

lemma SweepReach.map (hφ : ∀ e s, φ (δ e s) = δ' e (φ s)) {c : Cmd E} {s : σ} {e : E} {s' : σ}
    (h : SweepReach δ c s e s') : SweepReach δ' c (φ s) e (φ s') := by
  induction h with
  | event e s => exact .event e _
  | first _ ih => exact .first ih
  | second h₁ _ ih => exact .second (h₁.map hφ) ih
  | left _ ih => exact .left ih
  | right _ ih => exact .right ih
  | loopHead _ ih => exact .loopHead ih
  | loopBody h₁ _ ih => exact .loopBody (h₁.map hφ) ih
  | loopElse h₁ _ ih => exact .loopElse (h₁.map hφ) ih
  | eachHead _ ih => exact .eachHead ih
  | eachBody h₁ _ ih => exact .eachBody (h₁.map hφ) ih
  | eachElse h₁ _ ih => exact .eachElse (h₁.map hφ) ih
  | tryBody _ ih => exact .tryBody ih
  | tryElse h₁ _ ih => exact .tryElse (h₁.map hφ) ih
  | tryFinal h₁ h₂ _ ih => exact .tryFinal (h₁.map hφ) (h₂.map hφ) ih
  | tryHandlers h₁ h₂ h₃ _ ih => exact .tryHandlers (h₁.map hφ) (h₂.map hφ) (h₃.map hφ) ih
  | caught _ ih => exact .caught ih
  | otherwise h₁ _ ih => exact .otherwise (h₁.map hφ) ih
  | guard _ ih => exact .guard ih

/-- A sweep of the image is the image of a sweep. -/
lemma Sweep.lift (hφ : ∀ e s, φ (δ e s) = δ' e (φ s)) {c : Cmd E} {s : σ} {t : τ}
    (h : Sweep δ' c (φ s) t) : ∃ s', Sweep δ c s s' ∧ φ s' = t := by
  generalize hs : φ s = r at h
  induction h generalizing s with
  | skip r => exact ⟨s, .skip s, hs⟩
  | event e r => exact ⟨δ e s, .event e s, by rw [hφ, hs]⟩
  | exit r => exact ⟨s, .exit s, hs⟩
  | seq _ _ ih₁ ih₂ =>
      obtain ⟨s₁, h₁, rfl⟩ := ih₁ hs
      obtain ⟨s₂, h₂, rfl⟩ := ih₂ rfl
      exact ⟨s₂, .seq h₁ h₂, rfl⟩
  | left _ ih =>
      obtain ⟨s₁, h₁, rfl⟩ := ih hs
      exact ⟨s₁, .left h₁, rfl⟩
  | right _ ih =>
      obtain ⟨s₁, h₁, rfl⟩ := ih hs
      exact ⟨s₁, .right h₁, rfl⟩
  | loopBody _ _ ih₁ ih₂ =>
      obtain ⟨s₁, h₁, rfl⟩ := ih₁ hs
      obtain ⟨s₂, h₂, rfl⟩ := ih₂ rfl
      exact ⟨s₂, .loopBody h₁ h₂, rfl⟩
  | loopElse _ _ ih₁ ih₂ =>
      obtain ⟨s₁, h₁, rfl⟩ := ih₁ hs
      obtain ⟨s₂, h₂, rfl⟩ := ih₂ rfl
      exact ⟨s₂, .loopElse h₁ h₂, rfl⟩
  | eachBody _ _ ih₁ ih₂ =>
      obtain ⟨s₁, h₁, rfl⟩ := ih₁ hs
      obtain ⟨s₂, h₂, rfl⟩ := ih₂ rfl
      exact ⟨s₂, .eachBody h₁ h₂, rfl⟩
  | eachElse _ _ ih₁ ih₂ =>
      obtain ⟨s₁, h₁, rfl⟩ := ih₁ hs
      obtain ⟨s₂, h₂, rfl⟩ := ih₂ rfl
      exact ⟨s₂, .eachElse h₁ h₂, rfl⟩
  | tryCatch _ _ _ _ ih₁ ih₂ ih₃ ih₄ =>
      obtain ⟨s₁, h₁, rfl⟩ := ih₁ hs
      obtain ⟨s₂, h₂, rfl⟩ := ih₂ rfl
      obtain ⟨s₃, h₃, rfl⟩ := ih₃ rfl
      obtain ⟨s₄, h₄, rfl⟩ := ih₄ rfl
      exact ⟨s₄, .tryCatch h₁ h₂ h₃ h₄, rfl⟩
  | handle _ _ ih₁ ih₂ =>
      obtain ⟨s₁, h₁, rfl⟩ := ih₁ hs
      obtain ⟨s₂, h₂, rfl⟩ := ih₂ rfl
      exact ⟨s₂, .handle h₁ h₂, rfl⟩
  | unhandled r => exact ⟨s, .unhandled s, hs⟩
  | guard _ ih =>
      obtain ⟨s₁, h₁, rfl⟩ := ih hs
      exact ⟨s₁, .guard h₁, rfl⟩

/-- What a sweep of the image reaches, the image of a sweep reaches. -/
lemma SweepReach.lift (hφ : ∀ e s, φ (δ e s) = δ' e (φ s)) {c : Cmd E} {s : σ} {e : E} {t : τ}
    (h : SweepReach δ' c (φ s) e t) : ∃ s', SweepReach δ c s e s' ∧ φ s' = t := by
  generalize hs : φ s = r at h
  induction h generalizing s with
  | event e r => exact ⟨s, .event e s, hs⟩
  | first _ ih =>
      obtain ⟨s', g, rfl⟩ := ih hs
      exact ⟨s', .first g, rfl⟩
  | second h₁ _ ih =>
      subst hs
      obtain ⟨s₁, g₁, rfl⟩ := h₁.lift hφ
      obtain ⟨s', g, rfl⟩ := ih rfl
      exact ⟨s', .second g₁ g, rfl⟩
  | left _ ih =>
      obtain ⟨s', g, rfl⟩ := ih hs
      exact ⟨s', .left g, rfl⟩
  | right _ ih =>
      obtain ⟨s', g, rfl⟩ := ih hs
      exact ⟨s', .right g, rfl⟩
  | loopHead _ ih =>
      obtain ⟨s', g, rfl⟩ := ih hs
      exact ⟨s', .loopHead g, rfl⟩
  | loopBody h₁ _ ih =>
      subst hs
      obtain ⟨s₁, g₁, rfl⟩ := h₁.lift hφ
      obtain ⟨s', g, rfl⟩ := ih rfl
      exact ⟨s', .loopBody g₁ g, rfl⟩
  | loopElse h₁ _ ih =>
      subst hs
      obtain ⟨s₁, g₁, rfl⟩ := h₁.lift hφ
      obtain ⟨s', g, rfl⟩ := ih rfl
      exact ⟨s', .loopElse g₁ g, rfl⟩
  | eachHead _ ih =>
      obtain ⟨s', g, rfl⟩ := ih hs
      exact ⟨s', .eachHead g, rfl⟩
  | eachBody h₁ _ ih =>
      subst hs
      obtain ⟨s₁, g₁, rfl⟩ := h₁.lift hφ
      obtain ⟨s', g, rfl⟩ := ih rfl
      exact ⟨s', .eachBody g₁ g, rfl⟩
  | eachElse h₁ _ ih =>
      subst hs
      obtain ⟨s₁, g₁, rfl⟩ := h₁.lift hφ
      obtain ⟨s', g, rfl⟩ := ih rfl
      exact ⟨s', .eachElse g₁ g, rfl⟩
  | tryBody _ ih =>
      obtain ⟨s', g, rfl⟩ := ih hs
      exact ⟨s', .tryBody g, rfl⟩
  | tryElse h₁ _ ih =>
      subst hs
      obtain ⟨s₁, g₁, rfl⟩ := h₁.lift hφ
      obtain ⟨s', g, rfl⟩ := ih rfl
      exact ⟨s', .tryElse g₁ g, rfl⟩
  | tryFinal h₁ h₂ _ ih =>
      subst hs
      obtain ⟨s₁, g₁, rfl⟩ := h₁.lift hφ
      obtain ⟨s₂, g₂, rfl⟩ := h₂.lift hφ
      obtain ⟨s', g, rfl⟩ := ih rfl
      exact ⟨s', .tryFinal g₁ g₂ g, rfl⟩
  | tryHandlers h₁ h₂ h₃ _ ih =>
      subst hs
      obtain ⟨s₁, g₁, rfl⟩ := h₁.lift hφ
      obtain ⟨s₂, g₂, rfl⟩ := h₂.lift hφ
      obtain ⟨s₃, g₃, rfl⟩ := h₃.lift hφ
      obtain ⟨s', g, rfl⟩ := ih rfl
      exact ⟨s', .tryHandlers g₁ g₂ g₃ g, rfl⟩
  | caught _ ih =>
      obtain ⟨s', g, rfl⟩ := ih hs
      exact ⟨s', .caught g, rfl⟩
  | otherwise h₁ _ ih =>
      subst hs
      obtain ⟨s₁, g₁, rfl⟩ := h₁.lift hφ
      obtain ⟨s', g, rfl⟩ := ih rfl
      exact ⟨s', .otherwise g₁ g, rfl⟩
  | guard _ ih =>
      obtain ⟨s', g, rfl⟩ := ih hs
      exact ⟨s', .guard g, rfl⟩

/-- Sweeps of states and sweeps of their images reach the same properties of images. -/
theorem sweepReach_image (hφ : ∀ e s, φ (δ e s) = δ' e (φ s)) (c : Cmd E) (s : σ) (e : E)
    (P : τ → Prop) :
    (∃ t, SweepReach δ' c (φ s) e t ∧ P t) ↔ ∃ s', SweepReach δ c s e s' ∧ P (φ s') := by
  constructor
  · rintro ⟨t, h, hp⟩
    obtain ⟨s', g, rfl⟩ := h.lift hφ
    exact ⟨s', g, hp⟩
  · rintro ⟨s', h, hp⟩
    exact ⟨φ s', h.map hφ, hp⟩

end Image

/-! ## Paths that are sweeps -/

/-- No loop, no `try` and no `with`. -/
def Cmd.Branching : Cmd E → Prop
  | .skip | .event _ | .exit => True
  | .seq a b | .choice a b => a.Branching ∧ b.Branching
  | .loop .. | .each .. | .tryCatch .. | .handle .. | .unhandled | .guard _ => False

lemma Run.sweep {δ : E → σ → σ} {c : Cmd E} {s s' : σ} {x : Exit} (h : Run δ c s x s')
    (hc : c.Branching) (hx : x = .normal) : Sweep δ c s s' := by
  induction h with
  | skip s => exact .skip s
  | event e s => exact .event e s
  | seq _ _ ih₁ ih₂ => exact .seq (ih₁ hc.1 rfl) (ih₂ hc.2 hx)
  | seqExit _ hne _ => exact absurd hx hne
  | left _ ih => exact .left (ih hc.1 hx)
  | right _ ih => exact .right (ih hc.2 hx)
  | raisedBefore e s => simp at hx
  | raisedAfter e s => simp at hx
  | exit s => simp at hx
  | _ => exact hc.elim

/-- **In branching code every path is a sweep.** -/
theorem Reach.sweepReach {δ : E → σ → σ} {c : Cmd E} {s : σ} {e : E} {s' : σ}
    (h : Reach δ c s e s') (hc : c.Branching) : SweepReach δ c s e s' := by
  induction h with
  | event e s => exact .event e s
  | first _ ih => exact .first (ih hc.1)
  | second h₁ _ ih => exact .second (h₁.sweep hc.1 rfl) (ih hc.2)
  | left _ ih => exact .left (ih hc.1)
  | right _ ih => exact .right (ih hc.2)
  | _ => exact hc.elim

/-! ## The one-pass analysis -/

section Analysis

variable {V : Type}

/-- The facts after one pass over a command. -/
def after (δ : E → Set V → Set V) : Cmd E → Set V → Set V
  | .skip, s | .exit, s | .unhandled, s => s
  | .event e, s => δ e s
  | .seq a b, s => after δ b (after δ a s)
  | .choice a b, s => after δ a s ∪ after δ b s
  | .loop h b o, s => after δ b (after δ h s) ∪ after δ o (after δ h s)
  | .each i n b o, s => after δ b (after δ n (after δ i s)) ∪ after δ o (after δ n (after δ i s))
  | .tryCatch b o f h, s => after δ h (after δ f (after δ o (after δ b s)))
  | .handle h r, s => after δ r (after δ h s)
  | .guard b, s => after δ b s

/-- The pass comes to the event `e` with the facts `m`. -/
def Visits (δ : E → Set V → Set V) : Cmd E → Set V → E → Set V → Prop
  | .skip, _, _, _ | .exit, _, _, _ | .unhandled, _, _, _ => False
  | .event e', s, e, m => e = e' ∧ m = s
  | .seq a b, s, e, m => Visits δ a s e m ∨ Visits δ b (after δ a s) e m
  | .choice a b, s, e, m => Visits δ a s e m ∨ Visits δ b s e m
  | .loop h b o, s, e, m =>
      Visits δ h s e m ∨ Visits δ b (after δ h s) e m ∨ Visits δ o (after δ h s) e m
  | .each i n b o, s, e, m =>
      (Visits δ i s e m ∨ Visits δ n (after δ i s) e m) ∨ Visits δ b (after δ n (after δ i s)) e m
        ∨ Visits δ o (after δ n (after δ i s)) e m
  | .tryCatch b o f h, s, e, m =>
      Visits δ b s e m ∨ Visits δ o (after δ b s) e m ∨ Visits δ f (after δ o (after δ b s)) e m
        ∨ Visits δ h (after δ f (after δ o (after δ b s))) e m
  | .handle h r, s, e, m => Visits δ h s e m ∨ Visits δ r (after δ h s) e m
  | .guard b, s, e, m => Visits δ b s e m

/-- The transfer functions distribute over unions. -/
def Additive (δ : E → Set V → Set V) : Prop :=
  ∀ e (F : Set (Set V)) v, F.Nonempty → (v ∈ δ e (⋃₀ F) ↔ ∃ s ∈ F, v ∈ δ e s)

/-- A property of the facts that a union has iff one of its members has it. -/
def AdditivePred (P : Set V → Prop) : Prop :=
  ∀ F : Set (Set V), F.Nonempty → (P (⋃₀ F) ↔ ∃ s ∈ F, P s)

variable {δ : E → Set V → Set V}

/-- Facts that no event removes stay. -/
lemma subset_after (hδ : ∀ e s, s ⊆ δ e s) (c : Cmd E) : ∀ s, s ⊆ after δ c s := by
  induction c with
  | skip | exit | unhandled => intro s; exact subset_rfl
  | event e => intro s; exact hδ e s
  | seq a b iha ihb | handle a b iha ihb =>
      intro s
      exact (iha s).trans (ihb _)
  | choice a b iha ihb =>
      intro s
      exact (iha s).trans Set.subset_union_left
  | loop h b o ihh ihb iho =>
      intro s
      exact ((ihh s).trans (ihb _)).trans Set.subset_union_left
  | each i n b o ihi ihn ihb iho =>
      intro s
      exact (((ihi s).trans (ihn _)).trans (ihb _)).trans Set.subset_union_left
  | tryCatch b o f h ihb iho ihf ihh =>
      intro s
      exact (((ihb s).trans (iho _)).trans (ihf _)).trans (ihh _)
  | guard b ih => intro s; exact ih s

/-- The states that the sweeps of a command lead to. -/
def sweepEnds (δ : E → Set V → Set V) (c : Cmd E) (s : Set V) : Set (Set V) :=
  {s' | Sweep δ c s s'}

lemma sweepEnds_nonempty (c : Cmd E) (s : Set V) : (sweepEnds δ c s).Nonempty :=
  exists_sweep δ c s

/-- `after` distributes over nonempty unions. -/
lemma mem_after_sUnion (hδ : Additive δ) (c : Cmd E) :
    ∀ (F : Set (Set V)) (v : V), F.Nonempty →
      (v ∈ after δ c (⋃₀ F) ↔ ∃ s ∈ F, v ∈ after δ c s) := by
  have hseq : ∀ a b : Cmd E,
      (∀ (F : Set (Set V)) v, F.Nonempty → (v ∈ after δ a (⋃₀ F) ↔ ∃ s ∈ F, v ∈ after δ a s)) →
      (∀ (F : Set (Set V)) v, F.Nonempty → (v ∈ after δ b (⋃₀ F) ↔ ∃ s ∈ F, v ∈ after δ b s)) →
      ∀ (F : Set (Set V)) v, F.Nonempty →
        (v ∈ after δ b (after δ a (⋃₀ F)) ↔ ∃ s ∈ F, v ∈ after δ b (after δ a s)) := by
    intro a b iha ihb F v hF
    have himage : after δ a (⋃₀ F) = ⋃₀ (after δ a '' F) := by
      ext w
      rw [iha F w hF]
      simp
    rw [himage, ihb _ v (hF.image _)]
    simp
  induction c with
  | skip => intro F v _; simp [after]
  | exit => intro F v _; simp [after]
  | unhandled => intro F v _; simp [after]
  | event e => intro F v hF; exact hδ e F v hF
  | seq a b iha ihb => exact hseq a b iha ihb
  | choice a b iha ihb =>
      intro F v hF
      simp only [after, Set.mem_union, iha F v hF, ihb F v hF, ← exists_or, ← and_or_left]
  | loop h b o ihh ihb iho =>
      intro F v hF
      simp only [after, Set.mem_union, hseq h b ihh ihb F v hF, hseq h o ihh iho F v hF,
        ← exists_or, ← and_or_left]
  | each i n b o ihi ihn ihb iho =>
      intro F v hF
      have hhead := hseq i n ihi ihn
      have hbody := hseq (.seq i n) b hhead ihb F v hF
      have helse := hseq (.seq i n) o hhead iho F v hF
      simp only [after] at hbody helse
      simp only [after, Set.mem_union, hbody, helse, ← exists_or, ← and_or_left]
  | tryCatch b o f h ihb iho ihf ihh =>
      have hbo := hseq b o ihb iho
      have hbof := hseq (.seq b o) f hbo ihf
      exact hseq (.seq (.seq b o) f) h hbof ihh
  | handle h r ihh ihr => exact hseq h r ihh ihr
  | guard b ih => exact ih

/-- The pass over `c` from `s` yields the union of the sweeps. -/
def UnitesSweeps (δ : E → Set V → Set V) (c : Cmd E) (s : Set V) : Prop :=
  ∀ v, v ∈ after δ c s ↔ ∃ s' ∈ sweepEnds δ c s, v ∈ s'

lemma UnitesSweeps.after_eq {c : Cmd E} {s : Set V} (h : UnitesSweeps δ c s) :
    after δ c s = ⋃₀ sweepEnds δ c s := by
  ext v
  rw [h v, Set.mem_sUnion]

/-- Sequencing keeps that property. -/
lemma UnitesSweeps.seq (hδ : Additive δ) {a b : Cmd E} {s : Set V} (ha : UnitesSweeps δ a s)
    (hb : ∀ s, UnitesSweeps δ b s) : UnitesSweeps δ (.seq a b) s := by
  intro v
  show v ∈ after δ b (after δ a s) ↔ _
  rw [ha.after_eq, mem_after_sUnion hδ b _ v (sweepEnds_nonempty a s)]
  constructor
  · rintro ⟨s₁, h₁, hv⟩
    obtain ⟨s₂, h₂, hv⟩ := (hb s₁ v).1 hv
    exact ⟨s₂, .seq h₁ h₂, hv⟩
  · rintro ⟨s₂, h, hv⟩
    cases h with
    | seq h₁ h₂ => exact ⟨_, h₁, (hb _ v).2 ⟨s₂, h₂, hv⟩⟩

/-- A command that leaves the facts alone. -/
lemma UnitesSweeps.id {c : Cmd E} {s : Set V} (hafter : after δ c s = s)
    (hsweep : ∀ s', Sweep δ c s s' ↔ s' = s) : UnitesSweeps δ c s := by
  intro v
  rw [hafter]
  constructor
  · intro hv
    exact ⟨s, (hsweep s).2 rfl, hv⟩
  · rintro ⟨s', h, hv⟩
    rw [(hsweep s').1 h] at hv
    exact hv

/-- **The pass unites the sweeps**, over every command and from every set of facts. -/
theorem mem_after_iff (hδ : Additive δ) (c : Cmd E) (s : Set V) : UnitesSweeps δ c s := by
  induction c generalizing s with
  | skip =>
      refine .id rfl fun s' => ⟨fun h => ?_, fun h => ?_⟩
      · cases h
        rfl
      · rw [h]
        exact .skip s
  | exit =>
      refine .id rfl fun s' => ⟨fun h => ?_, fun h => ?_⟩
      · cases h
        rfl
      · rw [h]
        exact .exit s
  | unhandled =>
      refine .id rfl fun s' => ⟨fun h => ?_, fun h => ?_⟩
      · cases h
        rfl
      · rw [h]
        exact .unhandled s
  | event e =>
      intro v
      constructor
      · intro hv
        exact ⟨δ e s, .event e s, hv⟩
      · rintro ⟨s', h, hv⟩
        cases h
        exact hv
  | seq a b iha ihb => exact (iha s).seq hδ ihb
  | choice a b iha ihb =>
      intro v
      simp only [after, Set.mem_union, iha s v, ihb s v]
      constructor
      · rintro (⟨s', h, hv⟩ | ⟨s', h, hv⟩)
        · exact ⟨s', .left h, hv⟩
        · exact ⟨s', .right h, hv⟩
      · rintro ⟨s', h, hv⟩
        cases h with
        | left h => exact Or.inl ⟨s', h, hv⟩
        | right h => exact Or.inr ⟨s', h, hv⟩
  | loop h b o ihh ihb iho =>
      intro v
      have hbody := (ihh s).seq hδ ihb v
      have helse := (ihh s).seq hδ iho v
      simp only [after] at hbody helse
      simp only [after, Set.mem_union, hbody, helse]
      constructor
      · rintro (⟨s₂, h, hv⟩ | ⟨s₂, h, hv⟩)
        · cases h with
          | seq h₁ h₂ => exact ⟨s₂, .loopBody h₁ h₂, hv⟩
        · cases h with
          | seq h₁ h₂ => exact ⟨s₂, .loopElse h₁ h₂, hv⟩
      · rintro ⟨s₂, h, hv⟩
        cases h with
        | loopBody h₁ h₂ => exact Or.inl ⟨s₂, .seq h₁ h₂, hv⟩
        | loopElse h₁ h₂ => exact Or.inr ⟨s₂, .seq h₁ h₂, hv⟩
  | each i n b o ihi ihn ihb iho =>
      intro v
      have hhead := fun s => (ihi s).seq hδ ihn
      have hbody := (hhead s).seq hδ ihb v
      have helse := (hhead s).seq hδ iho v
      simp only [after] at hbody helse
      simp only [after, Set.mem_union, hbody, helse]
      constructor
      · rintro (⟨s₂, h, hv⟩ | ⟨s₂, h, hv⟩)
        · cases h with
          | seq h₁ h₂ => exact ⟨s₂, .eachBody h₁ h₂, hv⟩
        · cases h with
          | seq h₁ h₂ => exact ⟨s₂, .eachElse h₁ h₂, hv⟩
      · rintro ⟨s₂, h, hv⟩
        cases h with
        | eachBody h₁ h₂ => exact Or.inl ⟨s₂, .seq h₁ h₂, hv⟩
        | eachElse h₁ h₂ => exact Or.inr ⟨s₂, .seq h₁ h₂, hv⟩
  | tryCatch b o f h ihb iho ihf ihh =>
      -- the parts of a `try` are swept one after the other
      intro v
      have hparts := (((ihb s).seq hδ iho).seq hδ ihf).seq hδ ihh v
      refine hparts.trans ⟨?_, ?_⟩
      · rintro ⟨s₄, hs, hv⟩
        cases hs with
        | seq hs h₄ =>
            cases hs with
            | seq hs h₃ =>
                cases hs with
                | seq h₁ h₂ => exact ⟨s₄, .tryCatch h₁ h₂ h₃ h₄, hv⟩
      · rintro ⟨s₄, hs, hv⟩
        cases hs with
        | tryCatch h₁ h₂ h₃ h₄ => exact ⟨s₄, .seq (.seq (.seq h₁ h₂) h₃) h₄, hv⟩
  | handle h r ihh ihr =>
      intro v
      refine ((ihh s).seq hδ ihr v).trans ⟨?_, ?_⟩
      · rintro ⟨s₂, hs, hv⟩
        cases hs with
        | seq h₁ h₂ => exact ⟨s₂, .handle h₁ h₂, hv⟩
      · rintro ⟨s₂, hs, hv⟩
        cases hs with
        | handle h₁ h₂ => exact ⟨s₂, .seq h₁ h₂, hv⟩
  | guard b ih =>
      intro v
      refine (ih s v).trans ⟨?_, ?_⟩
      · rintro ⟨s', h, hv⟩
        exact ⟨s', .guard h, hv⟩
      · rintro ⟨s', h, hv⟩
        cases h with
        | guard h => exact ⟨s', h, hv⟩

/-- The pass comes to the event with facts that have the property. -/
def VisitsWith (δ : E → Set V → Set V) (P : Set V → Prop) (c : Cmd E) (s : Set V) (e : E) : Prop :=
  ∃ m, Visits δ c s e m ∧ P m

section VisitsWith

variable {P : Set V → Prop} {s : Set V} {e : E}

/-- One of two visits comes with the property. -/
lemma exists_or_and {A B C : Set V → Prop} :
    (∃ m, (A m ∨ B m) ∧ C m) ↔ (∃ m, A m ∧ C m) ∨ ∃ m, B m ∧ C m := by
  simp only [or_and_right, exists_or]

lemma visitsWith_seq {a b : Cmd E} : VisitsWith δ P (.seq a b) s e
    ↔ VisitsWith δ P a s e ∨ VisitsWith δ P b (after δ a s) e := exists_or_and

lemma visitsWith_choice {a b : Cmd E} : VisitsWith δ P (.choice a b) s e
    ↔ VisitsWith δ P a s e ∨ VisitsWith δ P b s e := exists_or_and

lemma visitsWith_loop {h b o : Cmd E} : VisitsWith δ P (.loop h b o) s e
    ↔ VisitsWith δ P h s e ∨ VisitsWith δ P b (after δ h s) e
      ∨ VisitsWith δ P o (after δ h s) e :=
  exists_or_and.trans (or_congr_right exists_or_and)

lemma visitsWith_each {i n b o : Cmd E} : VisitsWith δ P (.each i n b o) s e
    ↔ (VisitsWith δ P i s e ∨ VisitsWith δ P n (after δ i s) e)
      ∨ VisitsWith δ P b (after δ n (after δ i s)) e
      ∨ VisitsWith δ P o (after δ n (after δ i s)) e :=
  exists_or_and.trans (or_congr exists_or_and exists_or_and)

lemma visitsWith_tryCatch {b o f h : Cmd E} : VisitsWith δ P (.tryCatch b o f h) s e
    ↔ VisitsWith δ P b s e ∨ VisitsWith δ P o (after δ b s) e
      ∨ VisitsWith δ P f (after δ o (after δ b s)) e
      ∨ VisitsWith δ P h (after δ f (after δ o (after δ b s))) e :=
  exists_or_and.trans (or_congr_right (exists_or_and.trans (or_congr_right exists_or_and)))

lemma visitsWith_handle {h r : Cmd E} : VisitsWith δ P (.handle h r) s e
    ↔ VisitsWith δ P h s e ∨ VisitsWith δ P r (after δ h s) e := exists_or_and

end VisitsWith

/-- The visits from a union are those from its members. -/
lemma visitsWith_sUnion (hδ : Additive δ) {P : Set V → Prop} (hP : AdditivePred P) (c : Cmd E)
    (e : E) : ∀ F : Set (Set V), F.Nonempty →
      (VisitsWith δ P c (⋃₀ F) e ↔ ∃ s ∈ F, VisitsWith δ P c s e) := by
  have hafter : ∀ (a b : Cmd E),
      (∀ F : Set (Set V), F.Nonempty →
        (VisitsWith δ P b (⋃₀ F) e ↔ ∃ s ∈ F, VisitsWith δ P b s e)) →
      ∀ F : Set (Set V), F.Nonempty → (VisitsWith δ P b (after δ a (⋃₀ F)) e
        ↔ ∃ s ∈ F, VisitsWith δ P b (after δ a s) e) := by
    intro a b ihb F hF
    have himage : after δ a (⋃₀ F) = ⋃₀ (after δ a '' F) := by
      ext w
      rw [mem_after_sUnion hδ a F w hF]
      simp
    rw [himage, ihb _ (hF.image _)]
    simp
  induction c with
  | skip => intro F _; simp [VisitsWith, Visits]
  | exit => intro F _; simp [VisitsWith, Visits]
  | unhandled => intro F _; simp [VisitsWith, Visits]
  | event e' =>
      intro F hF
      simp only [VisitsWith, Visits, and_assoc, exists_and_left, exists_eq_left, hP F hF]
      constructor
      · rintro ⟨he, s, hs, hp⟩; exact ⟨s, hs, he, hp⟩
      · rintro ⟨s, hs, he, hp⟩; exact ⟨he, s, hs, hp⟩
  | seq a b iha ihb =>
      intro F hF
      simp only [visitsWith_seq, iha F hF, hafter a b ihb F hF, ← exists_or, ← and_or_left]
  | choice a b iha ihb =>
      intro F hF
      simp only [visitsWith_choice, iha F hF, ihb F hF, ← exists_or, ← and_or_left]
  | loop h b o ihh ihb iho =>
      intro F hF
      simp only [visitsWith_loop, ihh F hF, hafter h b ihb F hF, hafter h o iho F hF,
        ← exists_or, ← and_or_left]
  | each i n b o ihi ihn ihb iho =>
      intro F hF
      have hb := hafter (.seq i n) b ihb F hF
      have ho := hafter (.seq i n) o iho F hF
      simp only [after] at hb ho
      simp only [visitsWith_each, ihi F hF, hafter i n ihn F hF, hb, ho, ← exists_or,
        ← and_or_left]
  | tryCatch b o f h ihb iho ihf ihh =>
      intro F hF
      have hf := hafter (.seq b o) f ihf F hF
      have hh := hafter (.seq (.seq b o) f) h ihh F hF
      simp only [after] at hf hh
      simp only [visitsWith_tryCatch, ihb F hF, hafter b o iho F hF, hf, hh, ← exists_or,
        ← and_or_left]
  | handle h r ihh ihr =>
      intro F hF
      simp only [visitsWith_handle, ihh F hF, hafter h r ihr F hF, ← exists_or, ← and_or_left]
  | guard b ih => exact ih

/-- After a command, the pass visits what it visits after one of the command's sweeps. -/
lemma visitsWith_after (hδ : Additive δ) {P : Set V → Prop} (hP : AdditivePred P) (a b : Cmd E)
    (s : Set V) (e : E) :
    VisitsWith δ P b (after δ a s) e ↔ ∃ s₁, Sweep δ a s s₁ ∧ VisitsWith δ P b s₁ e := by
  rw [(mem_after_iff hδ a s).after_eq, visitsWith_sUnion hδ hP b e _ (sweepEnds_nonempty a s)]
  rfl

/-- **The pass visits what the sweeps reach**, as far as additive properties can tell. -/
theorem visitsWith_iff (hδ : Additive δ) {P : Set V → Prop} (hP : AdditivePred P) (c : Cmd E)
    (s : Set V) (e : E) : VisitsWith δ P c s e ↔ ∃ s', SweepReach δ c s e s' ∧ P s' := by
  induction c generalizing s with
  | skip => exact iff_of_false (by simp [VisitsWith, Visits]) (by rintro ⟨s', h, -⟩; cases h)
  | exit => exact iff_of_false (by simp [VisitsWith, Visits]) (by rintro ⟨s', h, -⟩; cases h)
  | unhandled => exact iff_of_false (by simp [VisitsWith, Visits]) (by rintro ⟨s', h, -⟩; cases h)
  | event e' =>
      constructor
      · rintro ⟨m, ⟨rfl, rfl⟩, hp⟩
        exact ⟨m, .event e m, hp⟩
      · rintro ⟨s', h, hp⟩
        cases h
        exact ⟨s, ⟨rfl, rfl⟩, hp⟩
  | seq a b iha ihb =>
      simp only [visitsWith_seq, visitsWith_after hδ hP, iha, ihb]
      constructor
      · rintro (⟨s', h, hp⟩ | ⟨s₁, h₁, s', h, hp⟩)
        · exact ⟨s', .first h, hp⟩
        · exact ⟨s', .second h₁ h, hp⟩
      · rintro ⟨s', h, hp⟩
        cases h with
        | first h => exact Or.inl ⟨s', h, hp⟩
        | second h₁ h => exact Or.inr ⟨_, h₁, s', h, hp⟩
  | choice a b iha ihb =>
      simp only [visitsWith_choice, iha, ihb]
      constructor
      · rintro (⟨s', h, hp⟩ | ⟨s', h, hp⟩)
        · exact ⟨s', .left h, hp⟩
        · exact ⟨s', .right h, hp⟩
      · rintro ⟨s', h, hp⟩
        cases h with
        | left h => exact Or.inl ⟨s', h, hp⟩
        | right h => exact Or.inr ⟨s', h, hp⟩
  | loop hd b o ihh ihb iho =>
      simp only [visitsWith_loop, visitsWith_after hδ hP, ihh, ihb, iho]
      constructor
      · rintro (⟨s', h, hp⟩ | ⟨s₁, h₁, s', h, hp⟩ | ⟨s₁, h₁, s', h, hp⟩)
        · exact ⟨s', .loopHead h, hp⟩
        · exact ⟨s', .loopBody h₁ h, hp⟩
        · exact ⟨s', .loopElse h₁ h, hp⟩
      · rintro ⟨s', h, hp⟩
        cases h with
        | loopHead h => exact Or.inl ⟨s', h, hp⟩
        | loopBody h₁ h => exact Or.inr (Or.inl ⟨_, h₁, s', h, hp⟩)
        | loopElse h₁ h => exact Or.inr (Or.inr ⟨_, h₁, s', h, hp⟩)
  | each i n b o ihi ihn ihb iho =>
      have hbody := visitsWith_after hδ hP (.seq i n) b s e
      have helse := visitsWith_after hδ hP (.seq i n) o s e
      simp only [after] at hbody helse
      simp only [visitsWith_each, visitsWith_after hδ hP i n, hbody, helse, ihi, ihn, ihb, iho]
      constructor
      · rintro ((⟨s', h, hp⟩ | ⟨s₁, h₁, s', h, hp⟩) | ⟨s₁, h₁, s', h, hp⟩ | ⟨s₁, h₁, s', h, hp⟩)
        · exact ⟨s', .eachHead (.first h), hp⟩
        · exact ⟨s', .eachHead (.second h₁ h), hp⟩
        · exact ⟨s', .eachBody h₁ h, hp⟩
        · exact ⟨s', .eachElse h₁ h, hp⟩
      · rintro ⟨s', h, hp⟩
        cases h with
        | eachHead h =>
            cases h with
            | first h => exact Or.inl (Or.inl ⟨s', h, hp⟩)
            | second h₁ h => exact Or.inl (Or.inr ⟨_, h₁, s', h, hp⟩)
        | eachBody h₁ h => exact Or.inr (Or.inl ⟨_, h₁, s', h, hp⟩)
        | eachElse h₁ h => exact Or.inr (Or.inr ⟨_, h₁, s', h, hp⟩)
  | tryCatch b o f hs ihb iho ihf ihh =>
      have hfinal := visitsWith_after hδ hP (.seq b o) f s e
      have hhandlers := visitsWith_after hδ hP (.seq (.seq b o) f) hs s e
      simp only [after] at hfinal hhandlers
      simp only [visitsWith_tryCatch, visitsWith_after hδ hP b, hfinal, hhandlers, ihb, iho, ihf,
        ihh]
      constructor
      · rintro (⟨s', h, hp⟩ | ⟨s₁, h₁, s', h, hp⟩ | ⟨s₂, h₂, s', h, hp⟩ | ⟨s₃, h₃, s', h, hp⟩)
        · exact ⟨s', .tryBody h, hp⟩
        · exact ⟨s', .tryElse h₁ h, hp⟩
        · cases h₂ with
          | seq h₁ h₂ => exact ⟨s', .tryFinal h₁ h₂ h, hp⟩
        · cases h₃ with
          | seq h₂ h₃ =>
              cases h₂ with
              | seq h₁ h₂ => exact ⟨s', .tryHandlers h₁ h₂ h₃ h, hp⟩
      · rintro ⟨s', h, hp⟩
        cases h with
        | tryBody h => exact Or.inl ⟨s', h, hp⟩
        | tryElse h₁ h => exact Or.inr (Or.inl ⟨_, h₁, s', h, hp⟩)
        | tryFinal h₁ h₂ h => exact Or.inr (Or.inr (Or.inl ⟨_, .seq h₁ h₂, s', h, hp⟩))
        | tryHandlers h₁ h₂ h₃ h =>
            exact Or.inr (Or.inr (Or.inr ⟨_, .seq (.seq h₁ h₂) h₃, s', h, hp⟩))
  | handle h r ihh ihr =>
      simp only [visitsWith_handle, visitsWith_after hδ hP, ihh, ihr]
      constructor
      · rintro (⟨s', h, hp⟩ | ⟨s₁, h₁, s', h, hp⟩)
        · exact ⟨s', .caught h, hp⟩
        · exact ⟨s', .otherwise h₁ h, hp⟩
      · rintro ⟨s', h, hp⟩
        cases h with
        | caught h => exact Or.inl ⟨s', h, hp⟩
        | otherwise h₁ h => exact Or.inr ⟨_, h₁, s', h, hp⟩
  | guard b ih =>
      refine (ih s).trans ⟨?_, ?_⟩
      · rintro ⟨s', h, hp⟩
        exact ⟨s', .guard h, hp⟩
      · rintro ⟨s', h, hp⟩
        cases h with
        | guard h => exact ⟨s', h, hp⟩

end Analysis

end Sast
