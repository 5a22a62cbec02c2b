import Mathlib.Data.List.Basic
import Mathlib.Tactic.Lemma

/-!
# Templates with positional placeholders

A text is given as pieces: literal text, and gaps to be filled with values.  Its template has a
mark in place of each gap.  A mark outside quotes is a placeholder, a quoted one is ordinary text;
filling the template replaces the placeholders from left to right.  If no gap is quoted, that
gives back the text with its gaps filled exactly when no literal piece has a placeholder of its
own.
-/

namespace Sast

/-- A piece of a text: literal characters, or a gap labelled by `α`. -/
inductive Piece (α : Type) where
  | text (cs : List Char)
  | gap (label : α)

variable {α : Type}

/-- The labels of the gaps, in order. -/
def gaps : List (Piece α) → List α
  | [] => []
  | .text _ :: ps => gaps ps
  | .gap a :: ps => a :: gaps ps

/-- The text with a mark in place of each gap. -/
def templateOf (mark : Char) : List (Piece α) → List Char
  | [] => []
  | .text cs :: ps => cs ++ templateOf mark ps
  | .gap _ :: ps => mark :: templateOf mark ps

/-- The text with the values in its gaps; there must be one value for each gap. -/
def expand : List (Piece α) → List (List Char) → Option (List Char)
  | [], [] => some []
  | [], _ :: _ => none
  | .text cs :: ps, vs => (expand ps vs).map (cs ++ ·)
  | .gap _ :: _, [] => none
  | .gap _ :: ps, v :: vs => (expand ps vs).map (v ++ ·)

/-! ## Quotes and placeholders -/

variable (isQuote : Char → Bool) (mark : Char)

/-- The quote that is open after one more character. -/
def quoteStep : Option Char → Char → Option Char
  | none, c => if isQuote c then some c else none
  | some q, c => if c = q then none else some q

/-- The quote that is open after a text. -/
def quoteAfter (opened : Option Char) (cs : List Char) : Option Char :=
  cs.foldl (quoteStep isQuote) opened

/-- The number of placeholders of a text. -/
def placeholders : Option Char → List Char → Nat
  | _, [] => 0
  | opened, c :: cs =>
      (if c = mark ∧ opened = none then 1 else 0) + placeholders (quoteStep isQuote opened c) cs

/-- Replace the placeholders of a template by the values, from left to right. -/
def fill : Option Char → List Char → List (List Char) → Option (List Char)
  | _, [], [] => some []
  | _, [], _ :: _ => none
  | opened, c :: cs, vs =>
      if c = mark ∧ opened = none then
        match vs with
        | [] => none
        | v :: vs => (fill (quoteStep isQuote opened c) cs vs).map (v ++ ·)
      else (fill (quoteStep isQuote opened c) cs vs).map (c :: ·)

/-- No literal piece has a placeholder of its own. -/
def Unmarked : Option Char → List (Piece α) → Prop
  | _, [] => True
  | opened, .text cs :: ps =>
      placeholders isQuote mark opened cs = 0 ∧ Unmarked (quoteAfter isQuote opened cs) ps
  | opened, .gap _ :: ps => Unmarked opened ps

/-- Every gap stands outside the quotes that the literal pieces before it open. -/
def GapsUnquoted : Option Char → List (Piece α) → Prop
  | _, [] => True
  | opened, .text cs :: ps => GapsUnquoted (quoteAfter isQuote opened cs) ps
  | opened, .gap _ :: ps => opened = none ∧ GapsUnquoted opened ps

variable {isQuote : Char → Bool} {mark : Char}

/-- A mark does not open quotes. -/
lemma quoteStep_mark (hmark : isQuote mark = false) : quoteStep isQuote none mark = none := by
  simp [quoteStep, hmark]

lemma placeholders_append (cs rest : List Char) :
    ∀ opened, placeholders isQuote mark opened (cs ++ rest)
      = placeholders isQuote mark opened cs
        + placeholders isQuote mark (quoteAfter isQuote opened cs) rest := by
  induction cs with
  | nil =>
      intro opened
      simp [placeholders, quoteAfter]
  | cons c cs ih =>
      intro opened
      rw [List.cons_append, placeholders, placeholders, ih, Nat.add_assoc]
      rfl

/-- **Unquoted gaps become placeholders**, so there are as many placeholders as gaps iff the literal
pieces have none. -/
theorem placeholders_templateOf {ps : List (Piece α)} (hmark : isQuote mark = false) :
    ∀ opened, GapsUnquoted isQuote opened ps →
      (gaps ps).length ≤ placeholders isQuote mark opened (templateOf mark ps)
        ∧ (placeholders isQuote mark opened (templateOf mark ps) = (gaps ps).length
          ↔ Unmarked isQuote mark opened ps) := by
  induction ps with
  | nil =>
      intro opened _
      simp [gaps, templateOf, placeholders, Unmarked]
  | cons p ps ih =>
      intro opened hgaps
      cases p with
      | text cs =>
          obtain ⟨hle, hiff⟩ := ih _ hgaps
          rw [gaps, templateOf, placeholders_append, Unmarked, ← hiff]
          omega
      | gap a =>
          obtain ⟨rfl, hgaps⟩ := hgaps
          obtain ⟨hle, hiff⟩ := ih _ hgaps
          rw [gaps, templateOf, placeholders, quoteStep_mark hmark, Unmarked, ← hiff]
          simp only [and_self, if_true, List.length_cons]
          omega

lemma fill_mark (cs : List Char) (vs : List (List Char)) (hmark : isQuote mark = false) :
    fill isQuote mark none (mark :: cs) vs = match vs with
      | [] => none
      | v :: vs => (fill isQuote mark none cs vs).map (v ++ ·) := by
  cases vs <;> simp [fill, quoteStep_mark hmark]

lemma fill_text {opened : Option Char} {c : Char} (hc : ¬ (c = mark ∧ opened = none))
    (cs : List Char) (vs : List (List Char)) : fill isQuote mark opened (c :: cs) vs
      = (fill isQuote mark (quoteStep isQuote opened c) cs vs).map (c :: ·) := by
  cases vs <;> simp [fill, hc]

lemma fill_append (cs rest : List Char) (vs : List (List Char)) :
    ∀ opened, placeholders isQuote mark opened cs = 0 →
      fill isQuote mark opened (cs ++ rest) vs
        = (fill isQuote mark (quoteAfter isQuote opened cs) rest vs).map (cs ++ ·) := by
  induction cs with
  | nil =>
      intro opened _
      simp [quoteAfter]
  | cons c cs ih =>
      intro opened hcs
      rw [placeholders] at hcs
      have hc : ¬ (c = mark ∧ opened = none) := by
        intro hc
        simp [hc] at hcs
      have hrest := ih (quoteStep isQuote opened c) (by omega)
      rw [List.cons_append, fill_text hc, hrest, Option.map_map]
      rfl

/-- **Filling the template** of unmarked pieces fills their gaps. -/
theorem fill_templateOf {ps : List (Piece α)} (hmark : isQuote mark = false) :
    ∀ opened vs, GapsUnquoted isQuote opened ps → Unmarked isQuote mark opened ps →
      fill isQuote mark opened (templateOf mark ps) vs = expand ps vs := by
  induction ps with
  | nil =>
      intro opened vs _ _
      cases vs <;> rfl
  | cons p ps ih =>
      intro opened vs hgaps hps
      cases p with
      | text cs =>
          obtain ⟨hcs, hps⟩ := hps
          rw [templateOf, fill_append _ _ _ _ hcs, ih _ _ hgaps hps, expand]
      | gap a =>
          obtain ⟨rfl, hgaps⟩ := hgaps
          rw [templateOf, fill_mark _ _ hmark]
          cases vs with
          | nil => rfl
          | cons v vs => simp only [ih none vs hgaps hps, expand]

/-- **When a template stands for a text.**  If no gap is quoted, the template has one placeholder
for each gap and filling it with the values yields the text iff no literal piece has a placeholder
of its own and the text is the pieces with the values in their gaps. -/
theorem template_faithful_iff {ps : List (Piece α)} (hmark : isQuote mark = false)
    (hgaps : GapsUnquoted isQuote none ps) (vs : List (List Char)) (text : List Char) :
    (placeholders isQuote mark none (templateOf mark ps) = (gaps ps).length
        ∧ fill isQuote mark none (templateOf mark ps) vs = some text)
      ↔ Unmarked isQuote mark none ps ∧ expand ps vs = some text := by
  rw [(placeholders_templateOf hmark none hgaps).2]
  refine and_congr_right fun hps => ?_
  rw [fill_templateOf hmark none vs hgaps hps]

end Sast
