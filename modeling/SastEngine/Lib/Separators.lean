import Mathlib.Data.List.Basic
import Mathlib.Tactic.Lemma

/-!
# Separated fields

Fields that are joined by a separator can be read off again from the end where they do not contain
it.
-/

namespace Sast

/-- The last field of a text, when it does not contain the separator. -/
lemma append_sep_right {α : Type} {sep : α} {as bs xs ys : List α} (hx : sep ∉ xs) (hy : sep ∉ ys)
    (h : as ++ sep :: xs = bs ++ sep :: ys) : as = bs ∧ xs = ys := by
  induction as generalizing bs with
  | nil =>
      cases bs with
      | nil => exact ⟨rfl, (List.cons.inj h).2⟩
      | cons b bs =>
          obtain ⟨-, htail⟩ := List.cons.inj h
          exact absurd (htail ▸ by simp) hx
  | cons a as ih =>
      cases bs with
      | nil =>
          obtain ⟨-, htail⟩ := List.cons.inj h
          exact absurd (htail ▸ by simp) hy
      | cons b bs =>
          obtain ⟨rfl, htail⟩ := List.cons.inj h
          obtain ⟨rfl, hxy⟩ := ih htail
          exact ⟨rfl, hxy⟩

/-- The first field of a text, when it does not contain the separator. -/
lemma append_sep_left {α : Type} {sep : α} {as bs xs ys : List α} (ha : sep ∉ as) (hb : sep ∉ bs)
    (h : as ++ sep :: xs = bs ++ sep :: ys) : as = bs ∧ xs = ys := by
  have hrev := congrArg List.reverse h
  simp only [List.reverse_append, List.reverse_cons, List.append_assoc, List.singleton_append]
    at hrev
  obtain ⟨hxs, has⟩ := append_sep_right (by simpa using ha) (by simpa using hb) hrev
  exact ⟨List.reverse_injective has, List.reverse_injective hxs⟩

section Joined

variable {α : Type} [DecidableEq α] {x : α}

/-- The fields of a joined text are those of its parts. -/
lemma splitOn_intercalate_eq {texts : List (List α)} (h : texts ≠ []) :
    ([x].intercalate texts).splitOn x = texts.flatMap (·.splitOn x) := by
  induction texts with
  | nil => exact absurd rfl h
  | cons text texts ih =>
      cases texts with
      | nil => simp
      | cons text' texts =>
          rw [List.intercalate_cons_cons, List.append_assoc, List.singleton_append,
            List.splitOn_append_cons_self, ih (by simp)]
          rfl

/-- Fields that are not empty and do not contain the separator are determined by the joined
text. -/
lemma intercalate_inj {xs ys : List (List α)} (hxs : ∀ l ∈ xs, x ∉ l ∧ l ≠ [])
    (hys : ∀ l ∈ ys, x ∉ l ∧ l ≠ []) (h : [x].intercalate xs = [x].intercalate ys) : xs = ys := by
  have hnil : ∀ {ls : List (List α)}, (∀ l ∈ ls, x ∉ l ∧ l ≠ []) → [x].intercalate ls = [] →
      ls = [] := by
    intro ls hls hempty
    rcases ls with - | ⟨l, - | ⟨l', ls⟩⟩
    · rfl
    · exact absurd (by simpa using hempty) (hls l (by simp)).2
    · simp [List.intercalate_cons_cons] at hempty
  by_cases hx : xs = []
  · subst hx
    exact (hnil hys h.symm).symm
  by_cases hy : ys = []
  · subst hy
    exact hnil hxs h
  rw [← List.splitOn_intercalate x (fun l hl => (hxs l hl).1) hx, h,
    List.splitOn_intercalate x (fun l hl => (hys l hl).1) hy]

end Joined

/-- A joined text of fields that are not empty does not end in a separator they do not contain. -/
lemma getLast?_intercalate_ne {α : Type} {x : α} {texts : List (List α)}
    (h : ∀ l ∈ texts, x ∉ l ∧ l ≠ []) : ([x].intercalate texts).getLast? ≠ some x := by
  induction texts with
  | nil => simp
  | cons text texts ih =>
      obtain ⟨⟨hx, hne⟩, hrest⟩ := List.forall_mem_cons.1 h
      cases texts with
      | nil =>
          rw [List.intercalate_singleton]
          exact fun hlast => hx (List.mem_of_getLast? hlast)
      | cons text' texts =>
          rw [List.intercalate_cons_cons, List.append_assoc, List.getLast?_append]
          have hne' : [x].intercalate (text' :: texts) ≠ [] := by
            cases texts <;> simp [List.intercalate_cons_cons, hrest]
          rw [List.getLast?_append, List.getLast?_eq_some_getLast hne']
          have hih := ih hrest
          rw [List.getLast?_eq_some_getLast hne'] at hih
          exact hih

/-- Where a character begins the fields it is in, it begins the joined text or comes after a
separator there. -/
lemma before_of_intercalate {α : Type} {x c : α} (hc : c ≠ x) {texts : List (List α)}
    (h : ∀ text ∈ texts, ∀ before after, text = before ++ c :: after → before = [])
    {before after : List α} (heq : [x].intercalate texts = before ++ c :: after) :
    before = [] ∨ before.getLast? = some x := by
  induction texts generalizing before with
  | nil => simp at heq
  | cons text texts ih =>
      obtain ⟨hfirst, hrest⟩ := List.forall_mem_cons.1 h
      cases texts with
      | nil =>
          rw [List.intercalate_singleton] at heq
          exact Or.inl (hfirst _ _ heq)
      | cons text' texts =>
          rw [List.intercalate_cons_cons, List.append_assoc] at heq
          rcases List.append_eq_append_iff.1 heq with ⟨more, rfl, hmore⟩ | ⟨more, htext, hmore⟩
          · rw [List.singleton_append] at hmore
            rcases List.append_eq_cons_iff.1 hmore.symm with ⟨-, hcons⟩ | ⟨more, rfl, hjoin⟩
            · exact absurd (List.cons.inj hcons).1 hc
            · right
              rcases ih hrest hjoin with rfl | hlast
              · simp
              · rw [List.getLast?_append, List.getLast?_cons, hlast]
                rfl
          · rw [List.singleton_append] at hmore
            rcases List.append_eq_cons_iff.1 hmore.symm with ⟨-, hcons⟩ | ⟨more, rfl, -⟩
            · exact absurd (List.cons.inj hcons).1.symm hc
            · exact Or.inl (hfirst _ _ htext)


/-- Decimal numbers contain digits only. -/
lemma notMem_toString {sep : Char} (h : sep.isDigit = false) (n : Nat) :
    sep ∉ (toString n).toList := by
  intro hmem
  rw [Nat.toString_eq_repr, Nat.toList_repr] at hmem
  rw [Nat.isDigit_of_mem_toDigits (by decide) (by decide) hmem] at h
  cases h

/-- A number is determined by its decimal digits. -/
lemma eq_of_toList_toString {n m : Nat} (h : (toString n).toList = (toString m).toList) :
    n = m := by
  rw [Nat.toString_eq_repr, Nat.toString_eq_repr, Nat.toList_repr, Nat.toList_repr] at h
  have hdigits := congrArg (fun digits => Nat.ofDigitChars 10 digits 0) h
  simpa using hdigits

end Sast
