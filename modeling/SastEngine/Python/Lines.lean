import SastEngine.Python.Text

/-!
# Two notions of a line

The parser ends a line at `\n`, `\r` and `\r\n`; `str.splitlines` ends one at other characters as
well.  The lines of the second kind are pieces of those of the first kind, so a line number means
the same place in both splittings iff no line up to there has such a character inside
(`placedLine_eq_iff`).
-/

namespace Sast

/-! ## Places -/

/-- A line, with the text before it and after it. -/
structure PlacedLine where
  before : List Char
  line : List Char
  after : List Char
deriving DecidableEq

/-- The line with a number, from 1 on. -/
def placedLine (lines : List (List Char)) (n : Nat) : Option PlacedLine :=
  (lines[n - 1]?).map fun line => ⟨(lines.take (n - 1)).flatten, line, (lines.drop n).flatten⟩

/-- Where a line stands. -/
lemma placedLine_eq_some_iff {lines : List (List Char)} {n : Nat}
    {place : PlacedLine} : placedLine lines n = some place
    ↔ lines[n - 1]? = some place.line ∧ (lines.take (n - 1)).flatten = place.before
      ∧ (lines.drop n).flatten = place.after := by
  rw [placedLine, Option.map_eq_some_iff]
  constructor
  · rintro ⟨line, hline, rfl⟩
    exact ⟨hline, rfl, rfl⟩
  · rintro ⟨hline, hbefore, hafter⟩
    exact ⟨place.line, hline, by rw [hbefore, hafter]⟩

/-- The text is made of a line and what stands around it. -/
lemma flatten_of_placedLine {lines : List (List Char)} {n : Nat} (hpos : 0 < n)
    {place : PlacedLine} (h : placedLine lines n = some place) :
    place.before ++ place.line ++ place.after = lines.flatten := by
  obtain ⟨hline, hbefore, hafter⟩ := placedLine_eq_some_iff.1 h
  obtain ⟨k, rfl⟩ := Nat.exists_eq_succ_of_ne_zero (Nat.ne_of_gt hpos)
  have hsplit := List.take_append_drop (k + 1) lines
  rw [List.take_add_one, show lines[k]? = some place.line from hline] at hsplit
  rw [← hbefore, ← hafter]
  conv_rhs => rw [← hsplit]
  simp

/-- A character that ends a line for `str.splitlines` only. -/
def isWideBreak (c : Char) : Bool := isLineBreak c && !isNewline c

/-- A line is in one piece for `str.splitlines`. -/
def InOnePiece (line : List Char) : Prop := ∀ c ∈ line.dropLast, isWideBreak c = false

instance (line : List Char) : Decidable (InOnePiece line) :=
  inferInstanceAs (Decidable (∀ c ∈ line.dropLast, _))

/-! ## Lists of pieces -/

section Pieces

variable {α : Type} {f : List α → List (List α)} {lines : List (List α)}

/-- Each list is split into pieces that are not empty. -/
structure Splits (f : List α → List (List α)) : Prop where
  flatten : ∀ l, (f l).flatten = l
  ne_nil : ∀ l, ∀ p ∈ f l, p ≠ []

lemma Splits.length_pos (hf : Splits f) {l : List α} (hl : l ≠ []) : 0 < (f l).length := by
  rw [List.length_pos_iff]
  intro hnil
  have hflat := hf.flatten l
  rw [hnil] at hflat
  exact hl hflat.symm

lemma length_flatten_take_mono (ls : List (List α)) {m n : Nat} (h : m ≤ n) :
    (ls.take m).flatten.length ≤ (ls.take n).flatten.length := by
  obtain ⟨k, rfl⟩ := Nat.exists_eq_add_of_le h
  rw [List.take_add, List.flatten_append, List.length_append]
  exact Nat.le_add_right _ _

/-- The first pieces of a list are no longer than it is. -/
lemma Splits.length_take_le (hf : Splits f) (l : List α) (n : Nat) :
    ((f l).take n).flatten.length ≤ l.length := by
  have hlength := congrArg List.length (hf.flatten l)
  rw [← List.take_append_drop n (f l), List.flatten_append, List.length_append] at hlength
  omega

/-- Pieces are never ahead of the lists they come from. -/
lemma Splits.length_take_flatMap_le (hf : Splits f) (hlines : ∀ l ∈ lines, l ≠ []) (n : Nat) :
    ((lines.flatMap f).take n).flatten.length ≤ (lines.take n).flatten.length := by
  induction lines generalizing n with
  | nil => simp
  | cons l lines ih =>
      obtain ⟨hl, hlines⟩ := List.forall_mem_cons.1 hlines
      cases n with
      | zero => simp
      | succ n =>
          rw [List.flatMap_cons, List.take_append, List.flatten_append, List.length_append,
            List.take_succ_cons, List.flatten_cons, List.length_append]
          have hhead := hf.length_take_le l (n + 1)
          have hpos := hf.length_pos hl
          have htail := ih hlines (n + 1 - (f l).length)
          have hmono := length_flatten_take_mono lines
            (show n + 1 - (f l).length ≤ n by omega)
          omega

/-- A list that is split falls behind. -/
lemma Splits.length_take_flatMap_lt (hf : Splits f) {l : List α}
    (hlines : ∀ l ∈ lines, l ≠ []) {n : Nat} (hn : n ≤ lines.length) (hsplit : 1 < (f l).length) :
    ((f l ++ lines.flatMap f).take (n + 1)).flatten.length
      < l.length + (lines.take n).flatten.length := by
  rw [List.take_append, List.flatten_append, List.length_append]
  have htail := hf.length_take_flatMap_le hlines (n + 1 - (f l).length)
  cases n with
  | zero =>
      obtain ⟨p, q, ps, heq⟩ : ∃ p q ps, f l = p :: q :: ps := by
        cases hfl : f l with
        | nil => simp [hfl] at hsplit
        | cons p ps =>
            cases ps with
            | nil => simp [hfl] at hsplit
            | cons q ps => exact ⟨p, q, ps, rfl⟩
      have hlength := congrArg List.length (hf.flatten l)
      have hq : 0 < q.length := List.length_pos_iff.2 (hf.ne_nil l q (by simp [heq]))
      have hnone : 0 + 1 - (f l).length = 0 := by omega
      rw [hnone]
      rw [heq] at hlength ⊢
      simp at hlength ⊢
      omega
  | succ n =>
      have hhead := hf.length_take_le l (n + 1 + 1)
      have hmono := length_flatten_take_mono lines
        (show n + 1 + 1 - (f l).length ≤ n by omega)
      have hnext : 0 < lines[n].length :=
        List.length_pos_iff.2 (hlines _ (List.getElem_mem (by omega)))
      have hlast : lines.take (n + 1) = lines.take n ++ [lines[n]] :=
        List.take_succ_eq_append_getElem (by omega)
      rw [hlast, List.flatten_append, List.length_append]
      simp only [List.flatten_cons, List.flatten_nil, List.append_nil]
      omega

/-- **A piece with a number is the list with that number**, at the same place, iff no list up to
there is split. -/
theorem Splits.same_place_iff (hf : Splits f) (hlines : ∀ l ∈ lines, l ≠ []) {n : Nat}
    (hn : n < lines.length) :
    (((lines.flatMap f).take n).flatten = (lines.take n).flatten
        ∧ (lines.flatMap f)[n]? = lines[n]?)
      ↔ ∀ l ∈ lines.take (n + 1), f l = [l] := by
  induction lines generalizing n with
  | nil => simp at hn
  | cons l lines ih =>
      obtain ⟨hl, hlines⟩ := List.forall_mem_cons.1 hlines
      rw [List.take_succ_cons, List.forall_mem_cons, List.flatMap_cons]
      by_cases hone : f l = [l]
      · rw [hone]
        cases n with
        | zero => simp
        | succ n =>
            rw [← ih hlines (by simpa using hn)]
            simp
      · refine iff_of_false ?_ fun h => hone h.1
        rintro ⟨htake, hget⟩
        have hpos := hf.length_pos hl
        have hsplit : 1 < (f l).length := by
          by_contra hle
          obtain ⟨p, hp⟩ := List.length_eq_one_iff.1 (show (f l).length = 1 by omega)
          have hflat := hf.flatten l
          rw [hp, List.flatten_singleton] at hflat
          exact hone (by rw [hp, hflat])
        have hlt := hf.length_take_flatMap_lt hlines (n := n)
          (by simpa [Nat.lt_succ_iff] using hn) hsplit
        have hget' : (f l ++ lines.flatMap f)[n]? = some ((l :: lines)[n]) := by
          rw [hget, List.getElem?_eq_getElem hn]
        rw [List.take_add_one, hget', List.flatten_append, htake] at hlt
        have hall := congrArg List.length (congrArg List.flatten
          (List.take_succ_eq_append_getElem hn))
        rw [List.take_succ_cons, List.flatten_append] at hall
        simp at hlt hall
        omega

end Pieces

/-! ## The two splittings -/

lemma splits_splitlinesKeepends : Splits splitlinesKeepends :=
  ⟨flatten_splitlinesKeepends, splitlinesKeepends_ne_nil⟩

lemma isLineBreak_of_isNewline {c : Char} (h : isNewline c = true) : isLineBreak c = true := by
  simp only [isNewline, Bool.or_eq_true, beq_iff_eq] at h
  rcases h with rfl | rfl <;> decide

lemma splitlinesNoFf_ne_nil (cs : List Char) : ∀ line ∈ splitlinesNoFf cs, line ≠ [] := by
  induction cs using splitlinesNoFf.induct with
  | case1 => simp [splitlinesNoFf]
  | case2 cs ih =>
      rw [splitlinesNoFf]
      exact List.forall_mem_cons.2 ⟨by simp, ih⟩
  | case3 c cs hcr hnewline ih =>
      rw [splitlinesNoFf.eq_3 c cs hcr, if_pos hnewline]
      exact List.forall_mem_cons.2 ⟨by simp, ih⟩
  | case4 c cs hcr hnewline ih =>
      rw [splitlinesNoFf.eq_3 c cs hcr, if_neg hnewline]
      cases hlines : splitlinesNoFf cs with
      | nil => simp [consLine]
      | cons line lines =>
          rw [hlines] at ih
          exact List.forall_mem_cons.2 ⟨by simp, fun l hl => ih l (List.mem_cons_of_mem _ hl)⟩

lemma flatten_splitlinesNoFf (cs : List Char) : (splitlinesNoFf cs).flatten = cs := by
  induction cs using splitlinesNoFf.induct with
  | case1 => rfl
  | case2 cs ih => simp [splitlinesNoFf, ih]
  | case3 c cs hcr hnewline ih =>
      rw [splitlinesNoFf.eq_3 c cs hcr, if_pos hnewline]
      simp [ih]
  | case4 c cs hcr hnewline ih =>
      rw [splitlinesNoFf.eq_3 c cs hcr, if_neg hnewline, flatten_consLine, ih]

/-- A character that is no newline begins a line with the characters after it. -/
lemma splitlinesKeepends_cons {c : Char} (h : isNewline c = false) (cs : List Char) :
    splitlinesKeepends (c :: cs)
      = if isWideBreak c then [c] :: splitlinesKeepends cs
        else consLine c (splitlinesKeepends cs) := by
  have hcr : ∀ rest, c = '\r' → cs = '\n' :: rest → False := by
    rintro rest rfl
    simp [isNewline] at h
  rw [splitlinesKeepends.eq_3 c cs hcr]
  simp [isWideBreak, h]

lemma consLine_append {c : Char} {lines : List (List Char)} (h : lines ≠ [])
    (more : List (List Char)) : consLine c (lines ++ more) = consLine c lines ++ more := by
  cases lines with
  | nil => exact absurd rfl h
  | cons line lines => rfl

/-- The parser's lines are split further. -/
lemma splitlinesKeepends_eq (cs : List Char) :
    splitlinesKeepends cs = (splitlinesNoFf cs).flatMap splitlinesKeepends := by
  induction cs using splitlinesNoFf.induct with
  | case1 => rfl
  | case2 cs ih =>
      rw [splitlinesKeepends, splitlinesNoFf, List.flatMap_cons, ih]
      rfl
  | case3 c cs hcr hnewline ih =>
      rw [splitlinesNoFf.eq_3 c cs hcr, if_pos hnewline, splitlinesKeepends.eq_3 c cs hcr,
        if_pos (isLineBreak_of_isNewline hnewline), List.flatMap_cons, ih]
      rw [splitlinesKeepends.eq_3 c [] (by simp), if_pos (isLineBreak_of_isNewline hnewline)]
      rfl
  | case4 c cs hcr hnewline ih =>
      have hother : isNewline c = false := by simpa using hnewline
      rw [splitlinesNoFf.eq_3 c cs hcr, if_neg hnewline, splitlinesKeepends_cons hother, ih]
      cases hlines : splitlinesNoFf cs with
      | nil =>
          simp [consLine, splitlinesKeepends_cons hother, splitlinesKeepends]
      | cons line lines =>
          have hline : splitlinesKeepends line ≠ [] := by
            have hne := splitlinesNoFf_ne_nil cs line (by simp [hlines])
            exact List.length_pos_iff.1 (splits_splitlinesKeepends.length_pos hne)
          simp only [consLine, List.flatMap_cons, splitlinesKeepends_cons hother]
          split_ifs
          · rfl
          · exact consLine_append hline _

/-- A line of the parser stays whole for `str.splitlines` iff it is in one piece. -/
lemma splitlinesKeepends_eq_singleton_iff (cs : List Char) : ∀ line ∈ splitlinesNoFf cs,
    splitlinesKeepends line = [line] ↔ InOnePiece line := by
  induction cs using splitlinesNoFf.induct with
  | case1 => simp [splitlinesNoFf]
  | case2 cs ih =>
      rw [splitlinesNoFf]
      refine List.forall_mem_cons.2 ⟨iff_of_true (by decide) (by decide), ih⟩
  | case3 c cs hcr hnewline ih =>
      rw [splitlinesNoFf.eq_3 c cs hcr, if_pos hnewline]
      refine List.forall_mem_cons.2 ⟨iff_of_true ?_ (by simp [InOnePiece]), ih⟩
      rw [splitlinesKeepends.eq_3 c [] (by simp), if_pos (isLineBreak_of_isNewline hnewline)]
      rfl
  | case4 c cs hcr hnewline ih =>
      have hother : isNewline c = false := by simpa using hnewline
      rw [splitlinesNoFf.eq_3 c cs hcr, if_neg hnewline]
      cases hlines : splitlinesNoFf cs with
      | nil =>
          simp [consLine, splitlinesKeepends_cons hother, splitlinesKeepends, InOnePiece]
      | cons line lines =>
          rw [hlines] at ih
          obtain ⟨hline, hrest⟩ := List.forall_mem_cons.1 ih
          refine List.forall_mem_cons.2 ⟨?_, hrest⟩
          have hne := splitlinesNoFf_ne_nil cs line (by simp [hlines])
          have hpieces : splitlinesKeepends line ≠ [] :=
            List.length_pos_iff.1 (splits_splitlinesKeepends.length_pos hne)
          rw [splitlinesKeepends_cons hother, InOnePiece, List.dropLast_cons_of_ne_nil hne,
            List.forall_mem_cons]
          split_ifs with hwide
          · simp [hwide, hne]
          · rw [← InOnePiece, ← hline]
            cases hpiece : splitlinesKeepends line with
            | nil => exact absurd hpiece hpieces
            | cons piece pieces => simp [consLine, hwide]

/-- **The line with a number is the parser's**, in the same place, iff all lines of the parser up
to it are in one piece. -/
theorem placedLine_eq_iff {cs : List Char} {n : Nat} (hpos : 0 < n)
    (hn : n ≤ (splitlinesNoFf cs).length) :
    placedLine (splitlinesKeepends cs) n = placedLine (splitlinesNoFf cs) n
      ↔ ∀ line ∈ (splitlinesNoFf cs).take n, InOnePiece line := by
  obtain ⟨k, rfl⟩ := Nat.exists_eq_succ_of_ne_zero (Nat.ne_of_gt hpos)
  have hpieces : (∀ line ∈ (splitlinesNoFf cs).take (k + 1), InOnePiece line)
      ↔ ∀ line ∈ (splitlinesNoFf cs).take (k + 1), splitlinesKeepends line = [line] :=
    forall₂_congr fun line hline =>
      (splitlinesKeepends_eq_singleton_iff cs line (List.mem_of_mem_take hline)).symm
  rw [hpieces, ← splits_splitlinesKeepends.same_place_iff (splitlinesNoFf_ne_nil cs) hn,
    ← splitlinesKeepends_eq]
  have hphysical : (splitlinesNoFf cs)[k]? = some ((splitlinesNoFf cs)[k]) :=
    List.getElem?_eq_getElem hn
  have hplace : placedLine (splitlinesNoFf cs) (k + 1) = some ⟨((splitlinesNoFf cs).take k).flatten,
      (splitlinesNoFf cs)[k], ((splitlinesNoFf cs).drop (k + 1)).flatten⟩ :=
    placedLine_eq_some_iff.2 ⟨hphysical, rfl, rfl⟩
  rw [Nat.succ_eq_add_one, hplace, placedLine_eq_some_iff, hphysical]
  refine ⟨fun h => ⟨h.2.1, h.1⟩, fun h => ⟨h.2, h.1, ?_⟩⟩
  -- the two splittings have the same text after the line, since they have the same text
  have hkeepends : placedLine (splitlinesKeepends cs) (k + 1)
      = some ⟨((splitlinesNoFf cs).take k).flatten, (splitlinesNoFf cs)[k],
        ((splitlinesKeepends cs).drop (k + 1)).flatten⟩ :=
    placedLine_eq_some_iff.2 ⟨h.2, h.1, rfl⟩
  refine List.append_cancel_left ((flatten_of_placedLine hpos hkeepends).trans ?_)
  rw [flatten_of_placedLine hpos hplace, flatten_splitlinesKeepends, flatten_splitlinesNoFf]

end Sast
