import Mathlib.Data.List.DropRight
import SastEngine.Python.Lines

/-!
# Lines joined again

`"\n".join(text.splitlines())` is the text with `\n` for every line break, up to a break at its
end.  Every line break is white space, so stripping commutes with that.
-/

namespace Sast

/-! ## The recursion of `splitlines` -/

lemma dropEnd_break {c : Char} (h : isLineBreak c = true) : dropEnd [c] = [] := by
  simp [dropEnd, h]

lemma dropEnd_cons {c : Char} (h : isLineBreak c = false) (line : List Char) :
    dropEnd (c :: line) = c :: dropEnd line := by
  have hr : c ≠ '\r' := by
    rintro rfl
    cases h
  have hline : line = line.reverse.reverse := line.reverse_reverse.symm
  rw [dropEnd, dropEnd, List.reverse_cons]
  generalize line.reverse = ending at hline ⊢
  subst hline
  rcases ending with - | ⟨last, - | ⟨before, ending⟩⟩
  · simp [h]
  · by_cases hlast : isLineBreak last = true <;> simp [hlast, hr]
  · by_cases hcrlf : last = '\n' ∧ before = '\r'
    · obtain ⟨rfl, rfl⟩ := hcrlf
      simp
    · simp only [List.cons_append]
      split <;> split <;> simp_all

lemma splitlines_crlf (cs : List Char) :
    splitlines ('\r' :: '\n' :: cs) = [] :: splitlines cs := by
  rw [splitlines, splitlinesKeepends]
  rfl

lemma splitlines_break {c : Char} {cs : List Char}
    (hcr : ∀ rest, c = '\r' → cs = '\n' :: rest → False) (h : isLineBreak c = true) :
    splitlines (c :: cs) = [] :: splitlines cs := by
  rw [splitlines, splitlinesKeepends.eq_3 c cs hcr, if_pos h, List.map_cons, dropEnd_break h]
  rfl

lemma splitlines_char {c : Char} (h : isLineBreak c = false) (cs : List Char) :
    splitlines (c :: cs) = consLine c (splitlines cs) := by
  have hcr : ∀ rest, c = '\r' → cs = '\n' :: rest → False := by
    rintro rest rfl
    cases h
  rw [splitlines, splitlinesKeepends.eq_3 c cs hcr, if_neg (by simp [h]), splitlines]
  cases splitlinesKeepends cs with
  | nil => simp [consLine, dropEnd, h]
  | cons line lines => simp [consLine, dropEnd_cons h]

/-- `"\n".join(lines)`. -/
def joinLines (lines : List (List Char)) : List Char := ['\n'].intercalate lines

/-- A text with `\n` for every line break. -/
def unixBreaks : List Char → List Char
  | [] => []
  | '\r' :: '\n' :: cs => '\n' :: unixBreaks cs
  | c :: cs => (if isLineBreak c then '\n' else c) :: unixBreaks cs

lemma splitlines_eq_nil {cs : List Char} (h : splitlines cs = []) : cs = [] := by
  have hflat := flatten_splitlinesKeepends cs
  rw [List.map_eq_nil_iff.1 h] at hflat
  exact hflat.symm

lemma joinLines_nil_cons {lines : List (List Char)} (h : lines ≠ []) :
    joinLines ([] :: lines) = '\n' :: joinLines lines := by
  obtain ⟨line, lines, rfl⟩ := List.exists_cons_of_ne_nil h
  rfl

lemma joinLines_consLine (c : Char) (lines : List (List Char)) :
    joinLines (consLine c lines) = c :: joinLines lines := by
  rcases lines with - | ⟨line, - | ⟨second, lines⟩⟩ <;> rfl

/-- Joining the lines of a text loses at most the break at its end. -/
theorem joinLines_splitlines (cs : List Char) :
    unixBreaks cs = joinLines (splitlines cs)
      ∨ unixBreaks cs = joinLines (splitlines cs) ++ ['\n'] := by
  have hbreak : ∀ rest, (unixBreaks rest = joinLines (splitlines rest)
      ∨ unixBreaks rest = joinLines (splitlines rest) ++ ['\n']) →
      ('\n' :: unixBreaks rest = joinLines ([] :: splitlines rest)
        ∨ '\n' :: unixBreaks rest = joinLines ([] :: splitlines rest) ++ ['\n']) := by
    intro rest h
    by_cases hrest : splitlines rest = []
    · rw [splitlines_eq_nil hrest]
      exact Or.inr rfl
    · rw [joinLines_nil_cons hrest]
      exact h.imp (congrArg _) (congrArg _)
  induction cs using splitlinesKeepends.induct with
  | case1 => exact Or.inl rfl
  | case2 cs ih =>
      rw [splitlines_crlf, unixBreaks]
      exact hbreak cs ih
  | case3 c cs hcr h ih =>
      rw [splitlines_break hcr h, unixBreaks.eq_3 c cs hcr, if_pos h]
      exact hbreak cs ih
  | case4 c cs hcr h ih =>
      rw [splitlines_char (by simpa using h), unixBreaks.eq_3 c cs hcr, if_neg h,
        joinLines_consLine]
      exact ih.imp (congrArg _) (congrArg _)

/-! ## Stripping -/

lemma isSpace_of_isLineBreak {c : Char} (h : isLineBreak c = true) : isSpace c = true := by
  simp only [isLineBreak, isSpace, Bool.or_eq_true, Bool.and_eq_true, decide_eq_true_eq,
    beq_iff_eq] at h ⊢
  omega

lemma isSpace_unixBreak (c : Char) :
    isSpace (if isLineBreak c then '\n' else c) = isSpace c := by
  split_ifs with h
  · rw [isSpace_of_isLineBreak h]
    decide
  · rfl

lemma rstrip_cons (p : Char → Bool) (c : Char) (cs : List Char) :
    rstrip p (c :: cs) = if rstrip p cs = [] ∧ p c = true then [] else c :: rstrip p cs := by
  simp only [rstrip, List.reverse_cons, List.dropWhile_append, List.reverse_eq_nil_iff,
    List.isEmpty_iff]
  by_cases hcs : cs.reverse.dropWhile p = []
  · by_cases hc : p c = true <;> simp [hcs, hc]
  · simp [hcs]

lemma rstrip_append_blank (cs : List Char) {blank : List Char}
    (h : ∀ c ∈ blank, isSpace c = true) :
    rstrip isSpace (cs ++ blank) = rstrip isSpace cs := by
  rw [rstrip, List.reverse_append, List.dropWhile_append_of_pos (by simpa using h), rstrip]

lemma lstrip_blank_append {blank : List Char} (h : ∀ c ∈ blank, isSpace c = true)
    (cs : List Char) : lstrip isSpace (blank ++ cs) = lstrip isSpace cs :=
  List.dropWhile_append_of_pos h

lemma rstrip_blank {blank : List Char} (h : ∀ c ∈ blank, isSpace c = true) :
    rstrip isSpace blank = [] := by
  simpa [rstrip] using h

/-- White space around a text does not stay. -/
lemma strip_blanks {before after : List Char} (hbefore : ∀ c ∈ before, isSpace c = true)
    (hafter : ∀ c ∈ after, isSpace c = true) (cs : List Char) :
    strip (before ++ cs ++ after) = strip cs := by
  rw [strip, List.append_assoc, lstrip_blank_append hbefore, strip, lstrip, List.dropWhile_append]
  by_cases hcs : cs.dropWhile isSpace = []
  · rw [if_pos (by simp [hcs]), lstrip, hcs]
    exact rstrip_blank fun c hc => hafter c ((List.dropWhile_suffix _).subset hc)
  · rw [if_neg (by simpa using hcs), rstrip_append_blank _ hafter, lstrip]

lemma rstrip_eq_self {cs : List Char} (h : ∀ c, cs.getLast? = some c → isSpace c = false) :
    rstrip isSpace cs = cs := by
  refine (List.rdropWhile_eq_self_iff).2 fun hne => ?_
  rw [h _ (List.getLast?_eq_some_getLast hne)]
  simp

lemma strip_eq_self {cs : List Char} (hfirst : ∀ c, cs.head? = some c → isSpace c = false)
    (hlast : ∀ c, cs.getLast? = some c → isSpace c = false) : strip cs = cs := by
  have hleft : lstrip isSpace cs = cs := by
    cases cs with
    | nil => rfl
    | cons c cs => exact List.dropWhile_cons_of_neg (by simp [hfirst c rfl])
  rw [strip, hleft, rstrip_eq_self hlast]

/-- A text is its stripped text with white space around it. -/
lemma strip_split (cs : List Char) :
    cs = cs.takeWhile isSpace ++ (strip cs ++ (cs.dropWhile isSpace).rtakeWhile isSpace) := by
  have hright : strip cs ++ (cs.dropWhile isSpace).rtakeWhile isSpace = cs.dropWhile isSpace :=
    List.rdropWhile_append_rtakeWhile
  rw [hright, List.takeWhile_append_dropWhile]

lemma getLast?_strip {cs : List Char} {c : Char} (h : (strip cs).getLast? = some c) :
    isSpace c = false := by
  have hne : (cs.dropWhile isSpace).rdropWhile isSpace ≠ [] := fun hnil => by
    rw [show strip cs = [] from hnil] at h
    cases h
  have hlast := List.rdropWhile_last_not _ _ hne
  rw [show strip cs = (cs.dropWhile isSpace).rdropWhile isSpace from rfl,
    List.getLast?_eq_some_getLast hne, Option.some.injEq] at h
  rw [h] at hlast
  simpa using hlast

lemma head?_strip {cs : List Char} {c : Char} (h : (strip cs).head? = some c) :
    isSpace c = false := by
  obtain ⟨more, hmore⟩ : strip cs <+: cs.dropWhile isSpace := List.rdropWhile_prefix _ _
  have hhead := List.head?_dropWhile_not isSpace cs
  rw [← hmore, List.head?_append, h] at hhead
  exact hhead

/-! ## Stripping a text with its breaks replaced -/

lemma lstrip_unixBreaks (cs : List Char) :
    lstrip isSpace (unixBreaks cs) = unixBreaks (lstrip isSpace cs) := by
  induction cs using unixBreaks.induct with
  | case1 => rfl
  | case2 cs ih =>
      rw [unixBreaks]
      exact ih
  | case3 c cs hcr ih =>
      have hspace := isSpace_unixBreak c
      rw [lstrip, lstrip] at *
      by_cases hc : isSpace c = true
      · rw [unixBreaks.eq_3 c cs hcr, List.dropWhile_cons_of_pos (by rw [hspace]; exact hc), ih,
          List.dropWhile_cons_of_pos hc]
      · rw [unixBreaks.eq_3 c cs hcr, List.dropWhile_cons_of_neg (by rw [hspace]; exact hc),
          List.dropWhile_cons_of_neg hc, unixBreaks.eq_3 c cs hcr]

lemma unixBreaks_eq_nil_iff (cs : List Char) : unixBreaks cs = [] ↔ cs = [] := by
  cases cs using unixBreaks.fun_cases_unfolding <;> simp

lemma rstrip_unixBreaks (cs : List Char) :
    rstrip isSpace (unixBreaks cs) = unixBreaks (rstrip isSpace cs) := by
  induction cs using unixBreaks.induct with
  | case1 => rfl
  | case2 cs ih =>
      have hnl : isSpace '\n' = true := by decide
      have hr : isSpace '\r' = true := by decide
      by_cases hcs : rstrip isSpace cs = []
      · simp [unixBreaks, rstrip_cons, ih, hcs, hnl, hr]
      · simp [unixBreaks, rstrip_cons, ih, hcs, unixBreaks_eq_nil_iff]
  | case3 c cs hcr ih =>
      have hspace := isSpace_unixBreak c
      by_cases hcs : rstrip isSpace cs = [] ∧ isSpace c = true
      · simp [unixBreaks.eq_3 c cs hcr, rstrip_cons, ih, hcs, hspace, unixBreaks]
      · have hcr' : ∀ rest, c = '\r' → rstrip isSpace cs = '\n' :: rest → False := by
          intro rest hc hrest
          obtain ⟨more, hmore⟩ : rstrip isSpace cs <+: cs := List.rdropWhile_prefix isSpace cs
          exact hcr (rest ++ more) hc (by rw [← hmore, hrest]; rfl)
        simp only [unixBreaks.eq_3 c cs hcr, rstrip_cons, ih, hspace, unixBreaks_eq_nil_iff, hcs,
          if_false, unixBreaks.eq_3 c _ hcr']

lemma strip_unixBreaks (cs : List Char) : strip (unixBreaks cs) = unixBreaks (strip cs) := by
  rw [strip, lstrip_unixBreaks, rstrip_unixBreaks, strip]

/-- The stripped lines of a text are the stripped text. -/
theorem strip_joinLines_splitlines (cs : List Char) :
    strip (joinLines (splitlines cs)) = unixBreaks (strip cs) := by
  rw [← strip_unixBreaks]
  rcases joinLines_splitlines cs with h | h
  · rw [h]
  · rw [h]
    exact (@strip_blanks [] ['\n'] (by simp) (by decide) (joinLines (splitlines cs))).symm

/-! ## The first line and the last one -/

/-- What is left after a line break: `\r\n` is one. -/
def afterBreak (b : Char) : List Char → List Char
  | '\n' :: cs => if b = '\r' then cs else '\n' :: cs
  | cs => cs

lemma afterBreak_append {b : Char} {cs more : List Char} (h : more.head? ≠ some '\n') :
    afterBreak b (cs ++ more) = afterBreak b cs ++ more := by
  rcases cs with - | ⟨c, cs⟩
  · rcases more with - | ⟨d, more⟩
    · rfl
    · have hd : d ≠ '\n' := fun hd => h (by rw [hd]; rfl)
      rw [List.nil_append, afterBreak.eq_2 b (d :: more) (by simp [hd]), afterBreak,
        List.nil_append]
      simp
  · by_cases hc : c = '\n'
    · subst hc
      rw [List.cons_append, afterBreak, afterBreak]
      split_ifs <;> rfl
    · rw [List.cons_append, afterBreak.eq_2 b (c :: cs) (by simp [hc]),
        afterBreak.eq_2 b _ (by simp [hc])]
      rfl

lemma strip_afterBreak (b : Char) (cs : List Char) : strip (afterBreak b cs) = strip cs := by
  unfold afterBreak
  split
  · split_ifs
    · rfl
    · rfl
  · rfl

lemma unixBreaks_concat (cs : List Char) {c : Char} (hc : isLineBreak c = false) :
    unixBreaks (cs ++ [c]) = unixBreaks cs ++ [c] := by
  induction cs using unixBreaks.induct with
  | case1 => rw [List.nil_append, unixBreaks.eq_3 c [] (by simp), hc]; rfl
  | case2 cs ih =>
      rw [List.cons_append, List.cons_append, unixBreaks, ih, unixBreaks]
      rfl
  | case3 d cs hcr ih =>
      have hcr' : ∀ rest, d = '\r' → cs ++ [c] = '\n' :: rest → False := by
        intro rest hd hrest
        rcases List.append_eq_cons_iff.1 hrest with ⟨-, hc'⟩ | ⟨more, hmore, -⟩
        · obtain rfl : c = '\n' := (List.cons.inj hc').1
          exact absurd hc (by decide)
        · exact hcr more hd hmore
      rw [List.cons_append, unixBreaks.eq_3 d _ hcr', ih, unixBreaks.eq_3 d cs hcr]
      rfl

lemma splitlines_first {line : List Char} (hline : ∀ c ∈ line, isLineBreak c = false) {b : Char}
    (hb : isLineBreak b = true) (cs : List Char) :
    splitlines (line ++ b :: cs) = line :: splitlines (afterBreak b cs) := by
  induction line with
  | nil =>
      by_cases hcrlf : b = '\r' ∧ ∃ rest, cs = '\n' :: rest
      · obtain ⟨rfl, rest, rfl⟩ := hcrlf
        rw [List.nil_append, splitlines_crlf, afterBreak, if_pos rfl]
      · have hafter : afterBreak b cs = cs := by
          unfold afterBreak
          split
          · rw [if_neg fun h => hcrlf ⟨h, _, rfl⟩]
          · rfl
        rw [List.nil_append, splitlines_break (fun rest h h' => hcrlf ⟨h, rest, h'⟩) hb, hafter]
  | cons c line ih =>
      obtain ⟨hc, hline⟩ := List.forall_mem_cons.1 hline
      rw [List.cons_append, splitlines_char hc, ih hline]
      rfl

lemma splitlines_line {line : List Char} (hline : ∀ c ∈ line, isLineBreak c = false)
    (hne : line ≠ []) : splitlines line = [line] := by
  induction line with
  | nil => exact absurd rfl hne
  | cons c line ih =>
      obtain ⟨hc, hline⟩ := List.forall_mem_cons.1 hline
      rw [splitlines_char hc]
      rcases line with - | ⟨d, line⟩
      · rfl
      · rw [ih hline (by simp)]
        rfl

/-- A text with a line break has a first one. -/
lemma exists_first_break {cs : List Char} (h : ∃ c ∈ cs, isLineBreak c = true) :
    ∃ line b rest, cs = line ++ b :: rest ∧ (∀ c ∈ line, isLineBreak c = false)
      ∧ isLineBreak b = true := by
  induction cs with
  | nil => simp at h
  | cons c cs ih =>
      by_cases hc : isLineBreak c = true
      · exact ⟨[], c, cs, rfl, by simp, hc⟩
      · obtain ⟨d, hd, hbreak⟩ := h
        have hcs : d ∈ cs := (List.mem_cons.1 hd).resolve_left fun heq => hc (heq ▸ hbreak)
        obtain ⟨line, b, rest, rfl, hline, hb⟩ := ih ⟨d, hcs, hbreak⟩
        exact ⟨c :: line, b, rest, rfl, List.forall_mem_cons.2 ⟨by simpa using hc, hline⟩, hb⟩

/-- A text is empty, or its last character ends a line. -/
def EndsLine (cs : List Char) : Prop := ∀ c, cs.getLast? = some c → isLineBreak c = true

lemma splitlines_last {cs line : List Char} (hcs : EndsLine cs)
    (hline : ∀ c ∈ line, isLineBreak c = false) (hne : line ≠ []) :
    splitlines (cs ++ line) = splitlines cs ++ [line] := by
  induction cs using splitlinesKeepends.induct with
  | case1 => exact splitlines_line hline hne
  | case2 cs ih =>
      have hend : EndsLine cs := fun c h => hcs c (by
        rw [List.getLast?_cons, List.getLast?_cons, h]
        rfl)
      rw [List.cons_append, List.cons_append, splitlines_crlf, splitlines_crlf, ih hend]
      rfl
  | case3 c cs hcr h ih =>
      have hend : EndsLine cs := fun d h => hcs d (by
        rw [List.getLast?_cons, h]
        rfl)
      have hcr' : ∀ rest, c = '\r' → cs ++ line = '\n' :: rest → False := by
        intro rest hc hrest
        rcases List.append_eq_cons_iff.1 hrest with ⟨-, rfl⟩ | ⟨more, hmore, -⟩
        · exact absurd (hline '\n' List.mem_cons_self) (by decide)
        · exact hcr more hc hmore
      rw [List.cons_append, splitlines_break hcr' h, splitlines_break hcr h, ih hend]
      rfl
  | case4 c cs hcr h ih =>
      have hne' : cs ≠ [] := by
        rintro rfl
        exact h (hcs c rfl)
      have hend : EndsLine cs := fun d h => hcs d (by
        rw [List.getLast?_cons, h]
        rfl)
      have hc : isLineBreak c = false := by simpa using h
      rw [List.cons_append, splitlines_char hc, splitlines_char hc, ih hend,
        consLine_append fun hnil => hne' (splitlines_eq_nil hnil)]

/-- The last line of a text, begun by the characters after its last break. -/
lemma exists_last_line (cs : List Char) :
    ∃ before line, cs = before ++ line ∧ EndsLine before ∧ ∀ c ∈ line, isLineBreak c = false := by
  refine ⟨cs.rdropWhile fun c => !isLineBreak c, cs.rtakeWhile fun c => !isLineBreak c,
    List.rdropWhile_append_rtakeWhile.symm, ?_, fun c hc => by
      simpa using List.mem_rtakeWhile_imp hc⟩
  intro c hc
  have hne : cs.rdropWhile (fun c => !isLineBreak c) ≠ [] := by
    intro hnil
    rw [hnil] at hc
    cases hc
  have hlast := List.rdropWhile_last_not _ _ hne
  rw [List.getLast?_eq_some_getLast hne, Option.some.injEq] at hc
  rw [hc] at hlast
  simpa using hlast

end Sast
