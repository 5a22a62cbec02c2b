import SastEngine.Python.JsonScan

/-!
# Code fences around a model's answer

`parse_llm_response` of `validate/providers/base.py` takes a Markdown fence off the answer of a
model before it reads the JSON object in it.  It works on lines, so the fences must stand on
lines of their own; the closing one must be three back quotes; and the lines are those of
`str.splitlines`, which ends one at U+0085, U+2028 and U+2029 as well.  JSON allows these inside
of a string, where the newline that replaces them is not allowed.  `transparent_iff` says that
there is no other way to lose the answer.
-/

namespace Sast

/-! ## The parser -/

/-- Three back quotes. -/
def codeFence : List Char := ['`', '`', '`']

/-- `lines[1:]` where the first line starts with a fence. -/
def dropOpening : List (List Char) → List (List Char)
  | [] => []
  | first :: lines => if codeFence.isPrefixOf first then lines else first :: lines

/-- `lines[:-1]` where the last line is a fence. -/
def dropClosing (lines : List (List Char)) : List (List Char) :=
  match lines.getLast? with
  | none => lines
  | some last => if strip last = codeFence then lines.dropLast else lines

/-- The text that `json.loads` is given. -/
def unfenced (raw : List Char) : List Char :=
  let text := strip raw
  if codeFence.isPrefixOf text then
    strip (joinLines (dropClosing (dropOpening (splitlines text))))
  else text

section Parse

variable {ρ : Type} (limits : JsonLimits) (modelValidate : List (Str × Json) → Option ρ)

/-- What becomes of the outcome of `json.loads`.  Only `JSONDecodeError` is caught, and
`modelValidate` stands for `LLMResponse.model_validate`, without a result on a
`ValidationError`. -/
def judged : Except LoadsError Json → Except LoadsError (Option ρ)
  | .error .decode => .ok none
  | .error e => .error e
  | .ok (.object pairs) => .ok (modelValidate pairs)
  | .ok _ => .ok none

/-- `parse_llm_response`. -/
def parseLlmResponse (raw : List Char) : Except LoadsError (Option ρ) :=
  judged modelValidate (loads limits (unfenced raw))

end Parse

/-! ## Fencings -/

/-- A Markdown fencing: the marks of the fences, the info string of the opening one, and the
blank space around the fences and between them and the text. -/
structure Fencing where
  lead : List Char
  marker : Char
  opening : Nat
  tag : List Char
  left : List Char
  right : List Char
  closing : Nat
  trail : List Char
  lead_blank : ∀ c ∈ lead, isSpace c = true
  marker_eq : marker = '`' ∨ marker = '~'
  opening_le : 3 ≤ opening
  tag_line : ∀ c ∈ tag, isLineBreak c = false ∧ c ≠ marker
  left_blank : ∀ c ∈ left, isSpace c = true
  right_blank : ∀ c ∈ right, isSpace c = true
  closing_le : opening ≤ closing
  trail_blank : ∀ c ∈ trail, isSpace c = true

/-- A text in a fencing. -/
def Fencing.around (f : Fencing) (text : List Char) : List Char :=
  f.lead ++ (List.replicate f.opening f.marker ++ f.tag ++ (f.left ++ (text ++ f.right))
    ++ List.replicate f.closing f.marker) ++ f.trail

/-- The fences stand on lines of their own, as three back quotes at the end, around a text
without a line break that JSON takes for a part of a string. -/
structure Fencing.OnOwnLines (f : Fencing) (text : List Char) : Prop where
  marker : f.marker = '`'
  closing : f.closing = 3
  opened : ∃ c ∈ f.left ++ text.takeWhile isSpace, isLineBreak c = true
  closed : ∃ c ∈ text.rtakeWhile isSpace ++ f.right, isLineBreak c = true
  narrow : ∀ c ∈ text, isWideBreak c = false

/-- A fencing does not change what the answer is parsed to, nor the JSON value in it. -/
structure Transparent {ρ : Type} (limits : JsonLimits)
    (modelValidate : List (Str × Json) → Option ρ) (f : Fencing) (text : List Char) : Prop where
  parsed : parseLlmResponse limits modelValidate (f.around text)
    = parseLlmResponse limits modelValidate text
  value : loads limits (unfenced (f.around text)) = loads limits text

/-! ## Taking the fences off -/

/-- The fences and what is between them. -/
def Fencing.inner (f : Fencing) (text : List Char) : List Char :=
  List.replicate f.opening f.marker ++ f.tag ++ (f.left ++ (text ++ f.right))
    ++ List.replicate f.closing f.marker

lemma strip_around (f : Fencing) (text : List Char) : strip (f.around text) = f.inner text := by
  have hmarker : isSpace f.marker = false := by
    rcases f.marker_eq with h | h <;> rw [h] <;> decide
  have hopening : 0 < f.opening := lt_of_lt_of_le (by decide) f.opening_le
  obtain ⟨n, hn⟩ := Nat.exists_eq_succ_of_ne_zero hopening.ne'
  obtain ⟨k, hk⟩ := Nat.exists_eq_succ_of_ne_zero (lt_of_lt_of_le hopening f.closing_le).ne'
  rw [Fencing.around, strip_blanks f.lead_blank f.trail_blank]
  refine strip_eq_self (fun c hc => ?_) fun c hc => ?_
  · obtain rfl : f.marker = c := by simpa [hn, List.replicate_succ] using hc
    exact hmarker
  · rw [hk, List.replicate_succ', ← List.append_assoc, List.getLast?_concat] at hc
    exact Option.some.inj hc ▸ hmarker

lemma strip_append_backquotes (cs : List Char) {k : Nat} (hk : 0 < k) :
    strip (cs ++ List.replicate k '`') = lstrip isSpace cs ++ List.replicate k '`' := by
  obtain ⟨k, rfl⟩ := Nat.exists_eq_succ_of_ne_zero hk.ne'
  have hleft : lstrip isSpace (cs ++ List.replicate (k + 1) '`')
      = lstrip isSpace cs ++ List.replicate (k + 1) '`' := by
    rw [lstrip, List.dropWhile_append]
    split_ifs with h
    · rw [lstrip, List.isEmpty_iff.1 h, List.replicate_succ,
        List.dropWhile_cons_of_neg (by decide)]
      rfl
    · rfl
  rw [strip, Nat.succ_eq_add_one, hleft, List.replicate_succ', ← List.append_assoc]
  exact List.rdropWhile_concat_neg _ _ _ (by decide)

lemma isLineBreak_of_mem_backquotes {k : Nat} {c : Char} (hc : c ∈ List.replicate k '`') :
    isLineBreak c = false := by
  rw [List.eq_of_mem_replicate hc]
  decide

/-- Where the opening fence is on a line of its own, the text that is left is what comes after
that line, unless the closing fence stays. -/
lemma unfenced_of_break {raw head line rest : List Char} {b : Char} {k : Nat}
    (hraw : strip raw = head ++ (line ++ b :: rest) ++ List.replicate k '`')
    (hfence : codeFence <+: head) (hhead : ∀ c ∈ head, isLineBreak c = false)
    (hline : ∀ c ∈ line, isLineBreak c = false) (hb : isLineBreak b = true) (hk : 3 ≤ k) :
    ∃ before last, afterBreak b rest = before ++ last ∧ EndsLine before
      ∧ (∀ c ∈ last, isLineBreak c = false)
      ∧ (((∀ c ∈ last, isSpace c = true) ∧ k = 3 ∧ unfenced raw = unixBreaks (strip rest))
        ∨ ¬ ((∀ c ∈ last, isSpace c = true) ∧ k = 3) ∧ ∃ ys, unfenced raw = ys ++ ['`']) := by
  obtain ⟨before, last, hsplit, hends, hlast⟩ := exists_last_line (afterBreak b rest)
  refine ⟨before, last, hsplit, hends, hlast, ?_⟩
  have hk0 : 0 < k := lt_of_lt_of_le (by decide) hk
  have hafter : afterBreak b (rest ++ List.replicate k '`')
      = before ++ (last ++ List.replicate k '`') := by
    have hhead : (List.replicate k '`').head? ≠ some '\n' := by
      obtain ⟨k, rfl⟩ := Nat.exists_eq_succ_of_ne_zero hk0.ne'
      simp [List.replicate_succ]
    rw [← List.append_assoc, ← hsplit, afterBreak_append hhead]
  have hlines : splitlines (strip raw)
      = (head ++ line) :: (splitlines before ++ [last ++ List.replicate k '`']) := by
    rw [hraw, show head ++ (line ++ b :: rest) ++ List.replicate k '`'
        = (head ++ line) ++ b :: (rest ++ List.replicate k '`') by simp,
      splitlines_first (List.forall_mem_append.2 ⟨hhead, hline⟩) hb, hafter,
      splitlines_last hends (List.forall_mem_append.2 ⟨hlast, fun c =>
        isLineBreak_of_mem_backquotes⟩) (by simp [hk0.ne'])]
  have hunfenced : unfenced raw = strip (joinLines (dropClosing
      (splitlines before ++ [last ++ List.replicate k '`']))) := by
    have hprefix : ∀ more, codeFence.isPrefixOf (head ++ more) = true := fun more =>
      List.isPrefixOf_iff_prefix.2 (hfence.trans (List.prefix_append _ _))
    rw [unfenced, hlines, hraw, List.append_assoc, hprefix, dropOpening, hprefix]
    rfl
  have hstrip := strip_append_backquotes last hk0
  by_cases hclosed : (∀ c ∈ last, isSpace c = true) ∧ k = 3
  · refine Or.inl ⟨hclosed.1, hclosed.2, ?_⟩
    have hfence : strip (last ++ List.replicate k '`') = codeFence := by
      rw [hstrip, lstrip, List.dropWhile_eq_nil_iff.2 hclosed.1, hclosed.2]
      rfl
    have hbefore : strip before = strip rest := by
      rw [← strip_afterBreak b rest, hsplit]
      exact (@strip_blanks [] last (by simp) hclosed.1 before).symm
    rw [hunfenced, dropClosing, List.getLast?_concat]
    simp only [hfence, if_true, List.dropLast_concat]
    rw [strip_joinLines_splitlines, hbefore]
  · refine Or.inr ⟨hclosed, ?_⟩
    have hfence : strip (last ++ List.replicate k '`') ≠ codeFence := by
      intro heq
      have hlength := congrArg List.length (hstrip.symm.trans heq)
      simp only [List.length_append, List.length_replicate, codeFence, List.length_cons,
        List.length_nil] at hlength
      refine hclosed ⟨List.dropWhile_eq_nil_iff.1 (List.length_eq_zero_iff.1 ?_), ?_⟩
      · rw [lstrip] at hlength
        omega
      · omega
    have hlines' : splitlines before ++ [last ++ List.replicate k '`']
        = splitlines (before ++ (last ++ List.replicate k '`')) :=
      (splitlines_last hends (List.forall_mem_append.2 ⟨hlast, fun c =>
        isLineBreak_of_mem_backquotes⟩) (by simp [hk0.ne'])).symm
    rw [hunfenced, dropClosing, List.getLast?_concat]
    simp only [hfence, if_false]
    rw [hlines', strip_joinLines_splitlines, ← List.append_assoc, strip_append_backquotes _ hk0]
    obtain ⟨k, rfl⟩ := Nat.exists_eq_succ_of_ne_zero hk0.ne'
    rw [Nat.succ_eq_add_one, List.replicate_succ', ← List.append_assoc,
      unixBreaks_concat _ (by decide)]
    exact ⟨_, rfl⟩

/-- Without a line break nothing is left. -/
lemma unfenced_of_no_break {raw head text : List Char} {k : Nat}
    (hraw : strip raw = head ++ text ++ List.replicate k '`') (hfence : codeFence <+: head)
    (hhead : ∀ c ∈ head, isLineBreak c = false) (htext : ∀ c ∈ text, isLineBreak c = false) :
    unfenced raw = [] := by
  have hprefix : codeFence.isPrefixOf (strip raw) = true := by
    rw [hraw, List.append_assoc]
    exact List.isPrefixOf_iff_prefix.2 (hfence.trans (List.prefix_append _ _))
  have hline : ∀ c ∈ strip raw, isLineBreak c = false := by
    rw [hraw]
    exact List.forall_mem_append.2 ⟨List.forall_mem_append.2 ⟨hhead, htext⟩, fun c =>
      isLineBreak_of_mem_backquotes⟩
  have hne : strip raw ≠ [] := by
    intro hnil
    rw [hnil] at hprefix
    cases hprefix
  rw [unfenced, splitlines_line hline hne, hprefix, dropOpening, hprefix]
  rfl

/-! ## What the text is read as -/

variable {limits : JsonLimits}

lemma not_loads_of_not_readable {text : List Char} (h : ¬ Readable (jsonTokens .out text))
    (v : Json) : loads limits text ≠ .ok v := by
  intro hloads
  obtain ⟨σ, hσ, -⟩ := loads_eq_ok.1 hloads
  exact h (readable_of_foldlM hσ)

lemma not_loads_nil (v : Json) : loads limits [] ≠ .ok v := by
  intro h
  cases h

/-- A text that is accepted, with the white space around it taken off. -/
structure Core (text before body after : List Char) : Prop where
  split : text = before ++ (body ++ after)
  before : ∀ c ∈ before, isSpace c = true
  after : ∀ c ∈ after, isSpace c = true
  first : ∀ c, body.head? = some c → isSpace c = false
  last : ∀ c, body.getLast? = some c → isSpace c = false
  ne_nil : body ≠ []

lemma not_loads_blank {text : List Char} (hblank : ∀ c ∈ text, isSpace c = true) (v : Json) :
    loads limits text ≠ .ok v := by
  intro h
  obtain ⟨σ, hσ, hdone⟩ := loads_eq_ok.1 h
  rw [(jsonTokens_blank hblank (readable_of_foldlM hσ)).1] at hσ
  obtain rfl : ScanState.start = σ := Except.ok.inj hσ
  cases hdone

lemma rtakeWhile_append_of_mem {p : Char → Bool} (xs : List Char) {ys : List Char}
    (h : ∃ c ∈ ys, p c = false) : (xs ++ ys).rtakeWhile p = ys.rtakeWhile p := by
  obtain ⟨c, hc, hp⟩ := h
  rw [List.rtakeWhile, List.reverse_append, List.takeWhile_append, if_neg, List.rtakeWhile]
  intro hlength
  have hall := List.takeWhile_eq_self_iff.1
    ((List.takeWhile_prefix p).eq_of_length hlength) c (List.mem_reverse.2 hc)
  rw [hp] at hall
  cases hall

lemma core_strip {text : List Char} {v : Json} (h : loads limits text = .ok v) :
    Core text (text.takeWhile isSpace) (strip text) (text.rtakeWhile isSpace) := by
  obtain ⟨c, rest, hrest⟩ := List.exists_cons_of_ne_nil fun hnil =>
    not_loads_blank (List.dropWhile_eq_nil_iff.1 hnil) v h
  have hc : isSpace c = false := by
    have hhead := List.head?_dropWhile_not isSpace text
    rwa [hrest] at hhead
  have hafter : text.rtakeWhile isSpace = (text.dropWhile isSpace).rtakeWhile isSpace := by
    conv_lhs => rw [← List.takeWhile_append_dropWhile (p := isSpace) (l := text)]
    exact rtakeWhile_append_of_mem _ ⟨c, by rw [hrest]; exact List.mem_cons_self, hc⟩
  refine ⟨by rw [hafter, ← strip_split], fun d => List.mem_takeWhile_imp,
    fun d => List.mem_rtakeWhile_imp, fun d => head?_strip, fun d => getLast?_strip, ?_⟩
  intro hnil
  have hblank := List.rdropWhile_eq_nil_iff.1 (show (text.dropWhile isSpace).rdropWhile isSpace = []
    from hnil) c (by rw [hrest]; exact List.mem_cons_self)
  rw [hc] at hblank
  cases hblank

lemma Core.loads_eq {text before body after : List Char} (hcore : Core text before body after)
    {v : Json} (h : loads limits text = .ok v) : loads limits body = .ok v := by
  obtain ⟨σ, hσ, hdone⟩ := loads_eq_ok.1 h
  have hread := readable_of_foldlM hσ
  rw [hcore.split] at hσ hread
  rw [(jsonTokens_strip hcore.before hcore.after hread).1] at hσ
  exact loads_eq_ok.2 ⟨σ, hσ, hdone⟩

/-- The lines of an accepted text joined again are read as before iff they are narrow. -/
lemma loads_unixBreaks_iff {body : List Char} {v : Json} (h : loads limits body = .ok v) :
    loads limits (unixBreaks body) = .ok v ↔ ∀ c ∈ body, isWideBreak c = false := by
  obtain ⟨σ, hσ, hdone⟩ := loads_eq_ok.1 h
  rcases jsonTokens_unixBreaks (readable_of_foldlM hσ) with
    ⟨hnarrow, heq⟩ | ⟨⟨c, hc, hwide⟩, before, -, rest, -, heq⟩
  · refine iff_of_true (loads_eq_ok.2 ⟨σ, ?_, hdone⟩) hnarrow
    rw [heq]
    exact hσ
  · refine iff_of_false (not_loads_of_not_readable (fun hread => ?_) v) fun hnarrow => ?_
    · rw [heq] at hread
      exact hread .bad (by simp)
    · rw [hnarrow c hc] at hwide
      cases hwide

section Layout

variable {raw head gap body gap' : List Char} {k : Nat} {v : Json}

/-- The last line of a text before the closing fence is blank iff there is a line break after
the body. -/
lemma blank_last_iff {before last : List Char} {front : List Char}
    (hbody : ∀ c, body.getLast? = some c → isSpace c = false) (hne : body ≠ [])
    (hgap' : ∀ c ∈ gap', isSpace c = true) (hends : EndsLine before)
    (hlast : ∀ c ∈ last, isLineBreak c = false)
    (hsplit : front ++ (body ++ gap') = before ++ last) :
    (∀ c ∈ last, isSpace c = true) ↔ ∃ c ∈ gap', isLineBreak c = true := by
  obtain ⟨body, e, rfl⟩ := List.eq_nil_or_concat' body |>.resolve_left hne
  have he : isSpace e = false := hbody e List.getLast?_concat
  have hbreak : isLineBreak e = false := by
    by_contra h
    rw [isSpace_of_isLineBreak (by simpa using h)] at he
    cases he
  have hsplit' : (front ++ body ++ [e]) ++ gap' = before ++ last := by
    simpa using hsplit
  have hnot : before ≠ front ++ body ++ [e] := by
    rintro rfl
    rw [hends e List.getLast?_concat] at hbreak
    cases hbreak
  rcases List.append_eq_append_iff.1 hsplit' with ⟨more, hmore, hgap⟩ | ⟨more, hmore, hend⟩
  · have hmore' : more ≠ [] := by
      rintro rfl
      exact hnot (by simpa using hmore)
    obtain ⟨d, hd⟩ := Option.ne_none_iff_exists'.1 (mt List.getLast?_eq_none_iff.1 hmore')
    refine iff_of_true (fun c hc => hgap' c (hgap ▸ List.mem_append_right _ hc))
      ⟨d, hgap ▸ List.mem_append_left _ (List.mem_of_getLast? hd), hends d ?_⟩
    rw [hmore, List.getLast?_append, hd]
    rfl
  · have hmore' : more ≠ [] := by
      rintro rfl
      exact hnot (by simpa using hmore.symm)
    refine iff_of_false (fun hblank => ?_) ?_
    · obtain ⟨more, d, rfl⟩ := List.eq_nil_or_concat' more |>.resolve_left hmore'
      rw [← List.append_assoc] at hmore
      obtain rfl : e = d := by simpa using (List.append_inj' hmore rfl).2
      rw [hblank e (by rw [hend]; simp)] at he
      cases he
    · rintro ⟨c, hc, hbreak'⟩
      rw [hlast c (by rw [hend]; exact List.mem_append_right _ hc)] at hbreak'
      cases hbreak'

/-- With the opening fence on a line of its own. -/
lemma loads_of_opened (hraw : strip raw = head ++ (gap ++ (body ++ gap')) ++ List.replicate k '`')
    (hfence : codeFence <+: head) (hhead : ∀ c ∈ head, isLineBreak c = false) (hk : 3 ≤ k)
    (hgap : ∀ c ∈ gap, isSpace c = true) (hgap' : ∀ c ∈ gap', isSpace c = true)
    (hfirst : ∀ c, body.head? = some c → isSpace c = false)
    (hlast : ∀ c, body.getLast? = some c → isSpace c = false) (hne : body ≠ [])
    (h : loads limits body = .ok v) (hopened : ∃ c ∈ gap, isLineBreak c = true) :
    loads limits (unfenced raw) = .ok v
      ↔ k = 3 ∧ (∃ c ∈ gap', isLineBreak c = true) ∧ ∀ c ∈ body, isWideBreak c = false := by
  obtain ⟨line, b, rest, rfl, hline, hb⟩ := exists_first_break hopened
  have hrest : ∀ c ∈ rest, isSpace c = true := fun c hc => hgap c (by simp [hc])
  have hraw' : strip raw
      = head ++ (line ++ b :: (rest ++ (body ++ gap'))) ++ List.replicate k '`' := by
    simpa using hraw
  obtain ⟨before, last, hsplit, hends, hlast', hcases⟩ :=
    unfenced_of_break hraw' hfence hhead hline hb hk
  have hhead' : (body ++ gap').head? ≠ some '\n' := by
    obtain ⟨c, more, rfl⟩ := List.exists_cons_of_ne_nil hne
    intro hc
    obtain rfl : c = '\n' := Option.some.inj hc
    exact absurd (hfirst '\n' rfl) (by decide)
  rw [afterBreak_append hhead'] at hsplit
  have hblank := blank_last_iff hlast hne hgap' hends hlast' hsplit
  rcases hcases with ⟨hspace, rfl, hunfenced⟩ | ⟨hnot, ys, hunfenced⟩
  · have hbody : strip (rest ++ (body ++ gap')) = body := by
      rw [← List.append_assoc, strip_blanks hrest hgap', strip_eq_self hfirst hlast]
    rw [hunfenced, hbody, loads_unixBreaks_iff h]
    exact ⟨fun hnarrow => ⟨rfl, hblank.1 hspace, hnarrow⟩, fun h => h.2.2⟩
  · rw [hunfenced]
    refine iff_of_false (not_loads_of_not_readable (not_readable_backquote ys) v) ?_
    rintro ⟨hk3, hclosed, -⟩
    exact hnot ⟨hblank.2 hclosed, hk3⟩

/-- What is left of the body after its first line begins after some white space in it. -/
lemma rest_of_body {line rest : List Char} {b : Char} (hsplit : body ++ gap' = line ++ b :: rest)
    (hb : isLineBreak b = true) (hline : ∀ c ∈ line, isLineBreak c = false)
    (hgap' : ∀ c ∈ gap', isSpace c = true)
    (hfirst : ∀ c, body.head? = some c → isSpace c = false)
    (hlast : ∀ c, body.getLast? = some c → isSpace c = false) (hne : body ≠ [])
    (hs : strip rest ≠ []) :
    ∃ first front space, body = first :: front ++ space :: strip rest
      ∧ isSpace first = false ∧ isSpace space = true := by
  obtain ⟨first, more, rfl⟩ := List.exists_cons_of_ne_nil hne
  have hfirst' : isSpace first = false := hfirst first rfl
  obtain ⟨front, rfl⟩ : ∃ front, line = first :: front := by
    cases line with
    | nil =>
        obtain rfl : first = b := (List.cons.inj hsplit).1
        rw [isSpace_of_isLineBreak hb] at hfirst'
        cases hfirst'
    | cons c front => exact ⟨front, by rw [(List.cons.inj hsplit).1]⟩
  obtain ⟨blank, space, hblank⟩ := List.eq_nil_or_concat' (b :: rest.takeWhile isSpace) |>.resolve_left
    (by simp)
  have hspace : isSpace space = true := by
    have hmem : space ∈ b :: rest.takeWhile isSpace := by rw [hblank]; simp
    rcases List.mem_cons.1 hmem with rfl | hmem
    · exact isSpace_of_isLineBreak hb
    · exact List.mem_takeWhile_imp hmem
  refine ⟨first, front ++ blank, space, ?_, hfirst', hspace⟩
  have hright : first :: front ++ b :: rest
      = (first :: (front ++ blank) ++ space :: strip rest)
        ++ (rest.dropWhile isSpace).rtakeWhile isSpace := by
    conv_lhs => rw [strip_split rest]
    have hcons : b :: (rest.takeWhile isSpace ++ (strip rest
        ++ (rest.dropWhile isSpace).rtakeWhile isSpace))
        = (blank ++ [space]) ++ (strip rest ++ (rest.dropWhile isSpace).rtakeWhile isSpace) := by
      rw [← hblank, List.cons_append]
    rw [hcons]
    simp
  have hend : ∀ c, (first :: (front ++ blank) ++ space :: strip rest).getLast? = some c →
      isSpace c = false := by
    intro c hc
    obtain ⟨d, hd⟩ := Option.ne_none_iff_exists'.1 (mt List.getLast?_eq_none_iff.1 hs)
    rw [List.getLast?_append, List.getLast?_cons, hd] at hc
    obtain rfl : d = c := by simpa using hc
    exact getLast?_strip hd
  have hstrip := congrArg (rstrip isSpace) (hsplit.trans hright)
  rwa [rstrip_append_blank _ hgap', rstrip_append_blank _ fun c => List.mem_rtakeWhile_imp,
    rstrip_eq_self hlast, rstrip_eq_self hend] at hstrip

/-- Without a line break before the body its beginning is dropped with the opening fence. -/
lemma not_loads_of_not_opened
    (hraw : strip raw = head ++ (gap ++ (body ++ gap')) ++ List.replicate k '`')
    (hfence : codeFence <+: head) (hhead : ∀ c ∈ head, isLineBreak c = false) (hk : 3 ≤ k)
    (hgap' : ∀ c ∈ gap', isSpace c = true)
    (hfirst : ∀ c, body.head? = some c → isSpace c = false)
    (hlast : ∀ c, body.getLast? = some c → isSpace c = false) (hne : body ≠ [])
    (h : loads limits body = .ok v) (hopened : ∀ c ∈ gap, isLineBreak c = false) (w : Json) :
    loads limits (unfenced raw) ≠ .ok w := by
  by_cases hbreak : ∃ c ∈ body ++ gap', isLineBreak c = true
  · obtain ⟨line, b, rest, hsplit, hline, hb⟩ := exists_first_break hbreak
    have hraw' : strip raw = head ++ (gap ++ line ++ b :: rest) ++ List.replicate k '`' := by
      rw [hraw, hsplit, List.append_assoc gap]
    obtain ⟨before, last, -, -, -, ⟨-, -, hunfenced⟩ | ⟨-, ys, hunfenced⟩⟩ :=
      unfenced_of_break hraw' hfence hhead (List.forall_mem_append.2 ⟨hopened, hline⟩) hb hk
    · rw [hunfenced]
      by_cases hs : strip rest = []
      · rw [hs]
        exact not_loads_nil w
      obtain ⟨first, front, space, hbody, hfirst', hspace⟩ :=
        rest_of_body hsplit hb hline hgap' hfirst hlast hne hs
      rw [hbody] at h
      exact not_loads_of_rest hfirst' hspace h w
    · rw [hunfenced]
      exact not_loads_of_not_readable (not_readable_backquote ys) w
  · have htext : ∀ c ∈ gap ++ (body ++ gap'), isLineBreak c = false :=
      List.forall_mem_append.2 ⟨hopened, fun c hc => by
        by_contra h
        exact hbreak ⟨c, hc, by simpa using h⟩⟩
    rw [unfenced_of_no_break hraw hfence hhead htext]
    exact not_loads_nil w

end Layout

/-- An accepted text has a wide break iff its stripped text has one. -/
lemma narrow_strip_iff {text : List Char} {v : Json} (h : loads limits text = .ok v) :
    (∀ c ∈ strip text, isWideBreak c = false) ↔ ∀ c ∈ text, isWideBreak c = false := by
  have hcore := core_strip h
  obtain ⟨σ, hσ, -⟩ := loads_eq_ok.1 h
  have hread := readable_of_foldlM hσ
  rw [hcore.split] at hread
  obtain ⟨-, hbefore, hafter⟩ := jsonTokens_strip hcore.before hcore.after hread
  have hjson : ∀ {blank : List Char}, (∀ c ∈ blank, isJsonSpace c = true) →
      ∀ c ∈ blank, isWideBreak c = false := fun hblank c hc =>
    isWideBreak_eq_false_of_jsonSpace (hblank c hc)
  constructor
  · intro hnarrow
    rw [hcore.split]
    exact List.forall_mem_append.2 ⟨hjson hbefore, List.forall_mem_append.2 ⟨hnarrow, hjson hafter⟩⟩
  · intro hnarrow c hc
    refine hnarrow c ?_
    rw [hcore.split]
    exact List.mem_append_right _ (List.mem_append_left _ hc)

/-- Fences of tildes are not taken off. -/
lemma not_loads_of_tildes {raw rest : List Char} (hraw : strip raw = '~' :: rest) (v : Json) :
    loads limits (unfenced raw) ≠ .ok v := by
  have hunfenced : unfenced raw = '~' :: rest := by
    rw [unfenced, hraw]
    rfl
  rw [hunfenced]
  exact not_loads_of_not_readable
    (not_readable_of_wordChar (Or.inl rfl) (by decide) (by decide) rest) v

/-- An accepted text is unfenced to a text that is read as it is iff the fences are on lines of
their own. -/
theorem loads_unfenced_iff (f : Fencing) {text : List Char} {v : Json}
    (h : loads limits text = .ok v) :
    loads limits (unfenced (f.around text)) = .ok v ↔ f.OnOwnLines text := by
  have hcore := core_strip h
  have hraw : strip (f.around text) = (List.replicate f.opening f.marker ++ f.tag)
      ++ ((f.left ++ text.takeWhile isSpace)
        ++ (strip text ++ (text.rtakeWhile isSpace ++ f.right)))
      ++ List.replicate f.closing f.marker := by
    rw [strip_around, Fencing.inner]
    conv_lhs => rw [hcore.split]
    simp
  obtain ⟨n, hn⟩ := Nat.exists_eq_add_of_le' f.opening_le
  rcases f.marker_eq with hmarker | hmarker
  · rw [hmarker] at hraw
    have hfence : codeFence <+: List.replicate f.opening '`' ++ f.tag :=
      ⟨List.replicate n '`' ++ f.tag, by rw [hn]; simp [codeFence, List.replicate_succ]⟩
    have hhead : ∀ c ∈ List.replicate f.opening '`' ++ f.tag, isLineBreak c = false :=
      List.forall_mem_append.2 ⟨fun c => isLineBreak_of_mem_backquotes,
        fun c hc => (f.tag_line c hc).1⟩
    have hclosing := f.opening_le.trans f.closing_le
    have hgap' : ∀ c ∈ text.rtakeWhile isSpace ++ f.right, isSpace c = true :=
      List.forall_mem_append.2 ⟨hcore.after, f.right_blank⟩
    by_cases hopened : ∃ c ∈ f.left ++ text.takeWhile isSpace, isLineBreak c = true
    · rw [loads_of_opened hraw hfence hhead hclosing
        (List.forall_mem_append.2 ⟨f.left_blank, hcore.before⟩) hgap' hcore.first hcore.last
        hcore.ne_nil (hcore.loads_eq h) hopened, narrow_strip_iff h]
      exact ⟨fun ⟨hk, hclosed, hnarrow⟩ => ⟨hmarker, hk, hopened, hclosed, hnarrow⟩,
        fun hlines => ⟨hlines.closing, hlines.closed, hlines.narrow⟩⟩
    · refine iff_of_false (not_loads_of_not_opened hraw hfence hhead hclosing hgap' hcore.first
        hcore.last hcore.ne_nil (hcore.loads_eq h) (fun c hc => ?_) v)
        fun hlines => hopened hlines.opened
      by_contra hbreak
      exact hopened ⟨c, hc, by simpa using hbreak⟩
  · rw [hmarker, hn, List.replicate_succ] at hraw
    refine iff_of_false (not_loads_of_tildes hraw v) fun hlines => ?_
    exact absurd (hmarker.symm.trans hlines.marker) (by decide)

/-- An accepted text is not taken for a fenced one. -/
lemma loads_unfenced_self {text : List Char} {v : Json} (h : loads limits text = .ok v) :
    loads limits (unfenced text) = .ok v := by
  have hcore := core_strip h
  have hbody := hcore.loads_eq h
  have hprefix : codeFence.isPrefixOf (strip text) = false := by
    by_contra hfence
    obtain ⟨rest, hrest⟩ : codeFence <+: strip text := by simpa using hfence
    rw [← hrest] at hbody
    exact not_loads_of_not_readable
      (not_readable_of_wordChar (Or.inl rfl) (by decide) (by decide) _) v hbody
  rw [unfenced, hprefix]
  exact hbody

/-- A code fence around a JSON object is transparent exactly when both fences are on lines of
their own, the closing one is three back quotes, and the text has no line break in a string. -/
theorem transparent_iff {ρ : Type} (modelValidate : List (Str × Json) → Option ρ) (f : Fencing)
    {text : List Char} {pairs : List (Str × Json)} (h : loads limits text = .ok (.object pairs)) :
    Transparent limits modelValidate f text ↔ f.OnOwnLines text := by
  rw [← loads_unfenced_iff f h]
  constructor
  · intro htransparent
    rw [htransparent.value, h]
  · intro hvalue
    refine ⟨?_, by rw [hvalue, h]⟩
    rw [parseLlmResponse, parseLlmResponse, hvalue, loads_unfenced_self h]

/-! ## Two answers -/

/-- The usual fencing: `json` after the opening fence, and both on lines of their own. -/
def jsonFencing : Fencing where
  lead := []
  marker := '`'
  opening := 3
  tag := "json".toList
  left := ['\n']
  right := ['\n']
  closing := 3
  trail := ['\n']
  lead_blank := by decide
  marker_eq := Or.inl rfl
  opening_le := le_rfl
  tag_line := by decide
  left_blank := by decide
  right_blank := by decide
  closing_le := le_rfl
  trail_blank := by decide

/-- The limits Python sets by default. -/
def defaultLimits : JsonLimits := ⟨some 4300, some 1000⟩

/-- The fencing is transparent for an answer with back quotes in it. -/
theorem transparent_backquotes : Transparent defaultLimits some jsonFencing
    "\x7b\"reasoning\": \"the ``` fence\"\x7d".toList := by
  have hloads : loads defaultLimits "\x7b\"reasoning\": \"the ``` fence\"\x7d".toList
      = .ok (.object [(Str.of "reasoning", .str (Str.of "the ``` fence"))]) := by rfl
  refine (transparent_iff some jsonFencing hloads).2 ⟨rfl, rfl, ?_, ?_, ?_⟩ <;> decide

/-- A line separator in a string is enough for the answer to be lost. -/
theorem not_transparent_separator : ¬ Transparent defaultLimits some jsonFencing
    "\x7b\"reasoning\": \"one\u2028two\"\x7d".toList := by
  intro h
  have hfenced : loads defaultLimits
      (unfenced (jsonFencing.around "\x7b\"reasoning\": \"one\u2028two\"\x7d".toList))
      = .error .decode := by rfl
  cases hfenced.symm.trans h.value

end Sast
