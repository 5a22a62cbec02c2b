import Mathlib.Algebra.Ring.Nat
import SastEngine.Lib.Except
import SastEngine.Python.JoinedLines
import SastEngine.Python.Json

/-!
# Reading a piece of a JSON text

What `json.loads` makes of a piece of a text it accepts.  With its line breaks replaced the text
is read as before iff none of them stands in a string (`jsonTokens_unixBreaks`).  A piece that
begins inside a string is not readable (`not_readable_of_str`), and one that begins between two
tokens closes more containers than it opens (`not_loads_of_rest`).
-/

namespace Sast

/-! ## Readable tokens -/

/-- The characters of the words that have a value. -/
def plainChar (c : Char) : Bool := c.isAlphanum || c == '+' || c == '-' || c == '.'

/-- A token some state of the scanner accepts. -/
def JsonToken.Plain : JsonToken → Prop
  | .bad => False
  | .word cs => ∀ c ∈ cs, plainChar c = true
  | _ => True

/-- Tokens that may all be accepted. -/
def Readable (ts : List JsonToken) : Prop := ∀ t ∈ ts, t.Plain

lemma readable_append {ts us : List JsonToken} :
    Readable (ts ++ us) ↔ Readable ts ∧ Readable us := List.forall_mem_append

/-- The code points of these characters. -/
lemma plainChar_iff {c : Char} : plainChar c = true ↔
    (((65 ≤ c.toNat ∧ c.toNat ≤ 90 ∨ 97 ≤ c.toNat ∧ c.toNat ≤ 122)
      ∨ 48 ≤ c.toNat ∧ c.toNat ≤ 57) ∨ c = '+') ∨ c = '-' ∨ c = '.' := by
  have hdef : plainChar c = ((decide (65 ≤ c.val ∧ c.val ≤ 90)
      || (decide (97 ≤ c.val) && decide (c.val ≤ 122))
      || (decide (48 ≤ c.val) && decide (c.val ≤ 57))) || c == '+' || c == '-' || c == '.') := rfl
  rw [hdef]
  simp only [Bool.or_eq_true, Bool.and_eq_true, decide_eq_true_eq, beq_iff_eq,
    UInt32.le_iff_toNat_le, or_assoc]
  exact Iff.rfl

lemma not_isSpace_of_plainChar {c : Char} (h : plainChar c = true) : isSpace c = false := by
  rw [Bool.eq_false_iff]
  intro hspace
  simp only [isSpace, Bool.or_eq_true, Bool.and_eq_true, decide_eq_true_eq, beq_iff_eq] at hspace
  rcases plainChar_iff.1 h with (hcode | rfl) | rfl | rfl
  · omega
  all_goals simp at hspace

lemma plainChar_of_isDigit {c : Char} (h : c.isDigit = true) : plainChar c = true := by
  simp [plainChar, Char.isAlphanum, h]

lemma plainChar_of_hexDigit {c : Char} (h : hexDigit c ≠ none) : plainChar c = true := by
  simp only [hexDigit, Char.le_def, UInt32.le_iff_toNat_le] at h
  refine plainChar_iff.2 (Or.inl (Or.inl ?_))
  split_ifs at h with hdigit hlower hupper
  · exact Or.inr hdigit
  · exact Or.inl (Or.inr ⟨hlower.1, hlower.2.trans (by decide)⟩)
  · exact Or.inl (Or.inl ⟨hupper.1, hupper.2.trans (by decide)⟩)
  · exact absurd rfl h

/-! ### Words -/

lemma mem_digitRun {cs : List Char} {c : Char} (h : c ∈ cs) :
    plainChar c = true ∨ c ∈ (digitRun cs).2 := by
  have hsplit : cs.takeWhile Char.isDigit ++ cs.dropWhile Char.isDigit = cs :=
    List.takeWhile_append_dropWhile
  rw [← hsplit, List.mem_append] at h
  exact h.imp (fun hc => plainChar_of_isDigit (List.mem_takeWhile_imp hc)) id

lemma mem_wholePart {cs whole rest : List Char} (h : wholePart cs = some (whole, rest)) {c : Char}
    (hc : c ∈ cs) : plainChar c = true ∨ c ∈ rest := by
  unfold wholePart at h
  split at h
  case h_1 cs =>
    obtain ⟨-, rfl⟩ := Prod.mk.inj (Option.some.inj h)
    rcases List.mem_cons.1 hc with rfl | hc
    · exact Or.inl (by decide)
    · exact Or.inr hc
  case h_2 =>
    split_ifs at h
    rw [← (Prod.mk.inj (Option.some.inj h)).2]
    exact mem_digitRun hc

lemma mem_fractionPart {cs : List Char} {c : Char} (hc : c ∈ cs) :
    plainChar c = true ∨ c ∈ (fractionPart cs).2 := by
  unfold fractionPart
  split
  case h_1 cs =>
    split_ifs
    · exact Or.inr hc
    · rcases List.mem_cons.1 hc with rfl | hc
      · exact Or.inl (by decide)
      · exact mem_digitRun hc
  case h_2 => exact Or.inr hc

lemma mem_exponentSign {cs : List Char} {c : Char} (hc : c ∈ cs) :
    plainChar c = true ∨ c ∈ (exponentSign cs).2 := by
  unfold exponentSign
  split
  case h_3 => exact Or.inr hc
  all_goals
    rcases List.mem_cons.1 hc with rfl | hc
    · exact Or.inl (by decide)
    · exact Or.inr hc

lemma mem_exponentPart {cs : List Char} {c : Char} (hc : c ∈ cs) :
    plainChar c = true ∨ c ∈ (exponentPart cs).2 := by
  cases cs with
  | nil => cases hc
  | cons d cs =>
      simp only [exponentPart]
      split_ifs with h
      · rcases List.mem_cons.1 hc with rfl | hc
        · rcases h.1 with rfl | rfl <;> exact Or.inl (by decide)
        · exact (mem_exponentSign hc).elim Or.inl mem_digitRun
      · exact Or.inr hc

lemma mem_numeralSign {cs : List Char} {c : Char} (hc : c ∈ cs) :
    plainChar c = true ∨ c ∈ (numeralSign cs).2 := by
  unfold numeralSign
  split
  case h_1 =>
    rcases List.mem_cons.1 hc with rfl | hc
    · exact Or.inl (by decide)
    · exact Or.inr hc
  case h_2 => exact Or.inr hc

lemma mem_scanNumeral {cs rest : List Char} {n : Numeral} (h : scanNumeral cs = some (n, rest))
    {c : Char} (hc : c ∈ cs) : plainChar c = true ∨ c ∈ rest := by
  unfold scanNumeral at h
  split at h
  case h_1 => cases h
  case h_2 whole afterWhole hwhole =>
    obtain ⟨-, rfl⟩ := Prod.mk.inj (Option.some.inj h)
    rcases mem_numeralSign hc with hplain | hc
    · exact Or.inl hplain
    rcases mem_wholePart hwhole hc with hplain | hc
    · exact Or.inl hplain
    exact (mem_fractionPart hc).elim Or.inl mem_exponentPart

lemma plain_of_constants : ∀ constant ∈ constants, ∀ c ∈ constant.1.toList, plainChar c = true := by
  decide

/-- A word with a value is plain. -/
lemma plain_of_wordValue {limits : JsonLimits} {cs : List Char} {value : Json}
    (h : wordValue limits cs = .ok value) : ∀ c ∈ cs, plainChar c = true := by
  obtain ⟨⟨found, rest⟩, hscan, hrest⟩ := bind_eq_ok.1 h
  obtain rfl : rest = [] := by
    by_contra hne
    simp [hne] at hrest
  intro c hc
  unfold scanOnce at hscan
  split at hscan
  case h_1 name value hfind =>
    obtain ⟨-, hdrop⟩ := Prod.mk.inj (Except.ok.inj hscan)
    have hprefix := List.find?_some hfind
    obtain ⟨more, rfl⟩ := List.isPrefixOf_iff_prefix.1 hprefix
    obtain rfl : more = [] := by simpa using hdrop
    exact plain_of_constants _ (List.mem_of_find?_eq_some hfind) c (by simpa using hc)
  case h_2 =>
    split at hscan
    case h_1 => cases hscan
    case h_2 n rest' hnumeral =>
      obtain ⟨value, -, heq⟩ := bind_eq_ok.1 hscan
      obtain ⟨-, rfl⟩ := Prod.mk.inj (Except.ok.inj heq)
      exact (mem_scanNumeral hnumeral hc).resolve_right (by simp)

/-! ### Containers -/

/-- What is fed without an error is plain. -/
lemma plain_of_feed {limits : JsonLimits} {σ τ : ScanState} {t : JsonToken}
    (h : feed limits σ t = .ok τ) : t.Plain := by
  have hvalue : ∀ {stack : List Container}, beginValue limits stack t = .ok τ → t.Plain := by
    intro stack h
    cases t with
    | word cs =>
        obtain ⟨value, hword, -⟩ := bind_eq_ok.1 h
        exact plain_of_wordValue hword
    | bad => cases h
    | openObject | closeObject | openArray | closeArray | colon | comma | str => trivial
  unfold feed at h
  split at h
  case h_1 => exact hvalue h
  case h_3 => exact hvalue h
  case h_12 => cases h
  all_goals trivial

lemma readable_of_foldlM {limits : JsonLimits} {ts : List JsonToken} {σ τ : ScanState}
    (h : ts.foldlM (feed limits) σ = .ok τ) : Readable ts := by
  induction ts generalizing σ with
  | nil => exact List.forall_mem_nil _
  | cons t ts ih =>
      rw [List.foldlM_cons] at h
      obtain ⟨ρ, hfeed, hrest⟩ := bind_eq_ok.1 h
      exact List.forall_mem_cons.2 ⟨plain_of_feed hfeed, ih hrest⟩

lemma loads_eq_ok {limits : JsonLimits} {text : List Char} {value : Json} :
    loads limits text = .ok value
      ↔ ∃ σ, (jsonTokens .out text).foldlM (feed limits) .start = .ok σ ∧ σ.mode = .done value := by
  rw [loads, bind_eq_ok]
  refine exists_congr fun σ => and_congr_right fun _ => ?_
  split
  case h_1 found hmode => simp [hmode]
  case h_2 hmode => simpa using hmode value

/-! ## Pieces of a text -/

/-- Where the scanner stands after a piece, and the tokens it has completed there. -/
def lexRun : Lex → List Char → Lex × List JsonToken
  | lex, [] => (lex, [])
  | lex, c :: cs =>
      let rest := lexRun (lexStep lex c).1 cs
      (rest.1, (lexStep lex c).2 ++ rest.2)

lemma jsonTokens_cons (q : Lex) (c : Char) (cs : List Char) :
    jsonTokens q (c :: cs) = (lexStep q c).2 ++ jsonTokens (lexStep q c).1 cs := rfl

lemma jsonTokens_append (q : Lex) (xs ys : List Char) :
    jsonTokens q (xs ++ ys) = (lexRun q xs).2 ++ jsonTokens (lexRun q xs).1 ys := by
  induction xs generalizing q with
  | nil => rfl
  | cons c xs ih => simp [jsonTokens_cons, lexRun, ih]

lemma lexRun_append (q : Lex) (xs ys : List Char) :
    lexRun q (xs ++ ys) = ((lexRun (lexRun q xs).1 ys).1,
      (lexRun q xs).2 ++ (lexRun (lexRun q xs).1 ys).2) := by
  induction xs generalizing q with
  | nil => rfl
  | cons c xs ih => simp [lexRun, ih]

/-- The scanner stands in no string. -/
def Outside (q : Lex) : Prop := q = .out ∨ ∃ cs, q = .word cs

lemma isWordChar_iff {c : Char} :
    isWordChar c = true ↔ isJsonSpace c = false ∧ c ≠ '"' ∧ punctuation c = none := by
  simp [isWordChar, and_assoc]

/-- What a character does outside of strings: it extends a word, or ends one. -/
lemma lexStep_outside {q : Lex} (hq : Outside q) (c : Char) :
    (isWordChar c = true ∧ ∃ cs, lexStep q c = (.word (cs ++ [c]), []))
      ∨ isWordChar c = false ∧ lexStep q c = ((lexOut c).1, lexEnd q ++ (lexOut c).2) := by
  cases hc : isWordChar c with
  | true =>
      obtain ⟨hspace, hquote, hpunctuation⟩ := isWordChar_iff.1 hc
      refine Or.inl ⟨rfl, ?_⟩
      rcases hq with rfl | ⟨cs, rfl⟩
      · exact ⟨[], by simp [lexStep, lexOut, hspace, hquote, hpunctuation]⟩
      · exact ⟨cs, by simp [lexStep, hc]⟩
  | false =>
      refine Or.inr ⟨rfl, ?_⟩
      rcases hq with rfl | ⟨cs, rfl⟩
      · rfl
      · simp [lexStep, hc, lexEnd]

/-- A word that has begun is a token with what is added to it. -/
lemma exists_word (w cs : List Char) : ∃ more, .word (w ++ more) ∈ jsonTokens (.word w) cs := by
  induction cs generalizing w with
  | nil => exact ⟨[], by simp [jsonTokens, lexEnd]⟩
  | cons c cs ih =>
      rw [jsonTokens_cons]
      rcases lexStep_outside (Or.inr ⟨w, rfl⟩) c with ⟨hc, -⟩ | ⟨hc, hstep⟩
      · obtain ⟨more, hmore⟩ := ih (w ++ [c])
        refine ⟨c :: more, ?_⟩
        simpa [lexStep, hc] using hmore
      · exact ⟨[], by simp [hstep, lexEnd]⟩

/-- A character of a word that no value has makes the text unreadable. -/
lemma not_readable_of_wordChar {q : Lex} (hq : Outside q) {c : Char} (hc : isWordChar c = true)
    (hplain : plainChar c = false) (cs : List Char) : ¬ Readable (jsonTokens q (c :: cs)) := by
  intro h
  rcases lexStep_outside hq c with ⟨-, w, hstep⟩ | ⟨hc', -⟩
  · obtain ⟨more, hmore⟩ := exists_word (w ++ [c]) cs
    rw [jsonTokens_cons, hstep] at h
    have hword : (JsonToken.word (w ++ [c] ++ more)).Plain := h _ (by simpa using hmore)
    have hc' := hword c (by simp)
    rw [hplain] at hc'
    cases hc'
  · rw [hc] at hc'
    cases hc'

/-- Where a `bad` token is completed the text is unreadable. -/
lemma not_readable_of_bad {q : Lex} {c : Char} (h : .bad ∈ (lexStep q c).2) (cs : List Char) :
    ¬ Readable (jsonTokens q (c :: cs)) := by
  intro hreadable
  exact hreadable .bad (List.mem_append_left _ h)

lemma isWordChar_of_isSpace {c : Char} (h : isSpace c = true) (hjson : isJsonSpace c = false) :
    isWordChar c = true := by
  refine isWordChar_iff.2 ⟨hjson, ?_, ?_⟩
  · rintro rfl
    cases h
  · unfold punctuation
    split <;> first | rfl | cases h

lemma lexStep_jsonSpace {q : Lex} (hq : Outside q) {c : Char} (hc : isJsonSpace c = true) :
    lexStep q c = (.out, lexEnd q) := by
  rcases lexStep_outside hq c with ⟨hword, -⟩ | ⟨-, hstep⟩
  · simp [isWordChar, hc] at hword
  · simpa [lexOut, hc] using hstep

/-- White space is read between two tokens, or in a string. -/
lemma lexStep_space {q : Lex} {c : Char} {cs : List Char} (hc : isSpace c = true)
    (h : Readable (jsonTokens q (c :: cs))) :
    (Outside q ∧ isJsonSpace c = true ∧ lexStep q c = (.out, lexEnd q))
      ∨ ∃ s, q = .str s ∧ 0x20 ≤ c.toNat ∧ lexStep q c = (.str (s ++ [c.toNat]), []) := by
  have hplain : plainChar c = false := by
    by_contra hplain
    rw [not_isSpace_of_plainChar (by simpa using hplain)] at hc
    cases hc
  have houtside : Outside q → isJsonSpace c = true ∧ lexStep q c = (.out, lexEnd q) := by
    intro hq
    have hjson : isJsonSpace c = true := by
      by_contra hjson
      exact not_readable_of_wordChar hq (isWordChar_of_isSpace hc (by simpa using hjson)) hplain
        cs h
    exact ⟨hjson, lexStep_jsonSpace hq hjson⟩
  cases q with
  | out => exact Or.inl ⟨Or.inl rfl, houtside (Or.inl rfl)⟩
  | word w => exact Or.inl ⟨Or.inr ⟨w, rfl⟩, houtside (Or.inr ⟨w, rfl⟩)⟩
  | str s =>
      have hquote : c ≠ '"' := by
        rintro rfl
        cases hc
      have hslash : c ≠ '\\' := by
        rintro rfl
        cases hc
      by_cases hlow : c.toNat < 0x20
      · refine absurd h (not_readable_of_bad ?_ cs)
        simp [lexStep, hquote, hslash, hlow]
      · exact Or.inr ⟨s, rfl, by omega, by simp [lexStep, hquote, hslash, hlow]⟩
  | escape s =>
      have hback : backslash c = none := by
        unfold backslash
        split <;> first | rfl | cases hc
      have hu : c ≠ 'u' := by
        rintro rfl
        cases hc
      exact absurd h (not_readable_of_bad (by simp [lexStep, hback, hu]) cs)
  | unicode s digits =>
      have hhex : hexDigit c = none := by
        by_contra hhex
        rw [plainChar_of_hexDigit hhex] at hplain
        cases hplain
      exact absurd h (not_readable_of_bad (by simp [lexStep, hhex]) cs)

/-! ## Replacing the line breaks -/

/-- Tokens with a replaced line break that was in a string: one of them is `bad`, and those
before it are as they were. -/
def Spoilt (ts us : List JsonToken) : Prop :=
  ∃ before rest rest', ts = before ++ rest ∧ us = before ++ .bad :: rest'

lemma Spoilt.append {ts us : List JsonToken} (h : Spoilt ts us) (more : List JsonToken) :
    Spoilt (more ++ ts) (more ++ us) := by
  obtain ⟨before, rest, rest', rfl, rfl⟩ := h
  exact ⟨more ++ before, rest, rest', by simp, by simp⟩

lemma isWideBreak_eq_false_of_jsonSpace {c : Char} (h : isJsonSpace c = true) :
    isWideBreak c = false := by
  simp only [isJsonSpace, Bool.or_eq_true, beq_iff_eq] at h
  rcases h with ((rfl | rfl) | rfl) | rfl <;> decide

/-- With its line breaks replaced a readable text has the same tokens, or it has a break in a
string, which no string may have then. -/
theorem jsonTokens_unixBreaks {q : Lex} {cs : List Char} (h : Readable (jsonTokens q cs)) :
    ((∀ c ∈ cs, isWideBreak c = false) ∧ jsonTokens q (unixBreaks cs) = jsonTokens q cs)
      ∨ (∃ c ∈ cs, isWideBreak c = true)
        ∧ Spoilt (jsonTokens q cs) (jsonTokens q (unixBreaks cs)) := by
  induction cs using unixBreaks.induct generalizing q with
  | case1 => exact Or.inl ⟨by simp, rfl⟩
  | case2 cs ih =>
      rcases lexStep_space (by decide) h with ⟨hq, -, hstep⟩ | ⟨s, -, hlow, -⟩
      · have hread : jsonTokens q ('\r' :: '\n' :: cs) = lexEnd q ++ jsonTokens .out cs := by
          rw [jsonTokens_cons, hstep]
          rfl
        have hunix : jsonTokens q (unixBreaks ('\r' :: '\n' :: cs))
            = lexEnd q ++ jsonTokens .out (unixBreaks cs) := by
          rw [unixBreaks, jsonTokens_cons, lexStep_jsonSpace hq (by decide)]
        rw [hread] at h
        rw [hread, hunix]
        rcases ih (readable_append.1 h).2 with ⟨hwide, heq⟩ | ⟨⟨c, hc, hwide⟩, hspoilt⟩
        · refine Or.inl ⟨?_, by rw [heq]⟩
          exact List.forall_mem_cons.2 ⟨by decide, List.forall_mem_cons.2 ⟨by decide, hwide⟩⟩
        · exact Or.inr ⟨⟨c, List.mem_cons_of_mem _ (List.mem_cons_of_mem _ hc), hwide⟩,
            hspoilt.append _⟩
      · exact absurd hlow (by decide)
  | case3 c cs hcr ih =>
      rw [unixBreaks.eq_3 c cs hcr]
      have hstep : ∀ d, lexStep q d = lexStep q c → isWideBreak c = false →
          ((∀ c' ∈ c :: cs, isWideBreak c' = false)
              ∧ jsonTokens q (d :: unixBreaks cs) = jsonTokens q (c :: cs))
            ∨ (∃ c' ∈ c :: cs, isWideBreak c' = true)
              ∧ Spoilt (jsonTokens q (c :: cs)) (jsonTokens q (d :: unixBreaks cs)) := by
        intro d hd hc
        rw [jsonTokens_cons, jsonTokens_cons, hd]
        rw [jsonTokens_cons] at h
        rcases ih (readable_append.1 h).2 with ⟨hwide, heq⟩ | ⟨⟨c', hc', hwide⟩, hspoilt⟩
        · exact Or.inl ⟨List.forall_mem_cons.2 ⟨hc, hwide⟩, by rw [heq]⟩
        · exact Or.inr ⟨⟨c', List.mem_cons_of_mem _ hc', hwide⟩, hspoilt.append _⟩
      cases hbreak : isLineBreak c with
      | false => exact hstep c rfl (by simp [isWideBreak, hbreak])
      | true =>
          rcases lexStep_space (isSpace_of_isLineBreak hbreak) h with
            ⟨hq, hjson, hc⟩ | ⟨s, rfl, hlow, -⟩
          · refine hstep '\n' ?_ (isWideBreak_eq_false_of_jsonSpace hjson)
            rw [lexStep_jsonSpace hq (by decide), hc]
          · refine Or.inr ⟨⟨c, List.mem_cons_self, ?_⟩, [], _, jsonTokens (.str s) (unixBreaks cs),
              rfl, rfl⟩
            have hnewline : isNewline c = false := by
              simp only [isNewline, Bool.or_eq_false_iff, beq_eq_false_iff_ne]
              exact ⟨by rintro rfl; exact absurd hlow (by decide),
                by rintro rfl; exact absurd hlow (by decide)⟩
            simp [isWideBreak, hbreak, hnewline]

/-! ## A text that ends in a back quote -/

/-- Nothing that ends in a back quote is readable. -/
theorem not_readable_backquote (cs : List Char) :
    ¬ Readable (jsonTokens .out (cs ++ ['`'])) := by
  rw [jsonTokens_append, readable_append]
  rintro ⟨-, h⟩
  generalize (lexRun .out cs).1 = q at h
  cases q with
  | out => exact not_readable_of_wordChar (Or.inl rfl) (by decide) (by decide) [] h
  | word w => exact not_readable_of_wordChar (Or.inr ⟨w, rfl⟩) (by decide) (by decide) [] h
  | str s => exact h .bad (by simp [jsonTokens, lexStep, lexEnd])
  | escape s => exact h .bad (by simp [jsonTokens_cons, lexStep, backslash])
  | unicode s digits => exact h .bad (by simp [jsonTokens_cons, lexStep, hexDigit])

/-! ## A piece that begins in a string -/

lemma not_outside_str (s : Str) : ¬ Outside (.str s) := by
  rintro (h | ⟨cs, h⟩) <;> cases h

lemma outside_lexStep {q : Lex} (hq : Outside q) {c : Char} (hc : c ≠ '"') :
    Outside (lexStep q c).1 := by
  rcases lexStep_outside hq c with ⟨-, cs, hstep⟩ | ⟨hword, hstep⟩
  · exact Or.inr ⟨cs ++ [c], by rw [hstep]⟩
  · rw [hstep, lexOut]
    split_ifs
    · exact Or.inl rfl
    · split
      · exact Or.inl rfl
      · exact Or.inr ⟨[c], rfl⟩

lemma lexStep_quote {q : Lex} (hq : Outside q) : (lexStep q '"').1 = .str [] := by
  rcases lexStep_outside hq '"' with ⟨hword, -⟩ | ⟨-, hstep⟩
  · exact absurd hword (by decide)
  · rw [hstep]
    rfl

/-- What a character does in a string of a readable text. -/
lemma lexStep_str {s : Str} {c : Char} {cs : List Char}
    (h : Readable (jsonTokens (.str s) (c :: cs))) :
    c = '"' ∨ c = '\\' ∨ (c ≠ '"' ∧ c ≠ '\\'
      ∧ lexStep (.str s) c = (.str (s ++ [c.toNat]), [])) := by
  by_cases hquote : c = '"'
  · exact Or.inl hquote
  by_cases hslash : c = '\\'
  · exact Or.inr (Or.inl hslash)
  refine Or.inr (Or.inr ⟨hquote, hslash, ?_⟩)
  by_cases hlow : c.toNat < 0x20
  · exact absurd h (not_readable_of_bad (by simp [lexStep, hquote, hslash, hlow]) cs)
  · simp [lexStep, hquote, hslash, hlow]

/-- Of two readings of a text, one that begins in a string and one that does not, at most one is
readable: what is a string for the one is none for the other, up to the end. -/
theorem not_readable_of_str (cs : List Char) :
    (∀ s r, Readable (jsonTokens (.str s) cs) → Outside r →
        ¬ Readable (jsonTokens r (unixBreaks cs)))
      ∧ ∀ q z, Outside q → Readable (jsonTokens q cs) →
        ¬ Readable (jsonTokens (.str z) (unixBreaks cs)) := by
  have hnewline : ∀ z rest, ¬ Readable (jsonTokens (.str z) ('\n' :: rest)) := fun z rest h =>
    h .bad (by simp [jsonTokens_cons, lexStep])
  induction cs using unixBreaks.induct with
  | case1 =>
      refine ⟨fun s r h => absurd (h .bad (by simp [jsonTokens, lexEnd])) id, fun q z _ _ h => ?_⟩
      exact h .bad (by simp [unixBreaks, jsonTokens, lexEnd])
  | case2 cs ih =>
      rw [unixBreaks]
      refine ⟨fun s r h => ?_, fun q z _ _ => hnewline z _⟩
      rcases lexStep_space (by decide) h with ⟨hq, -⟩ | ⟨s, -, hlow, -⟩
      · exact absurd hq (not_outside_str s)
      · exact absurd hlow (by decide)
  | case3 c cs hcr ih =>
      rw [unixBreaks.eq_3 c cs hcr]
      constructor
      · intro s r h hr hread
        cases hbreak : isLineBreak c with
        | true =>
            rw [hbreak, if_pos rfl, jsonTokens_cons, lexStep_jsonSpace hr (by decide)] at hread
            rcases lexStep_space (isSpace_of_isLineBreak hbreak) h with ⟨hq, -⟩ | ⟨s', -, -, hstep⟩
            · exact not_outside_str s hq
            · rw [jsonTokens_cons, hstep] at h
              exact ih.1 _ _ h (Or.inl rfl) (readable_append.1 hread).2
        | false =>
            rw [hbreak, if_neg (by simp)] at hread
            rcases lexStep_str h with rfl | rfl | ⟨hquote, -, hstep⟩
            · rw [jsonTokens_cons, lexStep_quote hr] at hread
              exact ih.2 .out [] (Or.inl rfl) (readable_append.1 h).2 (readable_append.1 hread).2
            · exact not_readable_of_wordChar hr (by decide) (by decide) _ hread
            · rw [jsonTokens_cons, hstep] at h
              rw [jsonTokens_cons] at hread
              exact ih.1 _ _ h (outside_lexStep hr hquote) (readable_append.1 hread).2
      · intro q z hq h hread
        cases hbreak : isLineBreak c with
        | true =>
            rw [hbreak, if_pos rfl] at hread
            exact hnewline z _ hread
        | false =>
            rw [hbreak, if_neg (by simp)] at hread
            rcases lexStep_str hread with rfl | rfl | ⟨hquote, -, hstep⟩
            · rw [jsonTokens_cons, lexStep_quote hq] at h
              exact ih.1 [] .out (readable_append.1 h).2 (Or.inl rfl) (readable_append.1 hread).2
            · exact not_readable_of_wordChar hq (by decide) (by decide) _ h
            · rw [jsonTokens_cons, hstep] at hread
              rw [jsonTokens_cons] at h
              exact ih.2 _ _ (outside_lexStep hq hquote) (readable_append.1 h).2 hread

/-! ## A piece that begins between two tokens -/

/-- The containers a state is inside. -/
def ScanState.height (σ : ScanState) : Nat :=
  σ.stack.length + match σ.mode with
    | .value | .done _ => 0
    | _ => 1

/-- The containers a token opens. -/
def opens : JsonToken → Nat
  | .openObject | .openArray => 1
  | _ => 0

/-- The containers a token closes. -/
def closes : JsonToken → Nat
  | .closeObject | .closeArray => 1
  | _ => 0

/-- What holds of a state once a token is read: a value is expected inside a container only, and
a text is finished outside of all of them. -/
structure ScanState.Begun (σ : ScanState) : Prop where
  value : σ.mode = .value → σ.stack ≠ []
  done : ∀ v, σ.mode = .done v → σ.stack = []

lemma put_spec (v : Json) (stack : List Container) :
    (ScanState.put v stack).height = stack.length ∧ (ScanState.put v stack).Begun := by
  cases stack with
  | nil => exact ⟨rfl, by simp [ScanState.put], by simp [ScanState.put]⟩
  | cons container stack =>
      cases container <;>
        exact ⟨rfl, by simp [ScanState.put], by simp [ScanState.put]⟩

lemma beginValue_spec {limits : JsonLimits} {stack : List Container} {t : JsonToken}
    {τ : ScanState} (h : beginValue limits stack t = .ok τ) :
    τ.height = stack.length + opens t ∧ closes t = 0 ∧ τ.Begun := by
  unfold beginValue at h
  split at h
  case h_1 =>
    split_ifs at h
    obtain rfl := Except.ok.inj h
    exact ⟨rfl, rfl, by simp, by simp⟩
  case h_2 =>
    split_ifs at h
    obtain rfl := Except.ok.inj h
    exact ⟨rfl, rfl, by simp, by simp⟩
  case h_3 s =>
    obtain rfl := Except.ok.inj h
    exact ⟨(put_spec _ _).1, rfl, (put_spec _ _).2⟩
  case h_4 cs =>
    obtain ⟨v, -, heq⟩ := bind_eq_ok.1 h
    obtain rfl := Except.ok.inj heq
    exact ⟨(put_spec _ _).1, rfl, (put_spec _ _).2⟩
  case h_5 => cases h

/-- One token moves the height by what it opens and closes. -/
lemma feed_spec {limits : JsonLimits} {σ τ : ScanState} {t : JsonToken}
    (h : feed limits σ t = .ok τ) :
    τ.height + closes t = σ.height + opens t ∧ τ.Begun ∧ ∀ v, σ.mode ≠ .done v := by
  obtain ⟨stack, mode⟩ := σ
  unfold feed at h
  split at h
  case h_1 hmode =>
    obtain ⟨hheight, hcloses, hbegun⟩ := beginValue_spec h
    cases hmode
    exact ⟨by rw [hheight, hcloses]; rfl, hbegun, by simp⟩
  case h_3 hmode _ =>
    obtain ⟨hheight, hcloses, hbegun⟩ := beginValue_spec h
    cases hmode
    exact ⟨by rw [hheight, hcloses]; rfl, hbegun, by simp⟩
  -- a container is complete
  case h_2 | h_5 | h_6 | h_11 =>
    rename_i hmode
    cases hmode
    obtain rfl := Except.ok.inj h
    exact ⟨by rw [(put_spec _ _).1]; rfl, (put_spec _ _).2, by simp⟩
  case h_12 => cases h
  all_goals
    rename_i hmode
    cases hmode
    obtain rfl := Except.ok.inj h
    exact ⟨rfl, ⟨by simp, by simp⟩, by simp⟩

/-- A run moves the height by what its tokens open and close. -/
lemma height_foldlM {limits : JsonLimits} {ts : List JsonToken} {σ τ : ScanState}
    (h : ts.foldlM (feed limits) σ = .ok τ) :
    τ.height + (ts.map closes).sum = σ.height + (ts.map opens).sum
      ∧ (ts ≠ [] → τ.Begun ∧ ∀ v, σ.mode ≠ .done v) := by
  induction ts generalizing σ with
  | nil =>
      obtain rfl : σ = τ := Except.ok.inj h
      exact ⟨rfl, by simp⟩
  | cons t ts ih =>
      rw [List.foldlM_cons] at h
      obtain ⟨ρ, hfeed, hrest⟩ := bind_eq_ok.1 h
      obtain ⟨hone, hbegun, hdone⟩ := feed_spec hfeed
      obtain ⟨hsum, hlast⟩ := ih hrest
      simp only [List.map_cons, List.sum_cons]
      refine ⟨by omega, fun _ => ⟨?_, hdone⟩⟩
      by_cases hts : ts = []
      · subst hts
        obtain rfl : ρ = τ := Except.ok.inj hrest
        exact hbegun
      · exact (hlast hts).1

lemma ScanState.Begun.height_pos {σ : ScanState} (h : σ.Begun) (hdone : ∀ v, σ.mode ≠ .done v) :
    0 < σ.height := by
  rw [ScanState.height]
  cases hmode : σ.mode with
  | value => simpa using List.length_pos_iff.2 (h.value hmode)
  | done v => exact absurd hmode (hdone v)
  | firstItem | afterItem | firstKey | nextKey | afterKey | afterMember => simp

/-- No run from the start reads a text to its end with the tokens that end it inside a container:
they close more than they open. -/
theorem not_foldlM_of_rest {limits : JsonLimits} {ts us : List JsonToken} {τ σ : ScanState}
    {v w : Json} (hts : ts ≠ []) (h : (ts ++ us).foldlM (feed limits) .start = .ok τ)
    (hτ : τ.mode = .done v) (hus : us.foldlM (feed limits) .start = .ok σ)
    (hσ : σ.mode = .done w) : False := by
  rw [List.foldlM_append] at h
  obtain ⟨ρ, hbefore, hafter⟩ := bind_eq_ok.1 h
  have hne : us ≠ [] := by
    rintro rfl
    obtain rfl : ScanState.start = σ := Except.ok.inj hus
    cases hσ
  obtain ⟨hbegun, -⟩ := (height_foldlM hbefore).2 hts
  obtain ⟨hsum, hlast⟩ := height_foldlM hafter
  obtain ⟨hsum', hlast'⟩ := height_foldlM hus
  have hfinished : ∀ {π : ScanState} {v : Json}, π.Begun → π.mode = .done v → π.height = 0 := by
    intro π v hπ hmode
    simp [ScanState.height, hmode, hπ.done v hmode]
  have hpos := hbegun.height_pos (hlast hne).2
  rw [hfinished (hlast hne).1 hτ] at hsum
  rw [hfinished (hlast' hne).1 hσ] at hsum'
  have hstart : ScanState.start.height = 0 := rfl
  omega

/-! ## What is left of an accepted text -/

lemma isSpace_of_isJsonSpace {c : Char} (h : isJsonSpace c = true) : isSpace c = true := by
  simp only [isJsonSpace, Bool.or_eq_true, beq_iff_eq] at h
  rcases h with ((rfl | rfl) | rfl) | rfl <;> decide

/-- White space before a readable text is read away. -/
lemma jsonTokens_blank_append {blank cs : List Char} (hblank : ∀ c ∈ blank, isSpace c = true)
    (h : Readable (jsonTokens .out (blank ++ cs))) :
    jsonTokens .out (blank ++ cs) = jsonTokens .out cs ∧ ∀ c ∈ blank, isJsonSpace c = true := by
  induction blank with
  | nil => exact ⟨rfl, by simp⟩
  | cons c blank ih =>
      obtain ⟨hc, hblank⟩ := List.forall_mem_cons.1 hblank
      rcases lexStep_space hc h with ⟨-, hjson, hstep⟩ | ⟨s, hq, -⟩
      · have hread : jsonTokens .out (c :: blank ++ cs) = jsonTokens .out (blank ++ cs) := by
          rw [List.cons_append, jsonTokens_cons, hstep]
          rfl
        rw [hread] at h ⊢
        obtain ⟨heq, hjsons⟩ := ih hblank h
        exact ⟨heq, List.forall_mem_cons.2 ⟨hjson, hjsons⟩⟩
      · cases hq

/-- White space at the end of a readable text ends what comes before it. -/
lemma jsonTokens_blank {q : Lex} {blank : List Char} (hblank : ∀ c ∈ blank, isSpace c = true)
    (h : Readable (jsonTokens q blank)) :
    jsonTokens q blank = lexEnd q ∧ ∀ c ∈ blank, isJsonSpace c = true := by
  induction blank generalizing q with
  | nil => exact ⟨rfl, by simp⟩
  | cons c blank ih =>
      obtain ⟨hc, hblank⟩ := List.forall_mem_cons.1 hblank
      rcases lexStep_space hc h with ⟨-, hjson, hstep⟩ | ⟨s, rfl, -, hstep⟩
      · rw [jsonTokens_cons, hstep] at h ⊢
        obtain ⟨heq, hjsons⟩ := ih hblank (readable_append.1 h).2
        exact ⟨by rw [heq]; simp [lexEnd], List.forall_mem_cons.2 ⟨hjson, hjsons⟩⟩
      · rw [jsonTokens_cons, hstep] at h
        obtain ⟨heq, -⟩ := ih hblank h
        rw [heq] at h
        exact absurd (h .bad (by simp [lexEnd])) id

/-- A readable text has the tokens of what is left once it is stripped. -/
theorem jsonTokens_strip {before body after : List Char} (hbefore : ∀ c ∈ before, isSpace c = true)
    (hafter : ∀ c ∈ after, isSpace c = true)
    (h : Readable (jsonTokens .out (before ++ (body ++ after)))) :
    jsonTokens .out (before ++ (body ++ after)) = jsonTokens .out body
      ∧ (∀ c ∈ before, isJsonSpace c = true) ∧ ∀ c ∈ after, isJsonSpace c = true := by
  obtain ⟨heq, hjson⟩ := jsonTokens_blank_append hbefore h
  rw [heq, jsonTokens_append] at h
  obtain ⟨hend, hjson'⟩ := jsonTokens_blank hafter (readable_append.1 h).2
  refine ⟨?_, hjson, hjson'⟩
  have hbody := jsonTokens_append .out body []
  rw [List.append_nil] at hbody
  rw [heq, jsonTokens_append, hend, hbody]
  rfl

/-- What has begun outside of the gaps between tokens puts out a token before it is between two
tokens again. -/
lemma lexRun_ne_nil {q : Lex} (hq : q ≠ .out) {cs : List Char} (h : (lexRun q cs).1 = .out) :
    (lexRun q cs).2 ≠ [] := by
  induction cs generalizing q with
  | nil => exact absurd h hq
  | cons c cs ih =>
      by_cases hout : (lexStep q c).1 = .out
      · have hstep : (lexStep q c).2 ≠ [] := by
          cases q with
          | out => exact absurd rfl hq
          | word w =>
              rcases lexStep_outside (Or.inr ⟨w, rfl⟩) c with ⟨-, more, hstep⟩ | ⟨-, hstep⟩
              · rw [hstep] at hout
                cases hout
              · simp [hstep, lexEnd]
          | str s =>
              rw [lexStep] at hout ⊢
              split_ifs at hout ⊢
              simp
          | escape s =>
              rw [lexStep] at hout
              split_ifs at hout
              split at hout <;> cases hout
          | unicode s digits =>
              rw [lexStep] at hout
              split_ifs at hout
        simp [lexRun, hstep]
      · have hrest := ih hout h
        simp [lexRun, hrest]

/-- A text that begins with no white space completes a token before it is between two tokens. -/
lemma lexRun_out_ne_nil {c : Char} (hc : isSpace c = false) {cs : List Char}
    (h : (lexRun .out (c :: cs)).1 = .out) : (lexRun .out (c :: cs)).2 ≠ [] := by
  by_cases hout : (lexStep .out c).1 = .out
  · have hstep : (lexStep .out c).2 ≠ [] := by
      have hjson : isJsonSpace c = false := by
        by_contra hjson
        rw [isSpace_of_isJsonSpace (by simpa using hjson)] at hc
        cases hc
      rw [lexStep, lexOut, if_neg (by simp [hjson])] at hout ⊢
      split_ifs at hout ⊢
      split at hout
      · simp_all
      · cases hout
    simp [lexRun, hstep]
  · have hrest := lexRun_ne_nil hout h
    simp [lexRun, hrest]

/-- The rest of an accepted text from some white space on, with its line breaks replaced, is not
accepted. -/
theorem not_loads_of_rest {limits : JsonLimits} {first space : Char} {front rest : List Char}
    {v : Json} (hfirst : isSpace first = false) (hspace : isSpace space = true)
    (h : loads limits (first :: front ++ space :: rest) = .ok v) (w : Json) :
    loads limits (unixBreaks rest) ≠ .ok w := by
  intro hrest
  obtain ⟨τ, hτ, hdone⟩ := loads_eq_ok.1 h
  obtain ⟨σ, hσ, hdone'⟩ := loads_eq_ok.1 hrest
  have hread := readable_of_foldlM hτ
  have hread' := readable_of_foldlM hσ
  have hsplit : first :: front ++ space :: rest = (first :: front ++ [space]) ++ rest := by simp
  have hafter := hread
  rw [jsonTokens_append] at hafter
  have hrun : (lexRun .out (first :: front ++ [space])).1
      = (lexStep (lexRun .out (first :: front)).1 space).1 := by
    rw [lexRun_append]
    rfl
  rcases lexStep_space hspace (readable_append.1 hafter).2 with ⟨-, -, hstep⟩ | ⟨s, -, -, hstep⟩
  · rw [hstep] at hrun
    rw [hsplit, jsonTokens_append, hrun] at hτ
    rcases jsonTokens_unixBreaks (readable_append.1 (readable_of_foldlM hτ)).2 with
      ⟨-, heq⟩ | ⟨-, before, -, rest', -, heq⟩
    · rw [heq] at hσ
      exact not_foldlM_of_rest (lexRun_out_ne_nil hfirst hrun) hτ hdone hσ hdone'
    · rw [heq] at hread'
      exact hread' .bad (by simp)
  · rw [hstep] at hrun
    rw [hsplit, jsonTokens_append, hrun] at hread
    exact (not_readable_of_str rest).1 _ .out (readable_append.1 hread).2 (Or.inl rfl) hread'

end Sast
