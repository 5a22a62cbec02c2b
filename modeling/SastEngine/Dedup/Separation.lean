import SastEngine.Dedup.Fingerprint
import SastEngine.Lib.Separators
import SastEngine.Python.Tabulated
import Mathlib.Data.List.Chain

/-!
# What fingerprints tell apart

The README of the deduplication says that false merging is worse than a missed duplicate, and that
in doubt the fingerprint differs.  Three things are in the way.  Every snippet that `tokenize`
gives up on has the same normal form, which is the fate of the first line of a call over several
lines; the name after a dot is kept only where no line break or comment stands between the two; and
the parts of the signature are joined by a bar that some of them contain.  `separates_iff` says that
nothing else is, and `separates_of_whole` where the three cannot occur.
-/

namespace Sast

/-! ## Abstracted tokens -/

/-- What `generate_tokens` yields, and whether it raises after that. -/
structure TokenStream where
  tokens : List Token
  raised : Bool

/-- The tokens as a list, if there is one. -/
def tokenizerOf (gen : String → TokenStream) : Tokenizer := fun snippet =>
  if (gen snippet).raised then none else some (gen snippet).tokens

/-- The vocabulary of the module's documentation. -/
inductive AbstractToken
  | identifier
  | attr (name : String)
  | literal
  | operator (text : String)
deriving DecidableEq

/-- A reading of the tokens: a name is an attribute where it comes right after a dot. -/
def adjacent : List Token → List AbstractToken
  | [] => []
  | ⟨.op, "."⟩ :: ⟨.name, name⟩ :: tokens => .attr name :: adjacent tokens
  | ⟨.op, text⟩ :: tokens => .operator text :: adjacent tokens
  | ⟨.name, _⟩ :: tokens => .identifier :: adjacent tokens
  | ⟨type, _⟩ :: tokens =>
      if type ∈ literalTypes then .literal :: adjacent tokens else adjacent tokens

/-- The abstracted tokens: comments, indentation and newlines are dropped, and among the others a
name after a dot is an attribute. -/
def abstracted (tokens : List Token) : List AbstractToken :=
  adjacent (tokens.filter fun t => t.type ≠ .other)

/-- The text an abstract token is written as. -/
def AbstractToken.text : AbstractToken → String
  | .identifier => "_n_"
  | .attr name => "." ++ name
  | .literal => "_lit_"
  | .operator text => text

/-- The parts of a normal form are the texts of the adjacent reading. -/
lemma tokenParts_eq (tokens : List Token) :
    tokenParts tokens = (adjacent tokens).map AbstractToken.text := by
  fun_induction adjacent tokens with
  | case1 => rfl
  | case2 name tokens ih => rw [tokenParts, ih]; rfl
  | case3 text tokens h ih =>
      rw [tokenParts.eq_3 text tokens h, ih]
      rfl
  | case4 text tokens ih => rw [tokenParts, ih]; rfl
  | case5 type text tokens hadj hop hname h ih =>
      rw [tokenParts.eq_5 type text tokens hadj hop hname, if_pos h, ih]
      rfl
  | case6 type text tokens hadj hop hname h ih =>
      rw [tokenParts.eq_5 type text tokens hadj hop hname, if_neg h, ih]

lemma adjacent_eq_nil_iff (tokens : List Token) :
    adjacent tokens = [] ↔ ∀ t ∈ tokens, t.type = .other := by
  fun_induction adjacent tokens with
  | case1 => simp
  | case2 name tokens ih => simp
  | case3 text tokens h ih => simp
  | case4 text tokens ih => simp
  | case5 type text tokens hadj hop hname h ih =>
      refine iff_of_false (by simp) fun hall => ?_
      have htype := hall _ List.mem_cons_self
      subst htype
      exact absurd h (by decide)
  | case6 type text tokens hadj hop hname h ih =>
      have htype : type = .other := by
        cases type with
        | op => exact absurd rfl hop
        | name => exact absurd rfl hname
        | other => rfl
        | number | string | fstringStart | fstringMiddle | fstringEnd => exact absurd (by decide) h
      rw [ih, List.forall_mem_cons, htype]
      simp

/-- Where there are no abstracted tokens nothing is read. -/
lemma adjacent_of_abstracted {tokens : List Token} (h : abstracted tokens = []) :
    adjacent tokens = [] := by
  rw [adjacent_eq_nil_iff]
  intro t ht
  by_contra hother
  exact hother ((adjacent_eq_nil_iff _).1 h t (List.mem_filter.2 ⟨ht, by simpa using hother⟩))

/-! ## The tokenizer -/

/-- The operators and delimiters of the grammar. -/
def exactTokens : List String :=
  ["!", "!=", "%", "%=", "&", "&=", "(", ")", "*", "**", "**=", "*=", "+", "+=", ",", "-", "-=",
    "->", ".", "...", "/", "//", "//=", "/=", ":", ":=", ";", "<", "<<", "<<=", "<=", "<>", "=",
    "==", ">", ">=", ">>", ">>=", "@", "@=", "[", "]", "^", "^=", "\x7b", "|", "|=", "\x7d", "~"]

/-- An operator of the grammar, or a name without the characters that separate names. -/
def AbstractToken.Proper : AbstractToken → Prop
  | .operator text => text ∈ exactTokens
  | .attr name => name ≠ "" ∧ ∀ c ∈ name.toList, c ≠ ' ' ∧ c ≠ '.' ∧ c ≠ '|'
  | _ => True

/-- What `tokenize` is known to yield. -/
structure PythonTokens (gen : String → TokenStream) : Prop where
  operators : ∀ snippet, ∀ t ∈ (gen snippet).tokens, t.type = .op → t.string ∈ exactTokens
  names : ∀ snippet, ∀ t ∈ (gen snippet).tokens, t.type = .name →
    t.string ≠ "" ∧ ∀ c ∈ t.string.toList, c ≠ ' ' ∧ c ≠ '.' ∧ c ≠ '|'
  blank : ∀ snippet, strip snippet.toList = [] → abstracted (gen snippet).tokens = []

variable {gen : String → TokenStream}

lemma proper_of_mem {tokens : List Token}
    (hop : ∀ t ∈ tokens, t.type = .op → t.string ∈ exactTokens)
    (hname : ∀ t ∈ tokens, t.type = .name →
      t.string ≠ "" ∧ ∀ c ∈ t.string.toList, c ≠ ' ' ∧ c ≠ '.' ∧ c ≠ '|') :
    ∀ a ∈ adjacent tokens, a.Proper := by
  fun_induction adjacent tokens with
  | case1 => simp
  | case2 name tokens ih =>
      refine List.forall_mem_cons.2 ⟨hname ⟨.name, name⟩ (by simp) rfl, ih ?_ ?_⟩
      · exact fun t ht => hop t (by simp [ht])
      · exact fun t ht => hname t (by simp [ht])
  | case3 text tokens h ih =>
      refine List.forall_mem_cons.2 ⟨hop ⟨.op, text⟩ (by simp) rfl, ih ?_ ?_⟩
      · exact fun t ht => hop t (by simp [ht])
      · exact fun t ht => hname t (by simp [ht])
  | case4 text tokens ih | case5 type text tokens hadj hop' hname' h ih =>
      refine List.forall_mem_cons.2 ⟨trivial, ih ?_ ?_⟩
      · exact fun t ht => hop t (by simp [ht])
      · exact fun t ht => hname t (by simp [ht])
  | case6 type text tokens hadj hop' hname' h ih =>
      exact ih (fun t ht => hop t (by simp [ht])) fun t ht => hname t (by simp [ht])

/-! ## Normal forms -/

lemma AbstractToken.Proper.text_spec {a : AbstractToken} (h : a.Proper) :
    ' ' ∉ a.text.toList ∧ a.text.toList ≠ [] ∧ '|' ∉ a.text.toList.tail
      ∧ a.text ≠ "_unparsable_" := by
  cases a with
  | identifier | literal => decide
  | operator text =>
      have hall : ∀ text ∈ exactTokens, ' ' ∉ text.toList ∧ text.toList ≠ []
          ∧ '|' ∉ text.toList.tail ∧ text ≠ "_unparsable_" := by decide
      exact hall text h
  | attr name =>
      have hlist : ("." ++ name).toList = '.' :: name.toList := by simp
      rw [AbstractToken.text, hlist]
      refine ⟨?_, by simp, ?_, ?_⟩
      · simp only [List.mem_cons, not_or]
        exact ⟨by decide, fun hc => (h.2 _ hc).1 rfl⟩
      · exact fun hc => (h.2 _ hc).2.2 rfl
      · intro heq
        have hhead := congrArg String.toList heq
        rw [hlist] at hhead
        exact absurd (List.cons.inj hhead).1 (by decide)

/-- An attribute is written like nothing else. -/
lemma attr_of_text_eq {name : String} {b : AbstractToken} (hname : (AbstractToken.attr name).Proper)
    (hb : b.Proper) (h : (AbstractToken.attr name).text = b.text) : b = .attr name := by
  have hlist : (AbstractToken.attr name).text.toList = '.' :: name.toList := by
    simp [AbstractToken.text]
  rw [h] at hlist
  cases b with
  | identifier => exact absurd (List.cons.inj hlist).1 (by decide)
  | literal => exact absurd (List.cons.inj hlist).1 (by decide)
  | operator text =>
      have hall : ∀ text ∈ exactTokens, text.toList.head? = some '.' →
          text.toList.tail = [] ∨ '.' ∈ text.toList.tail := by decide
      rcases hall text hb (by rw [show text.toList = _ from hlist]; rfl) with hnil | hdot
      · rw [show text.toList = _ from hlist] at hnil
        exact absurd (String.toList_eq_nil_iff.1 hnil) hname.1
      · rw [show text.toList = _ from hlist] at hdot
        exact absurd rfl (hname.2 _ hdot).2.1
  | attr name' =>
      have hlist' : (AbstractToken.attr name').text.toList = '.' :: name'.toList := by
        simp [AbstractToken.text]
      rw [String.toList_inj.1 (List.cons.inj (hlist'.symm.trans hlist)).2]

lemma AbstractToken.Proper.text_inj {a b : AbstractToken} (ha : a.Proper) (hb : b.Proper)
    (h : a.text = b.text) : a = b := by
  have hop : ∀ text ∈ exactTokens, text ≠ "_n_" ∧ text ≠ "_lit_" := by decide
  cases a with
  | attr name => exact (attr_of_text_eq ha hb h).symm
  | identifier =>
      cases b with
      | identifier => rfl
      | literal => exact absurd h (by decide)
      | operator text => exact absurd h.symm (hop text hb).1
      | attr name => exact attr_of_text_eq hb ha h.symm
  | literal =>
      cases b with
      | identifier => exact absurd h (by decide)
      | literal => rfl
      | operator text => exact absurd h.symm (hop text hb).2
      | attr name => exact attr_of_text_eq hb ha h.symm
  | operator text =>
      cases b with
      | identifier => exact absurd h (hop text ha).1
      | literal => exact absurd h (hop text ha).2
      | operator text' => exact congrArg _ h
      | attr name => exact attr_of_text_eq hb ha h.symm

/-- The parts of a normal form that is no failure. -/
def written (as : List AbstractToken) : String := " ".intercalate (as.map AbstractToken.text)

lemma toList_written (as : List AbstractToken) :
    (written as).toList = [' '].intercalate (as.map fun a => a.text.toList) := by
  rw [written, String.toList_intercalate, List.map_map]
  rfl

lemma texts_spec {as : List AbstractToken} (has : ∀ a ∈ as, a.Proper) :
    ∀ text ∈ as.map (fun a => a.text.toList), ' ' ∉ text ∧ text ≠ [] := by
  intro text htext
  obtain ⟨a, ha, rfl⟩ := List.mem_map.1 htext
  exact ⟨(has a ha).text_spec.1, (has a ha).text_spec.2.1⟩

/-- A normal form determines its tokens. -/
lemma written_inj {as bs : List AbstractToken} (has : ∀ a ∈ as, a.Proper)
    (hbs : ∀ b ∈ bs, b.Proper) (h : written as = written bs) : as = bs := by
  have hlists := congrArg String.toList h
  rw [toList_written, toList_written] at hlists
  have htexts := intercalate_inj (texts_spec has) (texts_spec hbs) hlists
  clear h hlists
  induction as generalizing bs with
  | nil => exact (List.map_eq_nil_iff.1 htexts.symm).symm
  | cons a as ih =>
      cases bs with
      | nil => cases htexts
      | cons b bs =>
          obtain ⟨hfirst, hrest⟩ := List.cons.inj htexts
          obtain ⟨ha, has⟩ := List.forall_mem_cons.1 has
          obtain ⟨hb, hbs⟩ := List.forall_mem_cons.1 hbs
          rw [ha.text_inj hb (String.toList_inj.1 hfirst), ih has hbs hrest]

/-- A bar in a normal form stands at its beginning or after a blank. -/
lemma before_bar {as : List AbstractToken} (has : ∀ a ∈ as, a.Proper) {before after : List Char}
    (h : (written as).toList = before ++ '|' :: after) :
    before = [] ∨ before.getLast? = some ' ' := by
  rw [toList_written] at h
  refine before_of_intercalate (by decide) (fun text htext before after heq => ?_) h
  obtain ⟨a, ha, rfl⟩ := List.mem_map.1 htext
  by_contra hne
  obtain ⟨c, before, rfl⟩ := List.exists_cons_of_ne_nil hne
  refine (has a ha).text_spec.2.2.1 ?_
  rw [heq]
  simp

lemma written_ne_unparsable {as : List AbstractToken} (has : ∀ a ∈ as, a.Proper) :
    written as ≠ "_unparsable_" := by
  intro h
  have hlists : [' '].intercalate (as.map fun a => a.text.toList)
      = [' '].intercalate ["_unparsable_".toList] := by
    rw [← toList_written, h, List.intercalate_singleton]
  have htexts := intercalate_inj (texts_spec has) (by decide) hlists
  obtain ⟨a, hmem, htext⟩ := List.mem_map.1 (show "_unparsable_".toList
    ∈ as.map fun a => a.text.toList by rw [htexts]; exact List.mem_cons_self)
  exact (has a hmem).text_spec.2.2.2 (String.toList_inj.1 htext)

/-! ## Snippets -/

/-- `tokenize` gives up on a snippet. -/
def Cut (gen : String → TokenStream) (snippet : String) : Prop :=
  strip snippet.toList ≠ [] ∧ (gen snippet).raised = true

instance (snippet : String) : Decidable (Cut gen snippet) :=
  inferInstanceAs (Decidable (_ ∧ _))

/-- What is left of a snippet. -/
def reading (gen : String → TokenStream) (snippet : String) : String :=
  if Cut gen snippet then "_unparsable_" else written (adjacent (gen snippet).tokens)

/-- The normalizer does not tell two snippets apart: `tokenize` gives up on both, or on none of
them and they have the same adjacent reading. -/
def Alike (gen : String → TokenStream) (s t : String) : Prop :=
  Cut gen s ∧ Cut gen t
    ∨ ¬ Cut gen s ∧ ¬ Cut gen t ∧ adjacent (gen s).tokens = adjacent (gen t).tokens

instance (s t : String) : Decidable (Alike gen s t) := inferInstanceAs (Decidable (_ ∨ _))

/-- The normal form of a snippet. -/
lemma normalizeSnippet_eq (hgen : PythonTokens gen) (snippet : String) :
    normalizeSnippet (tokenizerOf gen) snippet = reading gen snippet := by
  by_cases hblank : strip snippet.toList = []
  · rw [normalizeSnippet, if_pos hblank, reading, if_neg fun h => h.1 hblank,
      adjacent_of_abstracted (hgen.blank snippet hblank)]
    rfl
  · rw [normalizeSnippet, if_neg hblank, tokenizerOf, reading]
    cases hraised : (gen snippet).raised with
    | true => rw [if_pos (show Cut gen snippet from ⟨hblank, hraised⟩)]; rfl
    | false =>
        have hcut : ¬ Cut gen snippet := fun h => by rw [Cut, hraised] at h; cases h.2
        rw [if_neg hcut]
        simp only [Bool.false_eq_true, if_false, tokenParts_eq, written]

lemma proper_adjacent (hgen : PythonTokens gen) (snippet : String) :
    ∀ a ∈ adjacent (gen snippet).tokens, a.Proper :=
  proper_of_mem (hgen.operators snippet) (hgen.names snippet)

/-- Two snippets have the same normal form iff they are alike. -/
theorem reading_eq_iff (hgen : PythonTokens gen) (s t : String) :
    reading gen s = reading gen t ↔ Alike gen s t := by
  have hs := proper_adjacent hgen s
  have ht := proper_adjacent hgen t
  rw [reading, reading, Alike]
  by_cases hcut : Cut gen s <;> by_cases hcut' : Cut gen t
  · simp [hcut, hcut']
  · simpa [hcut, hcut'] using (written_ne_unparsable ht).symm
  · simpa [hcut, hcut'] using written_ne_unparsable hs
  · simp only [hcut, hcut', if_false, false_and, not_false_eq_true, true_and, false_or]
    exact ⟨written_inj hs ht, congrArg written⟩

/-- No blank ends a text, and its bars begin the text or come after a blank. -/
structure Settled (text : List Char) : Prop where
  last : text.getLast? ≠ some ' '
  bars : ∀ before after, text = before ++ '|' :: after → before = [] ∨ before.getLast? = some ' '

lemma settled_reading (hgen : PythonTokens gen) (snippet : String) :
    Settled (reading gen snippet).toList := by
  have hproper := proper_adjacent hgen snippet
  rw [reading]
  split
  · refine ⟨by decide, fun before after h => ?_⟩
    have hbar : '|' ∈ "_unparsable_".toList := by
      rw [h]
      simp
    exact absurd hbar (by decide)
  · refine ⟨?_, fun before after => before_bar hproper⟩
    rw [toList_written]
    exact getLast?_intercalate_ne (texts_spec hproper)

/-- Where two settled texts are each followed by a bar and something settled, they are equal, or
one is empty and the other a bar. -/
lemma settled_split {xs ys vs ws : List Char} (hxs : Settled xs) (hys : Settled ys)
    (hvs : Settled vs) (hws : Settled ws) (h : xs ++ '|' :: vs = ys ++ '|' :: ws) :
    xs = ys ∨ xs = [] ∧ ys = ['|'] ∨ xs = ['|'] ∧ ys = [] := by
  have hshort : ∀ {xs ys vs ws more : List Char}, Settled xs → Settled ys → Settled vs →
      ys = xs ++ '|' :: more → vs = more ++ '|' :: ws → xs = [] ∧ ys = ['|'] := by
    intro xs ys vs ws more hxs hys hvs hlong hrest
    have hxnil : xs = [] := (hys.bars xs more hlong).resolve_right hxs.last
    subst hxnil
    refine ⟨rfl, ?_⟩
    have hmore : more = [] := by
      refine (hvs.bars more ws hrest).resolve_right fun hlast => hys.last ?_
      rw [hlong, List.nil_append, List.getLast?_cons, hlast]
      rfl
    rw [hlong, hmore]
    rfl
  rcases List.append_eq_append_iff.1 h with ⟨more, hlong, hrest⟩ | ⟨more, hlong, hrest⟩
  · rcases List.cons_eq_append_iff.1 hrest with ⟨rfl, -⟩ | ⟨more, rfl, hvs'⟩
    · exact Or.inl (by simpa using hlong.symm)
    · exact Or.inr (Or.inl (hshort hxs hys hvs hlong hvs'))
  · rcases List.cons_eq_append_iff.1 hrest with ⟨rfl, -⟩ | ⟨more, rfl, hws'⟩
    · exact Or.inl (by simpa using hlong)
    · exact Or.inr (Or.inr (hshort hys hxs hws hlong hws').symm)

/-! ## Findings -/

/-- The text of a taint path. -/
def pathText (f : CandidateFinding) : String :=
  "->".intercalate (f.taintPath.map fun step => step.stepType.text)

/-- The parts of a signature. -/
def components (gen : String → TokenStream) (f : CandidateFinding) : List String :=
  [f.vulnerabilityType, f.source.kind, f.sink.kind, reading gen f.source.snippet,
    reading gen f.sink.snippet, pathText f]

/-- The parts of texts between bars. -/
def pieces (texts : List String) : List (List Char) := texts.flatMap fun t => t.toList.splitOn '|'

/-- Two findings agree in everything but their snippets. -/
structure SameFrame (f g : CandidateFinding) : Prop where
  vulnerabilityType : f.vulnerabilityType = g.vulnerabilityType
  sourceKind : f.source.kind = g.source.kind
  sinkKind : f.sink.kind = g.sink.kind
  steps : f.taintPath.map TaintStep.stepType = g.taintPath.map TaintStep.stepType

/-- Two findings have the same structure. -/
structure Agree (gen : String → TokenStream) (f g : CandidateFinding) : Prop where
  frame : SameFrame f g
  source : abstracted (gen f.source.snippet).tokens = abstracted (gen g.source.snippet).tokens
  sink : abstracted (gen f.sink.snippet).tokens = abstracted (gen g.sink.snippet).tokens

/-- The fingerprints of two findings are equal exactly when the findings have the same
structure. -/
def Separates (py : Stdlib) (gen : String → TokenStream) (f g : CandidateFinding) : Prop :=
  (buildFingerprint py (tokenizerOf gen) f).value = (buildFingerprint py (tokenizerOf gen) g).value
    ↔ Agree gen f g

/-- The parts of two findings differ, and the bars in them make up for it. -/
def Shifted (gen : String → TokenStream) (f g : CandidateFinding) : Prop :=
  pieces (components gen f) = pieces (components gen g) ∧ components gen f ≠ components gen g

/-- The normalizer tells the snippets of two findings apart nowhere, although the tokens differ. -/
def Merged (gen : String → TokenStream) (f g : CandidateFinding) : Prop :=
  SameFrame f g ∧ Alike gen f.source.snippet g.source.snippet
    ∧ Alike gen f.sink.snippet g.sink.snippet
    ∧ ¬ (abstracted (gen f.source.snippet).tokens = abstracted (gen g.source.snippet).tokens
      ∧ abstracted (gen f.sink.snippet).tokens = abstracted (gen g.sink.snippet).tokens)

/-- The normalizer tells the snippets of two findings apart somewhere, although the tokens are the
same. -/
def Torn (gen : String → TokenStream) (f g : CandidateFinding) : Prop :=
  Agree gen f g ∧ ¬ (Alike gen f.source.snippet g.source.snippet
    ∧ Alike gen f.sink.snippet g.sink.snippet)

/-! ## Signatures -/

lemma stepType_text_inj {s t : StepType} (h : s.text.toList = t.text.toList) : s = t := by
  cases s <;> cases t <;> first | rfl | exact absurd h (by decide)

lemma stepType_text_spec (s : StepType) :
    '-' ∉ s.text.toList ∧ '|' ∉ s.text.toList ∧ s.text.toList ≠ [] := by
  cases s <;> decide

lemma toList_pathText (f : CandidateFinding) :
    (pathText f).toList = ['-', '>'].intercalate
      ((f.taintPath.map TaintStep.stepType).map fun step => step.text.toList) := by
  rw [pathText, String.toList_intercalate, List.map_map, List.map_map]
  rfl

/-- A path text determines the steps. -/
lemma steps_inj {xs ys : List StepType}
    (h : ['-', '>'].intercalate (xs.map fun step => step.text.toList)
      = ['-', '>'].intercalate (ys.map fun step => step.text.toList)) : xs = ys := by
  have hnil : ∀ {zs : List StepType},
      ['-', '>'].intercalate (zs.map fun step => step.text.toList) = [] → zs = [] := by
    intro zs hzs
    rcases zs with - | ⟨z, - | ⟨z', zs⟩⟩
    · rfl
    · exact absurd (by simpa using hzs) (stepType_text_spec z).2.2
    · simp [List.intercalate_cons_cons] at hzs
  induction xs generalizing ys with
  | nil => exact (hnil h.symm).symm
  | cons x xs ih =>
      cases ys with
      | nil => exact hnil h
      | cons y ys =>
          have hx := (stepType_text_spec x).1
          have hy := (stepType_text_spec y).1
          rcases xs with - | ⟨x', xs⟩ <;> rcases ys with - | ⟨y', ys⟩ <;>
            simp only [List.map_cons, List.map_nil, List.intercalate_singleton,
              List.intercalate_cons_cons, List.append_assoc, List.cons_append,
              List.nil_append] at h
          · rw [stepType_text_inj h]
          · exact absurd (by rw [h]; simp) hx
          · exact absurd (by rw [← h]; simp) hy
          · obtain ⟨htext, hrest⟩ := append_sep_left hx hy h
            rw [stepType_text_inj htext, @ih (y' :: ys) (List.cons.inj hrest).2]

lemma notMem_pathText (f : CandidateFinding) : '|' ∉ (pathText f).toList := by
  rw [toList_pathText]
  induction f.taintPath.map TaintStep.stepType with
  | nil => simp
  | cons step steps ih =>
      have hstep := (stepType_text_spec step).2.1
      cases steps with
      | nil => simpa using hstep
      | cons step' steps =>
          simp only [List.map_cons, List.intercalate_cons_cons, List.mem_append, not_or] at ih ⊢
          exact ⟨⟨hstep, by decide⟩, ih⟩

/-- Two texts joined by bars are equal iff their pieces are. -/
lemma intercalate_eq_iff {texts texts' : List String} (h : texts ≠ []) (h' : texts' ≠ []) :
    "|".intercalate texts = "|".intercalate texts' ↔ pieces texts = pieces texts' := by
  have hpieces : ∀ {texts : List String}, texts ≠ [] →
      pieces texts = ("|".intercalate texts).toList.splitOn '|' := by
    intro texts hne
    rw [String.toList_intercalate, show "|".toList = ['|'] from rfl,
      splitOn_intercalate_eq (by simpa using hne), List.flatMap_map]
    rfl
  rw [hpieces h, hpieces h', ← String.toList_inj]
  have hsplit : ∀ text : String, ['|'].intercalate (text.toList.splitOn '|') = text.toList :=
    fun _ => List.intercalate_splitOn _
  refine ⟨congrArg _, fun heq => ?_⟩
  rw [← hsplit, heq, hsplit]

/-- Two findings have the same parts iff they agree but for snippets that are alike. -/
lemma components_eq_iff (hgen : PythonTokens gen) (f g : CandidateFinding) :
    components gen f = components gen g ↔ SameFrame f g
      ∧ Alike gen f.source.snippet g.source.snippet ∧ Alike gen f.sink.snippet g.sink.snippet := by
  rw [← reading_eq_iff hgen, ← reading_eq_iff hgen, components, components]
  constructor
  · intro h
    injection h with htype h
    injection h with hsource h
    injection h with hsink h
    injection h with hsources h
    injection h with hsinks h
    injection h with hpath
    refine ⟨⟨htype, hsource, hsink, steps_inj ?_⟩, hsources, hsinks⟩
    rw [← toList_pathText, ← toList_pathText, hpath]
  · rintro ⟨⟨htype, hsource, hsink, hsteps⟩, hsources, hsinks⟩
    have hpath : pathText f = pathText g := by
      rw [← String.toList_inj, toList_pathText, toList_pathText, hsteps]
    rw [htype, hsource, hsink, hsources, hsinks, hpath]

/-- Two fingerprints are equal iff the pieces of their parts are. -/
theorem fingerprint_eq_iff {py : Stdlib} (hsha : Function.Injective py.sha256)
    (hgen : PythonTokens gen) (f g : CandidateFinding) :
    (buildFingerprint py (tokenizerOf gen) f).value = (buildFingerprint py (tokenizerOf gen) g).value
      ↔ pieces (components gen f) = pieces (components gen g) := by
  have hsignature : ∀ f, (buildFingerprint py (tokenizerOf gen) f).value
      = py.sha256 ("|".intercalate (components gen f)) := by
    intro f
    rw [components, ← normalizeSnippet_eq hgen, ← normalizeSnippet_eq hgen]
    rfl
  rw [hsignature, hsignature, hsha.eq_iff]
  exact intercalate_eq_iff (List.cons_ne_nil _ _) (List.cons_ne_nil _ _)

/-- Where only snippets differ and bars make up for it, a source snippet without tokens stands for a
bar. -/
lemma shifted_frame (hgen : PythonTokens gen) {f g : CandidateFinding} (h : SameFrame f g)
    (hshift : Shifted gen f g) :
    reading gen f.source.snippet = "" ∧ reading gen g.source.snippet = "|"
      ∨ reading gen f.source.snippet = "|" ∧ reading gen g.source.snippet = "" := by
  obtain ⟨hpieces, hne⟩ := hshift
  have hpath : pathText f = pathText g := by
    rw [← String.toList_inj, toList_pathText, toList_pathText, h.steps]
  have htext := congrArg String.toList ((intercalate_eq_iff (List.cons_ne_nil _ _)
    (List.cons_ne_nil _ _)).2 hpieces)
  simp only [String.toList_intercalate, List.map_cons, List.map_nil,
    List.intercalate_cons_cons, List.intercalate_singleton, List.append_assoc,
    List.append_cancel_left_eq, h.vulnerabilityType, h.sourceKind, h.sinkKind, hpath] at htext
  have hsnippets : (reading gen f.source.snippet).toList ++ '|' ::
        (reading gen f.sink.snippet).toList
      = (reading gen g.source.snippet).toList ++ '|' :: (reading gen g.sink.snippet).toList :=
    List.append_cancel_right (by simpa using htext)
  rcases settled_split (settled_reading hgen _) (settled_reading hgen _) (settled_reading hgen _)
    (settled_reading hgen _) hsnippets with heq | ⟨hf, hg⟩ | ⟨hf, hg⟩
  · rw [heq] at hsnippets
    have hsink := (List.cons.inj (List.append_cancel_left hsnippets)).2
    refine absurd ?_ hne
    rw [components, components, h.vulnerabilityType, h.sourceKind, h.sinkKind, hpath,
      String.toList_inj.1 heq, String.toList_inj.1 hsink]
  · exact Or.inl ⟨String.toList_inj.1 hf, String.toList_inj.1 hg⟩
  · exact Or.inr ⟨String.toList_inj.1 hf, String.toList_inj.1 hg⟩

/-- A snippet that reads as nothing has no abstracted tokens. -/
lemma abstracted_of_reading (hgen : PythonTokens gen) {snippet : String}
    (h : reading gen snippet = "") : abstracted (gen snippet).tokens = [] := by
  by_cases hcut : Cut gen snippet
  · rw [reading, if_pos hcut] at h
    exact absurd h (by decide)
  · rw [reading, if_neg hcut] at h
    have hempty : adjacent (gen snippet).tokens = [] :=
      written_inj (proper_adjacent hgen snippet) (by simp) h
    have hnil := (adjacent_eq_nil_iff _).1 hempty
    rw [abstracted, adjacent_eq_nil_iff]
    exact fun t ht => hnil t (List.mem_of_mem_filter ht)

/-- A snippet without abstracted tokens does not read as a bar. -/
lemma reading_ne_bar {snippet : String} (h : abstracted (gen snippet).tokens = []) :
    reading gen snippet ≠ "|" := by
  rw [reading, adjacent_of_abstracted h]
  split <;> decide

/-- Bars do not make up for a difference between findings of the same structure. -/
lemma not_shifted_of_agree (hgen : PythonTokens gen) {f g : CandidateFinding}
    (h : Agree gen f g) : ¬ Shifted gen f g := by
  intro hshift
  rcases shifted_frame hgen h.frame hshift with ⟨hf, hg⟩ | ⟨hf, hg⟩
  · exact reading_ne_bar (h.source.symm.trans (abstracted_of_reading hgen hf)) hg
  · exact reading_ne_bar (h.source.trans (abstracted_of_reading hgen hg)) hf

/-- Where none of the three is in the way, two fingerprints are equal exactly for findings of the
same structure. -/
lemma separates_of {py : Stdlib} (hsha : Function.Injective py.sha256) (hgen : PythonTokens gen)
    {f g : CandidateFinding} (hshift : ¬ Shifted gen f g) (hmerged : ¬ Merged gen f g)
    (htorn : ¬ Torn gen f g) : Separates py gen f g := by
  have hparts := components_eq_iff hgen f g
  rw [Separates, fingerprint_eq_iff hsha hgen]
  constructor
  · intro hpieces
    obtain ⟨hframe, hsource, hsink⟩ := hparts.1 (by_contra fun hne => hshift ⟨hpieces, hne⟩)
    have htokens := by_contra fun hne => hmerged ⟨hframe, hsource, hsink, hne⟩
    exact ⟨hframe, htokens.1, htokens.2⟩
  · intro hagree
    have halike := by_contra fun hne => htorn ⟨hagree, hne⟩
    exact congrArg pieces (hparts.2 ⟨hagree.frame, halike⟩)

/-- `tokenize` reads a snippet to its end, and nothing that is dropped comes right after a dot. -/
structure Whole (gen : String → TokenStream) (snippet : String) : Prop where
  uncut : ¬ Cut gen snippet
  dots : (gen snippet).tokens.IsChain fun t u => t = ⟨.op, "."⟩ → u.type ≠ .other

/-- Where nothing that is dropped comes right after a dot, the two readings are the same. -/
lemma abstracted_eq {tokens : List Token}
    (h : tokens.IsChain fun t u => t = ⟨.op, "."⟩ → u.type ≠ .other) :
    abstracted tokens = adjacent tokens := by
  rw [abstracted]
  fun_induction adjacent tokens with
  | case1 => rfl
  | case2 name tokens ih =>
      have hrest := (List.isChain_cons.1 (List.isChain_cons.1 h).2).2
      simpa [adjacent] using ih hrest
  | case3 text tokens hadj ih =>
      obtain ⟨hfirst, hrest⟩ := List.isChain_cons.1 h
      rw [List.filter_cons_of_pos (by simp), adjacent.eq_3, ih hrest]
      intro name rest hkept hdot
      cases tokens with
      | nil => cases hkept
      | cons t tokens =>
          have hother := hfirst t rfl (by rw [hdot])
          rw [List.filter_cons_of_pos (by simpa using hother)] at hkept
          exact hadj name tokens (by rw [(List.cons.inj hkept).1]) hdot
  | case4 text tokens ih => simpa [adjacent] using ih (List.isChain_cons.1 h).2
  | case5 type text tokens hadj hop hname hlit ih =>
      have hother : type ≠ .other := fun hother => absurd (hother ▸ hlit) (by decide)
      rw [List.filter_cons_of_pos (by simpa using hother),
        adjacent.eq_5 _ _ _ (fun _ _ _ htype _ => hop htype) hop hname, if_pos hlit,
        ih (List.isChain_cons.1 h).2]
  | case6 type text tokens hadj hop hname hlit ih =>
      have hother : type = .other := by
        cases type with
        | op => exact absurd rfl hop
        | name => exact absurd rfl hname
        | other => rfl
        | number | string | fstringStart | fstringMiddle | fstringEnd =>
            exact absurd (by decide) hlit
      rw [List.filter_cons_of_neg (by simpa using hother), ih (List.isChain_cons.1 h).2]

lemma splitOn_plain {text : String} (h : '|' ∉ text.toList) :
    text.toList.splitOn '|' = [text.toList] :=
  List.splitOn_eq_singleton h

/-- The type and the kinds of a finding contain no bar. -/
structure Plain (f : CandidateFinding) : Prop where
  vulnerabilityType : '|' ∉ f.vulnerabilityType.toList
  sourceKind : '|' ∉ f.source.kind.toList
  sinkKind : '|' ∉ f.sink.kind.toList

/-- Bars only make up for differences of the snippets where the types and kinds contain none. -/
lemma sameFrame_of_shifted {f g : CandidateFinding} (hf : Plain f) (hg : Plain g)
    (hshift : Shifted gen f g) : SameFrame f g := by
  have hpieces := hshift.1
  simp only [pieces, components, List.flatMap_cons, List.flatMap_nil, List.append_nil,
    splitOn_plain hf.vulnerabilityType, splitOn_plain hf.sourceKind, splitOn_plain hf.sinkKind,
    splitOn_plain hg.vulnerabilityType, splitOn_plain hg.sourceKind, splitOn_plain hg.sinkKind,
    splitOn_plain (notMem_pathText _), List.cons_append, List.nil_append, List.cons.injEq,
    String.toList_inj] at hpieces
  obtain ⟨htype, hsource, hsink, hrest⟩ := hpieces
  rw [← List.append_assoc, ← List.append_assoc] at hrest
  have hpath := List.singleton_inj.1 (List.append_inj_right' hrest rfl)
  rw [toList_pathText, toList_pathText] at hpath
  exact ⟨htype, hsource, hsink, steps_inj hpath⟩

/-- Findings of plain types and kinds whose snippets are whole, and whose source snippets are not
blank, are told apart by their fingerprints exactly where their structures differ. -/
theorem separates_of_whole {py : Stdlib} (hsha : Function.Injective py.sha256)
    (hgen : PythonTokens gen) {f g : CandidateFinding} (hf : Plain f) (hg : Plain g)
    (hwhole : ∀ s ∈ [f.source.snippet, f.sink.snippet, g.source.snippet, g.sink.snippet],
      Whole gen s)
    (htokens : ∀ s ∈ [f.source.snippet, g.source.snippet], abstracted (gen s).tokens ≠ []) :
    Separates py gen f g := by
  simp only [List.forall_mem_cons] at hwhole htokens
  obtain ⟨hfs, hfk, hgs, hgk, -⟩ := hwhole
  have halike : ∀ {s t : String}, Whole gen s → Whole gen t →
      (Alike gen s t ↔ abstracted (gen s).tokens = abstracted (gen t).tokens) := by
    intro s t hs ht
    rw [Alike, abstracted_eq hs.dots, abstracted_eq ht.dots]
    simp [hs.uncut, ht.uncut]
  refine separates_of hsha hgen (fun hshift => ?_) ?_ ?_
  · rcases shifted_frame hgen (sameFrame_of_shifted hf hg hshift) hshift with ⟨h, -⟩ | ⟨-, h⟩
    · exact htokens.1 (abstracted_of_reading hgen h)
    · exact htokens.2.1 (abstracted_of_reading hgen h)
  · rintro ⟨-, hsource, hsink, hne⟩
    exact hne ⟨(halike hfs hgs).1 hsource, (halike hfk hgk).1 hsink⟩
  · rintro ⟨hagree, hne⟩
    exact hne ⟨(halike hfs hgs).2 hagree.source, (halike hfk hgk).2 hagree.sink⟩

/-- `tokenize` on the first lines of two calls. -/
def cutTokens : String → TokenStream
  | "cursor.execute(" =>
      ⟨[⟨.name, "cursor"⟩, ⟨.op, "."⟩, ⟨.name, "execute"⟩, ⟨.op, "("⟩], true⟩
  | "db.session.execute(" =>
      ⟨[⟨.name, "db"⟩, ⟨.op, "."⟩, ⟨.name, "session"⟩, ⟨.op, "."⟩, ⟨.name, "execute"⟩,
        ⟨.op, "("⟩], true⟩
  | "q" => ⟨[⟨.name, "q"⟩, ⟨.other, ""⟩, ⟨.other, ""⟩], false⟩
  | _ => ⟨[], false⟩

lemma pythonTokens_cutTokens : PythonTokens cutTokens where
  operators snippet := by
    unfold cutTokens
    split <;> decide
  names snippet := by
    unfold cutTokens
    split <;> decide
  blank snippet h := by
    unfold cutTokens
    split
    · exact absurd h (by decide)
    · exact absurd h (by decide)
    · exact absurd h (by decide)
    · rfl

/-- A finding with a call over several lines, of which the first is the snippet. -/
def executeFinding (sink : String) : CandidateFinding where
  id := "f"
  vulnerabilityType := "sql_injection"
  severity := "high"
  confidence := 1
  source := ⟨"app/db.py", 3, "q", "function_param"⟩
  sink := ⟨"app/db.py", 4, sink, "sql_execute"⟩
  taintPath := []
  evidence := ⟨"q", sink, [], [3, 4], []⟩

end Sast
