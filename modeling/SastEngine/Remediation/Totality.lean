import SastEngine.Remediation.Parameterization
import SastEngine.Remediation.Targets

/-!
# Exceptions of the proposal generator

`build_proposal` answers with a proposal or with `PatchError`, as long as the library calls it does
not guard succeed: the texts of parameters are parsed again, and the segments of a concatenated
query mark a placeholder by the literal `?`, which a part of the query may be itself.
-/

namespace Sast

/-! ## Computations whose exceptions are all caught -/

section Caught

variable {α β : Type}

/-- No exception other than `PatchError` leaves the computation. -/
def Caught (x : Except PatchFailure α) : Prop := ∀ message, x ≠ .error (.raised message)

lemma caught_ok (a : α) : Caught (.ok a : Except PatchFailure α) := by
  intro message h
  cases h

lemma caught_pure (a : α) : Caught (pure a : Except PatchFailure α) := caught_ok a

lemma caught_patchError (message : String) :
    Caught (.error (.patchError message) : Except PatchFailure α) := by
  intro message h
  cases h

lemma not_caught_raised (message : String) :
    ¬ Caught (.error (.raised message) : Except PatchFailure α) :=
  fun h => h message rfl

/-- A computation in two steps. -/
lemma caught_bind {x : Except PatchFailure α} {f : α → Except PatchFailure β} :
    Caught (x >>= f) ↔ Caught x ∧ ∀ a, x = .ok a → Caught (f a) := by
  cases x with
  | error failure => simp [Caught, bind, Except.bind]
  | ok a => simp [Caught, bind, Except.bind]

/-- An unguarded library call has to succeed. -/
lemma caught_unguarded {result : Except String α} :
    Caught (unguarded result) ↔ ∃ a, result = .ok a := by
  cases result with
  | error message => simp [Caught, unguarded, Except.mapError]
  | ok a => simp [Caught, unguarded, Except.mapError]

lemma unguarded_eq_ok {result : Except String α} {a : α} :
    unguarded result = .ok a ↔ result = .ok a :=
  mapError_eq_ok

end Caught

variable (py : Stdlib)

/-! ## What a query and a command need -/

/-- The expression prints, and its text parses again. -/
def Reprints (e : Expr) : Prop := ∃ text, py.unparse e = .ok text ∧ ∃ e', py.parseExpr text = .ok e'

/-- The values of an f-string are literals, or interpolations that reprint. -/
def ValueReady : Expr → Prop
  | .constant _ (.str _) => True
  | .formattedValue _ value _ _ => Reprints py value
  | _ => False

/-- The expressions assigned to a name in the function, or in the module. -/
def assignedValues (tree : Module) (name : String) : Option Stmt → List Expr
  | some fn => collectBelow true name fn
  | none => (collectChildren false name tree.body).1

/-- The parts of the concatenations assigned to a query variable. -/
def concatParts (tree : Module) (line : Nat) : Expr → List Expr
  | .name _ id _ =>
      (assignedValues tree id (findEnclosingFunction tree line)).flatMap collectConcatParts
  | _ => []

/-- A part of a concatenation is a literal other than `?`, or an expression that reprints. -/
def PartReady : Expr → Prop
  | .constant _ (.str s) => s ≠ "?"
  | part => Reprints py part

/-- The f-string of the query, or else the concatenation it is resolved to, is ready. -/
def QueryReady (tree : Module) (line : Nat) (queryArg : Expr) : Prop :=
  match (queryFstring tree queryArg).filter isInterpolated with
  | some fstring => ∀ value ∈ fstringValues fstring, ValueReady py value
  | none => (querySegments py tree line queryArg).isSome →
      ∀ part ∈ concatParts tree line queryArg, PartReady py part

/-- The function and the command print, and the text of the wrapped command parses. -/
def CommandReady (func : Expr) (args : List Expr) (keywords : List Keyword) : Prop :=
  ∃ funcName, py.unparse func = .ok funcName ∧ ∀ arg rest, args = arg :: rest →
    ∃ command, py.unparse arg = .ok command ∧ ∀ fix, commandFix funcName keywords = some fix →
      ∃ wrapped, py.parseExpr (fix.wrapper ++ "(" ++ command ++ ")") = .ok wrapped

/-! ## Segments and parts -/

/-- What a part of a concatenation stands for: its literal text, or an expression with the text it
prints as. -/
def partPiece : Expr → Option (Piece String)
  | .constant _ (.str s) => some (.text s.toList)
  | part =>
      match py.unparse part with
      | .ok text => some (.gap text)
      | .error _ => none

/-- The segments decode to the parts: the new query has the literal parts verbatim and a `?` for
each expression, and the parameters are the texts of the expressions. -/
def Decodes (parts : List Expr) (segments : List Segment) : Prop :=
  ∃ pieces, parts.mapM (partPiece py) = some pieces
    ∧ String.join (segments.map Segment.literal) = String.ofList (templateOf '?' pieces)
    ∧ segmentParams segments = gaps pieces

variable {py}

/-- A segment is that of a literal or of an expression. -/
lemma concatSegment_eq_some {part : Expr} {segment : Segment}
    (h : concatSegment py part = some segment) :
    (∃ loc s, part = .constant loc (.str s) ∧ segment = ⟨s, ""⟩)
      ∨ (∀ loc s, part ≠ .constant loc (.str s))
        ∧ ∃ text, py.unparse part = .ok text ∧ segment = ⟨"?", text⟩ := by
  by_cases hliteral : ∃ loc s, part = .constant loc (.str s)
  · obtain ⟨loc, s, rfl⟩ := hliteral
    exact Or.inl ⟨loc, s, rfl, (Option.some.inj h).symm⟩
  · push Not at hliteral
    rcases concatSegment_cases h with ⟨loc, s, hpart, -⟩ | htext
    · exact absurd hpart (hliteral loc s)
    · exact Or.inr ⟨hliteral, htext⟩

lemma partReady_expression {part : Expr} (h : ∀ loc s, part ≠ .constant loc (.str s)) :
    PartReady py part ↔ Reprints py part := by
  unfold PartReady
  split
  · next loc s => exact absurd rfl (h loc s)
  · rfl

lemma partPiece_expression {part : Expr} (h : ∀ loc s, part ≠ .constant loc (.str s))
    {text : String} (htext : py.unparse part = .ok text) :
    partPiece py part = some (.gap text) := by
  unfold partPiece
  split
  · next loc s => exact absurd rfl (h loc s)
  · simp [htext]

@[simp] lemma segmentParams_cons (s : Segment) (segments : List Segment) :
    segmentParams (s :: segments)
      = if s.literal = "?" then s.expression :: segmentParams segments
        else segmentParams segments := by
  by_cases h : s.literal = "?" <;> simp [segmentParams, h]

lemma mapM_cons_eq_some {α β : Type} {f : α → Option β} {a : α} {as : List α} {bs : List β} :
    (a :: as).mapM f = some bs ↔ ∃ b, f a = some b ∧ ∃ bs', as.mapM f = some bs' ∧ b :: bs' = bs := by
  simp only [List.mapM_cons, Option.bind_eq_bind, Option.bind_eq_some_iff, Option.pure_def,
    Option.some.injEq]

/-- The query of the segments is the template of the pieces, and there are at least as many
parameters as expressions. -/
lemma exists_pieces {parts : List Expr} :
    ∀ {segments : List Segment}, parts.mapM (concatSegment py) = some segments →
      ∃ pieces, parts.mapM (partPiece py) = some pieces
        ∧ String.join (segments.map Segment.literal) = String.ofList (templateOf '?' pieces)
        ∧ (gaps pieces).length ≤ (segmentParams segments).length := by
  induction parts with
  | nil =>
      intro segments h
      obtain rfl := Option.some.inj h
      exact ⟨[], rfl, rfl, le_rfl⟩
  | cons part parts ih =>
      intro segments h
      obtain ⟨segment, hsegment, rest, hrest, rfl⟩ := mapM_cons_eq_some.1 h
      obtain ⟨pieces, hpieces, hquery, hlength⟩ := ih hrest
      rcases concatSegment_eq_some hsegment with ⟨loc, s, rfl, rfl⟩ | ⟨hpart, text, htext, rfl⟩
      · refine ⟨.text s.toList :: pieces, mapM_cons_eq_some.2 ⟨_, rfl, _, hpieces, rfl⟩, ?_, ?_⟩
        · simp [templateOf, String.join_cons, hquery, String.ofList_append]
        · rw [segmentParams_cons, gaps]
          split_ifs
          · exact hlength.trans (Nat.le_succ _)
          · exact hlength
      · refine ⟨.gap text :: pieces, mapM_cons_eq_some.2
          ⟨_, partPiece_expression hpart htext, _, hpieces, rfl⟩, ?_, ?_⟩
        · rw [List.map_cons, String.join_cons, hquery, templateOf, ← List.singleton_append,
            String.ofList_append]
        · simpa [gaps] using hlength

lemma decodes_iff_params {parts : List Expr} {segments : List Segment}
    {pieces : List (Piece String)} (hpieces : parts.mapM (partPiece py) = some pieces)
    (hquery : String.join (segments.map Segment.literal) = String.ofList (templateOf '?' pieces)) :
    Decodes py parts segments ↔ segmentParams segments = gaps pieces := by
  constructor
  · rintro ⟨pieces', hpieces', -, hparams⟩
    obtain rfl := Option.some.inj (hpieces.symm.trans hpieces')
    exact hparams
  · intro hparams
    exact ⟨pieces, hpieces, hquery, hparams⟩

/-- Texts parse one by one. -/
lemma exists_mapM_cons {text : String} {texts : List String} :
    (∃ params, (text :: texts).mapM py.parseExpr = .ok params)
      ↔ (∃ e, py.parseExpr text = .ok e) ∧ ∃ params, texts.mapM py.parseExpr = .ok params := by
  simp only [mapM_cons_eq_ok]
  constructor
  · rintro ⟨_, e, he, params, hparams, rfl⟩
    exact ⟨⟨e, he⟩, params, hparams⟩
  · rintro ⟨⟨e, he⟩, params, hparams⟩
    exact ⟨_, e, he, params, hparams, rfl⟩

lemma reprints_iff {e : Expr} {text : String} (htext : py.unparse e = .ok text) :
    Reprints py e ↔ ∃ e', py.parseExpr text = .ok e' := by
  constructor
  · rintro ⟨text', htext', hparses⟩
    obtain rfl := Except.ok.inj (htext.symm.trans htext')
    exact hparses
  · intro hparses
    exact ⟨text, htext, hparses⟩

/-- **The segments decode, and their parameters parse**, iff every literal part differs from `?`
and every other part reprints. -/
lemma decodes_iff {parts : List Expr} :
    ∀ {segments : List Segment}, parts.mapM (concatSegment py) = some segments →
      (Decodes py parts segments
          ∧ (∃ params, (segmentParams segments).mapM py.parseExpr = .ok params)
        ↔ ∀ part ∈ parts, PartReady py part) := by
  induction parts with
  | nil =>
      intro segments h
      obtain rfl := Option.some.inj h
      simp only [List.not_mem_nil, false_imp_iff, implies_true, iff_true]
      exact ⟨⟨[], rfl, rfl, rfl⟩, [], rfl⟩
  | cons part parts ih =>
      intro segments h
      obtain ⟨pieces', hpieces', hquery', -⟩ := exists_pieces h
      obtain ⟨segment, hsegment, rest, hrest, rfl⟩ := mapM_cons_eq_some.1 h
      obtain ⟨piece, hpiece, pieces, hpieces, rfl⟩ := mapM_cons_eq_some.1 hpieces'
      obtain ⟨restPieces, hrestPieces, hquery, hlength⟩ := exists_pieces hrest
      obtain rfl := Option.some.inj (hrestPieces.symm.trans hpieces)
      rw [List.forall_mem_cons, ← ih hrest, decodes_iff_params hrestPieces hquery,
        decodes_iff_params hpieces' hquery', segmentParams_cons]
      rcases concatSegment_eq_some hsegment with ⟨loc, s, rfl, rfl⟩ | ⟨hpart, text, htext, rfl⟩
      · obtain rfl := Option.some.inj hpiece
        by_cases hs : s = "?"
        · -- the literal counts as one parameter more than there are expressions
          have hne : "" :: segmentParams rest ≠ gaps restPieces := by
            intro heq
            rw [← heq, List.length_cons] at hlength
            omega
          simp [PartReady, hs, gaps, hne]
        · simp [PartReady, hs, gaps]
      · obtain rfl := Option.some.inj (hpiece.symm.trans (partPiece_expression hpart htext))
        rw [if_pos rfl, gaps, List.cons.injEq, exists_mapM_cons, partReady_expression hpart,
          reprints_iff htext]
        tauto

/-! ## Queries -/

lemma mem_collectConcatParts_ne_nil (e : Expr) : collectConcatParts e ≠ [] := by
  fun_induction collectConcatParts e with
  | case1 loc left right ihl ihr => simp [ihl]
  | case2 e h => simp

/-- The segments of a query are those of its parts. -/
lemma querySegments_parts {tree : Module} {line : Nat} {queryArg : Expr} {segments : List Segment}
    (h : querySegments py tree line queryArg = some segments) :
    (concatParts tree line queryArg).mapM (concatSegment py) = some segments := by
  unfold querySegments at h
  split at h
  · next loc id c =>
      have hvalues : resolveAssignedConcatenation py tree id (findEnclosingFunction tree line)
          = if (assignedValues tree id (findEnclosingFunction tree line)).isEmpty then none
            else (concatParts tree line (.name loc id c)).mapM (concatSegment py) := by
        unfold resolveAssignedConcatenation assignedValues concatParts
        rfl
      rw [hvalues] at h
      split_ifs at h
      exact h
  · cases h

/-- An f-string decomposes, and its parameters parse, iff its values are ready. -/
lemma fstring_ready_iff (values : List Expr) :
    (∃ pieces, fstringPieces py values = some pieces
        ∧ ∃ params, (gaps pieces).mapM py.parseExpr = .ok params)
      ↔ ∀ value ∈ values, ValueReady py value := by
  fun_induction fstringPieces py values with
  | case1 =>
      simp only [List.not_mem_nil, false_imp_iff, implies_true, iff_true]
      exact ⟨[], rfl, [], rfl⟩
  | case2 loc s values ih =>
      rw [List.forall_mem_cons, ← ih]
      simp only [ValueReady, true_and, Option.map_eq_some_iff]
      constructor
      · rintro ⟨_, ⟨pieces, hpieces, rfl⟩, hparams⟩
        exact ⟨pieces, hpieces, hparams⟩
      · rintro ⟨pieces, hpieces, hparams⟩
        exact ⟨_, ⟨pieces, hpieces, rfl⟩, hparams⟩
  | case3 loc value conversion spec values text htext ih =>
      rw [List.forall_mem_cons, ← ih, ValueReady, reprints_iff htext]
      constructor
      · rintro ⟨_, hmap, hparams⟩
        obtain ⟨pieces, hpieces, rfl⟩ := Option.map_eq_some_iff.1 hmap
        obtain ⟨hparse, hrest⟩ := exists_mapM_cons.1 hparams
        exact ⟨hparse, pieces, hpieces, hrest⟩
      · rintro ⟨hparse, pieces, hpieces, hrest⟩
        exact ⟨_, Option.map_eq_some_iff.2 ⟨pieces, hpieces, rfl⟩,
          exists_mapM_cons.2 ⟨hparse, hrest⟩⟩
  | case4 loc value conversion spec values exc hexc =>
      simp only [reduceCtorEq, false_and, exists_false, false_iff, not_forall]
      refine ⟨_, List.mem_cons_self, ?_⟩
      rintro ⟨text, htext, -⟩
      rw [hexc] at htext
      cases htext
  | case5 value values hconst hformatted =>
      simp only [reduceCtorEq, false_and, exists_false, false_iff, not_forall]
      refine ⟨_, List.mem_cons_self, ?_⟩
      unfold ValueReady
      split
      · next loc s => exact absurd rfl (hconst loc s)
      · next loc v c f => exact absurd rfl (hformatted loc v c f)
      · exact not_false

variable {finding : CandidateFinding} {source : String} {tree : Module} {line : Nat}
  {lineText : List Char}

lemma caught_fstringTemplate {queryArg : Expr} :
    Caught (fstringTemplate py tree queryArg)
      ↔ ∃ fstring, fstringTemplate py tree queryArg = .ok fstring := by
  rw [fstringTemplate_eq]
  cases queryFstring tree queryArg with
  | none => simp [caught_ok]
  | some e =>
      simp only
      split_ifs
      · cases decomposeFstring py (fstringValues e) with
        | none => simp [not_caught_raised]
        | some parts => simp [caught_ok]
      · simp [caught_ok]

/-- What is left after the query is taken apart: its parameters parse. -/
lemma caught_sqlRewrite {call : Expr} {loc : Loc} {func queryArg : Expr}
    {keywords : List Keyword} :
    Caught (sqlRewrite py finding tree line lineText call loc func keywords queryArg)
      ↔ (∃ fstring, fstringTemplate py tree queryArg = .ok fstring)
        ∧ ∀ pieces, queryPieces py tree line queryArg = some pieces →
          ∃ params, (gaps pieces).mapM py.parseExpr = .ok params := by
  rw [sqlRewrite, caught_bind, caught_fstringTemplate]
  refine and_congr_right fun hexists => ?_
  obtain ⟨fstring, hfstring⟩ := hexists
  simp only [hfstring, Except.ok.injEq, forall_eq', template_eq hfstring]
  cases queryPieces py tree line queryArg with
  | none => simp [caught_pure]
  | some pieces =>
      simp only [Option.map_some, Option.some.injEq, forall_eq']
      rw [caught_bind, caught_unguarded]
      refine and_iff_left_of_imp fun _ params _ => ?_
      split
      · exact caught_pure _
      · exact caught_pure _

/-- Without an interpolated f-string the first strategy finds nothing. -/
lemma fstringTemplate_plain {queryArg : Expr}
    (h : (queryFstring tree queryArg).filter isInterpolated = none) :
    fstringTemplate py tree queryArg = .ok none := by
  rw [fstringTemplate_eq]
  cases hquery : queryFstring tree queryArg with
  | none => rfl
  | some e =>
      have hplain : isInterpolated e = false := by
        simpa [hquery, Option.filter] using h
      simp [hplain]

/-- An interpolated f-string has to come apart. -/
lemma fstringTemplate_interpolated {queryArg e : Expr}
    (h : (queryFstring tree queryArg).filter isInterpolated = some e) :
    (∃ fstring, fstringTemplate py tree queryArg = .ok fstring)
      ↔ ∃ pieces, fstringPieces py (fstringValues e) = some pieces := by
  obtain ⟨hquery, hinterpolated⟩ := Option.filter_eq_some_iff.1 h
  rw [fstringTemplate_eq, hquery]
  simp only [hinterpolated, if_true, decomposeFstring_eq]
  cases fstringPieces py (fstringValues e) <;> simp

/-- The query is passed on without an exception and decodes, iff it is ready. -/
lemma queryReady_iff {call : Expr} {loc : Loc} {func queryArg : Expr} {keywords : List Keyword} :
    (Caught (sqlRewrite py finding tree line lineText call loc func keywords queryArg)
        ∧ ((queryFstring tree queryArg).filter isInterpolated = none →
          ∀ segments, querySegments py tree line queryArg = some segments →
            Decodes py (concatParts tree line queryArg) segments))
      ↔ QueryReady py tree line queryArg := by
  rw [caught_sqlRewrite, queryPieces, QueryReady]
  cases hfstring : (queryFstring tree queryArg).filter isInterpolated with
  | some e =>
      simp only [fstringTemplate_interpolated hfstring, reduceCtorEq, false_imp_iff, and_true,
        ← fstring_ready_iff]
      constructor
      · rintro ⟨⟨pieces, hpieces⟩, hparams⟩
        exact ⟨pieces, hpieces, hparams pieces hpieces⟩
      · rintro ⟨pieces, hpieces, hparams⟩
        refine ⟨⟨pieces, hpieces⟩, fun pieces' hpieces' => ?_⟩
        obtain rfl := Option.some.inj (hpieces.symm.trans hpieces')
        exact hparams
  | none =>
      have hok : ∃ fstring, fstringTemplate py tree queryArg = .ok fstring :=
        ⟨none, fstringTemplate_plain hfstring⟩
      simp only [hok, true_and, true_imp_iff]
      cases hsegments : querySegments py tree line queryArg with
      | none => simp
      | some segments =>
          have hparams : gaps (segments.map Segment.piece) = segmentParams segments :=
            (Template.mk.inj (ofPieces_segments segments)).2
          simp only [Option.map_some, Option.some.injEq, forall_eq', Option.isSome_some,
            true_imp_iff, hparams]
          rw [and_comm]
          exact decodes_iff (querySegments_parts hsegments)

/-! ## Commands -/

lemma caught_commandRewrite {call : Expr} {loc : Loc} {func : Expr} {command : String}
    {fix : CommandFix} :
    Caught (commandRewrite py finding source tree line lineText call loc func command fix)
      ↔ ∃ wrapped, py.parseExpr (fix.wrapper ++ "(" ++ command ++ ")") = .ok wrapped := by
  rw [commandRewrite, caught_bind, caught_unguarded]
  refine and_iff_left_of_imp fun _ wrapped _ => ?_
  simp only
  split
  · exact caught_pure _
  · exact caught_pure _

/-! ## Proposals -/

variable (py)

/-- `build_proposal`, where `ast.parse` may also raise what is no `SyntaxError` and is not caught:
`crash` tells on which texts, as Python 3.11 does on a null byte. -/
def buildProposalOn (crash : String → Option String) (finding : CandidateFinding)
    (source : String) : Except PatchFailure RemediationProposal :=
  if finding.vulnerabilityType = "sql_injection"
      ∨ finding.vulnerabilityType = "command_injection" then do
    let _ ← sinkLines finding source
    match crash source with
    | some exc => .error (.raised exc)
    | none => buildProposal py finding source
  else buildProposal py finding source

/-- The segments that the resolver passes to the query builder decode to the parts of the query. -/
def SegmentsDecode (crash : String → Option String) (finding : CandidateFinding)
    (source : String) : Prop :=
  ∀ lineText tree loc func queryArg args keywords,
    finding.vulnerabilityType = "sql_injection" →
    sinkLines finding source = .ok (finding.sink.line, lineText) → crash source = none →
    py.parse source = .ok tree →
    FirstSmallestCall tree finding.sink.line (.call loc func (queryArg :: args) keywords) →
    isSqlMethodCall (.call loc func (queryArg :: args) keywords) →
    (queryFstring tree queryArg).filter isInterpolated = none →
    ∀ segments, querySegments py tree finding.sink.line queryArg = some segments →
      Decodes py (concatParts tree finding.sink.line queryArg) segments

/-- For a sink that a strategy looks at, `ast.parse` does not crash on the file, and the query or
the command of the first smallest call on the sink line is ready. -/
def ProposalReady (crash : String → Option String) (finding : CandidateFinding)
    (source : String) : Prop :=
  ∀ lineText, finding.vulnerabilityType = "sql_injection"
      ∨ finding.vulnerabilityType = "command_injection" →
    sinkLines finding source = .ok (finding.sink.line, lineText) →
    crash source = none ∧ ∀ tree loc func args keywords, py.parse source = .ok tree →
      FirstSmallestCall tree finding.sink.line (.call loc func args keywords) →
      (finding.vulnerabilityType = "sql_injection" →
          isSqlMethodCall (.call loc func args keywords) →
          ∀ queryArg rest, args = queryArg :: rest →
            QueryReady py tree finding.sink.line queryArg)
        ∧ (finding.vulnerabilityType = "command_injection" → CommandReady py func args keywords)

variable {py} {crash : String → Option String}

lemma sinkLines_cases : (∃ lineText, sinkLines finding source = .ok (finding.sink.line, lineText))
    ∨ ∃ message, sinkLines finding source = .error (.patchError message) := by
  simp only [sinkLines]
  split_ifs
  · exact Or.inl ⟨_, rfl⟩
  · exact Or.inr ⟨_, rfl⟩

/-- A SQL proposal is caught and its segments decode, iff the query is ready. -/
lemma sql_ready_iff (htype : finding.vulnerabilityType = "sql_injection")
    (hlocated : sinkLines finding source = .ok (finding.sink.line, lineText))
    (hcrash : crash source = none) :
    (Caught (sqlProposal py finding source) ∧ SegmentsDecode py crash finding source)
      ↔ ∀ tree loc func args keywords, py.parse source = .ok tree →
        FirstSmallestCall tree finding.sink.line (.call loc func args keywords) →
        isSqlMethodCall (.call loc func args keywords) →
        ∀ queryArg rest, args = queryArg :: rest → QueryReady py tree finding.sink.line queryArg := by
  constructor
  · rintro ⟨hcaught, hdecode⟩ tree loc func args keywords hparsed hsmallest hmethod queryArg rest rfl
    rw [sqlProposal_eq hlocated hparsed (findCallAt_eq_some_iff.2 hsmallest) hmethod] at hcaught
    exact queryReady_iff.1 ⟨hcaught, hdecode lineText tree loc func queryArg rest keywords htype
      hlocated hcrash hparsed hsmallest hmethod⟩
  · intro hready
    constructor
    · cases hparsed : py.parse source with
      | error exc =>
          simp only [sqlProposal, hlocated, hparsed, bind, Except.bind]
          exact caught_pure _
      | ok tree =>
          cases hcalled : findCallAt tree finding.sink.line with
          | none =>
              simp only [sqlProposal, hlocated, hparsed, hcalled, bind, Except.bind]
              exact caught_pure _
          | some chosen =>
              by_cases hmethod : isSqlMethodCall chosen
              · obtain ⟨loc, fl, receiver, attr, fc, args, keywords, rfl, hattr⟩ :=
                  isSqlMethodCall_iff.1 hmethod
                cases args with
                | nil =>
                    simp only [sqlProposal, hlocated, hparsed, hcalled, hattr, if_true, bind,
                      Except.bind]
                    exact caught_pure _
                | cons queryArg rest =>
                    rw [sqlProposal_eq hlocated hparsed hcalled hmethod]
                    exact (queryReady_iff.2 (hready tree _ _ _ _ hparsed
                      (findCallAt_eq_some_iff.1 hcalled) hmethod queryArg rest rfl)).1
              · simp only [sqlProposal, hlocated, hparsed, hcalled, bind, Except.bind]
                split
                · next loc fl receiver attr fc args keywords heq =>
                    obtain rfl := Option.some.inj heq
                    rw [if_neg fun hattr => hmethod
                      (isSqlMethodCall_iff.2 ⟨loc, fl, receiver, attr, fc, args, keywords, rfl, hattr⟩)]
                    exact caught_pure _
                · exact caught_pure _
    · intro lineText' tree loc func queryArg args keywords _ hlocated' _ hparsed hsmallest hmethod
      have hquery := hready tree loc func (queryArg :: args) keywords hparsed hsmallest hmethod
        queryArg args rfl
      have hrewrite : Caught (sqlRewrite py finding tree finding.sink.line lineText func loc func
          keywords queryArg) ∧ _ := queryReady_iff.2 hquery
      exact hrewrite.2

/-- What is proposed for a call. -/
lemma cmdProposal_of_called {loc : Loc} {func : Expr} {args : List Expr} {keywords : List Keyword}
    (hlocated : sinkLines finding source = .ok (finding.sink.line, lineText))
    (hparsed : py.parse source = .ok tree)
    (hcalled : findCallAt tree finding.sink.line = some (.call loc func args keywords)) :
    cmdProposal py finding source = (do
      let funcName ← unguarded (py.unparse func)
      match args with
      | [] => pure (noFix finding "command call has no command argument")
      | arg :: _ =>
          let command ← unguarded (py.unparse arg)
          match commandFix funcName keywords with
          | none => pure (noFix finding "unrecognized command execution sink")
          | some fix =>
              commandRewrite py finding source tree finding.sink.line lineText
                (.call loc func args keywords) loc func command fix) := by
  simp only [cmdProposal, hlocated, hparsed, hcalled]
  rfl

/-- What is proposed for a call is caught iff its command is ready. -/
lemma caught_cmdCall {loc : Loc} {func : Expr} {args : List Expr} {keywords : List Keyword}
    (hlocated : sinkLines finding source = .ok (finding.sink.line, lineText))
    (hparsed : py.parse source = .ok tree)
    (hcalled : findCallAt tree finding.sink.line = some (.call loc func args keywords)) :
    Caught (cmdProposal py finding source) ↔ CommandReady py func args keywords := by
  rw [cmdProposal_of_called hlocated hparsed hcalled, caught_bind, caught_unguarded, CommandReady]
  constructor
  · rintro ⟨⟨funcName, hname⟩, hrest⟩
    refine ⟨funcName, hname, ?_⟩
    rintro arg rest rfl
    have hargument := hrest funcName (unguarded_eq_ok.2 hname)
    simp only [caught_bind, caught_unguarded] at hargument
    obtain ⟨⟨command, hcommand⟩, hfixes⟩ := hargument
    refine ⟨command, hcommand, fun fix hfix => ?_⟩
    have hwrapped := hfixes command (unguarded_eq_ok.2 hcommand)
    simp only [hfix] at hwrapped
    exact caught_commandRewrite.1 hwrapped
  · rintro ⟨funcName, hname, hready⟩
    refine ⟨⟨funcName, hname⟩, fun name hname' => ?_⟩
    obtain rfl := Except.ok.inj (hname.symm.trans (unguarded_eq_ok.1 hname'))
    cases args with
    | nil => exact caught_pure _
    | cons arg rest =>
        obtain ⟨command, hcommand, hfixes⟩ := hready arg rest rfl
        simp only [caught_bind, caught_unguarded]
        refine ⟨⟨command, hcommand⟩, fun text htext => ?_⟩
        obtain rfl := Except.ok.inj (hcommand.symm.trans (unguarded_eq_ok.1 htext))
        split
        · exact caught_pure _
        · next fix hfix => exact caught_commandRewrite.2 (hfixes fix hfix)

/-- A command proposal is caught iff its command is ready. -/
lemma cmd_ready_iff (hlocated : sinkLines finding source = .ok (finding.sink.line, lineText)) :
    Caught (cmdProposal py finding source)
      ↔ ∀ tree loc func args keywords, py.parse source = .ok tree →
        FirstSmallestCall tree finding.sink.line (.call loc func args keywords) →
        CommandReady py func args keywords := by
  constructor
  · intro hcaught tree loc func args keywords hparsed hsmallest
    exact (caught_cmdCall hlocated hparsed (findCallAt_eq_some_iff.2 hsmallest)).1 hcaught
  · intro hready
    cases hparsed : py.parse source with
    | error exc =>
        simp only [cmdProposal, hlocated, hparsed, bind, Except.bind]
        exact caught_pure _
    | ok tree =>
        cases hcalled : findCallAt tree finding.sink.line with
        | none =>
            simp only [cmdProposal, hlocated, hparsed, hcalled, bind, Except.bind]
            exact caught_pure _
        | some chosen =>
            cases chosen with
            | call loc func args keywords =>
                exact (caught_cmdCall hlocated hparsed hcalled).2 (hready tree loc func args
                  keywords hparsed (findCallAt_eq_some_iff.1 hcalled))
            | _ =>
                simp only [cmdProposal, hlocated, hparsed, hcalled, bind, Except.bind]
                exact caught_pure _

/-- Readiness where the sink line exists and the file can be handed to the parser. -/
lemma proposalReady_iff (htype : finding.vulnerabilityType = "sql_injection"
      ∨ finding.vulnerabilityType = "command_injection")
    (hlocated : sinkLines finding source = .ok (finding.sink.line, lineText))
    (hcrash : crash source = none) :
    ProposalReady py crash finding source
      ↔ ∀ tree loc func args keywords, py.parse source = .ok tree →
        FirstSmallestCall tree finding.sink.line (.call loc func args keywords) →
        (finding.vulnerabilityType = "sql_injection" →
            isSqlMethodCall (.call loc func args keywords) →
            ∀ queryArg rest, args = queryArg :: rest →
              QueryReady py tree finding.sink.line queryArg)
          ∧ (finding.vulnerabilityType = "command_injection" →
            CommandReady py func args keywords) := by
  constructor
  · intro hready
    exact (hready lineText htype hlocated).2
  · intro hready text _ _
    exact ⟨hcrash, hready⟩

/-- **`build_proposal` is total, and its segments decode**, iff what it takes apart is ready: every
expression it prints can be printed, every text it parses again parses, and no literal part of a
concatenated query is a lone `?`. -/
theorem totalProposal_iff (py : Stdlib) (crash : String → Option String)
    (finding : CandidateFinding) (source : String) :
    (Caught (buildProposalOn py crash finding source) ∧ SegmentsDecode py crash finding source)
      ↔ ProposalReady py crash finding source := by
  by_cases htype : finding.vulnerabilityType = "sql_injection"
      ∨ finding.vulnerabilityType = "command_injection"
  · simp only [buildProposalOn, htype, if_true]
    rcases @sinkLines_cases finding source with ⟨lineText, hlocated⟩ | ⟨message, hmessage⟩
    · cases hcrash : crash source with
      | some exc =>
          refine iff_of_false ?_ ?_
          · rintro ⟨hcaught, -⟩
            simp only [hlocated, bind, Except.bind] at hcaught
            exact not_caught_raised exc hcaught
          · intro hready
            have hnone := (hready lineText htype hlocated).1
            rw [hcrash] at hnone
            cases hnone
      | none =>
          simp only [hlocated, bind, Except.bind]
          rw [proposalReady_iff htype hlocated hcrash]
          by_cases hsql : finding.vulnerabilityType = "sql_injection"
          · have hcommand : finding.vulnerabilityType ≠ "command_injection" := by
              rw [hsql]
              decide
            simp only [buildProposal, hsql, if_true]
            rw [sql_ready_iff hsql hlocated hcrash]
            simp
          · have hcommand := htype.resolve_left hsql
            have hdecode : SegmentsDecode py crash finding source := by
              intro _ _ _ _ _ _ _ h
              exact absurd h hsql
            have hbuild : buildProposal py finding source = cmdProposal py finding source := by
              rw [buildProposal, if_neg hsql, if_pos hcommand]
            rw [hbuild, cmd_ready_iff hlocated, and_iff_left hdecode]
            simp only [hsql, false_imp_iff, true_and, forall_prop_of_true hcommand]
    · refine iff_of_true ⟨?_, ?_⟩ ?_
      · simp only [hmessage, bind, Except.bind]
        exact caught_patchError message
      · intro lineText _ _ _ _ _ _ _ hlocated
        rw [hmessage] at hlocated
        cases hlocated
      · intro lineText _ hlocated
        rw [hmessage] at hlocated
        cases hlocated
  · obtain ⟨hsql, hcommand⟩ := not_or.1 htype
    refine iff_of_true ⟨?_, ?_⟩ ?_
    · simp only [buildProposalOn, if_false, buildProposal, hsql, hcommand]
      exact caught_ok _
    · intro _ _ _ _ _ _ _ h
      exact absurd h hsql
    · intro _ h
      exact absurd h htype

/-! ## A literal part that is a question mark -/

/-- A file whose query ends in a literal `?`. -/
def markText : String := "def find(x):\n    q = x + '?'\n    db.execute(q)\n"

/-- The tree of that file. -/
def markTree : Module where
  body := [functionAt 1 "find" "x"
    [.assign (spanOf 2 4 15) [.name (spanOf 2 4 5) "q" .store]
      (.binOp (spanOf 2 8 15) (nameAt 2 8 "x") .add (.constant (spanOf 2 12 15) (.str "?"))),
     .expr (spanOf 3 4 17) (callAt 3 4 "db" "execute" (nameAt 3 15 "q"))]]

/-- An interpreter that knows that file, and the expression `x`. -/
def markPython : Stdlib := tabulatedPython [(markText, markTree)] [("x", nameAt 1 0 "x")]

/-- The finding at its sink. -/
def markFinding : CandidateFinding where
  id := "f"
  vulnerabilityType := "sql_injection"
  severity := "high"
  confidence := 1
  source := ⟨"app.py", 1, "def find(x):", "function_param"⟩
  sink := ⟨"app.py", 3, "db.execute(q)", "sql_execute"⟩
  taintPath := []
  evidence := ⟨"", "", [], [], []⟩

/-- **Not every proposal is caught**: the literal is taken for a placeholder without an expression,
whose empty text does not parse. -/
theorem not_totalProposal :
    ¬ (Caught (buildProposalOn markPython (fun _ => none) markFinding markText)
      ∧ SegmentsDecode markPython (fun _ => none) markFinding markText) := by
  rintro ⟨hcaught, -⟩
  have hraised : buildProposalOn markPython (fun _ => none) markFinding markText
      = .error (.raised "not tabulated") := rfl
  exact hcaught "not tabulated" hraised

end Sast
