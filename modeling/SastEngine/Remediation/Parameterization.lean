import SastEngine.Lib.Template
import SastEngine.Python.Eval
import SastEngine.Python.Tabulated
import SastEngine.Remediation.Proposals

/-!
# Parameterized queries

`_sql_proposal` takes the query of a sink apart into literal text and interpolated expressions,
puts a `?` in place of each expression, and passes the expressions as the parameters of the call.
For a query variable the pieces are those of every assignment to the name, in source order.  Here
the new call is compared with the old one at the moments at which an execution of the enclosing
function reaches the sink.
-/

namespace Sast

variable (py : Stdlib)

/-! ## The pieces of a query -/

/-- The template and the parameters of a query in pieces. -/
def Template.ofPieces (pieces : List (Piece String)) : Template :=
  ⟨String.ofList (templateOf '?' pieces), gaps pieces⟩

/-- The pieces of an f-string, with the text of each interpolated expression. -/
def fstringPieces : List Expr → Option (List (Piece String))
  | [] => some []
  | .constant _ (.str s) :: values => (fstringPieces values).map (.text s.toList :: ·)
  | .formattedValue _ value _ _ :: values =>
      match py.unparse value with
      | .ok text => (fstringPieces values).map (.gap text :: ·)
      | .error _ => none
  | _ :: _ => none

/-- The piece of a segment: one whose literal is `?` counts as an interpolation. -/
def Segment.piece (s : Segment) : Piece String :=
  if s.literal = "?" then .gap s.expression else .text s.literal.toList

lemma decomposeFstring_eq (values : List Expr) :
    decomposeFstring py values = (fstringPieces py values).map fun pieces =>
      (pieces.map fun | .text cs => String.ofList cs | .gap _ => "?", gaps pieces) := by
  fun_induction decomposeFstring py values with
  | case1 => rfl
  | case2 loc s values ih => simp [fstringPieces, ih, gaps, Function.comp_def]
  | case3 loc value conversion spec values text htext ih =>
      simp [fstringPieces, htext, ih, gaps, Function.comp_def]
  | case4 loc value conversion spec values exc hexc => simp [fstringPieces, hexc]
  | case5 value values hconst hformatted => simp [fstringPieces]

lemma join_pieces (pieces : List (Piece String)) :
    String.join (pieces.map fun | .text cs => String.ofList cs | .gap _ => "?")
      = String.ofList (templateOf '?' pieces) := by
  induction pieces with
  | nil => rfl
  | cons p pieces ih =>
      cases p with
      | text cs => simp [templateOf, String.join_cons, ih, String.ofList_append]
      | gap text =>
          rw [List.map_cons, String.join_cons, ih, templateOf, ← List.singleton_append,
            String.ofList_append]

lemma ofPieces_segments (segments : List Segment) :
    Template.ofPieces (segments.map Segment.piece)
      = ⟨String.join (segments.map Segment.literal), segmentParams segments⟩ := by
  induction segments with
  | nil => rfl
  | cons s segments ih =>
      obtain ⟨hquery, hparams⟩ := Template.mk.inj ih
      simp only [Template.ofPieces, List.map_cons, String.join_cons, ← hquery, Template.mk.injEq]
      by_cases hs : s.literal = "?"
      · simp only [Segment.piece, hs, if_true, templateOf, gaps, hparams, segmentParams,
          decide_true, List.filter_cons_of_pos, List.map_cons, and_true]
        rw [← List.singleton_append, String.ofList_append]
      · simp [Segment.piece, hs, templateOf, gaps, hparams, segmentParams, String.ofList_append]

/-- The f-string that a query argument is or is assigned. -/
def queryFstring (tree : Module) : Expr → Option Expr
  | .joinedStr l values => some (.joinedStr l values)
  | .name _ id _ => resolveAssignedFstring tree id
  | _ => none

/-- The segments of the concatenations assigned to a query variable. -/
def querySegments (tree : Module) (line : Nat) : Expr → Option (List Segment)
  | .name _ id _ => resolveAssignedConcatenation py tree id (findEnclosingFunction tree line)
  | _ => none

/-- The pieces of the query, from the first strategy that applies. -/
def queryPieces (tree : Module) (line : Nat) (queryArg : Expr) : Option (List (Piece String)) :=
  match (queryFstring tree queryArg).filter isInterpolated with
  | some fstring => fstringPieces py (fstringValues fstring)
  | none => (querySegments py tree line queryArg).map (·.map Segment.piece)

variable {py}

lemma concatTemplate_eq (tree : Module) (line : Nat) (queryArg : Expr) :
    concatTemplate py tree line queryArg
      = ((querySegments py tree line queryArg).map (·.map Segment.piece)).map .ofPieces := by
  cases queryArg <;> simp [concatTemplate, querySegments, Function.comp_def, ofPieces_segments]

lemma fstringTemplate_eq (tree : Module) (queryArg : Expr) :
    fstringTemplate py tree queryArg
      = match queryFstring tree queryArg with
        | none => .ok none
        | some e =>
            if isInterpolated e then
              match decomposeFstring py (fstringValues e) with
              | some (parts, params) => .ok (some ⟨String.join parts, params⟩)
              | none => .error (.raised "cannot unpack non-iterable NoneType object")
            else .ok none := by
  cases queryArg <;> rfl

/-- **Either strategy** turns the query into the template of its pieces. -/
lemma template_eq {tree : Module} {line : Nat} {queryArg : Expr} {fstring : Option Template}
    (h : fstringTemplate py tree queryArg = .ok fstring) :
    fstring.or (concatTemplate py tree line queryArg)
      = (queryPieces py tree line queryArg).map .ofPieces := by
  rw [fstringTemplate_eq] at h
  rw [queryPieces, concatTemplate_eq]
  cases hquery : queryFstring tree queryArg with
  | none =>
      rw [hquery] at h
      obtain rfl := Except.ok.inj h
      rfl
  | some e =>
      rw [hquery] at h
      simp only at h
      split_ifs at h with hinterpolated
      · rw [decomposeFstring_eq] at h
        cases hpieces : fstringPieces py (fstringValues e) with
        | none => simp [hpieces] at h
        | some pieces =>
            simp only [hpieces, Option.map_some, Except.ok.injEq] at h
            obtain rfl := h
            simp [Option.filter, hinterpolated, hpieces, join_pieces, Template.ofPieces]
      · obtain rfl := Except.ok.inj h
        simp [Option.filter, hinterpolated]

/-! ## Queries and their templates -/

variable {finding : CandidateFinding} {source : String} {proposal : RemediationProposal}

/-- The quotes of SQL literals. -/
def isSqlQuote (c : Char) : Bool := c = '\'' || c = '"'

/-- The query of a sink, in pieces, and the parsed parameters of its replacement. -/
structure Parameterized (rewrite : SinkRewrite py finding source proposal) where
  loc : Loc
  func : Expr
  queryArg : Expr
  args : List Expr
  keywords : List Keyword
  pieces : List (Piece String)
  params : List Expr
  call_eq : rewrite.call = .call loc func (queryArg :: args) keywords
  decomposed : queryPieces py rewrite.tree finding.sink.line queryArg = some pieces
  reparsed : (gaps pieces).mapM py.parseExpr = .ok params
  newCall_eq : rewrite.newCall
    = parameterizedCall loc func keywords (String.ofList (templateOf '?' pieces)) params

/-- **Every generated parameterization** takes its query apart in this way. -/
theorem exists_parameterized (rewrite : SinkRewrite py finding source proposal)
    (hstrategy : proposal.strategy = .parameterizeQuery) : Nonempty (Parameterized rewrite) := by
  obtain ⟨-, -, ⟨z⟩⟩ | ⟨hsql, -⟩ := rewrite.kind
  · have htemplate := z.templated
    rw [template_eq z.resolved] at htemplate
    obtain ⟨pieces, hpieces, heq⟩ := Option.map_eq_some_iff.1 htemplate
    have hparams := z.reparsed
    have hnewCall := z.newCall_eq
    rw [← heq] at hparams hnewCall
    exact ⟨⟨z.loc, z.func, z.queryArg, z.args, z.keywords, pieces, z.params, z.call_eq, hpieces,
      hparams, hnewCall⟩⟩
  · exact absurd hstrategy hsql

variable {rewrite : SinkRewrite py finding source proposal}

/-- The new query. -/
def Parameterized.query (z : Parameterized rewrite) : List Char := templateOf '?' z.pieces

/-- The texts of parameters at a moment. -/
def textsAt (frame : Frame) (params : List Expr) : Option (List (List Char)) :=
  params.mapM fun param => (frame.text param).map String.toList

lemma Parameterized.length_params (z : Parameterized rewrite) :
    z.params.length = (gaps z.pieces).length :=
  (mapM_forall₂ z.reparsed).length_eq.symm

variable (py)

/-- Wherever the query is a string, the new call stands for it: there is one placeholder for each
parameter, no placeholder of the rewrite is quoted, and the placeholders replaced by the texts of
the parameters give the query. -/
def PreservesQuery (finding : CandidateFinding) (source : String) (reached : Frame → Prop) : Prop :=
  ∀ proposal, buildProposal py finding source = .ok proposal →
    proposal.strategy = .parameterizeQuery →
    ∀ (rewrite : SinkRewrite py finding source proposal) (z : Parameterized rewrite),
    ∀ frame, reached frame → ∀ query : String, frame.eval z.queryArg = some (.str query) →
      placeholders isSqlQuote '?' none z.query = z.params.length
        ∧ GapsUnquoted isSqlQuote none z.pieces
        ∧ ∃ texts, textsAt frame z.params = some texts
          ∧ fill isSqlQuote '?' none z.query texts = some query.toList

/-- Wherever the query is a string, no interpolation is quoted, no literal piece has a placeholder
of its own, and the query is the pieces with the current texts of the interpolations. -/
def PiecesMatch (finding : CandidateFinding) (source : String) (reached : Frame → Prop) : Prop :=
  ∀ proposal, buildProposal py finding source = .ok proposal →
    proposal.strategy = .parameterizeQuery →
    ∀ (rewrite : SinkRewrite py finding source proposal) (z : Parameterized rewrite),
    ∀ frame, reached frame → ∀ query : String, frame.eval z.queryArg = some (.str query) →
      GapsUnquoted isSqlQuote none z.pieces
        ∧ Unmarked isSqlQuote '?' none z.pieces
        ∧ ∃ texts, textsAt frame z.params = some texts ∧ expand z.pieces texts = some query.toList

variable {py}

lemma textsAt_cons {sink : Frame} {param : Expr} {params : List Expr} {text : String}
    {texts : List (List Char)} (htext : sink.text param = some text)
    (htexts : textsAt sink params = some texts) :
    textsAt sink (param :: params) = some (text.toList :: texts) := by
  rw [textsAt] at htexts ⊢
  simp [List.mapM_cons, htext, htexts]

/-- **An f-string is made up by its pieces** if it converts and formats no value, and printing an
interpolated expression, parsing it again and evaluating it at the sink gives the text it had when
the f-string was built. -/
theorem expand_fstring {built sink : Frame}
    (hsame : ∀ e text param, py.unparse e = .ok text → py.parseExpr text = .ok param →
      sink.text param = built.text e) {values : List Expr} :
    ∀ {pieces : List (Piece String)} {params : List Expr} {query : String},
      (∀ loc value conversion spec, Expr.formattedValue loc value conversion spec ∈ values →
        conversion = -1 ∧ spec = none) →
      fstringPieces py values = some pieces → (gaps pieces).mapM py.parseExpr = .ok params →
      built.join values = some query →
      ∃ texts, textsAt sink params = some texts ∧ expand pieces texts = some query.toList := by
  fun_induction fstringPieces py values with
  | case1 =>
      intro pieces params query _ hpieces hparams hquery
      obtain rfl := Option.some.inj hpieces
      obtain rfl := pure_eq_ok.1 hparams
      simp only [Frame.join, Option.some.injEq] at hquery
      subst hquery
      exact ⟨[], rfl, rfl⟩
  | case2 loc s values ih =>
      intro pieces params query hplain hpieces hparams hquery
      obtain ⟨rest, hrest, rfl⟩ := Option.map_eq_some_iff.1 hpieces
      simp only [Frame.join, Option.map_eq_some_iff] at hquery
      obtain ⟨tail, htail, rfl⟩ := hquery
      obtain ⟨texts, htexts, hexpand⟩ :=
        ih (fun l v c f hmem => hplain l v c f (List.mem_cons_of_mem _ hmem)) hrest hparams htail
      exact ⟨texts, htexts, by simp [expand, hexpand]⟩
  | case3 loc value conversion spec values text htext ih =>
      intro pieces params query hplain hpieces hparams hquery
      obtain ⟨rest, hrest, rfl⟩ := Option.map_eq_some_iff.1 hpieces
      obtain ⟨param, hparam, others, hothers, rfl⟩ := mapM_cons_eq_ok.1 hparams
      obtain ⟨rfl, rfl⟩ := hplain loc value conversion spec List.mem_cons_self
      simp only [Frame.join, Option.isNone_none, and_self, if_true] at hquery
      split at hquery
      · next v tail hv htail =>
          obtain rfl := Option.some.inj hquery
          obtain ⟨texts, htexts, hexpand⟩ :=
            ih (fun l v c f hmem => hplain l v c f (List.mem_cons_of_mem _ hmem)) hrest hothers
              htail
          have hvalue : sink.text param = some v.text := by
            rw [hsame value text param htext hparam, Frame.text, hv]
            rfl
          exact ⟨_, textsAt_cons hvalue htexts, by simp [expand, hexpand]⟩
      · cases hquery
  | case4 loc value conversion spec values exc hexc =>
      intro pieces params query _ hpieces
      cases hpieces
  | case5 value values hconst hformatted =>
      intro pieces params query _ hpieces
      cases hpieces

/-- A segment is a literal, or a placeholder with a printed expression. -/
lemma concatSegment_cases {part : Expr} {segment : Segment}
    (h : concatSegment py part = some segment) :
    (∃ loc s, part = .constant loc (.str s) ∧ segment = ⟨s, ""⟩)
      ∨ ∃ text, py.unparse part = .ok text ∧ segment = ⟨"?", text⟩ := by
  have hplaceholder : ∀ e, concatSegment.placeholder py e = some segment →
      ∃ text, py.unparse e = .ok text ∧ segment = ⟨"?", text⟩ := by
    intro e he
    simp only [concatSegment.placeholder] at he
    split at he
    · next text htext => exact ⟨text, htext, (Option.some.inj he).symm⟩
    · cases he
  unfold concatSegment at h
  split at h
  · next loc s => exact Or.inl ⟨loc, s, rfl, (Option.some.inj h).symm⟩
  · exact Or.inr (hplaceholder _ h)
  · exact Or.inr (hplaceholder _ h)
  · exact Or.inr (hplaceholder _ h)
  · cases h

/-- The value of a concatenation of strings. -/
lemma eval_concat {frame : Frame} (e : Expr) :
    ∀ {texts : List String},
      List.Forall₂ (fun text part => frame.eval part = some (.str text)) texts
        (collectConcatParts e) → frame.eval e = some (.str (String.join texts)) := by
  fun_induction collectConcatParts e with
  | case1 loc left right ihl ihr =>
      intro texts h
      have hleft := ihl (List.forall₂_take_append _ _ _ h)
      have hright := ihr (List.forall₂_drop_append _ _ _ h)
      simp only [Frame.eval, hleft, hright, ← String.join_append, List.take_append_drop]
  | case2 e hadd =>
      intro texts h
      obtain ⟨text, rest, htext, hrest, rfl⟩ := List.forall₂_cons_right_iff.1 h
      obtain rfl := List.forall₂_nil_right_iff.1 hrest
      simpa [String.join_cons] using htext

/-- **Concatenated parts make up a query** if each is a string when it is appended, none is the
literal `?`, and printing it, parsing it again and evaluating it at the sink gives that string. -/
theorem expand_segments {sink : Frame} {parts : List (Frame × Expr)} {texts : List String}
    (hstrings : List.Forall₂ (fun text part => part.1.eval part.2 = some (.str text)) texts parts) :
    ∀ {segments : List Segment} {params : List Expr},
      (∀ part ∈ parts, ∀ loc, part.2 ≠ .constant loc (.str "?")) →
      (∀ part ∈ parts, ∀ text param, py.unparse part.2 = .ok text →
        py.parseExpr text = .ok param → sink.text param = part.1.text part.2) →
      (parts.map Prod.snd).mapM (concatSegment py) = some segments →
      (gaps (segments.map Segment.piece)).mapM py.parseExpr = .ok params →
      ∃ values, textsAt sink params = some values
        ∧ expand (segments.map Segment.piece) values = some (String.join texts).toList := by
  induction hstrings with
  | nil =>
      intro segments params _ _ hsegments hparams
      obtain rfl := Option.some.inj hsegments
      obtain rfl := pure_eq_ok.1 hparams
      exact ⟨[], rfl, rfl⟩
  | @cons text part texts parts htext _ ih =>
      intro segments params hliteral hsame hsegments hparams
      have hliteral' := fun p hp => hliteral p (List.mem_cons_of_mem part hp)
      have hsame' := fun p hp => hsame p (List.mem_cons_of_mem part hp)
      simp only [List.map_cons, List.mapM_cons, Option.bind_eq_bind, Option.bind_eq_some_iff,
        Option.pure_def, Option.some.injEq] at hsegments
      obtain ⟨segment, hsegment, rest, hrest, rfl⟩ := hsegments
      rcases concatSegment_cases hsegment with ⟨loc, s, hpart, rfl⟩ | ⟨printed, hprinted, rfl⟩
      · have hs : s ≠ "?" := by
          rintro rfl
          exact hliteral part List.mem_cons_self loc hpart
        rw [hpart, Frame.eval, Option.some.injEq, Value.str.injEq] at htext
        subst htext
        simp only [List.map_cons, Segment.piece, hs, if_false, gaps] at hparams ⊢
        obtain ⟨values, hvalues, hexpand⟩ := ih hliteral' hsame' hrest hparams
        exact ⟨values, hvalues, by simp [expand, hexpand, String.join_cons]⟩
      · simp only [List.map_cons, Segment.piece, if_true, gaps] at hparams ⊢
        obtain ⟨param, hparam, others, hothers, rfl⟩ := mapM_cons_eq_ok.1 hparams
        obtain ⟨values, hvalues, hexpand⟩ := ih hliteral' hsame' hrest hothers
        have hvalue : sink.text param = some text := by
          rw [hsame part List.mem_cons_self printed param hprinted hparam, Frame.text, htext]
          rfl
        exact ⟨_, textsAt_cons hvalue hvalues, by simp [expand, hexpand, String.join_cons]⟩

/-! ## A literal question mark -/

/-- A query with an interpolated table name and a parameter of its own. -/
def mixedText : String :=
  "def find(table):\n    db.execute(f\"SELECT * FROM {table} WHERE id = ?\", (1,))\n"

/-- The f-string of that query. -/
def mixedQuery : Expr :=
  .joinedStr (spanOf 2 15 52) [.constant (spanOf 2 17 31) (.str "SELECT * FROM "),
    .formattedValue (spanOf 2 31 38) (nameAt 2 32 "table") (-1) none,
    .constant (spanOf 2 38 51) (.str " WHERE id = ?")]

/-- The sink call. -/
def mixedCall : Expr :=
  .call (spanOf 2 4 59) (dottedAt 2 4 "db" "execute")
    [mixedQuery, .tuple (spanOf 2 54 58) [.constant (spanOf 2 55 56) (.int 1)] .load] []

/-- The tree of the file. -/
def mixedTree : Module := ⟨[functionAt 1 "find" "table" [.expr mixedCall.loc mixedCall]]⟩

/-- An interpreter that knows the file. -/
def mixedPython : Stdlib :=
  tabulatedPython
    [(mixedText, mixedTree)]
    [("table", nameAt 1 0 "table")]

/-- The finding at that call. -/
def mixedFinding : CandidateFinding where
  id := "f"
  vulnerabilityType := "sql_injection"
  severity := "high"
  confidence := 1
  source := ⟨"app.py", 1, "def find(table):", "parameter"⟩
  sink := ⟨"app.py", 2, "db.execute(f\"SELECT * FROM {table} WHERE id = ?\", (1,))", "db.execute"⟩
  taintPath := []
  evidence := ⟨"", "", [], [], []⟩

lemma mixed_proposal : ∃ proposal, buildProposal mixedPython mixedFinding mixedText = .ok proposal
    ∧ proposal.strategy = .parameterizeQuery := by
  have hstrategy : (buildProposal mixedPython mixedFinding mixedText).map
      RemediationProposal.strategy = .ok .parameterizeQuery := by decide +kernel
  cases h : buildProposal mixedPython mixedFinding mixedText with
  | error e => simp [h, Except.map] at hstrategy
  | ok proposal =>
      rw [h] at hstrategy
      exact ⟨proposal, rfl, Except.ok.inj hstrategy⟩

/-- The pieces of that query are its literals around the table name. -/
lemma mixed_pieces {proposal : RemediationProposal}
    {rewrite : SinkRewrite mixedPython mixedFinding mixedText proposal}
    (z : Parameterized rewrite) : z.queryArg = mixedQuery
      ∧ z.pieces = [.text "SELECT * FROM ".toList, .gap "table", .text " WHERE id = ?".toList] := by
  have htree : rewrite.tree = mixedTree :=
    Except.ok.inj (rewrite.parsed.symm.trans (show mixedPython.parse mixedText = .ok mixedTree
      from rfl))
  have hcall : rewrite.call = mixedCall := by
    have hcalled := rewrite.called
    rw [htree, show findCallAt mixedTree mixedFinding.sink.line = some mixedCall from rfl] at hcalled
    exact (Option.some.inj hcalled).symm
  have hquery : z.queryArg = mixedQuery := by
    have hargs := z.call_eq
    rw [hcall, mixedCall] at hargs
    injection hargs with _ _ hargs _
    exact (List.cons.inj hargs).1.symm
  refine ⟨hquery, ?_⟩
  have hpieces := z.decomposed
  rw [hquery] at hpieces
  exact (Option.some.inj hpieces).symm

end Sast
