import Mathlib.Tactic.NormNum
import SastEngine.Scan.Identity
import SastEngine.Scan.Provenance

/-!
# The reported source

A finding shows one source: file, line and snippet are those of the first step of its taint, the
kind is chosen among all merged parts, and the confidence starts from a base that depends on the
kind.  Both are read here against the origins of the sink expression: `oneSource_iff` says when
they belong to one origin, `requestsShown_iff` when every request object that some branch carries
to the sink is seen in the finding.
-/

namespace Sast

variable {ctx : FileContext} {scope : Scope} {f : TracedFlow}

/-! ## Kind and confidence -/

/-- The base that the confidence of a finding started from: a tenth is taken off a long chain. -/
def confidenceBase (finding : CandidateFinding) : Rat :=
  if 3 ≤ (finding.taintPath.filter isIntermediate).length then finding.confidence + 1 / 10
  else finding.confidence

/-- The default rules share the confidence. -/
lemma confidence_defaultRules {py : Stdlib} :
    ∀ rule ∈ defaultRules py, rule.confidence = taintConfidence := by
  intro rule hrule
  simp only [defaultRules, List.mem_cons, List.not_mem_nil, or_false] at hrule
  rcases hrule with rfl | rfl | rfl | rfl <;> rfl

/-- The base is 0.9 iff the kind is that of a request object. -/
lemma confidenceBase_iff (hconfidence : ctx.rule.confidence = taintConfidence) :
    confidenceBase (f.finding ctx) = 9 / 10
      ↔ startswith "request" (f.finding ctx).source.kind = true := by
  have hvalue : (f.finding ctx).confidence
      = taintConfidence (f.finding ctx).taintPath (f.finding ctx).source.kind := by
    show ctx.rule.confidence _ _ = _
    rw [hconfidence]
    rfl
  rw [confidenceBase, hvalue, taintConfidence]
  split_ifs with hlong hrequest hrequest <;> simp only [hrequest] <;> norm_num

/-- The finding shows the origin: its source has the place and the text of the origin. -/
def ShowsOrigin (ctx : FileContext) (finding : CandidateFinding) (origin : Origin) : Prop :=
  finding.source.file = (origin.step ctx).file ∧ finding.source.line = (origin.step ctx).line
    ∧ finding.source.snippet = (origin.step ctx).snippet

/-- The kind of a finding is the preferred one of the origins kept. -/
lemma TracedFlow.Spec.kind (h : f.Spec ctx scope) :
    (f.finding ctx).source.kind = preferredKind (f.kept ctx) := h.derives.kind

@[simp] lemma Origin.step_stepType (origin : Origin) (hreal : origin.Real ctx scope) :
    (origin.step ctx).stepType = .source := by
  cases origin with
  | param name step =>
      obtain ⟨loc, args, body, seen, -, -, rfl⟩ := hreal
      rfl
  | source expr ref => rfl

/-- A finding shows the first origin kept, and those with the same step. -/
lemma TracedFlow.Spec.shows_iff (h : f.Spec ctx scope) {origin : Origin}
    (horigin : origin ∈ f.carried ctx) : ShowsOrigin ctx (f.finding ctx) origin
      ↔ (f.kept ctx).head?.map (Origin.step ctx) = some (origin.step ctx) := by
  obtain ⟨first, rest, steps, hkept, hsteps⟩ := h.derives.first
  have hfirst : (first.step ctx).stepType = .source := by
    refine first.step_stepType (h.real first (h.subset ?_))
    rw [hkept]
    exact List.mem_cons_self
  have htype : (origin.step ctx).stepType = .source := origin.step_stepType (h.real origin horigin)
  have hsource : (f.finding ctx).source
      = ⟨(first.step ctx).file, (first.step ctx).line, (first.step ctx).snippet,
        f.flow.taint.sourceKind⟩ := by
    simp only [TracedFlow.finding, SinkFlow.finding, emitFinding, hsteps, List.headD_cons]
  rw [ShowsOrigin, hsource, hkept, List.head?_cons, Option.map_some, Option.some.injEq]
  constructor
  · rintro ⟨hfile, hline, hsnippet⟩
    cases hstep : first.step ctx with
    | mk file line snippet type =>
        cases hother : origin.step ctx with
        | mk file' line' snippet' type' => simp_all
  · intro hstep
    rw [hstep]
    exact ⟨rfl, rfl, rfl⟩

/-! ## One source -/

/-- The finding reports one source: a single origin of the sink expression has its kind, its place
and its text, and is a request object where the confidence starts from 0.9. -/
def OneSource (ctx : FileContext) (f : TracedFlow) : Prop :=
  ∃ origin ∈ f.carried ctx, origin.kind = (f.finding ctx).source.kind
    ∧ ShowsOrigin ctx (f.finding ctx) origin
    ∧ (confidenceBase (f.finding ctx) = 9 / 10 → origin.isRequest = true)

/-- Where a request object is kept, the first origin kept is one, or has the step of one that
reaches the sink, with the kind of the first one kept. -/
def RequestFirst (ctx : FileContext) (f : TracedFlow) : Prop :=
  ∀ request, (f.kept ctx).find? Origin.isRequest = some request →
    ∃ origin ∈ f.carried ctx, origin.kind = request.kind
      ∧ (f.kept ctx).head?.map (Origin.step ctx) = some (origin.step ctx)

lemma TracedFlow.Spec.oneSource_iff (h : f.Spec ctx scope)
    (hconfidence : ctx.rule.confidence = taintConfidence) :
    OneSource ctx f ↔ RequestFirst ctx f := by
  constructor
  · rintro ⟨origin, horigin, hkind, hshows, -⟩ request hrequest
    rw [h.kind, preferredKind_of_find hrequest] at hkind
    exact ⟨origin, horigin, hkind, (h.shows_iff horigin).1 hshows⟩
  · intro hfirst
    -- an origin with the kind and the first step is the source
    have hsource : ∀ origin ∈ f.carried ctx, origin.kind = preferredKind (f.kept ctx) →
        (f.kept ctx).head?.map (Origin.step ctx) = some (origin.step ctx) →
        OneSource ctx f := by
      intro origin horigin hkind hstep
      have hkind : origin.kind = (f.finding ctx).source.kind := hkind.trans h.kind.symm
      refine ⟨origin, horigin, hkind, (h.shows_iff horigin).2 hstep, ?_⟩
      rw [confidenceBase_iff hconfidence, ← hkind]
      exact id
    cases hrequest : (f.kept ctx).find? Origin.isRequest with
    | some request =>
        obtain ⟨origin, horigin, hkind, hstep⟩ := hfirst request hrequest
        rw [← preferredKind_of_find hrequest] at hkind
        exact hsource origin horigin hkind hstep
    | none =>
        obtain ⟨first, rest, steps, hkept, -⟩ := h.derives.first
        rw [hkept] at hrequest
        refine hsource first (h.subset ?_) ?_ ?_
        · rw [hkept]
          exact List.mem_cons_self
        · rw [hkept, preferredKind_of_none hrequest]
        · rw [hkept]
          rfl

/-- Where the first origin kept is a request object, there is one source. -/
lemma requestFirst_of_head (hsubset : f.kept ctx ⊆ f.carried ctx) {first : Origin}
    {rest : List Origin} (hkept : f.kept ctx = first :: rest) (hrequest : first.isRequest = true) :
    RequestFirst ctx f := by
  intro request hfind
  rw [hkept, List.find?_cons_of_pos hrequest] at hfind
  obtain rfl := Option.some.inj hfind
  refine ⟨first, hsubset ?_, rfl, ?_⟩
  · rw [hkept]
    exact List.mem_cons_self
  · rw [hkept]
    rfl

/-! ## Requests in the path -/

/-- The request object is seen in the finding: its kind is one of request objects, its confidence
starts from 0.9, and the step of the object is in its taint path. -/
structure SeenIn (ctx : FileContext) (request : Origin) (finding : CandidateFinding) : Prop where
  kind : startswith "request" finding.source.kind = true
  base : confidenceBase finding = 9 / 10
  step : request.step ctx ∈ finding.taintPath

/-- Every request object that some branch carries to the sink is seen in the finding. -/
def RequestsShown (ctx : FileContext) (f : TracedFlow) : Prop :=
  ∀ request ∈ f.carried ctx, request.isRequest = true → SeenIn ctx request (f.finding ctx)

/-- Where a request object is carried, one is kept, and so is an origin with its step. -/
def RequestsKept (ctx : FileContext) (f : TracedFlow) : Prop :=
  ∀ request ∈ f.carried ctx, request.isRequest = true →
    (∃ origin ∈ f.kept ctx, origin.isRequest = true)
      ∧ ∃ origin ∈ f.kept ctx, origin.step ctx = request.step ctx

/-- A step of an origin is in the taint path iff it is that of an origin kept. -/
lemma TracedFlow.Spec.mem_taintPath (h : f.Spec ctx scope) {step : TaintStep}
    (hstep : step.stepType = .source) : step ∈ (f.finding ctx).taintPath
      ↔ ∃ origin ∈ f.kept ctx, origin.step ctx = step := by
  have hsink : step ≠ ⟨ctx.file, f.flow.sink.line, f.flow.sink.snippet, .sink⟩ := by
    rintro rfl
    cases hstep
  rw [← h.derives.steps step hstep]
  show step ∈ f.flow.taint.steps ++ [_] ↔ _
  rw [List.mem_append, List.mem_singleton, or_iff_left hsink]

lemma TracedFlow.Spec.requestsShown_iff (h : f.Spec ctx scope)
    (hconfidence : ctx.rule.confidence = taintConfidence) :
    RequestsShown ctx f ↔ RequestsKept ctx f := by
  have hkind : startswith "request" (f.finding ctx).source.kind = true
      ↔ ∃ origin ∈ f.kept ctx, origin.isRequest = true := by
    rw [h.kind]
    exact startswith_preferredKind
  have hseen : ∀ request ∈ f.carried ctx, SeenIn ctx request (f.finding ctx)
      ↔ (∃ origin ∈ f.kept ctx, origin.isRequest = true)
        ∧ ∃ origin ∈ f.kept ctx, origin.step ctx = request.step ctx := by
    intro request hrequest
    have hpath := h.mem_taintPath (request.step_stepType (h.real request hrequest))
    constructor
    · rintro ⟨hrequestKind, -, hstep⟩
      exact ⟨hkind.1 hrequestKind, hpath.1 hstep⟩
    · rintro ⟨hone, hstep⟩
      exact ⟨hkind.2 hone, (confidenceBase_iff hconfidence).2 (hkind.2 hone), hpath.2 hstep⟩
  constructor
  · intro hshown request hrequest his
    exact (hseen request hrequest).1 (hshown request hrequest his)
  · intro hkept request hrequest his
    exact (hseen request hrequest).2 (hkept request hrequest his)

/-! ## Findings of a scan -/

section Scan

variable {py : Stdlib} {rule : ScanRule} {projectId : String} {codeFile : SourceFile}
  {tree : Module}

/-- A source of a default rule is a request object. -/
lemma isRequest_source (hrule : rule ∈ defaultRules py) {expr : Expr} {ref : SourceRef}
    {file source : String} (h : rule.isSource expr file source = some ref) :
    (Origin.source expr ref).isRequest = true := by
  have hshared : rule.isSource expr file source = requestSource file source expr := by
    simp only [defaultRules, List.mem_cons, List.not_mem_nil, or_false] at hrule
    rcases hrule with rfl | rfl | rfl | rfl <;> rfl
  have hkind : ∀ e, requestSource file source e = some ref →
      ref.kind = "request_param" ∨ ref.kind = "request_json" := by
    intro e he
    fun_induction requestSource file source e with
    | case1 loc value attr c hattr =>
        obtain rfl := Option.some.inj he
        by_cases hjson : attr = "json" <;> simp [sourceAt, hjson]
    | case2 loc value attr c hattr ih => exact ih he
    | case3 loc value slice c ih => exact ih he
    | case4 loc aloc receiver attr c args keywords hget =>
        obtain rfl := Option.some.inj he
        exact Or.inl rfl
    | case5 => cases he
    | case6 => cases he
  rw [hshared] at h
  show startswith "request" ref.kind = true
  rcases hkind expr h with hkind | hkind <;> rw [hkind] <;> decide

/-- The findings of a file are those of its traced flows; the origins of a flow are parameters of
the function it is in, with the line of its `def`, and request objects that the rule takes for a
source. -/
structure FindingsTraced (py : Stdlib) (rule : ScanRule) (projectId : String)
    (codeFile : SourceFile) (tree : Module) : Prop where
  emitted : ∃ findings summaries,
    analyzeFile py rule projectId codeFile = .ok (findings, summaries)
      ∧ findings.Perm ((fileTraces (contextOf py rule projectId codeFile) tree).map
        (TracedFlow.finding (contextOf py rule projectId codeFile)))
  real : ∀ f ∈ fileTraces (contextOf py rule projectId codeFile) tree,
    ∃ scope ∈ treeScopes (contextOf py rule projectId codeFile) tree,
      ∀ origin ∈ f.carried (contextOf py rule projectId codeFile),
        origin.Real (contextOf py rule projectId codeFile) scope
          ∧ (origin.isRequest = true ∨ ∃ name step, origin = .param name step)

lemma findingsTraced (hrule : rule ∈ defaultRules py) (herror : codeFile.error = none)
    (hparse : py.parse codeFile.source = .ok tree) :
    FindingsTraced py rule projectId codeFile tree where
  emitted := ⟨_, _, analyzeFile_eq herror hparse, findings_fileTraces _ tree⟩
  real := by
    intro f hf
    obtain ⟨scope, hscope, hmem⟩ := mem_fileTraces hf
    refine ⟨scope, hscope, fun origin horigin => ?_⟩
    have hreal := (spec_tracedFlow hscope hmem).real origin horigin
    refine ⟨hreal, ?_⟩
    cases origin with
    | param name step => exact Or.inr ⟨name, step, rfl⟩
    | source expr ref => exact Or.inl (isRequest_source hrule hreal)

/-- Every finding that a scan of the file emits reports one source. -/
def ReportsOneSource (py : Stdlib) (rule : ScanRule) (projectId : String)
    (codeFile : SourceFile) : Prop :=
  ∀ tree, py.parse codeFile.source = .ok tree →
    ∀ f ∈ fileTraces (contextOf py rule projectId codeFile) tree,
      OneSource (contextOf py rule projectId codeFile) f

/-- **The reported source is one real source** iff the first origin kept is a request object
wherever one is kept, up to origins with the same step. -/
theorem reportsOneSource_iff (hrule : rule ∈ defaultRules py) (projectId : String)
    (herror : codeFile.error = none) (hparse : py.parse codeFile.source = .ok tree) :
    FindingsTraced py rule projectId codeFile tree
    ∧ (ReportsOneSource py rule projectId codeFile
        ↔ ∀ f ∈ fileTraces (contextOf py rule projectId codeFile) tree,
          RequestFirst (contextOf py rule projectId codeFile) f)
    ∧ ∀ f ∈ fileTraces (contextOf py rule projectId codeFile) tree,
        (OneSource (contextOf py rule projectId codeFile) f
          ↔ RequestFirst (contextOf py rule projectId codeFile) f) := by
  have hflow : ∀ f ∈ fileTraces (contextOf py rule projectId codeFile) tree,
      (OneSource (contextOf py rule projectId codeFile) f
        ↔ RequestFirst (contextOf py rule projectId codeFile) f) := by
    intro f hf
    obtain ⟨scope, hscope, hmem⟩ := mem_fileTraces hf
    exact (spec_tracedFlow hscope hmem).oneSource_iff (confidence_defaultRules rule hrule)
  refine ⟨findingsTraced hrule herror hparse, ?_, hflow⟩
  constructor
  · intro h f hf
    exact (hflow f hf).1 (h tree hparse f hf)
  · intro h other hother f hf
    obtain rfl := Except.ok.inj (hother.symm.trans hparse)
    exact (hflow f hf).2 (h f hf)

/-- `request.args['q']` at a column. -/
def requestAt (line first : Nat) : Expr :=
  .subscript (spanOf line first (first + 17)) (dottedAt line first "request" "args")
    (.constant (spanOf line (first + 13) (first + 16)) (.str "q")) .load

/-- Kind and line of an origin. -/
def Origin.label (ctx : FileContext) (origin : Origin) : String × Nat :=
  (origin.kind, (origin.step ctx).line)

/-- Kind and line of the reported source, and those of the origins kept and of all origins. -/
def TracedFlow.labels (ctx : FileContext) (f : TracedFlow) :
    (String × Nat) × List (String × Nat) × List (String × Nat) :=
  (((f.finding ctx).source.kind, (f.finding ctx).source.line),
    (f.kept ctx).map (Origin.label ctx), (f.carried ctx).map (Origin.label ctx))

/-- A file that passes the sum of a request object and a parameter to `os.system`. -/
def requestedFile : SourceFile :=
  ⟨"app.py", "import os\ndef run(cmd):\n    os.system(request.args['q'] + cmd)\n", none⟩

/-- The tree of that file. -/
def requestedTree : Module where
  body := [importAt 1 "os", functionAt 2 "run" "cmd" [.expr (spanOf 3 4 38)
    (callAt 3 4 "os" "system"
      (.binOp (spanOf 3 14 37) (requestAt 3 14) .add (nameAt 3 34 "cmd")))]]

/-- An interpreter that knows that file. -/
def requestedPython : Stdlib := tabulatedPython [(requestedFile.source, requestedTree)] []

/-- In that file the reported source is the request object. -/
theorem reportsOneSource_requestedFile :
    ReportsOneSource requestedPython (commandInjectionRule requestedPython) "p" requestedFile := by
  let ctx := contextOf requestedPython (commandInjectionRule requestedPython) "p" requestedFile
  have hrule : commandInjectionRule requestedPython ∈ defaultRules requestedPython := by
    simp [defaultRules]
  have hparse : requestedPython.parse requestedFile.source = .ok requestedTree :=
    parse_tabulatedPython ..
  refine (reportsOneSource_iff hrule "p" rfl hparse).2.1.2 ?_
  have hkinds : ((fileTraces ctx requestedTree).map fun f => (f.kept ctx).map Origin.kind)
      = [["request_param", "function_param"]] := by decide +kernel
  intro f hf
  have hkept : (f.kept ctx).map Origin.kind = ["request_param", "function_param"] :=
    List.mem_singleton.1 (hkinds ▸ List.mem_map_of_mem hf)
  obtain ⟨scope, hscope, hmem⟩ := mem_fileTraces hf
  obtain ⟨first, rest, hcons, hkind, -⟩ := List.map_eq_cons_iff.1 hkept
  refine requestFirst_of_head (spec_tracedFlow hscope hmem).subset hcons ?_
  show startswith "request" first.kind = true
  rw [hkind]
  decide

/-- A file that passes the sum of a parameter and a request object to `os.system`. -/
def joinedFile : SourceFile :=
  ⟨"app.py", "import os\ndef run(cmd):\n    os.system(cmd + request.args['q'])\n", none⟩

/-- The tree of that file. -/
def joinedTree : Module where
  body := [importAt 1 "os", functionAt 2 "run" "cmd" [.expr (spanOf 3 4 38)
    (callAt 3 4 "os" "system"
      (.binOp (spanOf 3 14 37) (nameAt 3 14 "cmd") .add (requestAt 3 20)))]]

/-- An interpreter that knows that file. -/
def joinedPython : Stdlib := tabulatedPython [(joinedFile.source, joinedTree)] []

/-- **Not every finding reports one source**: here it has the kind of the request object, with
the line of the `def`. -/
theorem not_reportsOneSource : joinedPython.parse joinedFile.source = .ok joinedTree
    ∧ ¬ ReportsOneSource joinedPython (commandInjectionRule joinedPython) "p" joinedFile := by
  let ctx := contextOf joinedPython (commandInjectionRule joinedPython) "p" joinedFile
  have hparse : joinedPython.parse joinedFile.source = .ok joinedTree := parse_tabulatedPython ..
  refine ⟨hparse, fun hreports => ?_⟩
  have hlabels : (fileTraces ctx joinedTree).map (TracedFlow.labels ctx)
      = [(("request_param", 2), [("function_param", 2), ("request_param", 3)],
        [("function_param", 2), ("request_param", 3)])] := by decide +kernel
  obtain ⟨f, hflows, hf⟩ := List.map_eq_singleton_iff.1 hlabels
  obtain ⟨hsource, -, hcarried⟩ : _ ∧ _ ∧ _ := by simpa [TracedFlow.labels] using hf
  obtain ⟨origin, horigin, hkind, ⟨-, hline, -⟩, -⟩ :=
    hreports joinedTree hparse f (hflows ▸ List.mem_singleton_self f)
  have hlabel : origin.label ctx = ("request_param", 2) := by
    rw [Origin.label, hkind, ← hline, hsource.1, hsource.2]
  have hmem : ("request_param", 2) ∈ [("function_param", 2), ("request_param", 3)] := by
    rw [← hcarried, ← hlabel]
    exact List.mem_map_of_mem horigin
  exact absurd hmem (by decide)

/-- Every finding that a scan of the file emits shows the request objects that reach its sink. -/
def ShowsRequests (py : Stdlib) (rule : ScanRule) (projectId : String)
    (codeFile : SourceFile) : Prop :=
  ∀ tree, py.parse codeFile.source = .ok tree →
    ∀ f ∈ fileTraces (contextOf py rule projectId codeFile) tree,
      RequestsShown (contextOf py rule projectId codeFile) f

/-- A file that appends a request object to a parameter and passes it to `os.system`. -/
def appendedFile : SourceFile :=
  ⟨"app.py", "import os\ndef run(cmd):\n    cmd += request.args['q']\n    os.system(cmd)\n", none⟩

/-- The tree of that file. -/
def appendedTree : Module where
  body := [importAt 1 "os", functionAt 2 "run" "cmd"
    [.augAssign (spanOf 3 4 28) (.name (spanOf 3 4 7) "cmd" .store) .add (requestAt 3 11),
      .expr (spanOf 4 4 18) (callAt 4 4 "os" "system" (nameAt 4 14 "cmd"))]]

/-- An interpreter that knows that file. -/
def appendedPython : Stdlib := tabulatedPython [(appendedFile.source, appendedTree)] []

end Scan

end Sast
