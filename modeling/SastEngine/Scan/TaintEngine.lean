import SastEngine.Lib.Dict
import SastEngine.Scan.Rules.Rule

/-!
# The taint engine

`scan/taint_engine.py`: one forward pass in statement order per function.  The engine appends to
three lists while it walks (findings and summaries of the file, sinks of the current function);
here every function returns what it appends as an `Effect`, and the effects are concatenated in
the order in which the source appends.
-/

namespace Sast

/-- `_Taint`: how a value became tainted, and from which kind of source. -/
structure Taint where
  steps : List TaintStep
  sourceKind : String

/-- The taint map of the engine: variable name to provenance. -/
abbrev Taints := Dict String Taint

/-- The constant part of `_FileContext`, together with the hash the engine takes ids from. -/
structure FileContext where
  rule : ScanRule
  projectId : String
  file : String
  source : String
  sha256 : String → String

/-- What a part of the walk appends: to the findings and summaries of the file, and to the sinks
and the `returns_taint` flag of the function summary it runs under. -/
structure Effect where
  findings : List CandidateFinding
  summaries : List FunctionSummary
  sinks : List SinkRef
  returnsTaint : Bool

namespace Effect

/-- Nothing is appended. -/
def none : Effect := ⟨[], [], [], false⟩

/-- First `a`, then `b`. -/
def append (a b : Effect) : Effect where
  findings := a.findings ++ b.findings
  summaries := a.summaries ++ b.summaries
  sinks := a.sinks ++ b.sinks
  returnsTaint := a.returnsTaint || b.returnsTaint

instance : Append Effect := ⟨append⟩

@[simp] lemma none_findings : none.findings = [] := rfl
@[simp] lemma append_findings (a b : Effect) : (a ++ b).findings = a.findings ++ b.findings := rfl

end Effect

variable (ctx : FileContext)

/-! ## Helpers -/

/-- `_param_names`. -/
def paramNames : Arguments → List String
  | .mk posonlyargs args vararg kwonlyargs _ kwarg _ =>
      let name := fun a : Arg => match a with | .mk _ n _ => n
      ((posonlyargs ++ args ++ kwonlyargs).map name
        ++ (vararg.map name).toList ++ (kwarg.map name).toList).filter
          fun n => n ≠ "self" ∧ n ≠ "cls"

/-- `_collect_calls`. -/
def collectCalls (node : Expr) : List Expr := callsOf (node.walk Expr.isLambda)

/-- `_merge`. -/
def mergeSteps (parts : List Taint) : List TaintStep :=
  (parts.flatMap Taint.steps).foldl
    (fun steps step => if step ∈ steps then steps else steps ++ [step]) []

/-- `_kind`. -/
def kindOf (parts : List Taint) : String :=
  match parts.find? fun p => startswith "request" p.sourceKind with
  | some part => part.sourceKind
  | none => (parts.head?.map Taint.sourceKind).getD ""

/-- `_string_step`. -/
def stringStep (loc : Loc) : TaintStep where
  stepType := .stringConstruction
  file := ctx.file
  line := loc.lineno
  snippet := lineText ctx.source loc.lineno

/-- `_propagation_step`. -/
def propagationStep (loc : Loc) : TaintStep where
  stepType := .propagation
  file := ctx.file
  line := loc.lineno
  snippet := lineText ctx.source loc.lineno

/-- Append one step to a taint. -/
def Taint.push (t : Taint) (step : TaintStep) : Taint where
  steps := t.steps ++ [step]
  sourceKind := t.sourceKind

/-- The taint of a value put together from several parts, if one of them is tainted. -/
def combine (parts : List Taint) (step : TaintStep) : Option Taint :=
  if parts.isEmpty then none
  else some { steps := mergeSteps parts ++ [step], sourceKind := kindOf parts }

/-! ## Taint of an expression -/

/-- The taint of an expression that is itself a source. -/
def sourceTaint (expr : Expr) : Option Taint :=
  (ctx.rule.isSource expr ctx.file ctx.source).map fun ref =>
    { steps := [{ stepType := .source, file := ctx.file, line := expr.loc.lineno,
                  snippet := ref.snippet }]
      sourceKind := ref.kind }

mutual

/-- `_taint_of`. -/
def taintOf (tainted : Taints) : Expr → Option Taint
  | .name _ id _ => tainted.get? id
  | .joinedStr loc values => combine (taintParts tainted values) (stringStep ctx loc)
  | .binOp loc left op right =>
      if op = .add ∨ op = .mod then
        combine ((taintOf tainted left).toList ++ (taintOf tainted right).toList)
          (stringStep ctx loc)
      else none
  | .call loc func args keywords =>
      (sourceTaint ctx (.call loc func args keywords)).or
        (match func, args with
          | .name _ id _, arg :: _ =>
              if id = "str" ∨ id = "repr" ∨ id = "bytes" then
                (taintOf tainted arg).map fun t => t.push (propagationStep ctx loc)
              else none
          | .attribute _ value attr _, args =>
              if attr = "format" then
                combine ((taintOf tainted value).toList ++ taintList tainted args)
                  (stringStep ctx loc)
              else none
          | _, _ => none)
  | .attribute loc value attr c =>
      (sourceTaint ctx (.attribute loc value attr c)).or
        ((taintOf tainted value).map fun t => t.push (propagationStep ctx loc))
  | .subscript loc value slice c =>
      (sourceTaint ctx (.subscript loc value slice c)).or
        ((taintOf tainted value).map fun t => t.push (propagationStep ctx loc))
  | .list loc elts _ => combine (taintList tainted elts) (propagationStep ctx loc)
  | .tuple loc elts _ => combine (taintList tainted elts) (propagationStep ctx loc)
  | .set loc elts => combine (taintList tainted elts) (propagationStep ctx loc)
  | .dict loc keys values =>
      combine (taintOpts tainted keys ++ taintList tainted values) (propagationStep ctx loc)
  | .ifExp loc test body orelse =>
      combine ((taintOf tainted test).toList ++ (taintOf tainted body).toList
        ++ (taintOf tainted orelse).toList) (propagationStep ctx loc)
  | _ => none

/-- The tainted ones among the items of a collection. -/
def taintList (tainted : Taints) : List Expr → List Taint
  | [] => []
  | e :: es => (taintOf tainted e).toList ++ taintList tainted es

/-- The tainted ones among the keys of a dict; `None` stands for `**`. -/
def taintOpts (tainted : Taints) : List (Option Expr) → List Taint
  | [] => []
  | none :: es => taintOpts tainted es
  | some e :: es => (taintOf tainted e).toList ++ taintOpts tainted es

/-- The tainted ones among the interpolated values of an f-string. -/
def taintParts (tainted : Taints) : List Expr → List Taint
  | [] => []
  | .formattedValue _ value _ _ :: es => (taintOf tainted value).toList ++ taintParts tainted es
  | _ :: es => taintParts tainted es

end

/-! ## Sinks and findings -/

/-- The id of a finding: `sha256("project|type|file|source line|sink line")`. -/
def findingId (sha256 : String → String) (projectId vulnerabilityType file : String)
    (sourceLine sinkLine : Nat) : String :=
  sha256 (projectId ++ "|" ++ vulnerabilityType ++ "|" ++ file ++ "|" ++ toString sourceLine
    ++ "|" ++ toString sinkLine)

/-- `_emit_finding`. -/
def emitFinding (sink : SinkRef) (taint : Taint) : CandidateFinding :=
  let sinkStep : TaintStep :=
    { stepType := .sink, file := ctx.file, line := sink.line, snippet := sink.snippet }
  let path := taint.steps ++ [sinkStep]
  let first := taint.steps.headD sinkStep
  let source : SourceRef :=
    { file := first.file, line := first.line, snippet := first.snippet,
      kind := taint.sourceKind }
  { id := findingId ctx.sha256 ctx.projectId ctx.rule.vulnerabilityType ctx.file source.line
      sink.line
    vulnerabilityType := ctx.rule.vulnerabilityType
    severity := ctx.rule.severity
    confidence := ctx.rule.confidence path taint.sourceKind
    source := source
    sink := sink
    taintPath := path
    evidence := buildEvidence source sink path ["no sanitizer observed at sink"] }

/-- The sink a call reaches with tainted data, if it does: one pass of the loop body of
`_check_sinks`. -/
def taintedSink (tainted : Taints) (call : Expr) : Option (SinkRef × Taint) :=
  match ctx.rule.matchSink call ctx.file ctx.source with
  | none => none
  | some sink =>
      if ctx.rule.isSanitized call sink then none
      else match ctx.rule.sinkExpression call with
        | none => none
        | some target => (taintOf ctx tainted target).map fun taint => (sink, taint)

/-- `_check_sinks`. -/
def checkSinks (node : Expr) (tainted : Taints) : Effect :=
  let hits := (collectCalls node).filterMap (taintedSink ctx tainted)
  { findings := hits.map fun h => emitFinding ctx h.1 h.2
    summaries := []
    sinks := hits.map Prod.fst
    returnsTaint := false }

/-! ## Assignments -/

/-- `isinstance(value, (ast.Call, ast.Attribute, ast.Subscript)) and is_source(value)`. -/
def isSourceRhs (value : Expr) : Bool :=
  match value with
  | .call .. | .attribute .. | .subscript .. =>
      (ctx.rule.isSource value ctx.file ctx.source).isSome
  | _ => false

/-- `isinstance(e, ast.Name)`. -/
def isName : Expr → Bool
  | .name .. => true
  | _ => false

/-- Taint the targets that are plain names. -/
def bindNames (targets : List Expr) (taint : Taint) (tainted : Taints) : Taints :=
  targets.foldl
    (fun acc target => match target with | .name _ id _ => acc.set id taint | _ => acc) tainted

/-- `_apply_assign` for `=` (one or several targets) and for an annotated assignment. -/
def assignTaints (loc : Loc) (targets : List Expr) (value : Expr) (tainted : Taints) : Taints :=
  match taintOf ctx tainted value with
  | none => tainted
  | some valueT =>
      let steps := if isSourceRhs ctx value || isName value then
          valueT.steps ++ [{ stepType := .assignment, file := ctx.file, line := loc.lineno,
                             snippet := lineText ctx.source loc.lineno }]
        else valueT.steps
      bindNames targets { steps := steps, sourceKind := valueT.sourceKind } tainted

/-- `_apply_assign` for an augmented assignment. -/
def augAssignTaints (loc : Loc) (target value : Expr) (tainted : Taints) : Taints :=
  match target with
  | .name _ id _ =>
      match (tainted.get? id).or (taintOf ctx tainted value) with
      | some base => tainted.set id (base.push (propagationStep ctx loc))
      | none => tainted
  | _ => tainted

/-- The targets of a `for` loop. -/
def forTargets : Expr → List Expr
  | .tuple _ elts _ => elts
  | target => [target]

/-- The loop variables of a `for` statement take the taint of the iterable. -/
def forTaints (loc : Loc) (target iter : Expr) (tainted : Taints) : Taints :=
  match taintOf ctx tainted iter with
  | none => tainted
  | some t => bindNames (forTargets target) (t.push (propagationStep ctx loc)) tainted

/-! ## Statements -/

/-- The taint map at the entry of a function: every parameter is poisoned. -/
def entryTaints (loc : Loc) (args : Arguments) : Taints :=
  if ctx.rule.poisonParams then
    (paramNames args).foldl
      (fun acc name => acc.set name
        { steps := [{ stepType := .source, file := ctx.file, line := loc.lineno,
                      snippet := lineText ctx.source loc.lineno }]
          sourceKind := "function_param" })
      Dict.empty
  else Dict.empty

/-- What `_analyze_function` leaves behind: the findings of the body, and one summary after those
of nested functions. -/
def functionEffect (classStack fnStack : List String) (name : String) (loc : Loc)
    (args : Arguments) (body : Effect) : Effect where
  findings := body.findings
  summaries := body.summaries ++
    [{ qualifiedName := String.intercalate "." (classStack ++ fnStack ++ [name])
       file := ctx.file
       line := loc.lineno
       taintedParams := ((paramNames args).filter fun n =>
          ((entryTaints ctx loc args).get? n).isSome).dedup.insertionSort (· ≤ ·)
       sinks := body.sinks
       returnsTaint := body.returnsTaint }]
  sinks := []
  returnsTaint := false

/-- What a class body leaves behind: it runs under no function summary. -/
def classEffect (body : Effect) : Effect where
  findings := body.findings
  summaries := body.summaries
  sinks := []
  returnsTaint := false

mutual

/-- `_apply_stmt`. -/
def applyStmt (classStack fnStack : List String) : Stmt → Taints → Effect × Taints
  | .assign loc targets value, tainted =>
      (checkSinks ctx value tainted, assignTaints ctx loc targets value tainted)
  | .annAssign loc target _ (some value) _, tainted =>
      (checkSinks ctx value tainted, assignTaints ctx loc [target] value tainted)
  | .augAssign loc target _ value, tainted =>
      (checkSinks ctx value tainted, augAssignTaints ctx loc target value tainted)
  | .if_ _ test body orelse, tainted =>
      let b := analyzeBlock classStack fnStack body tainted
      let o := analyzeBlock classStack fnStack orelse tainted
      (checkSinks ctx test tainted ++ b.1 ++ o.1, tainted.update (b.2.update o.2))
  | .while_ _ test body orelse, tainted =>
      let b := analyzeBlock classStack fnStack body tainted
      let o := analyzeBlock classStack fnStack orelse tainted
      (checkSinks ctx test tainted ++ b.1 ++ o.1, tainted.update (b.2.update o.2))
  | .for_ loc target iter body orelse, tainted =>
      let bound := forTaints ctx loc target iter tainted
      let b := analyzeBlock classStack fnStack body bound
      let o := analyzeBlock classStack fnStack orelse bound
      (checkSinks ctx iter tainted ++ b.1 ++ o.1, bound.update (b.2.update o.2))
  | .try_ _ body handlers orelse finalbody, tainted =>
      let b := analyzeBlock classStack fnStack body tainted
      let t1 := tainted.update b.2
      let o := analyzeBlock classStack fnStack orelse t1
      let t2 := t1.update o.2
      let f := analyzeBlock classStack fnStack finalbody t2
      let h := analyzeHandlers classStack fnStack handlers (t2.update f.2)
      (b.1 ++ o.1 ++ f.1 ++ h.1, h.2)
  | .with_ _ _ body, tainted =>
      let b := analyzeBlock classStack fnStack body tainted
      (b.1, tainted.update b.2)
  | .functionDef loc name args body _ _, tainted =>
      let b := analyzeBlock classStack (fnStack ++ [name]) body (entryTaints ctx loc args)
      (functionEffect ctx classStack fnStack name loc args b.1, tainted)
  | .asyncFunctionDef loc name args body _ _, tainted =>
      let b := analyzeBlock classStack (fnStack ++ [name]) body (entryTaints ctx loc args)
      (functionEffect ctx classStack fnStack name loc args b.1, tainted)
  | .classDef _ name _ _ body _, tainted =>
      (classEffect (analyzeBlock (classStack ++ [name]) fnStack body Dict.empty).1, tainted)
  | .expr _ value, tainted => (checkSinks ctx value tainted, tainted)
  | .return_ _ (some value), tainted =>
      ({ checkSinks ctx value tainted with
          returnsTaint := (taintOf ctx tainted value).isSome }, tainted)
  | _, tainted => (Effect.none, tainted)

/-- `_analyze_block`. -/
def analyzeBlock (classStack fnStack : List String) : List Stmt → Taints → Effect × Taints
  | [], tainted => (Effect.none, tainted)
  | stmt :: stmts, tainted =>
      let s := applyStmt classStack fnStack stmt tainted
      let rest := analyzeBlock classStack fnStack stmts s.2
      (s.1 ++ rest.1, rest.2)

/-- The handlers of a `try`, after its other three blocks. -/
def analyzeHandlers (classStack fnStack : List String) :
    List ExceptHandler → Taints → Effect × Taints
  | [], tainted => (Effect.none, tainted)
  | .mk _ _ _ body :: handlers, tainted =>
      let b := analyzeBlock classStack fnStack body tainted
      let rest := analyzeHandlers classStack fnStack handlers (tainted.update b.2)
      (b.1 ++ rest.1, rest.2)

end

/-! ## Files -/

/-- The walk over a parsed file. -/
def analyzeTree (tree : Module) : Effect :=
  (analyzeBlock ctx [] [] tree.body Dict.empty).1

/-- `TaintEngine.analyze_file`.  A file that PREPARE could not parse is skipped; otherwise
`ast.parse` runs again, and its exception is the result. -/
def analyzeFile (py : Stdlib) (rule : ScanRule) (projectId : String) (codeFile : SourceFile) :
    Except String (List CandidateFinding × List FunctionSummary) :=
  if codeFile.error.isSome then .ok ([], [])
  else do
    let tree ← py.parse codeFile.source
    let effect := analyzeTree
      { rule := rule, projectId := projectId, file := codeFile.path,
        source := codeFile.source, sha256 := py.sha256 } tree
    return (effect.findings, effect.summaries)

end Sast
