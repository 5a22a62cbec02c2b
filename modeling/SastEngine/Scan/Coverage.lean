import SastEngine.Python.Tabulated
import SastEngine.Scan.Service
import SastEngine.Scan.Sites

/-!
# Sink coverage

Whether every tainted, unsanitized sink call of a function body is reported.  The engine scans the
values of assignments, expression statements and returns, the tests of `if` and `while`, and the
iterables of `for`, wherever it visits the statement; a call in any other operand is reported only
if some scanned call has the same sink reference.
-/

namespace Sast

variable {py : Stdlib} {rule : ScanRule} {projectId : String} {codeFile : SourceFile}

/-- The calls of an operand that run with the statement: those outside lambdas. -/
def executableCalls (e : Expr) : List Expr := if e.isLambda then [] else collectCalls e

/-- The context in which a file is analyzed. -/
def contextOf (py : Stdlib) (rule : ScanRule) (projectId : String) (codeFile : SourceFile) :
    FileContext where
  rule := rule
  projectId := projectId
  file := codeFile.path
  source := codeFile.source
  sha256 := py.sha256

/-- `analyze_file` reports a finding with the sink. -/
def Reports (py : Stdlib) (rule : ScanRule) (projectId : String) (codeFile : SourceFile)
    (sink : SinkRef) : Prop :=
  ∃ findings summaries, analyzeFile py rule projectId codeFile = .ok (findings, summaries)
    ∧ HasSink findings sink

/-- The sink is exposed at the site: some call that runs with the statement matches the rule with
this sink, is not sanitized, and has a tainted sink expression under the map there. -/
def Site.exposes (ctx : FileContext) (site : Site) (sink : SinkRef) : Prop :=
  ∃ e ∈ site.operands, ∃ call ∈ executableCalls e, ∃ taint,
    taintedSink ctx site.taints call = some (sink, taint)

/-- The sink is exposed somewhere in a function body of the file. -/
def Exposed (ctx : FileContext) (tree : Module) (sink : SinkRef) : Prop :=
  ∃ scope ∈ treeScopes ctx tree, scope.isFunction = true
    ∧ ∃ site ∈ scope.sites ctx, site.exposes ctx sink

/-- The sink is exposed, at a call in an operand that the engine scans, somewhere in the file. -/
def ExposedInScanned (ctx : FileContext) (tree : Module) (sink : SinkRef) : Prop :=
  ∃ scope ∈ treeScopes ctx tree, ∃ site ∈ scope.sites ctx, site.hits ctx sink

/-- Every exposed sink is reported. -/
def CoversSinks (py : Stdlib) (rule : ScanRule) (projectId : String) (codeFile : SourceFile)
    (tree : Module) : Prop :=
  ∀ sink, Exposed (contextOf py rule projectId codeFile) tree sink →
    Reports py rule projectId codeFile sink

/-! ## What `analyze_file` reports -/

lemma analyzeFile_eq (herror : codeFile.error = none) {tree : Module}
    (hparse : py.parse codeFile.source = .ok tree) :
    analyzeFile py rule projectId codeFile
      = .ok ((analyzeTree (contextOf py rule projectId codeFile) tree).findings,
        (analyzeTree (contextOf py rule projectId codeFile) tree).summaries) := by
  simp [analyzeFile, herror, hparse, bind, Except.bind, pure, Except.pure, contextOf]

/-- A parsed file reports the sinks of the hits in its scopes. -/
lemma reports_iff (herror : codeFile.error = none) {tree : Module}
    (hparse : py.parse codeFile.source = .ok tree) (sink : SinkRef) :
    Reports py rule projectId codeFile sink
      ↔ HitsScope (contextOf py rule projectId codeFile)
        (treeScopes (contextOf py rule projectId codeFile) tree) sink := by
  rw [← hasSink_analyzeTree]
  unfold Reports
  rw [analyzeFile_eq herror hparse]
  constructor
  · rintro ⟨findings, summaries, heq, hsink⟩
    obtain ⟨rfl, -⟩ := Prod.mk.inj (Except.ok.inj heq)
    exact hsink
  · intro hsink
    exact ⟨_, _, rfl, hsink⟩

/-- A site whose operands are all scanned hides nothing. -/
lemma Site.hits_of_exposes {ctx : FileContext} {site : Site} {sink : SinkRef}
    (hscanned : ∀ e ∈ site.operands, e ∈ site.scanned) (h : site.exposes ctx sink) :
    site.hits ctx sink := by
  obtain ⟨e, he, call, hcall, taint, hhit⟩ := h
  refine ⟨e, hscanned e he, call, ?_, taint, hhit⟩
  unfold executableCalls at hcall
  split_ifs at hcall with hlambda
  · simp at hcall
  · exact hcall

/-- A file with the one statement `os.system(cmd)` in a function. -/
def statementFile : SourceFile := ⟨"app.py", "import os\ndef run(cmd):\n    os.system(cmd)\n", none⟩

/-- The tree of that file. -/
def statementTree : Module where
  body := [importAt 1 "os", functionAt 2 "run" "cmd"
    [.expr (spanOf 3 4 18) (callAt 3 4 "os" "system" (nameAt 3 14 "cmd"))]]

/-- An interpreter that knows that file. -/
def statementPython : Stdlib := tabulatedPython [(statementFile.source, statementTree)] []

/-- A file whose only sink call is the test of an `assert`. -/
def assertFile : SourceFile :=
  ⟨"app.py", "import os\ndef run(cmd):\n    assert os.system(cmd)\n", none⟩

/-- The sink call of that file. -/
def assertedCall : Expr := callAt 3 11 "os" "system" (nameAt 3 21 "cmd")

/-- The tree of that file. -/
def assertTree : Module where
  body := [importAt 1 "os", functionAt 2 "run" "cmd" [.assert (spanOf 3 4 25) assertedCall none]]

/-- An interpreter that knows that file. -/
def assertPython : Stdlib := tabulatedPython [(assertFile.source, assertTree)] []

/-- The sink of the asserted call. -/
def assertedSink : SinkRef := ⟨"app.py", 3, "os.system(cmd)", "command_exec"⟩

end Sast
