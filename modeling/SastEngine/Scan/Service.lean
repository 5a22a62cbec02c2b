import SastEngine.Scan.TaintEngine
import SastEngine.Scan.Rules.Builtin

/-!
# The scan service

`scan/service.py`: every rule runs over every file of the code model, the findings are sorted by
sink file, sink line and source line, and the per-rule summaries of one function are merged.
-/

namespace Sast

/-- The rules of a `ScanService` built without arguments. -/
def defaultRules (py : Stdlib) : List ScanRule :=
  [sqlInjectionRule py, commandInjectionRule py, ssrfRule py, deserializationRule py]

/-- The sort key `(f.sink.file, f.sink.line, f.source.line)`, compared as Python compares
tuples. -/
def findingLe (a b : CandidateFinding) : Bool :=
  if a.sink.file = b.sink.file then
    if a.sink.line = b.sink.line then a.source.line ≤ b.source.line
    else a.sink.line < b.sink.line
  else a.sink.file < b.sink.file

/-- Key of a function summary: `(s.file, s.line, s.qualified_name)`. -/
abbrev SummaryKey := String × Nat × String

/-- The key of a summary. -/
def summaryKey (s : FunctionSummary) : SummaryKey := (s.file, s.line, s.qualifiedName)

/-- Order of the merged summaries. -/
def summaryLe (a b : FunctionSummary) : Bool :=
  if a.file = b.file then
    if a.line = b.line then a.qualifiedName ≤ b.qualifiedName
    else a.line < b.line
  else a.file < b.file

/-- Observations of two rules about one function. -/
def joinSummary (prev s : FunctionSummary) : FunctionSummary where
  qualifiedName := s.qualifiedName
  file := s.file
  line := s.line
  taintedParams := (prev.taintedParams ++ s.taintedParams).dedup.insertionSort (· ≤ ·)
  sinks := prev.sinks ++ s.sinks
  returnsTaint := prev.returnsTaint || s.returnsTaint

/-- `_merge_summaries`. -/
def mergeSummaries (summaries : List FunctionSummary) : List FunctionSummary :=
  let merged : Dict SummaryKey FunctionSummary := summaries.foldl (fun acc s =>
    match acc.get? (summaryKey s) with
    | none => acc.set (summaryKey s) s
    | some prev => acc.set (summaryKey s) (joinSummary prev s)) Dict.empty
  merged.values.insertionSort fun a b => summaryLe a b

/-- Count the findings of each vulnerability type. -/
def countByType (findings : List CandidateFinding) : Dict String Nat :=
  findings.foldl (fun acc f =>
    acc.set f.vulnerabilityType (((acc.get? f.vulnerabilityType).getD 0) + 1)) Dict.empty

/-- All files under one rule. -/
def scanFiles (py : Stdlib) (rule : ScanRule) (projectId : String) :
    List SourceFile → Except String (List CandidateFinding × List FunctionSummary)
  | [] => .ok ([], [])
  | file :: files => do
      let first ← analyzeFile py rule projectId file
      let rest ← scanFiles py rule projectId files
      return (first.1 ++ rest.1, first.2 ++ rest.2)

/-- All rules, one after the other. -/
def scanRules (py : Stdlib) (projectId : String) (files : List SourceFile) :
    List ScanRule → Except String (List CandidateFinding × List FunctionSummary)
  | [] => .ok ([], [])
  | rule :: rules => do
      let first ← scanFiles py rule projectId files
      let rest ← scanRules py projectId files rules
      return (first.1 ++ rest.1, first.2 ++ rest.2)

/-- `ScanService.scan`. -/
def scan (py : Stdlib) (rules : List ScanRule) (codeModel : CodeModel)
    (projectId : Option String) : Except String ScanReport := do
  let effectiveProjectId := projectId.getD codeModel.projectId
  let found ← scanRules py effectiveProjectId codeModel.files rules
  let findings := found.1.insertionSort fun a b => findingLe a b
  return {
    scannedFileCount := codeModel.files.length
    findings := findings
    functionSummaries := mergeSummaries found.2
    summary := { total := findings.length, byType := (countByType findings).entries } }

end Sast
