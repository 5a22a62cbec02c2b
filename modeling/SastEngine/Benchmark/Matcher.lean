import SastEngine.Benchmark.Models
import Mathlib.Algebra.Order.Group.Unbundled.Abs
import Mathlib.Algebra.Order.Group.Int

/-!
# The benchmark matcher and its metrics

`benchmark/matcher.py` and `benchmark/metrics.py`.  The two loops of the matcher are folds over
their local variables.  Floating point is a parameter of the metrics.
-/

namespace Sast

/-- `BenchmarkMatcher`. -/
structure BenchmarkMatcher where
  tolerance : Int := 3

/-- `bool(text)` of an optional text. -/
def truthy : Option String → Bool
  | some text => text ≠ ""
  | none => false

namespace BenchmarkMatcher

variable (matcher : BenchmarkMatcher)

/-- `_same`. -/
def same (a b : BenchmarkFinding) : Bool :=
  if a.file ≠ b.file then false
  else if a.vulnerabilityType ≠ b.vulnerabilityType then false
  else
    let lineClose := decide (|a.line - b.line| ≤ matcher.tolerance)
    let funcEqual := truthy a.function && truthy b.function && a.function == b.function
    lineClose || funcEqual

/-- `matches_case`. -/
def matchesCase (finding : BenchmarkFinding) (case : GroundTruthCase) : Bool :=
  if finding.file ≠ case.file then false
  else if finding.vulnerabilityType ≠ case.vulnerabilityType then false
  else
    let lineClose := decide (|finding.line - case.sourceLine| ≤ matcher.tolerance)
      || decide (|finding.line - case.sinkLine| ≤ matcher.tolerance)
    let funcEqual := truthy finding.function && finding.function == some case.function
    lineClose || funcEqual

/-- The local variables of `match_cross_tool`. -/
structure CrossTool where
  shared : List BenchmarkFinding
  oursOnly : List BenchmarkFinding
  remaining : List BenchmarkFinding

/-- The body of the loop of `match_cross_tool`. -/
def crossToolStep (s : CrossTool) (finding : BenchmarkFinding) : CrossTool :=
  match s.remaining.find? (matcher.same finding) with
  | none => { s with oursOnly := s.oursOnly ++ [finding] }
  | some partner =>
      { s with
        shared := s.shared ++ [finding]
        remaining := s.remaining.erase partner }

/-- `match_cross_tool`; `remaining` is `theirs_only` at the end. -/
def matchCrossTool (ours theirs : List BenchmarkFinding) : CrossTool :=
  ours.foldl matcher.crossToolStep ⟨[], [], theirs⟩

/-- The local variables of `classify`; the sets are lists. -/
structure Classification where
  matchedCaseIds : List String
  falsePositives : List BenchmarkFinding
  consumedVulnerable : List String
  consumedSafe : List String

/-- The first case not consumed that the finding matches. -/
def firstHit (cases : List GroundTruthCase) (consumed : List String) (finding : BenchmarkFinding) :
    Option GroundTruthCase :=
  cases.find? fun c => c.caseId ∉ consumed && matcher.matchesCase finding c

/-- The body of the loop of `classify`. -/
def classifyStep (vulnerable safe : List GroundTruthCase) (s : Classification)
    (finding : BenchmarkFinding) : Classification :=
  match matcher.firstHit vulnerable s.consumedVulnerable finding with
  | some hit =>
      { s with
        consumedVulnerable := hit.caseId :: s.consumedVulnerable
        matchedCaseIds := s.matchedCaseIds ++ [hit.caseId] }
  | none =>
      let s :=
        match matcher.firstHit safe s.consumedSafe finding with
        | some safeHit => { s with consumedSafe := safeHit.caseId :: s.consumedSafe }
        | none => s
      { s with falsePositives := s.falsePositives ++ [finding] }

/-- `classify`, with the values of its local variables at the end. -/
def classify (findings : List BenchmarkFinding) (cases : List GroundTruthCase) : Classification :=
  let vulnerable := cases.filter (·.expectedVulnerable)
  let safe := cases.filter (!·.expectedVulnerable)
  findings.foldl (matcher.classifyStep vulnerable safe) ⟨[], [], [], []⟩

end BenchmarkMatcher

/-- The floating-point operations of `compute_metrics`. -/
structure FloatOps (F : Type) where
  ofInt : Int → F
  /-- `/` of two integers -/
  divideInts : Int → Int → F
  divide : F → F → F
  multiply : F → F → F
  add : F → F → F
  /-- `round(x, 4)` -/
  round4 : F → F
  isZero : F → Bool
  isPositive : F → Bool

section Metrics

variable {F : Type} (float : FloatOps F)

/-- `_ratio` of two integers. -/
def ratioOfInts (numerator denominator : Int) : Option F :=
  if denominator = 0 then none else some (float.round4 (float.divideInts numerator denominator))

/-- `_ratio` of two floats. -/
def ratio (numerator denominator : F) : Option F :=
  if float.isZero denominator then none
  else some (float.round4 (float.divide numerator denominator))

/-- `f1` of `compute_metrics`. -/
def f1Score : Option F → Option F → Option F
  | some precision, some «recall» =>
      let total := float.add precision «recall»
      if float.isPositive total then
        ratio float (float.multiply (float.multiply (float.ofInt 2) precision) «recall») total
      else none
  | _, _ => none

/-- `compute_metrics`. -/
def computeMetrics (truth : GroundTruth) (tool : String) (findings : List BenchmarkFinding)
    (fixture : String) (matcher : BenchmarkMatcher) : BenchmarkMetrics F :=
  let cases := vulnerableCases truth fixture ++ safeCases truth fixture
  let result := matcher.classify findings cases
  let truePositives : Int := result.matchedCaseIds.length
  let falseNegatives : Int := (vulnerableCases truth fixture).length - truePositives
  let falsePositives : Int := result.falsePositives.length
  let precision := ratioOfInts float truePositives (truePositives + falsePositives)
  let «recall» := ratioOfInts float truePositives (truePositives + falseNegatives)
  { tool := tool
    truePositives := truePositives
    falsePositives := falsePositives
    falseNegatives := falseNegatives
    precision := precision
    «recall» := «recall»
    f1 := f1Score float precision «recall»
    totalFindings := findings.length }

end Metrics

end Sast
