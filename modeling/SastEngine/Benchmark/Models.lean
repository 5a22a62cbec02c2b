import Mathlib.Tactic.Lemma

/-!
# Benchmark contracts and ground truth

The records of `benchmark/models.py` and the cases of `benchmark/ground_truth.py`.
-/

namespace Sast

/-- `BenchmarkFinding`. -/
structure BenchmarkFinding where
  tool : String
  vulnerabilityType : String
  file : String
  line : Int
  function : Option String
  message : String
  fingerprint : String
deriving DecidableEq

/-- A finding of our scanner in `app.py`, outside any function. -/
def reportedAt (vulnerabilityType : String) (line : Int) : BenchmarkFinding where
  tool := "our-sast"
  vulnerabilityType := vulnerabilityType
  file := "app.py"
  line := line
  function := none
  message := vulnerabilityType
  fingerprint := ""

/-- `BenchmarkMetrics`, over the numbers `F` that stand for floats. -/
structure BenchmarkMetrics (F : Type) where
  tool : String
  truePositives : Int
  falsePositives : Int
  falseNegatives : Int
  precision : Option F
  «recall» : Option F
  f1 : Option F
  totalFindings : Int

/-- `BenchmarkComparison`. -/
structure BenchmarkComparison where
  sharedFindings : List BenchmarkFinding
  oursOnly : List BenchmarkFinding
  semgrepOnly : List BenchmarkFinding
  sharedVulnerabilityTypes : List String
  safeCasesDetectedIncorrectly : List String
deriving DecidableEq

/-- `GroundTruthCase`, without its descriptions. -/
structure GroundTruthCase where
  caseId : String
  file : String
  function : String
  vulnerabilityType : String
  expectedVulnerable : Bool
  sourceLine : Int
  sinkLine : Int
deriving DecidableEq

/-- A table of ground truth: the cases of each fixture, none where the fixture is unknown. -/
abbrev GroundTruth := String → List GroundTruthCase

/-- `FIXTURE_GROUND_TRUTH`. -/
def fixtureGroundTruth : GroundTruth
  | "vulnerable_python_app" =>
      [ ⟨"sql-app-get-user", "app.py", "get_user", "sql_injection", true, 12, 15⟩,
        ⟨"sql-app-get-user-safe", "app.py", "get_user_safe", "sql_injection", false, 23, 25⟩,
        ⟨"cmd-app-run-command", "app.py", "run_command", "command_injection", true, 33, 34⟩,
        ⟨"cmd-app-run-command-safe", "app.py", "run_command_safe", "command_injection", false,
          50, 51⟩,
        ⟨"ssrf-app-fetch-url", "app.py", "fetch_url", "ssrf", true, 37, 40⟩,
        ⟨"ssrf-app-fetch-safe", "app.py", "fetch_safe", "ssrf", false, 44, 47⟩,
        ⟨"sql-db-execute", "db.py", "execute", "sql_injection", true, 14, 17⟩,
        ⟨"sql-db-query-users", "db.py", "query_users", "sql_injection", true, 19, 20⟩ ]
  | _ => []

/-- `vulnerable_cases`. -/
def vulnerableCases (truth : GroundTruth) (fixture : String) : List GroundTruthCase :=
  (truth fixture).filter (·.expectedVulnerable)

/-- `safe_cases`. -/
def safeCases (truth : GroundTruth) (fixture : String) : List GroundTruthCase :=
  (truth fixture).filter (!·.expectedVulnerable)

end Sast
