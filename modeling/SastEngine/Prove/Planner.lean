import SastEngine.Prove.Sandbox
import SastEngine.Scan.Models

/-!
# Proof plans

`prove/planner.py`: which harness is run for a finding, and on which input.  Only the vulnerability
type of the finding is read.  The scripts of the harnesses are those of the sandbox runner's
templates.
-/

namespace Sast

/-- `ProofPlan`. -/
structure ProofPlan where
  vulnerabilityType : String
  objective : String
  allowedActions : List String
  expectedObservation : String
  harness : String
  inputValue : String
  harnessScript : String
  policy : SandboxPolicy

/-- `_SQLI_MARKER`. -/
def sqliMarker : String := "1 OR 1=1"

/-- `_CMDI_MARKER_WINDOWS`. -/
def cmdiMarkerWindows : String := "& echo PROVED_CMDI > prove_marker.txt"

/-- `_CMDI_MARKER_POSIX`. -/
def cmdiMarkerPosix : String := "; echo PROVED_CMDI > prove_marker.txt"

/-- `_DESER_MARKER`. -/
def deserMarker : String := "PROVE_DESER_MARKER_2024"

/-- `SUPPORTED_PROOF_TYPES`. -/
def supportedProofTypes : List String :=
  ["sql_injection", "command_injection", "ssrf", "deserialization"]

/-- The reasons for types without a harness. -/
def unsupportedReasons : List (String × String) :=
  [("path_traversal", "Proof requires file system interaction outside the sandbox; "
      ++ "automated PoC not supported without OS-level isolation."),
    ("xss", "Proof requires a browser environment; automated PoC not "
      ++ "supported without headless browser sandboxing."),
    ("idor", "Proof requires application context and authentication state; "
      ++ "automated PoC not supported."),
    ("open_redirect", "Proof requires HTTP redirect following; automated PoC not "
      ++ "supported without network sandbox."),
    ("xxe", "Proof requires XML parser interaction; automated PoC not "
      ++ "supported without XML processing sandbox.")]

/-- `unsupported_reason`. -/
def unsupportedReason (repr : String → String) (vulnerabilityType : String) : Option String :=
  if vulnerabilityType ∈ supportedProofTypes then none
  else some ((unsupportedReasons.lookup vulnerabilityType).getD
    ("No automated proof harness exists for " ++ repr vulnerabilityType ++ ". "
      ++ "Manual proof required."))

section Plans

variable (templates : String → String)

/-- `_sql_plan`. -/
def sqlPlan : ProofPlan where
  vulnerabilityType := "sql_injection"
  objective := "Demonstrate in a controlled in-memory SQLite fixture that the "
    ++ "vulnerable construction interpolates untrusted input into the SQL "
    ++ "statement, by comparing unsafe (string construction) vs "
    ++ "parameterized execution of the same query."
  allowedActions :=
    ["create an in-memory SQLite database inside the sandbox",
      "run read-only SELECT statements against the local fixture",
      "compare result sets of unsafe vs parameterized construction"]
  expectedObservation := "unsafe_rows != safe_rows for the benign marker "
    ++ "'1 OR 1=1' (no external database, no writes)"
  harness := "sql_injection_proof"
  inputValue := sqliMarker
  harnessScript := templates "sql_injection_proof"
  policy := {}

/-- `_cmd_plan`. -/
def cmdPlan (windows : Bool) : ProofPlan where
  vulnerabilityType := "command_injection"
  objective := "Demonstrate that the command sink interpolates untrusted input "
    ++ "into a shell command string. A harmless planner-controlled marker "
    ++ "must be the only thing that can produce a known marker file inside "
    ++ "the sandbox workspace."
  allowedActions :=
    ["build the command string with the planner-controlled marker",
      "execute the benign command inside the sandbox workspace only",
      "verify the marker file inside the sandbox workspace"]
  expectedObservation := "control run (no metacharacters) does NOT create the marker file; "
    ++ "marker run creates it"
  harness := "command_injection_proof"
  inputValue := if windows then cmdiMarkerWindows else cmdiMarkerPosix
  harnessScript := templates "command_injection_proof"
  policy := {}

/-- `_ssrf_plan`. -/
def ssrfPlan : ProofPlan where
  vulnerabilityType := "ssrf"
  objective := "Demonstrate that controlled input reaches an HTTP request sink. "
    ++ "The destination is a harness-created, in-process HTTP server on "
    ++ "127.0.0.1 with an OS-assigned ephemeral port - never an external "
    ++ "host, localhost service, or metadata endpoint."
  allowedActions :=
    ["start a ThreadingHTTPServer bound to 127.0.0.1 on port 0 (ephemeral)",
      "perform exactly one request to the harness-generated URL",
      "shut the server down inside the same process"]
  expectedObservation := "the harness-generated endpoint answers 200 with body 'proved'"
  harness := "ssrf_proof"
  inputValue := ""
  harnessScript := templates "ssrf_proof"
  policy := { allowLoopback := true }

/-- `_deser_plan`. -/
def deserPlan : ProofPlan where
  vulnerabilityType := "deserialization"
  objective := "Demonstrate that controlled input reaches a deserialization sink "
    ++ "by comparing the behavior of an unsafe deserialization call "
    ++ "(pickle.loads) with a safe alternative (json.loads). The proof "
    ++ "shows that the unsafe path processes raw bytes while the safe "
    ++ "path rejects them, proving input flows into a deserialization API."
  allowedActions :=
    ["construct a benign pickle payload containing the planner marker",
      "call pickle.loads in the sandbox to deserialize the marker",
      "call json.loads on the same bytes to show it fails",
      "compare the two results"]
  expectedObservation := "pickle.loads succeeds and returns the marker object; "
    ++ "json.loads fails on the same bytes"
  harness := "deserialization_proof"
  inputValue := deserMarker
  harnessScript := templates "deserialization_proof"
  policy := {}

/-- `plan`. -/
def planProof (windows : Bool) (finding : CandidateFinding) : Option ProofPlan :=
  if finding.vulnerabilityType = "sql_injection" then some (sqlPlan templates)
  else if finding.vulnerabilityType = "command_injection" then some (cmdPlan templates windows)
  else if finding.vulnerabilityType = "ssrf" then some (ssrfPlan templates)
  else if finding.vulnerabilityType = "deserialization" then some (deserPlan templates)
  else none

variable {templates}

/-- The plans of the planner. -/
lemma planProof_cases {windows : Bool} {finding : CandidateFinding} {plan : ProofPlan}
    (h : planProof templates windows finding = some plan) :
    plan = sqlPlan templates ∨ plan = cmdPlan templates windows ∨ plan = ssrfPlan templates
      ∨ plan = deserPlan templates := by
  simp only [planProof] at h
  split_ifs at h
  · exact Or.inl (Option.some.inj h).symm
  · exact Or.inr (Or.inl (Option.some.inj h).symm)
  · exact Or.inr (Or.inr (Or.inl (Option.some.inj h).symm))
  · exact Or.inr (Or.inr (Or.inr (Option.some.inj h).symm))

/-- A plan names an approved harness and carries its trusted script. -/
lemma planProof_approved {windows : Bool} {finding : CandidateFinding} {plan : ProofPlan}
    (h : planProof templates windows finding = some plan) :
    plan.harness ∈ approvedHarnesses ∧ plan.harnessScript = templates plan.harness := by
  rcases planProof_cases h with rfl | rfl | rfl | rfl
  · exact ⟨by simp [sqlPlan, approvedHarnesses], rfl⟩
  · exact ⟨by simp [cmdPlan, approvedHarnesses], rfl⟩
  · exact ⟨by simp [ssrfPlan, approvedHarnesses], rfl⟩
  · exact ⟨by simp [deserPlan, approvedHarnesses], rfl⟩

/-- There is a plan for the supported types, and for no others. -/
lemma planProof_isSome (windows : Bool) (finding : CandidateFinding) :
    (planProof templates windows finding).isSome
      ↔ finding.vulnerabilityType ∈ supportedProofTypes := by
  simp only [planProof, supportedProofTypes, List.mem_cons, List.not_mem_nil, or_false]
  split_ifs with h1 h2 h3 h4
  · simp [h1]
  · simp [h2]
  · simp [h3]
  · simp [h4]
  · simp [h1, h2, h3, h4]

end Plans

end Sast
