import SastEngine.Prove.Planner
import SastEngine.Python.Search
import SastEngine.Validate.Provider

/-!
# The proof service

`prove/service.py`: a validated finding is planned, its harness is run in the sandbox, and what the
harness has printed is read.
-/

namespace Sast

/-- `ProofArtifact`. -/
structure ProofArtifact where
  name : String
  kind : String
  content : String
deriving DecidableEq

/-- `ProofResult`, with the fields that no other stage decides anything by. -/
structure ProofReport extends ProofResult where
  confidence : Rat
  summary : String
  evidence : List ProofArtifact
  artifacts : List ProofArtifact
  durationMs : Rat
  sandboxPolicy : SandboxPolicy
  error : Option String

/-- What a proof takes from its surroundings.  `windows` is `os.name == "nt"`, `templates` are the
scripts of the harnesses, and `hostError` is the text of an exception of the operating system. -/
structure ProveEnv where
  windows : Bool
  repr : String → String
  templates : String → String
  chars : CharTable
  host : Host
  hostError : String
  utcnow : DateTime
  durationMs : Rat

/-- How a proof fails: with a `ProofGateError`, or with another exception. -/
inductive ProveError where
  | gate (message : String)
  | raised (message : String)
deriving DecidableEq

/-! ## Reading the output of a harness -/

/-- What `_interpret` returns. -/
structure Reading where
  status : ProofStatus
  summary : String
  artifacts : List ProofArtifact
deriving DecidableEq

/-- The artifact of one line and one prefix. -/
def lineArtifact (line : List Char) (pre : String) : Option ProofArtifact :=
  (line.dropPrefix? (pre.toList ++ [':'])).map fun content =>
    ⟨pre.map Char.toLower, "observation", String.ofList content⟩

/-- `_line_artifacts`. -/
def lineArtifacts (out : List Char) (prefixes : List String) : List ProofArtifact :=
  (splitlines out).flatMap fun line => prefixes.filterMap (lineArtifact line)

section Patterns

variable (chars : CharTable)

/-- A pattern of two labels behind `PROVED`. -/
def provedPattern (left right : String) (value : Char → Bool) : PairPattern where
  first := ("PROVED:" ++ left ++ "=").toList
  left := chars.digit
  second := (":" ++ right ++ "=").toList
  right := value

/-- `PROVED:unsafe_rows=(\d+):safe_rows=(\d+)`. -/
def sqlPattern : PairPattern := provedPattern chars "unsafe_rows" "safe_rows" chars.digit

/-- `PROVED:control_hit=(\d+):injected_hit=(\d+)`. -/
def cmdPattern : PairPattern := provedPattern chars "control_hit" "injected_hit" chars.digit

/-- `PROVED:status=(\d+):body=(\w+)`. -/
def ssrfPattern : PairPattern := provedPattern chars "status" "body" chars.word

/-- `PROVED:pickle_ok=(\d+):json_ok=(\d+)`. -/
def deserPattern : PairPattern := provedPattern chars "pickle_ok" "json_ok" chars.digit

/-- `_interpret` of the output of `sql_injection_proof`. -/
def interpretSql (out : List Char) : Except String Reading := do
  let artifacts := lineArtifacts out ["UNSAFE_QUERY", "SAFE_QUERY"]
  let same : Reading :=
    ⟨.notVerified, "unsafe and safe constructions behaved identically", artifacts⟩
  match (sqlPattern chars).search out with
  | none => return same
  | some (unsafeRows, safeRows) =>
      if (← chars.int unsafeRows) ≠ (← chars.int safeRows) then
        return ⟨.verified, "unsafe string construction returned " ++ String.ofList unsafeRows
          ++ " rows while the parameterized construction returned " ++ String.ofList safeRows
          ++ " rows for the same benign marker in the local fixture", artifacts⟩
      else return same

/-- `_interpret` of the output of `command_injection_proof`. -/
def interpretCmd (out : List Char) : Reading :=
  if (cmdPattern chars).search out = some (['0'], ['1']) then
    ⟨.verified, "the benign marker produced the known marker file inside the "
      ++ "sandbox while the control value did not - the command sink "
      ++ "interpolates untrusted input into a shell command",
      [⟨"marker_file", "marker", "prove_marker.txt (inside sandbox workspace)"⟩]⟩
  else ⟨.notVerified, "marker observation did not match expectations", []⟩

/-- `_interpret` of the output of `ssrf_proof`. -/
def interpretSsrf (out : List Char) : Reading :=
  let artifacts := lineArtifacts out ["URL"]
  if (ssrfPattern chars).search out = some ("200".toList, "proved".toList) then
    ⟨.verified, "the request reached the harness-created loopback endpoint "
      ++ "(127.0.0.1, ephemeral port) and got the expected controlled "
      ++ "response - input flows into an HTTP request sink", artifacts⟩
  else ⟨.notVerified, "loopback endpoint did not answer as expected", artifacts⟩

/-- `_interpret` of the output of `deserialization_proof`. -/
def interpretDeser (out : List Char) : Reading :=
  let artifacts := lineArtifacts out ["PICKLE_OK", "PICKLE_MARKER", "JSON_OK"]
  if (deserPattern chars).search out = some (['1'], ['0']) then
    ⟨.verified, "pickle.loads successfully deserialized the planner-controlled "
      ++ "marker while json.loads rejected the same bytes - input flows "
      ++ "into a deserialization sink that processes arbitrary payloads", artifacts⟩
  else ⟨.notVerified, "deserialization proof observation did not match expectations", artifacts⟩

/-- `_interpret` of the output of a harness that has ended by itself, without an error. -/
def interpretOutput (repr : String → String) (harness : String) (out : List Char) :
    Except String Reading :=
  if harness = "sql_injection_proof" then interpretSql chars out
  else if harness = "command_injection_proof" then .ok (interpretCmd chars out)
  else if harness = "ssrf_proof" then .ok (interpretSsrf chars out)
  else if harness = "deserialization_proof" then .ok (interpretDeser chars out)
  else .ok ⟨.notVerified, "no interpretation for harness " ++ repr harness, []⟩

/-- `_interpret`. -/
def interpret (repr : String → String) (plan : ProofPlan) (execution : ExecutionResult) :
    Except String Reading :=
  if execution.timedOut then
    .ok ⟨.error, "proof harness exceeded the sandbox timeout",
      [⟨"observation", "observation", "timed_out"⟩]⟩
  else if execution.returncode ≠ some 0 then
    let rc := (execution.returncode.map toString).getD "None"
    .ok ⟨.error, "proof harness failed (rc=" ++ rc ++ "): "
        ++ String.ofList (execution.stderr.toList.take 200),
      [⟨"observation", "observation", "rc=" ++ rc⟩]⟩
  else interpretOutput chars repr plan.harness execution.stdout.toList

end Patterns

/-! ## Proving -/

variable (env : ProveEnv)

/-- The evidence of a result. -/
def planEvidence : Option ProofPlan → List ProofArtifact
  | none => []
  | some plan => [⟨"plan", "plan", plan.objective⟩, ⟨"input_value", "observation", plan.inputValue⟩]

/-- `_result`. -/
def proofReport (finding : CandidateFinding) (validation : ValidationReport)
    (plan : Option ProofPlan) (reading : Reading) (policy : SandboxPolicy)
    (error : Option String) : ProofReport where
  findingId := finding.id
  vulnerabilityType := finding.vulnerabilityType
  status := reading.status
  createdAt := env.utcnow
  confidence := validation.confidence
  summary := reading.summary
  evidence := planEvidence plan
  artifacts := reading.artifacts
  durationMs := env.durationMs
  sandboxPolicy := policy
  error := error

/-- The gate of `prove`. -/
def proveGate (finding : CandidateFinding) (validation : Option ValidationReport) :
    Except ProveError ValidationReport :=
  match validation with
  | none => .error (.gate "no validation result recorded for this finding")
  | some validation =>
      if validation.findingId ≠ finding.id then
        .error (.gate "validation result does not match the finding")
      else if validation.verdict ≠ .truePositive then
        .error (.gate ("finding is not eligible for proof: verdict=" ++ validation.verdict.text))
      else .ok validation

/-- The reading for a type without a plan. -/
def unplanned (finding : CandidateFinding) : Reading where
  status := .notVerified
  summary := "no proof plan exists for vulnerability type " ++ env.repr finding.vulnerabilityType
    ++ match unsupportedReason env.repr finding.vulnerabilityType with
      | none => ""
      | some reason => " — " ++ reason
  artifacts := []

/-- The call of the runner for a plan. -/
def planCall (plan : ProofPlan) : SandboxCall where
  harnessName := plan.harness
  script := plan.harnessScript
  args := [plan.inputValue]
  policy := some plan.policy
  host := env.host

/-- `prove` past its gate, for a type with a plan. -/
def provePlanned (runner : SandboxRunner) (finding : CandidateFinding)
    (validation : ValidationReport) (plan : ProofPlan) :
    SandboxRunner × Except ProveError ProofReport :=
  let (runner, ending) := runner.run env.templates (planCall env plan)
  let failed := fun error : String => proofReport env finding validation (some plan)
    ⟨.error, "proof harness could not be executed", []⟩ runner.policy (some error)
  match ending with
  | .violation message => (runner, .ok (failed message))
  | .raised => (runner, .ok (failed env.hostError))
  | .result execution =>
      (runner, ((interpret env.chars env.repr plan execution).mapError .raised).map fun reading =>
        proofReport env finding validation (some plan) reading runner.policy none)

/-- `prove`. -/
def prove (runner : SandboxRunner) (finding : CandidateFinding)
    (validation : Option ValidationReport) : SandboxRunner × Except ProveError ProofReport :=
  match proveGate finding validation with
  | .error e => (runner, .error e)
  | .ok validation =>
      match planProof env.templates env.windows finding with
      | none =>
          (runner, .ok (proofReport env finding validation none (unplanned env finding) {} none))
      | some plan => provePlanned env runner finding validation plan

/-! ## What a proof presupposes -/

lemma proveGate_ok {finding : CandidateFinding} {recorded : Option ValidationReport}
    {validation : ValidationReport} :
    proveGate finding recorded = .ok validation
      ↔ recorded = some validation ∧ validation.findingId = finding.id
        ∧ validation.verdict = .truePositive := by
  cases recorded with
  | none => simp [proveGate]
  | some stored =>
      simp only [proveGate, Option.some.injEq]
      split_ifs with hid hverdict
      · refine iff_of_false (by simp) ?_
        rintro ⟨rfl, heq, -⟩
        exact hid heq
      · refine iff_of_false (by simp) ?_
        rintro ⟨rfl, -, heq⟩
        exact hverdict heq
      · rw [Except.ok.injEq]
        constructor
        · rintro rfl
          exact ⟨rfl, not_not.1 hid, not_not.1 hverdict⟩
        · exact And.left

/-- A reading that is verified is one of a harness that ended by itself and without an error. -/
lemma interpret_verified {chars : CharTable} {repr : String → String} {plan : ProofPlan}
    {execution : ExecutionResult} {reading : Reading}
    (h : interpret chars repr plan execution = .ok reading) (hstatus : reading.status = .verified) :
    execution.timedOut = false ∧ execution.returncode = some 0
      ∧ interpretOutput chars repr plan.harness execution.stdout.toList = .ok reading := by
  rw [interpret] at h
  split_ifs at h with htimed hcode
  · obtain rfl := Except.ok.inj h
    cases hstatus
  · obtain rfl := Except.ok.inj h
    cases hstatus
  · exact ⟨by simpa using htimed, not_not.1 hcode, h⟩

/-- **What a proof that ends presupposes**: a matching verdict of true positive; and its report is
on the finding, with the reading of what the harness of its plan has printed, if it got as far. -/
lemma prove_ok {env : ProveEnv} {runner runner' : SandboxRunner} {finding : CandidateFinding}
    {recorded : Option ValidationReport} {report : ProofReport}
    (h : prove env runner finding recorded = (runner', .ok report)) :
    ∃ validation, recorded = some validation ∧ validation.findingId = finding.id
      ∧ validation.verdict = .truePositive ∧ report.findingId = finding.id
      ∧ (report.status = .notVerified ∨ report.status = .error
        ∨ ∃ plan execution reading, planProof env.templates env.windows finding = some plan
          ∧ runner.run env.templates (planCall env plan) = (runner', .result execution)
          ∧ interpret env.chars env.repr plan execution = .ok reading
          ∧ report.status = reading.status) := by
  cases hgate : proveGate finding recorded with
  | error e => simp [prove, hgate] at h
  | ok validation =>
      obtain ⟨hrecorded, hid, hverdict⟩ := proveGate_ok.1 hgate
      refine ⟨validation, hrecorded, hid, hverdict, ?_⟩
      cases hplan : planProof env.templates env.windows finding with
      | none =>
          simp only [prove, hgate, hplan, Prod.mk.injEq, Except.ok.injEq] at h
          obtain ⟨-, rfl⟩ := h
          exact ⟨rfl, Or.inl rfl⟩
      | some plan =>
          simp only [prove, hgate, hplan, provePlanned] at h
          cases hrun : runner.run env.templates (planCall env plan) with
          | mk after ending =>
              rw [hrun] at h
              cases ending with
              | violation message =>
                  obtain ⟨-, hreport⟩ := Prod.mk.inj h
                  obtain rfl := Except.ok.inj hreport
                  exact ⟨rfl, Or.inr (Or.inl rfl)⟩
              | raised =>
                  obtain ⟨-, hreport⟩ := Prod.mk.inj h
                  obtain rfl := Except.ok.inj hreport
                  exact ⟨rfl, Or.inr (Or.inl rfl)⟩
              | result execution =>
                  obtain ⟨rfl, hreport⟩ := Prod.mk.inj h
                  obtain ⟨reading, hreading, rfl⟩ := map_eq_ok.1 hreport
                  refine ⟨rfl, Or.inr (Or.inr ⟨plan, execution, reading, rfl, hrun, ?_, rfl⟩)⟩
                  exact mapError_eq_ok.1 hreading

/-- A proof is verified only by a harness that ended by itself, without an error. -/
lemma prove_verified {env : ProveEnv} {runner runner' : SandboxRunner} {finding : CandidateFinding}
    {recorded : Option ValidationReport} {report : ProofReport}
    (h : prove env runner finding recorded = (runner', .ok report))
    (hstatus : report.status = .verified) :
    ∃ plan execution reading, planProof env.templates env.windows finding = some plan
      ∧ runner.run env.templates (planCall env plan) = (runner', .result execution)
      ∧ execution.timedOut = false ∧ execution.returncode = some 0
      ∧ interpretOutput env.chars env.repr plan.harness execution.stdout.toList = .ok reading
      ∧ reading.status = .verified := by
  obtain ⟨validation, -, -, -, -, hcase⟩ := prove_ok h
  rw [hstatus] at hcase
  rcases hcase with hcase | hcase | ⟨plan, execution, reading, hplan, hrun, hreading, heq⟩
  · cases hcase
  · cases hcase
  · obtain ⟨htimed, hcode, hout⟩ := interpret_verified hreading heq.symm
    exact ⟨plan, execution, reading, hplan, hrun, htimed, hcode, hout, heq.symm⟩

end Sast
