import SastEngine.Lib.Dict
import SastEngine.Lib.Run
import Mathlib.Data.Rat.Defs

/-!
# The sandbox runner

`prove/sandbox.py`.  The runner keeps one policy, which every accepted run overwrites: first with
the policy of the run, if it has one, and otherwise with what the field holds.  The operating
system is a parameter of a call.
-/

namespace Sast

/-- `SandboxPolicy`. -/
structure SandboxPolicy where
  networkEnabled : Bool := false
  allowLoopback : Bool := false
  allowedPaths : List String := []
  timeoutSeconds : Rat := 10
  maxOutputBytes : Int := 16 * 1024
  maxProcesses : Int := 1
  temporaryDirectory : String := ""
deriving DecidableEq

/-- What a policy limits, without the workspace of the run. -/
structure Limits where
  networkEnabled : Bool
  allowLoopback : Bool
  timeoutSeconds : Rat
  maxOutputBytes : Int
  maxProcesses : Int
deriving DecidableEq

def SandboxPolicy.limits (policy : SandboxPolicy) : Limits where
  networkEnabled := policy.networkEnabled
  allowLoopback := policy.allowLoopback
  timeoutSeconds := policy.timeoutSeconds
  maxOutputBytes := policy.maxOutputBytes
  maxProcesses := policy.maxProcesses

/-- `APPROVED_HARNESSES`. -/
def approvedHarnesses : List String :=
  ["sql_injection_proof", "command_injection_proof", "ssrf_proof", "deserialization_proof",
    "probe_proof"]

/-- `ExecutionResult`. -/
structure ExecutionResult where
  returncode : Option Int
  stdout : String
  stderr : String
  timedOut : Bool
  truncated : Bool
  workspace : String

/-- The arguments of `subprocess.run`. -/
structure Launch where
  scriptPath : String
  args : List String
  cwd : String
  env : Dict String String
  timeout : Rat

/-- How `subprocess.run` ends. -/
inductive ProcessEnd where
  | completed (returncode : Int) (stdout stderr : String)
  | timeoutExpired (stdout stderr : String)
  | raised

/-- What the operating system does during a call. -/
structure Host where
  /-- `tempfile.mkdtemp`; `none` where it raises -/
  mkdtemp : Option String
  /-- Whether the script can be written. -/
  writesScript : Bool
  environ : Dict String String
  subprocess : Launch → ProcessEnd

/-- The arguments of `SandboxRunner.run`, and the host that executes it. -/
structure SandboxCall where
  harnessName : String
  script : String
  args : List String := []
  env : Option (Dict String String) := none
  policy : Option SandboxPolicy := none
  host : Host

/-- How `SandboxRunner.run` ends. -/
inductive RunEnd where
  | violation (message : String)
  | raised
  | result (result : ExecutionResult)

/-- `SandboxRunner`. -/
structure SandboxRunner where
  policy : SandboxPolicy

/-- `_TRUNCATE_SUFFIX`. -/
def truncateSuffix : String := "\n...[output truncated by sandbox policy]..."

namespace SandboxRunner

/-- `text[:limit]`. -/
def sliceTo (limit : Int) (text : String) : String :=
  let chars := text.toList
  String.ofList (chars.take (if 0 ≤ limit then limit.toNat else chars.length - limit.natAbs))

/-- `_truncate`. -/
def truncate (runner : SandboxRunner) (text : String) : String :=
  let limit := runner.policy.maxOutputBytes
  if text.length ≤ limit then text else sliceTo limit text ++ truncateSuffix

/-- The policy that an accepted run puts in the runner. -/
def effective (runner : SandboxRunner) (policy : Option SandboxPolicy) (workspace : String) :
    SandboxPolicy :=
  let effective := { policy.getD runner.policy with
    temporaryDirectory := ""
    allowedPaths := [] }
  { effective with
    temporaryDirectory := workspace
    allowedPaths := [workspace] ++ effective.allowedPaths }

/-- What the runner hands to `subprocess.run`. -/
def launch (runner : SandboxRunner) (call : SandboxCall) (workspace : String) : Launch where
  scriptPath := workspace ++ "/" ++ call.harnessName ++ ".py"
  args := call.args
  cwd := workspace
  env := (call.host.environ.set "SANDBOX_DIR" workspace).update (call.env.getD Dict.empty)
  timeout := runner.policy.timeoutSeconds

/-- The part of `run` after the policy is set. -/
def execute (runner : SandboxRunner) (call : SandboxCall) (workspace : String) : RunEnd :=
  if call.host.writesScript then
    match call.host.subprocess (runner.launch call workspace) with
    | .completed returncode stdout stderr =>
        .result
          { returncode := some returncode
            stdout := runner.truncate stdout
            stderr := runner.truncate stderr
            timedOut := false
            truncated := stdout.length > runner.policy.maxOutputBytes
            workspace := workspace }
    | .timeoutExpired stdout stderr =>
        .result
          { returncode := none
            stdout := runner.truncate stdout
            stderr := runner.truncate stderr
            timedOut := true
            truncated := stdout.length > runner.policy.maxOutputBytes
            workspace := workspace }
    | .raised => .raised
  else .raised

/-- `run`, where `templates` are the trusted scripts of the harnesses. -/
def run (templates : String → String) (runner : SandboxRunner) (call : SandboxCall) :
    SandboxRunner × RunEnd :=
  if call.harnessName ∉ approvedHarnesses then
    (runner, .violation ("harness '" ++ call.harnessName ++ "' is not approved"))
  else if call.script ≠ templates call.harnessName then
    (runner, .violation ("harness script for '" ++ call.harnessName
      ++ "' does not match the trusted template"))
  else
    match call.host.mkdtemp with
    | none => (runner, .raised)
    | some workspace =>
        let runner : SandboxRunner := ⟨runner.effective call.policy workspace⟩
        (runner, runner.execute call workspace)

end SandboxRunner

/-- The call passes the checks and gets a workspace, so its policy is set. -/
def SandboxCall.Accepted (templates : String → String) (call : SandboxCall) : Prop :=
  call.harnessName ∈ approvedHarnesses ∧ call.script = templates call.harnessName
    ∧ call.host.mkdtemp.isSome

instance (templates : String → String) (call : SandboxCall) :
    Decidable (call.Accepted templates) :=
  inferInstanceAs (Decidable (_ ∧ _ ∧ _))

/-- The runner after a call. -/
def SandboxRunner.after (templates : String → String) (runner : SandboxRunner)
    (call : SandboxCall) : SandboxRunner := (runner.run templates call).1

/-- The limits in force while an accepted call executes, which are those of the policy that
`launch` and `truncate` read, are those of its own policy or else of the constructor's. -/
def OwnLimits (templates : String → String) (constructor : SandboxPolicy)
    (runner : SandboxRunner) (call : SandboxCall) : Prop :=
  call.Accepted templates →
    (runner.after templates call).policy.limits = (call.policy.getD constructor).limits

/-- The policy of the last accepted call that had one. -/
def lastOverride (templates : String → String) (calls : List SandboxCall) :
    Option SandboxPolicy :=
  ((calls.filter fun call => call.Accepted templates).filterMap (·.policy)).getLast?

section Runs

variable {templates : String → String} {constructor : SandboxPolicy}

lemma after_of_accepted {call : SandboxCall} (h : call.Accepted templates)
    (runner : SandboxRunner) : (runner.after templates call).policy.limits
      = (call.policy.getD runner.policy).limits := by
  obtain ⟨happroved, hscript, hdir⟩ := h
  obtain ⟨workspace, hdir⟩ := Option.isSome_iff_exists.1 hdir
  rw [SandboxRunner.after, SandboxRunner.run, if_neg (not_not.2 happroved),
    if_neg (not_not.2 hscript), hdir]
  rfl

/-- A call that is not accepted leaves the runner as it is. -/
lemma after_of_not_accepted {call : SandboxCall} (h : ¬ call.Accepted templates)
    (runner : SandboxRunner) : runner.after templates call = runner := by
  by_cases happroved : call.harnessName ∈ approvedHarnesses
  · by_cases hscript : call.script = templates call.harnessName
    · rw [SandboxRunner.after, SandboxRunner.run, if_neg (not_not.2 happroved),
        if_neg (not_not.2 hscript)]
      cases hdir : call.host.mkdtemp with
      | none => rfl
      | some workspace => exact absurd ⟨happroved, hscript, by rw [hdir]; rfl⟩ h
    · rw [SandboxRunner.after, SandboxRunner.run, if_neg (not_not.2 happroved), if_pos hscript]
  · rw [SandboxRunner.after, SandboxRunner.run, if_pos happroved]

lemma lastOverride_concat (calls : List SandboxCall) (call : SandboxCall) :
    lastOverride templates (calls ++ [call])
      = if call.Accepted templates then call.policy.or (lastOverride templates calls)
        else lastOverride templates calls := by
  by_cases h : call.Accepted templates
  · cases hp : call.policy with
    | none => simp [lastOverride, h, hp]
    | some p => simp [lastOverride, h, hp]
  · simp [lastOverride, h]

/-- The runner's limits are those of the last accepted call with a policy. -/
theorem limits_exec (calls : List SandboxCall) :
    (exec (SandboxRunner.after templates) ⟨constructor⟩ calls).policy.limits
      = ((lastOverride templates calls).getD constructor).limits := by
  induction calls using List.reverseRecOn with
  | nil => rfl
  | append_singleton calls call ih =>
      rw [exec_concat, lastOverride_concat]
      by_cases h : call.Accepted templates
      · rw [after_of_accepted h, if_pos h]
        cases hp : call.policy with
        | none => simpa [hp] using ih
        | some p => rfl
      · rw [after_of_not_accepted h, if_neg h, ih]

/-- In a sequence of runs on one runner, every run has its own limits exactly when each accepted
run without a policy comes before every override, or after one with the limits of the
constructor's policy. -/
theorem ownLimits_iff (templates : String → String) (constructor : SandboxPolicy)
    (calls : List SandboxCall) :
    Throughout (SandboxRunner.after templates) (OwnLimits templates constructor) ⟨constructor⟩
        calls
      ↔ ∀ pre call post, calls = pre ++ call :: post → call.Accepted templates →
        call.policy = none → ∀ policy ∈ lastOverride templates pre,
          policy.limits = constructor.limits := by
  rw [throughout_iff]
  have hstep : ∀ pre call, OwnLimits templates constructor
      (exec (SandboxRunner.after templates) ⟨constructor⟩ pre) call
        ↔ (call.Accepted templates → call.policy = none →
          ∀ policy ∈ lastOverride templates pre, policy.limits = constructor.limits) := by
    intro pre call
    refine forall_congr' fun h => ?_
    rw [after_of_accepted h]
    cases hp : call.policy with
    | some p => simp
    | none =>
        rw [Option.getD_none, Option.getD_none, limits_exec]
        cases lastOverride templates pre <;> simp
  constructor
  · intro h pre call post heq
    exact (hstep pre call).1 (h pre call post heq)
  · intro h pre call post heq
    exact (hstep pre call).2 (h pre call post heq)

end Runs

/-! ## Two runs -/

/-- A host on which every process completes at once. -/
def quietHost : Host where
  mkdtemp := some "/tmp/sast_prove_1"
  writesScript := true
  environ := Dict.empty
  subprocess _ := .completed 0 "" ""

/-- A call of the test harness, whose template is empty here. -/
def probe (policy : Option SandboxPolicy) : SandboxCall where
  harnessName := "probe_proof"
  script := ""
  policy := policy
  host := quietHost

instance (templates : String → String) (constructor : SandboxPolicy) (runner : SandboxRunner)
    (call : SandboxCall) : Decidable (OwnLimits templates constructor runner call) :=
  inferInstanceAs (Decidable (call.Accepted templates → _))

/-- After a run with a timeout of one second, the default run has that timeout too. -/
theorem not_ownLimits_override : ¬ Throughout (SandboxRunner.after fun _ => "")
    (OwnLimits (fun _ => "") {}) ⟨{}⟩
    [probe (some { timeoutSeconds := 1 }), probe none] := by
  decide +kernel

end Sast
