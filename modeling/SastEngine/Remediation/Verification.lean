import SastEngine.Remediation.ApplyOnce
import SastEngine.Scan.Identity

/-!
# Verification

`verify` scans the current snapshot and looks for the id of the finding, which names the lines of
source and sink at the time of the first scan.  Which call of the snapshot is the one the fix was
meant to neutralize depends on the edits since; here it is a parameter of each call, so the
results hold for every history of edits.
-/

namespace Sast

variable {rt : Runtime} {f : CandidateFinding} {projectId : String}

section Truthful

-- `tracked` names, for each call, the sinks of its snapshot that are the call the finding was
-- reported for.
variable (rt f) (tracked : WorkflowCall → SinkRef → Prop)

/-- The scan reports the finding's vulnerability type at the tracked call. -/
def Detected (call : WorkflowCall) (report : ScanReport) : Prop :=
  ∃ g ∈ report.findings, g.vulnerabilityType = f.vulnerabilityType ∧ tracked call g.sink

/-- A verification of the finding tells the truth about a fresh scan of the snapshot. -/
def VerifiesTruthfully (world : World) (call : WorkflowCall) : Prop :=
  call.op = .verify f.id → ∀ record report, verify rt call.env world f.id = .ok record →
    freshScan rt call.env f.id = .ok report →
      (record.status = .verified → ¬ Detected f tracked call report)
        ∧ (Detected f tracked call report → record.status = .stillPresent)

/-- When a verification of an applied fix meets the tracked call still vulnerable, the snapshot
has a finding of the same type with the file, source line and sink line of the first scan. -/
def DetectedInPlace (world : World) (call : WorkflowCall) : Prop :=
  call.op = .verify f.id → ∀ old report, world.records.get? f.id = some old →
    old.status ∈ verifiableStatuses → freshScan rt call.env f.id = .ok report →
      Detected f tracked call report → ∃ g ∈ report.findings, SamePlace f g

/-- The lineage of the finding names the project whose scan reported it. -/
def OwnedBySelf (projectId : String) (call : WorkflowCall) : Prop :=
  ∀ project, projectForFinding call.env f.id = .ok project → project.id = projectId

/-- The hash tells the finding's text from those of a fresh scan. -/
def NoCollision (projectId : String) (call : WorkflowCall) : Prop :=
  ∀ report, freshScan rt call.env f.id = .ok report → ∀ g ∈ report.findings,
    rt.py.sha256 (g.text projectId) = rt.py.sha256 (f.text projectId) →
      g.text projectId = f.text projectId

end Truthful

variable {tracked : WorkflowCall → SinkRef → Prop}

/-- The findings of a fresh scan are identified under the project of the finding. -/
lemma identified_freshScan {call : WorkflowCall} {report : ScanReport}
    (howner : OwnedBySelf f projectId call) (h : freshScan rt call.env f.id = .ok report) :
    ∀ g ∈ report.findings, Identified rt.py (defaultRules rt.py) projectId g := by
  unfold freshScan at h
  obtain ⟨project, hproject, h⟩ := bind_eq_ok.1 h
  obtain ⟨codeModel, -, h⟩ := bind_eq_ok.1 h
  have hscan := mapError_eq_ok.1 h
  rw [howner project hproject] at hscan
  exact identified_scan located_defaultRules hscan

/-- The status of a verification says whether the fresh scan has a finding in the same place. -/
lemma verify_status_iff {world : World} {call : WorkflowCall} {record : RemediationRecord}
    {report : ScanReport} (hf : Identified rt.py (defaultRules rt.py) projectId f)
    (howner : OwnedBySelf f projectId call) (hhash : NoCollision rt f projectId call)
    (h : verify rt call.env world f.id = .ok record)
    (hreport : freshScan rt call.env f.id = .ok report) :
    (record.status = .stillPresent ↔ ∃ g ∈ report.findings, SamePlace f g)
      ∧ (record.status = .verified ↔ ¬ ∃ g ∈ report.findings, SamePlace f g) := by
  obtain ⟨old, report', -, -, hreport', rfl⟩ := verify_ok h
  obtain rfl := Except.ok.inj (hreport.symm.trans hreport')
  have hany : (report.findings.any fun g => g.id = f.id) = true
      ↔ ∃ g ∈ report.findings, SamePlace f g := by
    rw [List.any_eq_true]
    refine exists_congr fun g => and_congr_right fun hg => ?_
    rw [decide_eq_true_iff]
    exact id_eq_iff hf (identified_freshScan howner hreport g hg) (hhash report hreport g hg)
  cases hpresent : report.findings.any fun g => g.id = f.id with
  | true =>
      have hplace := hany.1 hpresent
      simp [verifiedRecord, hplace]
  | false =>
      have hplace : ¬ ∃ g ∈ report.findings, SamePlace f g := by
        rw [← hany, hpresent]
        simp
      simp only [verifiedRecord, hplace]
      simp

/-- **Verification is truthful exactly when the call has not moved.**  For every run of approval
and remediation calls, every finding of an earlier scan and every account of where its call went:
all verifications of the finding tell the truth, if and only if whenever one of them meets the
call still vulnerable, the snapshot has a finding of its type at its old source and sink lines. -/
theorem throughout_verifiesTruthfully_iff (policy : ApprovalPolicy) (rt : Runtime)
    (files : Path → Option (List UInt8)) (calls : List WorkflowCall) (projectId : String)
    (codeModel : CodeModel) (first : ScanReport) (f : CandidateFinding)
    (hfirst : scan rt.py (defaultRules rt.py) codeModel (some projectId) = .ok first)
    (hf : f ∈ first.findings) (tracked : WorkflowCall → SinkRef → Prop)
    (howner : ∀ call ∈ calls, OwnedBySelf f projectId call)
    (hhash : ∀ call ∈ calls, NoCollision rt f projectId call) :
    Throughout (workflowStep policy rt) (VerifiesTruthfully rt f tracked) (World.initial files)
        calls
      ↔ Throughout (workflowStep policy rt) (DetectedInPlace rt f tracked) (World.initial files)
        calls := by
  have hid := identified_scan located_defaultRules hfirst f hf
  rw [throughout_iff, throughout_iff]
  refine forall_congr' fun pre => forall_congr' fun call => forall_congr' fun rest =>
    forall_congr' fun heq => ?_
  have hcall : call ∈ calls := by simp [heq]
  constructor
  · intro htrue hop old report hrec hstatus hreport hdetected
    have hok : verify rt call.env (exec (workflowStep policy rt) (World.initial files) pre) f.id
        = .ok (verifiedRecord call.env old (report.findings.any fun g => g.id = f.id)) := by
      simp [verify, hrec, hstatus, hreport, bind, Except.bind, pure, Except.pure]
    have hpresent := (htrue hop _ report hok hreport).2 hdetected
    exact (verify_status_iff hid (howner call hcall) (hhash call hcall) hok hreport).1.1 hpresent
  · intro hplace hop record report hok hreport
    obtain ⟨hpresent, hverified⟩ :=
      verify_status_iff hid (howner call hcall) (hhash call hcall) hok hreport
    obtain ⟨old, report', hrec, hstatus, hreport', -⟩ := verify_ok hok
    have hseen := hplace hop old report hrec hstatus hreport
    constructor
    · intro hv hdetected
      exact hverified.1 hv (hseen hdetected)
    · intro hdetected
      exact hpresent.2 (hseen hdetected)

/-! ## Files of repeated calls -/

/-- The calls `os.system(cmd)`, one a line, some of them with a quoted argument. -/
def callsText (modules : List String) (quoted : List Bool) : String :=
  String.join (modules.map fun name => "import " ++ name ++ "\n") ++ "def run(cmd):\n"
    ++ String.join (quoted.map fun q =>
      if q then "    os.system(shlex.quote(cmd))\n" else "    os.system(cmd)\n")

/-- One of these statements. -/
def callStmt (line : Nat) (quoted : Bool) : Stmt :=
  let arg := if quoted then callAt line 14 "shlex" "quote" (nameAt line 26 "cmd")
    else nameAt line 14 "cmd"
  .expr (callAt line 4 "os" "system" arg).loc (callAt line 4 "os" "system" arg)

/-- The tree of such a file. -/
def callsTree (modules : List String) (quoted : List Bool) : Module where
  body := modules.mapIdx (fun i name => importAt (i + 1) name)
    ++ [functionAt (modules.length + 1) "run" "cmd"
      (quoted.mapIdx fun i q => callStmt (modules.length + 2 + i) q)]

/-- An interpreter that knows the given files of that shape. -/
def callsRuntime (files : List (List String × List Bool)) : Runtime where
  py := tabulatedPython (files.map fun file => (callsText file.1 file.2, callsTree file.1 file.2))
    [("shlex.quote(cmd)", callAt 1 0 "shlex" "quote" (nameAt 1 12 "cmd"))]
  decode := systemRuntime.decode
  encode := systemRuntime.encode

/-- The requests, the approval, the proposal and the application of a fix. -/
def fixOps (findingId requestId : String) : List (WorkflowOp × String) :=
  [(.approval (.request findingId .remediation "dev" none none), requestId),
    (.approval (.decide .approve requestId "lead" none none), requestId),
    (.propose findingId, requestId), (.apply findingId true, requestId)]

/-- Calls on a project whose findings come from a scan of `scanned`, with the given snapshot. -/
def callsOn (rt : Runtime) (scanned snapshot : String) (ops : List (WorkflowOp × String)) :
    List WorkflowCall :=
  ops.map fun op => projectCall rt scanned snapshot op.1 1 op.2

/-- The id of the finding at a line of such a file, with the line of the function. -/
def callFinding (functionLine line : Nat) : String :=
  findingText "p" "command_injection" "app.py" functionLine line

/-- A verification of such a call scans its snapshot. -/
lemma freshScan_callsOn {scanned snapshot findingId : String} (op : WorkflowOp × String)
    {report : ScanReport}
    (h : freshScan rt (projectCall rt scanned snapshot op.1 1 op.2).env findingId = .ok report) :
    scan rt.py (defaultRules rt.py) (oneFile snapshot) (some "p") = .ok report := by
  obtain ⟨project, hproject, h⟩ := bind_eq_ok.1 h
  obtain ⟨codeModel, hmodel, h⟩ := bind_eq_ok.1 h
  obtain rfl := Except.ok.inj hproject
  obtain rfl := Except.ok.inj (mapError_eq_ok.1 hmodel)
  exact mapError_eq_ok.1 h

lemma ownedBySelf_callsOn {scanned snapshot : String} {ops : List (WorkflowOp × String)} :
    ∀ call ∈ callsOn rt scanned snapshot ops, OwnedBySelf f "p" call := by
  intro call hcall project hproject
  obtain ⟨op, -, rfl⟩ := List.mem_map.1 hcall
  obtain rfl := Except.ok.inj hproject
  rfl

/-- The runtime in which one call is fixed in place. -/
def onceRuntime : Runtime :=
  callsRuntime [(["shlex", "os"], [false]), (["shlex", "os"], [true])]

/-- The fix of the only call of a file that already imports `shlex`, verified afterwards. -/
def fixedOnce : List WorkflowCall :=
  callsOn onceRuntime (callsText ["shlex", "os"] [false]) (callsText ["shlex", "os"] [true])
    (fixOps (callFinding 3 4) "a" ++ [(.verify (callFinding 3 4), "a")])

/-- There the verification is truthful about the call in line 4. -/
theorem fixedOnce_verifiesTruthfully :
    ∃ f, f.id = callFinding 3 4 ∧ Throughout (workflowStep defaultPolicy onceRuntime)
      (VerifiesTruthfully onceRuntime f fun _ sink => sink.line = 4)
      (World.initial (oneFileWorkspace onceRuntime (callsText ["shlex", "os"] [false])))
      fixedOnce := by
  obtain ⟨first, hfirst⟩ := scan_oneFile onceRuntime (callsText ["shlex", "os"] [false])
    (by decide +kernel)
  have hone : (scanFindings onceRuntime (callsText ["shlex", "os"] [false])).map
      CandidateFinding.id = [callFinding 3 4] := by decide +kernel
  have hclean : scanFindings onceRuntime (callsText ["shlex", "os"] [true]) = [] := by
    decide +kernel
  rw [scanFindings_eq hfirst] at hone
  obtain ⟨f, hf⟩ := List.map_eq_singleton_iff.1 hone
  refine ⟨f, hf.2, ?_⟩
  refine (throughout_verifiesTruthfully_iff defaultPolicy onceRuntime _ fixedOnce "p" _ first f
    hfirst (by simp [hf.1]) _ ownedBySelf_callsOn ?_).2 ?_
  · intro call _ report _ g _ heq
    exact heq
  · -- the only verification scans a file without findings
    rw [throughout_iff]
    rintro pre call rest heq - old report - - hreport ⟨g, hg, -⟩
    have hcall : call ∈ fixedOnce := by simp [heq]
    obtain ⟨op, -, rfl⟩ := List.mem_map.1 hcall
    have hempty := scanFindings_eq (freshScan_callsOn op hreport)
    rw [hclean] at hempty
    rw [← hempty] at hg
    simp at hg

/-! ## A fix that moves its call -/

/-- The runtime in which two of three equal calls are rewritten. -/
def thriceRuntime : Runtime :=
  callsRuntime [(["os"], [false, false, false]), (["os"], [true, false, false]),
    (["shlex", "os"], [true, false, false]), (["shlex", "os"], [true, true, false])]

/-- The fix of the first of three calls, then the fix of the third one, and its verification
against the file as it is then. -/
def fixedThird : List WorkflowCall :=
  callsOn thriceRuntime (callsText ["os"] [false, false, false])
    (callsText ["shlex", "os"] [true, true, false])
    (fixOps (callFinding 2 3) "a" ++ fixOps (callFinding 2 5) "c"
      ++ [(.verify (callFinding 2 5), "c")])

/-- The world after the first `n` calls. -/
def afterThird (n : Nat) : World :=
  worldAfter defaultPolicy thriceRuntime
    (oneFileWorkspace thriceRuntime (callsText ["os"] [false, false, false])) (fixedThird.take n)

/-- The file at the time of the scan. -/
abbrev scannedThrice : String := callsText ["os"] [false, false, false]

/-- The file after the first fix, which adds an import. -/
abbrev patchedOnce : String := callsText ["shlex", "os"] [true, false, false]

/-- The file after both fixes. -/
abbrev patchedTwice : String := callsText ["shlex", "os"] [true, true, false]

/-- The four calls of one of the fixes. -/
abbrev thriceFix (findingId requestId : String) : List WorkflowCall :=
  fixCalls thriceRuntime scannedThrice patchedTwice findingId requestId

lemma exists_firstFix : ∃ f proposal, Fixes thriceRuntime scannedThrice (callFinding 2 3)
    scannedThrice f proposal patchedOnce := by
  have hpasses : fixPasses thriceRuntime scannedThrice (callFinding 2 3) scannedThrice patchedOnce
      = true := by decide +kernel
  exact exists_fixes hpasses (by decide +kernel)

/-- The fix of the third finding applies to the file that the first fix has left. -/
lemma exists_thirdFix : ∃ f proposal, Fixes thriceRuntime scannedThrice (callFinding 2 5)
    patchedOnce f proposal patchedTwice := by
  have hpasses : fixPasses thriceRuntime scannedThrice (callFinding 2 5) patchedOnce patchedTwice
      = true := by decide +kernel
  exact exists_fixes hpasses (by decide +kernel)

/-- The approvals after the first fix. -/
def thriceApprovals : ApprovalStore :=
  approvedFor thriceRuntime scannedThrice patchedTwice .empty (callFinding 2 3) "a"

lemma first_gatePasses : GatePasses thriceApprovals (callFinding 2 3) := by decide +kernel

lemma third_gatePasses : GatePasses (approvedFor thriceRuntime scannedThrice patchedTwice
    thriceApprovals (callFinding 2 5) "c") (callFinding 2 5) := by
  decide +kernel

lemma sourceText_thrice : sourceText thriceRuntime
    (World.initial (oneFileWorkspace thriceRuntime scannedThrice)) = some scannedThrice := by
  decide +kernel

/-- After the first fix. -/
lemma afterThird_four : (afterThird 4).approvals = thriceApprovals
    ∧ sourceText thriceRuntime (afterThird 4) = some patchedOnce := by
  obtain ⟨f, proposal, hfix⟩ := exists_firstFix
  obtain ⟨happrovals, htext, -⟩ :=
    exec_fixCalls (initial_keyed _) hfix first_gatePasses sourceText_thrice
  exact ⟨happrovals, htext⟩

/-- After the second fix. -/
lemma afterThird_eight : sourceText thriceRuntime (afterThird 8) = some patchedTwice
    ∧ ∃ record, (afterThird 8).records.get? (callFinding 2 5) = some record
      ∧ record.findingId = callFinding 2 5 ∧ record.status = .applied := by
  obtain ⟨f, proposal, hfix⟩ := exists_thirdFix
  obtain ⟨happrovals, htext⟩ := afterThird_four
  have hgate : GatePasses (approvedFor thriceRuntime scannedThrice patchedTwice
      (afterThird 4).approvals (callFinding 2 5) "c") (callFinding 2 5) := by
    rw [happrovals]
    exact third_gatePasses
  have hkeyed : RecordsKeyed (afterThird 4) := worldAfter_keyed _ _ _ _
  obtain ⟨-, hfixed, record, hrecord, hid, -, hstatus⟩ := exec_fixCalls hkeyed hfix hgate htext
  have hrun : afterThird 8 = exec (workflowStep defaultPolicy thriceRuntime) (afterThird 4)
      (thriceFix (callFinding 2 5) "c") := by
    rw [afterThird, show fixedThird.take 8 = fixedThird.take 4 ++ thriceFix (callFinding 2 5) "c"
      from rfl, worldAfter, exec_append]
    rfl
  rw [hrun]
  exact ⟨hfixed, record, hrecord, hid, hstatus⟩

/-- After the two fixes the import has moved the third call to line 6, where a scan reports it;
the second call has been rewritten in its place, and `verify` says `verified`. -/
theorem not_verifiesTruthfully :
    sourceText thriceRuntime (afterThird 8)
        = some (callsText ["shlex", "os"] [true, true, false])
      ∧ statusOf (afterThird 9) (callFinding 2 5) = some .verified
      ∧ ∃ f ∈ scanFindings thriceRuntime (callsText ["os"] [false, false, false]),
        f.id = callFinding 2 5 ∧ f.sink.line = 5
          ∧ ¬ Throughout (workflowStep defaultPolicy thriceRuntime)
            (VerifiesTruthfully thriceRuntime f fun _ sink =>
              sink.file = "app.py" ∧ sink.line = 6)
            (World.initial (oneFileWorkspace thriceRuntime
              (callsText ["os"] [false, false, false]))) fixedThird := by
  obtain ⟨htext, old, hrecord, hkeyed, hstatus⟩ := afterThird_eight
  -- the verification of the third finding
  let call := projectCall thriceRuntime scannedThrice patchedTwice (.verify (callFinding 2 5)) 1 "c"
  obtain ⟨report, hscan⟩ := scan_oneFile thriceRuntime patchedTwice (by decide +kernel)
  have hreport : freshScan thriceRuntime call.env (callFinding 2 5) = .ok report :=
    freshScan_projectCall hscan
  have habsent : ((scanFindings thriceRuntime patchedTwice).any fun g =>
      g.id = callFinding 2 5) = false := by decide +kernel
  rw [scanFindings_eq hscan] at habsent
  have hverify : verify thriceRuntime call.env (afterThird 8) (callFinding 2 5)
      = .ok (verifiedRecord call.env old (report.findings.any fun g => g.id = callFinding 2 5)) :=
    verify_projectCall hrecord hstatus hscan
  rw [habsent] at hverify
  have hnine : afterThird 9 = (afterThird 8).putRecord (verifiedRecord call.env old false) := by
    rw [afterThird, show fixedThird.take 9 = fixedThird.take 8 ++ [call] from rfl, worldAfter,
      exec_concat, ← worldAfter, ← afterThird, workflowStep_verify rfl, hverify]
    rfl
  have hverified : statusOf (afterThird 9) (callFinding 2 5) = some .verified := by
    rw [hnine, statusOf,
      putRecord_get_self (show (verifiedRecord call.env old false).findingId = _ from hkeyed)]
    rfl
  -- the call it was meant for is in line 6
  have hfound : ((scanFindings thriceRuntime scannedThrice).find? fun f =>
      f.id = callFinding 2 5).map (fun f => (f.sink.line, f.vulnerabilityType))
        = some (5, "command_injection") := by decide +kernel
  have hmoved : ((scanFindings thriceRuntime patchedTwice).any fun g =>
      g.vulnerabilityType = "command_injection" ∧ g.sink.file = "app.py" ∧ g.sink.line = 6)
        = true := by decide +kernel
  obtain ⟨f, hfind, hfields⟩ := Option.map_eq_some_iff.1 hfound
  obtain ⟨hline, htype⟩ := Prod.mk.inj hfields
  have hid : f.id = callFinding 2 5 := by simpa using List.find?_some hfind
  refine ⟨htext, hverified, f, List.mem_of_find?_eq_some hfind, hid, hline, fun htrue => ?_⟩
  rw [throughout_iff] at htrue
  have hcall := htrue (fixedThird.take 8) call [] rfl (by rw [hid]; rfl)
  rw [hid] at hcall
  rw [scanFindings_eq hscan] at hmoved
  obtain ⟨g, hg, hplace⟩ := List.any_eq_true.1 hmoved
  obtain ⟨hgtype, hgfile, hgline⟩ := of_decide_eq_true hplace
  exact (hcall _ report hverify hreport).1 rfl
    ⟨g, hg, hgtype.trans htype.symm, hgfile, hgline⟩

end Sast
