import SastEngine.Python.Tabulated
import SastEngine.Remediation.Authorization

/-!
# Applying a proposal once

`apply` refuses a record that is `applied`, but `verify` moves the record on to `verified` or
`still_present`.  A repeated `apply` is therefore refused in every run exactly when none that
passes the other checks meets a record in one of these two statuses.
-/

namespace Sast

variable {policy : ApprovalPolicy} {rt : Runtime} {world : World} {call : WorkflowCall}

/-- The call is an `apply` on the finding. -/
def IsApply (findingId : String) (call : WorkflowCall) : Prop :=
  ∃ confirmed, call.op = .apply findingId confirmed

/-- The call applies the proposal of the finding. -/
def AppliesTo (rt : Runtime) (findingId : String) (world : World) (call : WorkflowCall) : Prop :=
  IsApply findingId call ∧ ∃ record, outcome rt world call = some (.ok record)

/-- The call records a new proposal for the finding. -/
def Reproposes (rt : Runtime) (findingId : String) (world : World) (call : WorkflowCall) : Prop :=
  call.op = .propose findingId ∧ ∃ record, outcome rt world call = some (.ok record)

/-- The record of the finding says that its proposal has been applied. -/
def PostApplied (findingId : String) (world : World) : Prop :=
  ∃ record, world.records.get? findingId = some record ∧ record.status ∈ verifiableStatuses

/-- The call is refused, and leaves the files, the record of the finding and its post-apply status
as they were. -/
def RefusedUnchanged (policy : ApprovalPolicy) (rt : Runtime) (findingId : String)
    (world : World) (call : WorkflowCall) : Prop :=
  (∃ e, outcome rt world call = some (.error e))
    ∧ (workflowStep policy rt world call).files = world.files
    ∧ (workflowStep policy rt world call).records.get? findingId = world.records.get? findingId
    ∧ PostApplied findingId world

/-- A proposal is applied at most once: after an `apply` that succeeded, and until a new proposal
is recorded, every further `apply` on the finding is refused and changes nothing. -/
def AppliedAtMostOnce (policy : ApprovalPolicy) (rt : Runtime)
    (files : Path → Option (List UInt8)) (calls : List WorkflowCall) : Prop :=
  ∀ findingId pre applying since again rest,
    calls = pre ++ applying :: (since ++ again :: rest) →
    AppliesTo rt findingId (worldAfter policy rt files pre) applying →
    Throughout (workflowStep policy rt) (fun w c => ¬ Reproposes rt findingId w c)
      (workflowStep policy rt (worldAfter policy rt files pre) applying) since →
    IsApply findingId again →
    RefusedUnchanged policy rt findingId (worldAfter policy rt files (pre ++ applying :: since))
      again

/-- The call is no `apply` that meets a verified or still-present record, passes all its checks,
and can read its file. -/
def NoReapply (rt : Runtime) (world : World) (call : WorkflowCall) : Prop :=
  ∀ findingId confirmed, call.op = .apply findingId confirmed →
    ∀ record, world.records.get? findingId = some record →
      record.status = .verified ∨ record.status = .stillPresent →
      ∀ adm, admission call.env world findingId confirmed = .ok adm →
        ∀ source, readText rt world adm.path ≠ .ok source

/-! ## The record of a finding over one call -/

/-- An admitted record is not `applied`. -/
lemma admission_status {env : Surroundings} {findingId : String} {confirmed : Bool} {adm : Admission}
    (h : admission env world findingId confirmed = .ok adm) :
    world.records.get? findingId = some adm.record ∧ adm.record.status ≠ .applied := by
  obtain ⟨hrec, -, -, hne⟩ := offeredProposal_ok.1 (admission_ok.1 h).1
  exact ⟨hrec, hne⟩

/-- Where re-application is ruled out, a post-apply record is not admitted. -/
lemma not_admitted_of_postApplied {findingId : String} {confirmed : Bool}
    (hop : call.op = .apply findingId confirmed) (hpost : PostApplied findingId world)
    (hno : NoReapply rt world call) {adm : Admission}
    (hadm : admission call.env world findingId confirmed = .ok adm) (source : String) :
    readText rt world adm.path ≠ .ok source := by
  obtain ⟨record, hrec, hstatus⟩ := hpost
  obtain ⟨hrec', hne⟩ := admission_status hadm
  obtain rfl := Option.some.inj (hrec.symm.trans hrec')
  refine hno findingId confirmed hop adm.record hrec ?_ adm hadm source
  simpa [verifiableStatuses, hne] using hstatus

/-- Storing another finding's record keeps the status of this one. -/
lemma postApplied_putRecord_ne (world : World) {findingId : String} {record : RemediationRecord}
    (hne : findingId ≠ record.findingId) :
    PostApplied findingId (world.putRecord record) ↔ PostApplied findingId world := by
  unfold PostApplied
  rw [putRecord_get, if_neg hne]

/-- Storing this finding's record sets its status. -/
lemma postApplied_putRecord_self {findingId : String} {record : RemediationRecord}
    (heq : findingId = record.findingId) :
    PostApplied findingId (world.putRecord record) ↔ record.status ∈ verifiableStatuses := by
  unfold PostApplied
  rw [putRecord_get, if_pos heq]
  simp

lemma verify_status {env : Surroundings} {findingId : String} {record : RemediationRecord}
    (h : verify rt env world findingId = .ok record) :
    PostApplied findingId world ∧ record.status ∈ verifiableStatuses := by
  obtain ⟨old, report, hold, hstatus, -, rfl⟩ := verify_ok h
  refine ⟨⟨old, hold, hstatus⟩, ?_⟩
  cases hpresent : report.findings.any fun f => f.id = findingId <;>
    simp [verifiedRecord, verifiableStatuses]

lemma propose_status {env : Surroundings} {findingId : String} {record : RemediationRecord}
    (h : propose rt env world findingId = .ok record) : record.status ∉ verifiableStatuses := by
  obtain ⟨finding, approval, source, proposal, path, -, -, -, -, -, rfl⟩ := propose_ok h
  rw [proposedRecord_status]
  unfold proposalStatus
  split_ifs <;> simp [verifiableStatuses]

/-- **Where post-apply statuses come from**: a call that leaves the record post-apply has applied
the proposal, or found it post-apply and recorded no new one. -/
lemma postApplied_workflowStep (hk : RecordsKeyed world) {findingId : String}
    (h : PostApplied findingId (workflowStep policy rt world call)) :
    AppliesTo rt findingId world call
      ∨ (PostApplied findingId world ∧ ¬ Reproposes rt findingId world call) := by
  have hchange := workflowStep_change policy rt world call
  generalize workflowStep policy rt world call = world' at hchange h
  cases hchange with
  | approval op hop => exact Or.inr ⟨h, fun hre => nomatch hop.symm.trans hre.1⟩
  | refused hno =>
      refine Or.inr ⟨h, ?_⟩
      rintro ⟨-, record, hout⟩
      exact hno record hout
  | proposed f record hop hout =>
      have hid := propose_findingId hk hout
      by_cases hf : findingId = record.findingId
      · exact absurd ((postApplied_putRecord_self hf).1 h) (propose_status hout)
      · refine Or.inr ⟨(postApplied_putRecord_ne world hf).1 h, fun hre => hf ?_⟩
        have := hop.symm.trans hre.1
        rw [hid]
        exact (WorkflowOp.propose.inj this).symm
  | failed f confirmed adm source message hop hadm _ _ =>
      by_cases hf : findingId = (failedRecord adm.record message).findingId
      · have := (postApplied_putRecord_self hf).1 h
        simp [failedRecord, verifiableStatuses] at this
      · exact Or.inr ⟨(postApplied_putRecord_ne world hf).1 h, fun hre => nomatch hop.symm.trans hre.1⟩
  | applied f confirmed adm source patched hop hadm _ _ hout =>
      by_cases hf : findingId = (appliedRecord call.env adm.record).findingId
      · have hid : findingId = f := hf.trans (admission_findingId hk hadm)
        exact Or.inl ⟨⟨confirmed, hid ▸ hop⟩, _, hout⟩
      · refine Or.inr ⟨?_, fun hre => nomatch hop.symm.trans hre.1⟩
        exact (postApplied_putRecord_ne (world.write adm.path _) hf).1 h
  | verified f record hop hout =>
      have hid := verify_findingId hk hout
      by_cases hf : findingId = record.findingId
      · have hff : findingId = f := hf.trans hid
        exact Or.inr ⟨hff ▸ (verify_status hout).1, fun hre => nomatch hop.symm.trans hre.1⟩
      · exact Or.inr ⟨(postApplied_putRecord_ne world hf).1 h, fun hre => nomatch hop.symm.trans hre.1⟩

/-- **Post-apply statuses stay**, as long as nothing is proposed anew or applied again. -/
lemma postApplied_stays (hk : RecordsKeyed world) {findingId : String}
    (hpost : PostApplied findingId world) (hno : NoReapply rt world call)
    (hre : ¬ Reproposes rt findingId world call) :
    PostApplied findingId (workflowStep policy rt world call) := by
  have hchange := workflowStep_change policy rt world call
  generalize workflowStep policy rt world call = world' at hchange ⊢
  cases hchange with
  | approval op hop => exact hpost
  | refused _ => exact hpost
  | proposed f record hop hout =>
      have hid := propose_findingId hk hout
      refine (postApplied_putRecord_ne world fun hf => hre ⟨?_, record, ?_⟩).2 hpost
      · rw [hf, hid]
        exact hop
      · simp [outcome, hop, hout]
  | failed f confirmed adm source message hop hadm hread _ =>
      refine (postApplied_putRecord_ne world fun hf => ?_).2 hpost
      have hid : findingId = f := hf.trans (admission_findingId hk hadm)
      exact not_admitted_of_postApplied (hid ▸ hop) hpost hno (hid ▸ hadm) source hread
  | applied f confirmed adm source patched hop hadm hread _ _ =>
      refine (postApplied_putRecord_ne (world.write adm.path _) fun hf => ?_).2 hpost
      have hid : findingId = f := hf.trans (admission_findingId hk hadm)
      exact not_admitted_of_postApplied (hid ▸ hop) hpost hno (hid ▸ hadm) source hread
  | verified f record hop hout =>
      by_cases hf : findingId = record.findingId
      · exact (postApplied_putRecord_self hf).2 (verify_status hout).2
      · exact (postApplied_putRecord_ne world hf).2 hpost

/-! ## Runs -/

/-- Every record reached from startup is kept under its finding. -/
lemma worldAfter_keyed (policy : ApprovalPolicy) (rt : Runtime)
    (files : Path → Option (List UInt8)) (calls : List WorkflowCall) :
    RecordsKeyed (worldAfter policy rt files calls) := by
  induction calls using List.reverseRecOn with
  | nil => exact initial_keyed files
  | append_singleton calls call ih =>
      rw [worldAfter, exec_concat]
      exact workflowStep_keyed ih call

/-- After a successful `apply` the record is post-apply. -/
lemma postApplied_of_appliesTo (hk : RecordsKeyed world) {findingId : String}
    (h : AppliesTo rt findingId world call) :
    PostApplied findingId (workflowStep policy rt world call) := by
  obtain ⟨⟨confirmed, hop⟩, record, hout⟩ := h
  have hchange := workflowStep_change policy rt world call
  generalize workflowStep policy rt world call = world' at hchange ⊢
  cases hchange with
  | approval op hop' => cases hop.symm.trans hop'
  | refused hno => exact absurd hout (hno record)
  | proposed f _ hop' _ => cases hop.symm.trans hop'
  | failed f _ adm _ message _ _ _ hout' => rw [hout] at hout'; simp at hout'
  | applied f confirmed' adm source patched hop' hadm _ _ _ =>
      obtain ⟨rfl, -⟩ := WorkflowOp.apply.inj (hop.symm.trans hop')
      have hid : findingId = (appliedRecord call.env adm.record).findingId :=
        (admission_findingId hk hadm).symm
      refine (postApplied_putRecord_self hid).2 ?_
      simp [appliedRecord, verifiableStatuses]
  | verified f _ hop' _ => cases hop.symm.trans hop'

/-- A post-apply record along a stretch without a new proposal or a re-application. -/
lemma postApplied_exec {findingId : String} {calls : List WorkflowCall}
    (hk : RecordsKeyed world) (hpost : PostApplied findingId world)
    (hno : Throughout (workflowStep policy rt) (NoReapply rt) world calls)
    (hre : Throughout (workflowStep policy rt) (fun w c => ¬ Reproposes rt findingId w c) world
      calls) :
    PostApplied findingId (exec (workflowStep policy rt) world calls) := by
  induction calls generalizing world with
  | nil => exact hpost
  | cons call calls ih =>
      exact ih (workflowStep_keyed hk call) (postApplied_stays hk hpost hno.1 hre.1) hno.2 hre.2

/-- An `apply` on a post-apply record that is not re-applied is refused and changes nothing. -/
lemma refusedUnchanged_of_noReapply {findingId : String} (hpost : PostApplied findingId world)
    (hno : NoReapply rt world call) (happ : IsApply findingId call) :
    RefusedUnchanged policy rt findingId world call := by
  obtain ⟨confirmed, hop⟩ := happ
  unfold RefusedUnchanged
  have hchange := workflowStep_change policy rt world call
  generalize workflowStep policy rt world call = world' at hchange ⊢
  cases hchange with
  | approval op hop' => cases hop.symm.trans hop'
  | refused hnone =>
      refine ⟨?_, rfl, rfl, hpost⟩
      cases hout : (apply rt call.env world findingId confirmed).1 with
      | ok record => exact absurd (by simp [outcome, hop, hout]) (hnone record)
      | error e => exact ⟨e, by simp [outcome, hop, hout]⟩
  | proposed f _ hop' _ => cases hop.symm.trans hop'
  | failed f _ adm source message hop' hadm hread _ =>
      obtain ⟨rfl, rfl⟩ := WorkflowOp.apply.inj (hop.symm.trans hop')
      exact absurd hread (not_admitted_of_postApplied hop hpost hno hadm source)
  | applied f _ adm source patched hop' hadm hread _ _ =>
      obtain ⟨rfl, rfl⟩ := WorkflowOp.apply.inj (hop.symm.trans hop')
      exact absurd hread (not_admitted_of_postApplied hop hpost hno hadm source)
  | verified f _ hop' _ => cases hop.symm.trans hop'

/-- An `apply` that is refused and changes nothing did not get past its checks with a readable
file. -/
lemma not_admitted_of_refusedUnchanged (hk : RecordsKeyed world) {findingId : String}
    {confirmed : Bool} (hop : call.op = .apply findingId confirmed)
    (h : RefusedUnchanged policy rt findingId world call) {adm : Admission}
    (hadm : admission call.env world findingId confirmed = .ok adm) (source : String) :
    readText rt world adm.path ≠ .ok source := by
  intro hread
  obtain ⟨⟨e, hout⟩, -, hsame, hpost⟩ := h
  obtain ⟨record, hrec, hstatus⟩ := hpost
  obtain ⟨hrec', -⟩ := admission_status hadm
  obtain rfl := Option.some.inj (hrec.symm.trans hrec')
  have hid : adm.record.findingId = findingId := admission_findingId hk hadm
  have happ : apply rt call.env world findingId confirmed = applyAdmitted rt call.env world adm := by
    simp [apply, hadm]
  simp only [workflowStep, outcome, hop, happ, applyAdmitted, hread] at hout hsame
  cases hpatch : applyProposal rt.py adm.proposal source with
  | ok patched => simp [hpatch] at hout
  | error failure =>
      obtain ⟨message, rfl⟩ := applyProposal_error hpatch
      simp only [hpatch, putRecord_get] at hsame
      rw [if_pos (by simp [failedRecord, hid]), hrec] at hsame
      have := congrArg (Option.map RemediationRecord.status) hsame
      simp only [Option.map_some, failedRecord, Option.some.injEq] at this
      simp [← this, verifiableStatuses] at hstatus

/-- **A proposal is applied at most once, exactly in the runs without a re-application.**  For
every run of approval and remediation calls from startup: every `apply` that follows a successful
one before a new proposal is refused and changes neither files nor record, if and only if no
`apply` that passes its checks and can read its file meets a record that is `verified` or
`still_present`. -/
theorem appliedAtMostOnce_iff (policy : ApprovalPolicy) (rt : Runtime)
    (files : Path → Option (List UInt8)) (calls : List WorkflowCall) :
    AppliedAtMostOnce policy rt files calls
      ↔ Throughout (workflowStep policy rt) (NoReapply rt) (World.initial files) calls := by
  constructor
  · intro honce
    rw [throughout_iff]
    rintro pre call rest rfl findingId confirmed hop record hrec hstatus adm hadm source
    have hpost : PostApplied findingId (worldAfter policy rt files pre) :=
      ⟨record, hrec, by rcases hstatus with h | h <;> simp [h, verifiableStatuses]⟩
    have hstep : ∀ world call, RecordsKeyed world →
        PostApplied findingId (workflowStep policy rt world call) →
        AppliesTo rt findingId world call
          ∨ (PostApplied findingId world ∧ ¬ Reproposes rt findingId world call) :=
      fun world call hk h => postApplied_workflowStep hk h
    obtain ⟨before, applying, since, rfl, happlies, hsince⟩ :=
      exec_origin RecordsKeyed (fun world call hk => workflowStep_keyed hk call) hstep
        (initial_keyed files) (by rintro ⟨r, hr, -⟩; simp [World.initial] at hr) pre hpost
    have hrefused := honce findingId before applying since call rest (by simp) happlies hsince
      ⟨confirmed, hop⟩
    exact not_admitted_of_refusedUnchanged (worldAfter_keyed policy rt files _) hop hrefused hadm
      source
  · rintro hno findingId pre applying since again rest rfl happlies hsince hagain
    have hk := worldAfter_keyed policy rt files pre
    obtain ⟨-, hno⟩ := throughout_append.1 hno
    obtain ⟨-, hno⟩ := hno
    obtain ⟨hnosince, hnoagain, -⟩ := throughout_append.1 hno
    have hpost := postApplied_exec (workflowStep_keyed hk applying)
      (postApplied_of_appliesTo hk happlies) hnosince hsince
    have hworld : worldAfter policy rt files (pre ++ applying :: since)
        = exec (workflowStep policy rt) (workflowStep policy rt
          (worldAfter policy rt files pre) applying) since := by
      simp [worldAfter, exec_append]
    rw [hworld]
    exact refusedUnchanged_of_noReapply hpost hnoagain hagain

/-! ## A second application after a verification -/

/-- The text of a file, and what the fix makes of it. -/
def systemText : String := "import shlex\ndef run(cmd):\n    os.system(cmd)\n"

/-- The text after the fix. -/
def quotedText : String := "import shlex\ndef run(cmd):\n    os.system(shlex.quote(cmd))\n"

/-- The tree of a file of that shape, with the given argument of `os.system`. -/
def systemTree (arg : Expr) : Module where
  body := [importAt 1 "shlex", functionAt 2 "run" "cmd"
    [.expr (callAt 3 4 "os" "system" arg).loc (callAt 3 4 "os" "system" arg)]]

/-- An interpreter that knows the two texts, and ASCII files. -/
def systemRuntime : Runtime where
  py := tabulatedPython
    [(systemText, systemTree (nameAt 3 14 "cmd")),
      (quotedText, systemTree (callAt 3 14 "shlex" "quote" (nameAt 3 26 "cmd")))]
    [("shlex.quote(cmd)", callAt 1 0 "shlex" "quote" (nameAt 1 12 "cmd"))]
  decode := fun bytes => String.ofList (bytes.map fun b => Char.ofNat b.toNat)
  encode := fun text => text.toList.map fun c => UInt8.ofNat c.toNat

/-- The code model of a project whose only file has the given text. -/
def oneFile (text : String) : CodeModel := ⟨"p", [⟨"app.py", text, none⟩]⟩

/-- The findings that a scan of a project with that one file reports. -/
def scanFindings (rt : Runtime) (text : String) : List CandidateFinding :=
  match scan rt.py (defaultRules rt.py) (oneFile text) none with
  | .ok report => report.findings
  | .error _ => []

/-- A call on the project `p`, whose findings come from a scan of `scanned` and whose snapshot
holds `snapshot`, with every finding confirmed by VALIDATE and PROVE. -/
def projectCall (rt : Runtime) (scanned snapshot : String) (op : WorkflowOp) (second : Int)
    (requestId : String) : WorkflowCall where
  op := op
  gates := { verdict := fun _ => some "true_positive", proofStatus := fun _ => some "verified" }
  moment :=
    { utcnow := ⟨second, some 0⟩, requestId := requestId, eventId := requestId ++ "-event" }
  env :=
    { finding := fun id => (scanFindings rt scanned).find? fun f => f.id = id
      runProjects := fun _ => ["p"]
      project := fun id => some ⟨id, "/ws/projects/p"⟩
      codeModel := fun _ => .ok (oneFile snapshot)
      utcnow := ⟨second, some 0⟩
      workspaceDir := ["ws"]
      repoDir := fun _ => ["ws", "projects", "p", "repo"]
      resolveIn := fun dir file => dir ++ [file] }

/-- The files of a workspace with one source file. -/
def oneFileWorkspace (rt : Runtime) (text : String) : Path → Option (List UInt8) := fun path =>
  if path = ["ws", "projects", "p", "repo", "app.py"] then some (rt.encode text) else none

/-- The file that the calls of the sample runs work on. -/
def samplePath : Path := ["ws", "projects", "p", "repo", "app.py"]

/-- The content of the source file. -/
def sourceText (rt : Runtime) (world : World) : Option String :=
  (world.files ["ws", "projects", "p", "repo", "app.py"]).map rt.decode

@[simp] lemma sourceText_putRecord (rt : Runtime) (world : World) (record : RemediationRecord) :
    sourceText rt (world.putRecord record) = sourceText rt world := rfl

/-- The findings of a scan by id. -/
def findingsOf (rt : Runtime) (text : String) : String → Option CandidateFinding :=
  fun id => (scanFindings rt text).find? fun f => f.id = id

/-- The report of a scan of a project with one file. -/
lemma scan_oneFile (rt : Runtime) (text : String)
    (h : (scan rt.py (defaultRules rt.py) (oneFile text) none).isOk = true) :
    ∃ report, scan rt.py (defaultRules rt.py) (oneFile text) (some "p") = .ok report := by
  have hsame : scan rt.py (defaultRules rt.py) (oneFile text) (some "p")
      = scan rt.py (defaultRules rt.py) (oneFile text) none := rfl
  rw [hsame]
  cases hscan : scan rt.py (defaultRules rt.py) (oneFile text) none with
  | ok report => exact ⟨report, rfl⟩
  | error e =>
      rw [hscan] at h
      simp [Except.isOk, Except.toBool] at h

lemma scanFindings_eq {text : String} {report : ScanReport}
    (h : scan rt.py (defaultRules rt.py) (oneFile text) (some "p") = .ok report) :
    scanFindings rt text = report.findings := by
  have hnone : scan rt.py (defaultRules rt.py) (oneFile text) none = .ok report := h
  simp [scanFindings, hnone]

/-- The status of a finding's record. -/
def statusOf (world : World) (findingId : String) : Option RemediationStatus :=
  (world.records.get? findingId).map RemediationRecord.status

/-! ## A fix that goes through -/

/-- The request for a fix, its approval, its proposal and its application. -/
def fixCalls (rt : Runtime) (scanned snapshot findingId requestId : String) : List WorkflowCall :=
  [.approval (.request findingId .remediation "dev" none none),
    .approval (.decide .approve requestId "lead" none none),
    .propose findingId, .apply findingId true].map fun op =>
      projectCall rt scanned snapshot op 1 requestId

/-- The fix of a finding turns one text of the sample file into another. -/
structure Fixes (rt : Runtime) (scanned findingId source : String) (f : CandidateFinding)
    (proposal : RemediationProposal) (patched : String) : Prop where
  found : findingsOf rt scanned findingId = some f
  file_eq : f.sink.file = "app.py"
  built : buildProposal rt.py f source = .ok proposal
  target_eq : proposal.file = "app.py"
  applies : applyProposal rt.py proposal source = .ok patched
  recoded : rt.decode (rt.encode patched) = patched

/-- Build the proposal for a finding, and test it. -/
def builtPasses (rt : Runtime) (scanned findingId source : String)
    (test : CandidateFinding → RemediationProposal → Bool) : Bool :=
  match findingsOf rt scanned findingId with
  | none => false
  | some f =>
      match buildProposal rt.py f source with
      | .error _ => false
      | .ok proposal => test f proposal

/-- Whether the fix of a finding turns one text into the other. -/
def fixPasses (rt : Runtime) (scanned findingId source patched : String) : Bool :=
  builtPasses rt scanned findingId source fun f proposal =>
    f.sink.file = "app.py" && proposal.file = "app.py"
      && applyProposal rt.py proposal source = .ok patched

lemma exists_built {scanned findingId source : String}
    {test : CandidateFinding → RemediationProposal → Bool}
    (h : builtPasses rt scanned findingId source test = true) :
    ∃ f proposal, findingsOf rt scanned findingId = some f
      ∧ buildProposal rt.py f source = .ok proposal ∧ test f proposal = true := by
  unfold builtPasses at h
  split at h
  · cases h
  · next f hfound =>
      split at h
      · cases h
      · next proposal hbuilt => exact ⟨f, proposal, hfound, hbuilt, h⟩

lemma exists_fixes {scanned findingId source patched : String}
    (h : fixPasses rt scanned findingId source patched = true)
    (hrecoded : rt.decode (rt.encode patched) = patched) :
    ∃ f proposal, Fixes rt scanned findingId source f proposal patched := by
  obtain ⟨f, proposal, hfound, hbuilt, htest⟩ := exists_built h
  simp only [Bool.and_eq_true, decide_eq_true_eq] at htest
  obtain ⟨⟨hfile, htarget⟩, happlies⟩ := htest
  exact ⟨f, proposal, hfound, hfile, hbuilt, htarget, happlies, hrecoded⟩

/-- What a test finds out about the proposal of a fix. -/
lemma Fixes.passes {scanned findingId source patched : String} {f : CandidateFinding}
    {proposal : RemediationProposal}
    (h : Fixes rt scanned findingId source f proposal patched)
    {test : CandidateFinding → RemediationProposal → Bool}
    (htest : builtPasses rt scanned findingId source test = true) : test f proposal = true := by
  obtain ⟨f', proposal', hfound, hbuilt, hpasses⟩ := exists_built htest
  obtain rfl := Option.some.inj (h.found.symm.trans hfound)
  obtain rfl := Except.ok.inj (h.built.symm.trans hbuilt)
  exact hpasses

/-- The approvals after the remediation of a finding has been requested and approved. -/
def approvedFor (rt : Runtime) (scanned snapshot : String) (approvals : ApprovalStore)
    (findingId requestId : String) : ApprovalStore :=
  (exec (workflowStep defaultPolicy rt) ⟨approvals, .empty, fun _ => none⟩
    ((fixCalls rt scanned snapshot findingId requestId).take 2)).approvals

section FixCalls

variable {scanned snapshot findingId requestId source patched : String} {f : CandidateFinding}
  {proposal : RemediationProposal} {op : WorkflowOp}

lemma readText_sample (htext : sourceText rt world = some source) :
    readText rt world samplePath = .ok source := by
  obtain ⟨content, hcontent, rfl⟩ := Option.map_eq_some_iff.1 htext
  rw [readText, show world.files samplePath = some content from hcontent]

lemma propose_projectCall (h : Fixes rt scanned findingId source f proposal patched)
    {approval : ApprovalRequest}
    (hgate : requireApprovedApproval world.approvals findingId = .ok approval)
    (htext : sourceText rt world = some source) :
    let env := (projectCall rt scanned snapshot op 1 requestId).env
    propose rt env world findingId
      = .ok (proposedRecord env findingId approval proposal (world.records.get? findingId)) := by
  intro env
  have hfind : env.finding findingId = some f := h.found
  have hpath : repoFile env ["ws", "projects", "p", "repo"] f.sink.file "finding source"
      = .ok samplePath := by
    rw [h.file_eq]
    rfl
  have hbuilt : (buildProposal rt.py f source).mapError RemediationError.patch
      = .ok proposal := by
    rw [h.built]
    rfl
  rw [propose, hfind]
  exact bind_eq_ok.2 ⟨approval, hgate, bind_eq_ok.2 ⟨_, rfl, bind_eq_ok.2 ⟨_, rfl,
    bind_eq_ok.2 ⟨_, hpath, bind_eq_ok.2 ⟨_, readText_sample htext,
      bind_eq_ok.2 ⟨_, hbuilt, rfl⟩⟩⟩⟩⟩⟩

lemma admission_projectCall (hgate : GatePasses world.approvals findingId)
    {record : RemediationRecord} (hrecord : world.records.get? findingId = some record)
    (hproposal : record.proposal = some proposal) (htarget : proposal.file = "app.py")
    (hstatus : record.status ≠ .noFixAvailable ∧ record.status ≠ .applied) :
    admission (projectCall rt scanned snapshot op 1 requestId).env world findingId true
      = .ok ⟨record, proposal, samplePath⟩ := by
  obtain ⟨approval, happroval⟩ := hgate
  refine admission_ok.2 ⟨offeredProposal_ok.2 ⟨hrecord, hproposal, hstatus⟩, ?_⟩
  rw [htarget]
  exact bind_eq_ok.2 ⟨approval, happroval, rfl⟩

/-- An admitted proposal that does not apply turns its record into an error. -/
lemma apply_failed {env : Surroundings} {confirmed : Bool} {adm : Admission} {message : String}
    (hadm : admission env world findingId confirmed = .ok adm)
    (hread : readText rt world adm.path = .ok source)
    (hpatch : applyProposal rt.py adm.proposal source = .error (.patchError message)) :
    (apply rt env world findingId confirmed).2
      = world.putRecord (failedRecord adm.record message) := by
  simp only [apply, hadm, applyAdmitted, hread, hpatch]

lemma apply_projectCall (h : Fixes rt scanned findingId source f proposal patched)
    (hgate : GatePasses world.approvals findingId) (htext : sourceText rt world = some source)
    {record : RemediationRecord} (hrecord : world.records.get? findingId = some record)
    (hproposal : record.proposal = some proposal) (hstatus : record.status = .proposed) :
    let env := (projectCall rt scanned snapshot op 1 requestId).env
    apply rt env world findingId true
      = (.ok (appliedRecord env record),
        (world.write samplePath (rt.encode patched)).putRecord (appliedRecord env record)) := by
  intro env
  have hadm : admission env world findingId true = .ok ⟨record, proposal, samplePath⟩ :=
    admission_projectCall hgate hrecord hproposal h.target_eq (by simp [hstatus])
  have hread : readText rt world samplePath = .ok source := readText_sample htext
  simp only [apply, hadm, applyAdmitted, hread, h.applies]

lemma freshScan_projectCall {report : ScanReport}
    (hscan : scan rt.py (defaultRules rt.py) (oneFile snapshot) (some "p") = .ok report) :
    freshScan rt (projectCall rt scanned snapshot op 1 requestId).env findingId = .ok report := by
  refine bind_eq_ok.2 ⟨_, rfl, bind_eq_ok.2 ⟨_, rfl, ?_⟩⟩
  rw [show (scan rt.py (defaultRules rt.py) (oneFile snapshot) (some "p")).mapError
    RemediationError.raised = .ok report by rw [hscan]; rfl]

lemma verify_projectCall {record : RemediationRecord}
    (hrecord : world.records.get? findingId = some record) (hstatus : record.status = .applied)
    {report : ScanReport}
    (hscan : scan rt.py (defaultRules rt.py) (oneFile snapshot) (some "p") = .ok report) :
    let env := (projectCall rt scanned snapshot op 1 requestId).env
    verify rt env world findingId
      = .ok (verifiedRecord env record (report.findings.any fun f => f.id = findingId)) := by
  intro env
  have hverifiable : record.status ∈ verifiableStatuses := by simp [hstatus, verifiableStatuses]
  simp only [verify, hrecord, if_pos hverifiable]
  exact bind_eq_ok.2 ⟨report, freshScan_projectCall hscan, rfl⟩

/-- Before its application the fix is proposed, and the file is as it was. -/
lemma exec_fixCalls_take (hkeyed : RecordsKeyed world)
    (h : Fixes rt scanned findingId source f proposal patched)
    (hgate : GatePasses (approvedFor rt scanned snapshot world.approvals findingId requestId)
      findingId)
    (htext : sourceText rt world = some source) :
    let proposed := exec (workflowStep defaultPolicy rt) world
      ((fixCalls rt scanned snapshot findingId requestId).take 3)
    GatePasses proposed.approvals findingId
      ∧ proposed.approvals
        = approvedFor rt scanned snapshot world.approvals findingId requestId
      ∧ sourceText rt proposed = some source
      ∧ ∃ record, proposed.records.get? findingId = some record ∧ record.findingId = findingId
        ∧ record.proposal = some proposal ∧ record.status = .proposed := by
  obtain ⟨approval, happroval⟩ := hgate
  let approved : World := { world with
    approvals := approvedFor rt scanned snapshot world.approvals findingId requestId }
  let env := (projectCall rt scanned snapshot (.propose findingId) 1 requestId).env
  let record := proposedRecord env findingId approval proposal
    (approved.records.get? findingId)
  have hproposed : propose rt env approved findingId = .ok record :=
    propose_projectCall h happroval htext
  have hrun : exec (workflowStep defaultPolicy rt) world
      ((fixCalls rt scanned snapshot findingId requestId).take 3)
        = approved.store (propose rt env approved findingId) := rfl
  have hid : record.findingId = findingId :=
    propose_findingId (show RecordsKeyed approved from hkeyed) hproposed
  have hstatus : record.status = .proposed := by
    rw [proposedRecord_status, proposalStatus, if_neg (applyProposal_strategy h.applies)]
  rw [hrun, hproposed]
  refine ⟨⟨approval, happroval⟩, rfl, htext, record, ?_, hid, proposedRecord_proposal .., hstatus⟩
  exact putRecord_get_self hid

/-- **A fix goes through**: it turns the text of the file into the patched one, and the record of
the finding becomes applied. -/
lemma exec_fixCalls (hkeyed : RecordsKeyed world)
    (h : Fixes rt scanned findingId source f proposal patched)
    (hgate : GatePasses (approvedFor rt scanned snapshot world.approvals findingId requestId)
      findingId)
    (htext : sourceText rt world = some source) :
    let after := exec (workflowStep defaultPolicy rt) world
      (fixCalls rt scanned snapshot findingId requestId)
    after.approvals = approvedFor rt scanned snapshot world.approvals findingId requestId
      ∧ sourceText rt after = some patched
      ∧ ∃ record, after.records.get? findingId = some record ∧ record.findingId = findingId
        ∧ record.proposal = some proposal ∧ record.status = .applied := by
  obtain ⟨hopen, happrovals, htext', record, hrecord, hid, hproposal, hstatus⟩ :=
    exec_fixCalls_take hkeyed h hgate htext
  let proposed := exec (workflowStep defaultPolicy rt) world
    ((fixCalls rt scanned snapshot findingId requestId).take 3)
  let env := (projectCall rt scanned snapshot (.apply findingId true) 1 requestId).env
  have happly : apply rt env proposed findingId true
      = (.ok (appliedRecord env record),
        (proposed.write samplePath (rt.encode patched)).putRecord (appliedRecord env record)) :=
    apply_projectCall h hopen htext' hrecord hproposal hstatus
  have hrun : exec (workflowStep defaultPolicy rt) world
      (fixCalls rt scanned snapshot findingId requestId)
        = (apply rt env proposed findingId true).2 := rfl
  rw [hrun, happly]
  refine ⟨happrovals, ?_, appliedRecord env record, ?_, hid, hproposal, rfl⟩
  · show some (rt.decode (rt.encode patched)) = some patched
    rw [h.recoded]
  · exact putRecord_get_self hid

end FixCalls

/-! ## The second application -/

/-- The id of the finding in `systemText`. -/
def systemFinding : String := "p|command_injection|app.py|2|3"

/-- The fix of a finding is requested, approved, proposed, applied, and verified against the
re-prepared snapshot; then `apply` is called once more. -/
def applyAfterVerify : List WorkflowCall :=
  [.approval (.request systemFinding .remediation "dev" none none),
    .approval (.decide .approve "a" "lead" none none),
    .propose systemFinding, .apply systemFinding true, .verify systemFinding,
    .apply systemFinding true].map fun op =>
      projectCall systemRuntime systemText quotedText op 1 "a"

/-- The world after the first `n` calls of `applyAfterVerify`. -/
def afterCalls (n : Nat) : World :=
  worldAfter defaultPolicy systemRuntime (oneFileWorkspace systemRuntime systemText)
    (applyAfterVerify.take n)

/-- The fix of the finding, which does not apply to its own result. -/
lemma exists_systemFix : ∃ f proposal message,
    Fixes systemRuntime systemText systemFinding systemText f proposal quotedText
      ∧ applyProposal systemRuntime.py proposal quotedText = .error (.patchError message) := by
  have hpasses : fixPasses systemRuntime systemText systemFinding systemText quotedText = true := by
    decide +kernel
  obtain ⟨f, proposal, hfix⟩ := exists_fixes hpasses (by decide +kernel)
  have htest := hfix.passes (show builtPasses systemRuntime systemText systemFinding systemText
    (fun _ proposal => !(applyProposal systemRuntime.py proposal quotedText).isOk) = true by
      decide +kernel)
  cases hresult : applyProposal systemRuntime.py proposal quotedText with
  | ok patched => simp [hresult, Except.isOk, Except.toBool] at htest
  | error failure =>
      obtain ⟨message, rfl⟩ := applyProposal_error hresult
      exact ⟨f, proposal, message, hfix, hresult⟩

section AfterCalls

variable {f : CandidateFinding} {proposal : RemediationProposal}

/-- A call of `applyAfterVerify`. -/
def systemCall (op : WorkflowOp) : WorkflowCall :=
  projectCall systemRuntime systemText quotedText op 1 "a"

/-- One call more. -/
lemma afterCalls_succ {n : Nat} {op : WorkflowOp}
    (h : applyAfterVerify[n]? = some (systemCall op)) :
    afterCalls (n + 1)
      = workflowStep defaultPolicy systemRuntime (afterCalls n) (systemCall op) := by
  rw [afterCalls, List.take_add_one, h, worldAfter, exec_append]
  rfl

lemma system_gatePasses : GatePasses (approvedFor systemRuntime systemText quotedText .empty
    systemFinding "a") systemFinding := by
  decide +kernel

lemma sourceText_system : sourceText systemRuntime
    (World.initial (oneFileWorkspace systemRuntime systemText)) = some systemText := by
  decide +kernel

/-- The approved fix is proposed. -/
lemma afterCalls_three
    (h : Fixes systemRuntime systemText systemFinding systemText f proposal quotedText) :
    GatePasses (afterCalls 3).approvals systemFinding
      ∧ sourceText systemRuntime (afterCalls 3) = some systemText
      ∧ ∃ record, (afterCalls 3).records.get? systemFinding = some record
        ∧ record.proposal = some proposal ∧ record.status = .proposed := by
  obtain ⟨hgate, -, htext, record, hrecord, -, hproposal, hstatus⟩ :=
    exec_fixCalls_take (initial_keyed _) h system_gatePasses sourceText_system
  exact ⟨hgate, htext, record, hrecord, hproposal, hstatus⟩

/-- Then it is applied. -/
lemma afterCalls_four
    (h : Fixes systemRuntime systemText systemFinding systemText f proposal quotedText) :
    GatePasses (afterCalls 4).approvals systemFinding
      ∧ sourceText systemRuntime (afterCalls 4) = some quotedText
      ∧ ∃ record, (afterCalls 4).records.get? systemFinding = some record
        ∧ record.findingId = systemFinding ∧ record.proposal = some proposal
        ∧ record.status = .applied := by
  obtain ⟨happrovals, hquoted, hrecord⟩ :=
    exec_fixCalls (initial_keyed _) h system_gatePasses sourceText_system
  exact ⟨happrovals.symm ▸ system_gatePasses, hquoted, hrecord⟩

/-- Then a scan of the patched file no longer reports the finding. -/
lemma afterCalls_five
    (h : Fixes systemRuntime systemText systemFinding systemText f proposal quotedText) :
    GatePasses (afterCalls 5).approvals systemFinding
      ∧ sourceText systemRuntime (afterCalls 5) = some quotedText
      ∧ ∃ record, (afterCalls 5).records.get? systemFinding = some record
        ∧ record.findingId = systemFinding ∧ record.proposal = some proposal
        ∧ record.status = .verified := by
  obtain ⟨hgate, hquoted, record, hrecord, hid, hproposal, hstatus⟩ := afterCalls_four h
  obtain ⟨report, hscan⟩ := scan_oneFile systemRuntime quotedText (by decide +kernel)
  have habsent : ((scanFindings systemRuntime quotedText).any fun g => g.id = systemFinding)
      = false := by decide +kernel
  rw [scanFindings_eq hscan] at habsent
  let env := (systemCall (.verify systemFinding)).env
  have hverify : verify systemRuntime env (afterCalls 4) systemFinding
      = .ok (verifiedRecord env record (report.findings.any fun g => g.id = systemFinding)) :=
    verify_projectCall hrecord hstatus hscan
  rw [habsent] at hverify
  have hfive : afterCalls 5 = (afterCalls 4).putRecord (verifiedRecord env record false) := by
    rw [afterCalls_succ rfl, workflowStep_verify rfl, hverify]
    rfl
  rw [hfive, putRecord_approvals, sourceText_putRecord]
  exact ⟨hgate, hquoted, verifiedRecord env record false, putRecord_get_self hid, hid, hproposal,
    rfl⟩

/-- Then the second application does not find its anchor. -/
lemma afterCalls_six
    (h : Fixes systemRuntime systemText systemFinding systemText f proposal quotedText)
    {message : String}
    (hmessage : applyProposal systemRuntime.py proposal quotedText = .error (.patchError message)) :
    statusOf (afterCalls 6) systemFinding = some .error := by
  obtain ⟨hgate, hquoted, record, hrecord, hid, hproposal, hstatus⟩ := afterCalls_five h
  have hadm : admission (systemCall (.apply systemFinding true)).env (afterCalls 5) systemFinding
      true = .ok ⟨record, proposal, samplePath⟩ :=
    admission_projectCall hgate hrecord hproposal h.target_eq (by simp [hstatus])
  have hread : readText systemRuntime (afterCalls 5) samplePath = .ok quotedText :=
    readText_sample hquoted
  have hsix : afterCalls 6 = (afterCalls 5).putRecord (failedRecord record message) := by
    rw [afterCalls_succ rfl, workflowStep_apply rfl,
      apply_failed hadm hread hmessage]
  rw [hsix, statusOf, putRecord_get_self (show (failedRecord record message).findingId = _ from hid)]
  rfl

end AfterCalls

/-- In `applyAfterVerify` the fix is applied and verified; the second `apply` turns the verified
record into an error. -/
theorem not_appliedAtMostOnce :
    statusOf (afterCalls 4) systemFinding = some .applied
      ∧ statusOf (afterCalls 5) systemFinding = some .verified
      ∧ statusOf (afterCalls 6) systemFinding = some .error
      ∧ ¬ AppliedAtMostOnce defaultPolicy systemRuntime
        (oneFileWorkspace systemRuntime systemText) applyAfterVerify := by
  obtain ⟨f, proposal, message, hfix, hmessage⟩ := exists_systemFix
  obtain ⟨hgate, htext, record3, hrecord3, hproposal3, hstatus3⟩ := afterCalls_three hfix
  obtain ⟨-, -, record4, hrecord4, -, -, hstatus4⟩ := afterCalls_four hfix
  obtain ⟨-, -, record5, hrecord5, -, -, hstatus5⟩ := afterCalls_five hfix
  have hverified : statusOf (afterCalls 5) systemFinding = some .verified := by
    rw [statusOf, hrecord5, Option.map_some, hstatus5]
  have herror := afterCalls_six hfix hmessage
  refine ⟨by rw [statusOf, hrecord4, Option.map_some, hstatus4], hverified, herror, ?_⟩
  intro honce
  let applying := systemCall (.apply systemFinding true)
  have hout : (apply systemRuntime applying.env (afterCalls 3) systemFinding true).1
      = .ok (appliedRecord applying.env record3) :=
    congrArg Prod.fst (apply_projectCall hfix hgate htext hrecord3 hproposal3 hstatus3)
  have happlies : AppliesTo systemRuntime systemFinding (afterCalls 3) applying :=
    ⟨⟨true, rfl⟩, _, congrArg some hout⟩
  have hprefix : applyAfterVerify.take 5
      = applyAfterVerify.take 3 ++ applying :: [systemCall (.verify systemFinding)] := rfl
  have hverifies : WorkflowOp.verify systemFinding ≠ .propose systemFinding := by simp
  have hrefused := honce systemFinding (applyAfterVerify.take 3) applying
    [systemCall (.verify systemFinding)] applying [] rfl happlies
    ⟨fun h => hverifies h.1, trivial⟩ ⟨true, rfl⟩
  rw [← hprefix] at hrefused
  have hsame : (workflowStep defaultPolicy systemRuntime (afterCalls 5) applying).records.get?
      systemFinding = (afterCalls 5).records.get? systemFinding := hrefused.2.2.1
  rw [← afterCalls_succ rfl] at hsame
  rw [statusOf, hsame, ← statusOf, hverified] at herror
  simp at herror

end Sast
