import SastEngine.Lib.Except
import SastEngine.Remediation.Gate

/-!
# What one remediation call can do

One lemma for each operation says what its success presupposes and what it leaves behind; the
results about runs use these and never unfold the service.
-/

namespace Sast

variable {policy : ApprovalPolicy} {rt : Runtime} {env : Surroundings} {world : World}

/-! ## The checks -/

/-- The finding has exactly one project in its scan lineage. -/
def OwnedBy (env : Surroundings) (findingId : String) (project : Project) : Prop :=
  ∃ projectId, (env.runProjects findingId).dedup = [projectId]
    ∧ env.project projectId = some project

lemma projectForFinding_ok {findingId : String} {project : Project} :
    projectForFinding env findingId = .ok project ↔ OwnedBy env findingId project := by
  unfold projectForFinding OwnedBy
  split
  · next projectId heq =>
      cases hp : env.project projectId with
      | none => simp [heq, hp]
      | some p => simp [heq, hp]
  · next hne =>
      constructor
      · intro h; simp at h
      · rintro ⟨projectId, heq, -⟩
        exact absurd heq (hne projectId)

lemma workspaceRepoDir_ok {project : Project} {dir : Path} :
    workspaceRepoDir env project = .ok dir
      ↔ isRelativeTo dir env.workspaceDir = true ∧ env.repoDir project = dir := by
  unfold workspaceRepoDir
  split_ifs with h
  · simp only [Except.ok.injEq]
    exact ⟨fun hd => ⟨hd ▸ h, hd⟩, And.right⟩
  · simp only [false_iff]
    rintro ⟨hrel, rfl⟩
    exact h hrel

lemma repoFile_ok {repoDir path : Path} {file what : String} :
    repoFile env repoDir file what = .ok path
      ↔ isRelativeTo path repoDir = true ∧ env.resolveIn repoDir file = path := by
  unfold repoFile
  split_ifs with h
  · simp only [Except.ok.injEq]
    exact ⟨fun hd => ⟨hd ▸ h, hd⟩, And.right⟩
  · simp only [false_iff]
    rintro ⟨hrel, rfl⟩
    exact h hrel

/-- The path lies inside the repository of the finding's owning project, and that repository
inside the workspace. -/
def InOwnRepository (env : Surroundings) (findingId : String) (path : Path) : Prop :=
  ∃ project, OwnedBy env findingId project
    ∧ isRelativeTo (env.repoDir project) env.workspaceDir = true
    ∧ isRelativeTo path (env.repoDir project) = true

lemma applyTarget_ok {findingId file : String} {confirmed : Bool} {path : Path}
    (h : applyTarget env world findingId confirmed file = .ok path) :
    confirmed = true ∧ GatePasses world.approvals findingId
      ∧ InOwnRepository env findingId path := by
  unfold applyTarget at h
  obtain ⟨approval, happ, h⟩ := bind_eq_ok.1 h
  cases confirmed with
  | false => simp at h
  | true =>
      simp only [if_true] at h
      obtain ⟨project, hproject, h⟩ := bind_eq_ok.1 h
      obtain ⟨dir, hdir, h⟩ := bind_eq_ok.1 h
      obtain ⟨hws, rfl⟩ := workspaceRepoDir_ok.1 hdir
      exact ⟨rfl, ⟨approval, happ⟩, project, projectForFinding_ok.1 hproject, hws,
        (repoFile_ok.1 h).1⟩

lemma offeredProposal_ok {findingId : String} {record : RemediationRecord}
    {proposal : RemediationProposal} :
    offeredProposal world findingId = .ok (record, proposal)
      ↔ world.records.get? findingId = some record ∧ record.proposal = some proposal
        ∧ record.status ≠ .noFixAvailable ∧ record.status ≠ .applied := by
  unfold offeredProposal
  cases hrec : world.records.get? findingId with
  | none => simp
  | some r =>
      cases hp : r.proposal with
      | none =>
          simp only [hp, Option.some.injEq, reduceCtorEq, false_iff]
          rintro ⟨rfl, hprop, -⟩
          simp [hp] at hprop
      | some p =>
          simp only [hp]
          split_ifs with hn ha
          · simp only [Option.some.injEq, false_iff]
            rintro ⟨rfl, -, hne, -⟩
            exact hne hn
          · simp only [Option.some.injEq, false_iff]
            rintro ⟨rfl, -, -, hne⟩
            exact hne ha
          · simp only [Except.ok.injEq, Prod.mk.injEq, Option.some.injEq]
            constructor
            · rintro ⟨rfl, rfl⟩
              exact ⟨rfl, hp, hn, ha⟩
            · rintro ⟨rfl, hprop, -⟩
              exact ⟨rfl, Option.some.inj (hp.symm.trans hprop)⟩

lemma admission_ok {findingId : String} {confirmed : Bool} {adm : Admission} :
    admission env world findingId confirmed = .ok adm
      ↔ offeredProposal world findingId = .ok (adm.record, adm.proposal)
        ∧ applyTarget env world findingId confirmed adm.proposal.file = .ok adm.path := by
  unfold admission
  simp only [bind_eq_ok, pure_eq_ok, Prod.exists]
  constructor
  · rintro ⟨record, proposal, hoff, path, htgt, rfl⟩
    exact ⟨hoff, htgt⟩
  · rintro ⟨hoff, htgt⟩
    exact ⟨adm.record, adm.proposal, hoff, adm.path, htgt, rfl⟩

/-! ## Applying a proposal -/

/-- `apply_proposal` raises nothing but `PatchError`. -/
lemma applyProposal_error {py : Stdlib} {proposal : RemediationProposal} {source : String}
    {failure : PatchFailure} (h : applyProposal py proposal source = .error failure) :
    ∃ message, failure = .patchError message := by
  simp only [applyProposal] at h
  split_ifs at h
  · exact ⟨_, (Except.error.inj h).symm⟩
  · exact ⟨_, (Except.error.inj h).symm⟩
  · exact ⟨_, (Except.error.inj h).symm⟩
  · split at h
    · exact ⟨_, (Except.error.inj h).symm⟩
    · simp at h

/-- A proposal that could be applied has a strategy. -/
lemma applyProposal_strategy {py : Stdlib} {proposal : RemediationProposal}
    {source patched : String} (h : applyProposal py proposal source = .ok patched) :
    proposal.strategy ≠ .noAutomaticFix := by
  intro hs
  simp [applyProposal, hs] at h

/-- **What `apply` does.**  It is refused and changes nothing; or the patch does not apply, and
the record becomes an error; or the patch is written, and the record becomes applied. -/
lemma apply_cases (rt : Runtime) (env : Surroundings) (world : World) (findingId : String)
    (confirmed : Bool) :
    (∃ e, apply rt env world findingId confirmed = (.error e, world)) ∨
    (∃ adm source message, admission env world findingId confirmed = .ok adm ∧
      readText rt world adm.path = .ok source ∧
      apply rt env world findingId confirmed
        = (.error (.gate message), world.putRecord (failedRecord adm.record message))) ∨
    (∃ adm source patched, admission env world findingId confirmed = .ok adm ∧
      readText rt world adm.path = .ok source ∧
      applyProposal rt.py adm.proposal source = .ok patched ∧
      apply rt env world findingId confirmed
        = (.ok (appliedRecord env adm.record),
          (world.write adm.path (rt.encode patched)).putRecord
            (appliedRecord env adm.record))) := by
  unfold apply
  cases hadm : admission env world findingId confirmed with
  | error e => exact Or.inl ⟨e, rfl⟩
  | ok adm =>
      simp only [applyAdmitted]
      cases hread : readText rt world adm.path with
      | error e => exact Or.inl ⟨e, rfl⟩
      | ok source =>
          simp only
          cases hpatch : applyProposal rt.py adm.proposal source with
          | error failure =>
              obtain ⟨message, rfl⟩ := applyProposal_error hpatch
              exact Or.inr (Or.inl ⟨adm, source, message, rfl, hread, rfl⟩)
          | ok patched => exact Or.inr (Or.inr ⟨adm, source, patched, rfl, hread, hpatch, rfl⟩)

/-! ## Proposing -/

/-- **What a successful `propose` did**: the gate was open, and the record holds the proposal
built from the text of the finding's file. -/
lemma propose_ok {findingId : String} {record : RemediationRecord}
    (h : propose rt env world findingId = .ok record) :
    ∃ finding approval source proposal path,
      env.finding findingId = some finding
      ∧ requireApprovedApproval world.approvals findingId = .ok approval
      ∧ InOwnRepository env findingId path
      ∧ readText rt world path = .ok source
      ∧ buildProposal rt.py finding source = .ok proposal
      ∧ record = proposedRecord env findingId approval proposal
        (world.records.get? findingId) := by
  unfold propose at h
  cases hfind : env.finding findingId with
  | none => simp [hfind] at h
  | some finding =>
      simp only [hfind] at h
      obtain ⟨approval, happ, h⟩ := bind_eq_ok.1 h
      obtain ⟨project, hproject, h⟩ := bind_eq_ok.1 h
      obtain ⟨dir, hdir, hrest⟩ := bind_eq_ok.1 h
      obtain ⟨hws, rfl⟩ := workspaceRepoDir_ok.1 hdir
      obtain ⟨path, hpath, hread⟩ := bind_eq_ok.1 hrest
      obtain ⟨source, hsource, hbuild⟩ := bind_eq_ok.1 hread
      obtain ⟨proposal, hproposal, hrecord⟩ := bind_eq_ok.1 hbuild
      exact ⟨finding, approval, source, proposal, path, rfl, happ,
        ⟨project, projectForFinding_ok.1 hproject, hws, (repoFile_ok.1 hpath).1⟩, hsource,
        mapError_eq_ok.1 hproposal, (pure_eq_ok.1 hrecord).symm⟩

@[simp] lemma proposedRecord_proposal (env : Surroundings) (findingId : String)
    (approval : ApprovalRequest) (proposal : RemediationProposal)
    (previous : Option RemediationRecord) :
    (proposedRecord env findingId approval proposal previous).proposal = some proposal := by
  cases previous <;> rfl

@[simp] lemma proposedRecord_status (env : Surroundings) (findingId : String)
    (approval : ApprovalRequest) (proposal : RemediationProposal)
    (previous : Option RemediationRecord) :
    (proposedRecord env findingId approval proposal previous).status
      = proposalStatus proposal := by
  cases previous <;> rfl

/-! ## Verifying -/

/-- **What a successful `verify` did**: the record had been applied, and its new status says
whether the fresh scan still reports the finding's id. -/
lemma verify_ok {findingId : String} {record : RemediationRecord}
    (h : verify rt env world findingId = .ok record) :
    ∃ old report, world.records.get? findingId = some old ∧ old.status ∈ verifiableStatuses
      ∧ freshScan rt env findingId = .ok report
      ∧ record = verifiedRecord env old (report.findings.any fun f => f.id = findingId) := by
  unfold verify at h
  cases hrec : world.records.get? findingId with
  | none => simp [hrec] at h
  | some old =>
      simp only [hrec] at h
      split_ifs at h with hs
      obtain ⟨report, hreport, h⟩ := bind_eq_ok.1 h
      exact ⟨old, report, rfl, hs, hreport, (pure_eq_ok.1 h).symm⟩

/-! ## Any call -/

/-- **What one call can do to the world.** -/
inductive WorkflowChange (policy : ApprovalPolicy) (rt : Runtime) (world : World)
    (call : WorkflowCall) : World → Prop
  | approval (op : ApprovalOp) : call.op = .approval op →
      WorkflowChange policy rt world call
        { world with approvals := approvalStep policy world.approvals (call.approvalCall op) }
  | refused : (∀ record, outcome rt world call ≠ some (.ok record)) →
      WorkflowChange policy rt world call world
  | proposed (findingId : String) (record : RemediationRecord) : call.op = .propose findingId →
      propose rt call.env world findingId = .ok record →
      WorkflowChange policy rt world call (world.putRecord record)
  | failed (findingId : String) (confirmed : Bool) (adm : Admission) (source message : String) :
      call.op = .apply findingId confirmed →
      admission call.env world findingId confirmed = .ok adm →
      readText rt world adm.path = .ok source →
      outcome rt world call = some (.error (.gate message)) →
      WorkflowChange policy rt world call (world.putRecord (failedRecord adm.record message))
  | applied (findingId : String) (confirmed : Bool) (adm : Admission) (source patched : String) :
      call.op = .apply findingId confirmed →
      admission call.env world findingId confirmed = .ok adm →
      readText rt world adm.path = .ok source →
      applyProposal rt.py adm.proposal source = .ok patched →
      outcome rt world call = some (.ok (appliedRecord call.env adm.record)) →
      WorkflowChange policy rt world call
        ((world.write adm.path (rt.encode patched)).putRecord
          (appliedRecord call.env adm.record))
  | verified (findingId : String) (record : RemediationRecord) : call.op = .verify findingId →
      verify rt call.env world findingId = .ok record →
      WorkflowChange policy rt world call (world.putRecord record)

lemma workflowStep_apply {policy : ApprovalPolicy} {rt : Runtime} {world : World}
    {call : WorkflowCall} {findingId : String} {confirmed : Bool}
    (hop : call.op = .apply findingId confirmed) :
    workflowStep policy rt world call = (apply rt call.env world findingId confirmed).2 := by
  simp [workflowStep, hop]

lemma workflowStep_verify {policy : ApprovalPolicy} {rt : Runtime} {world : World}
    {call : WorkflowCall} {findingId : String} (hop : call.op = .verify findingId) :
    workflowStep policy rt world call = world.store (verify rt call.env world findingId) := by
  simp [workflowStep, hop]

/-- The inversion of a call: one case for each way it can end. -/
theorem workflowStep_change (policy : ApprovalPolicy) (rt : Runtime) (world : World)
    (call : WorkflowCall) :
    WorkflowChange policy rt world call (workflowStep policy rt world call) := by
  cases hop : call.op with
  | approval op =>
      simp only [workflowStep, hop]
      exact .approval op hop
  | propose findingId =>
      simp only [workflowStep, hop, World.store]
      cases hout : propose rt call.env world findingId with
      | ok record => exact .proposed findingId record hop hout
      | error e => exact .refused fun record => by simp [outcome, hop, hout]
  | apply findingId confirmed =>
      simp only [workflowStep, hop]
      rcases apply_cases rt call.env world findingId confirmed with
        ⟨e, h⟩ | ⟨adm, source, message, hadm, hread, h⟩ | ⟨adm, source, patched, hadm, hread, hpatch, h⟩
      · rw [h]
        exact .refused fun record => by simp [outcome, hop, h]
      · rw [h]
        exact .failed findingId confirmed adm source message hop hadm hread
          (by simp [outcome, hop, h])
      · rw [h]
        exact .applied findingId confirmed adm source patched hop hadm hread hpatch
          (by simp [outcome, hop, h])
  | verify findingId =>
      simp only [workflowStep, hop, World.store]
      cases hout : verify rt call.env world findingId with
      | ok record => exact .verified findingId record hop hout
      | error e => exact .refused fun record => by simp [outcome, hop, hout]

/-! ## Records and their keys -/

/-- Every record is kept under its finding. -/
def RecordsKeyed (world : World) : Prop :=
  ∀ findingId record, world.records.get? findingId = some record → record.findingId = findingId

lemma putRecord_get (world : World) (record : RemediationRecord) (findingId : String) :
    (world.putRecord record).records.get? findingId
      = if findingId = record.findingId then some record else world.records.get? findingId :=
  Dict.get?_set _ _ _ _

@[simp] lemma putRecord_approvals (world : World) (record : RemediationRecord) :
    (world.putRecord record).approvals = world.approvals := rfl

@[simp] lemma putRecord_files (world : World) (record : RemediationRecord) :
    (world.putRecord record).files = world.files := rfl

@[simp] lemma write_records (world : World) (path : Path) (content : List UInt8) :
    (world.write path content).records = world.records := rfl

lemma putRecord_get_self {world : World} {record : RemediationRecord} {findingId : String}
    (h : record.findingId = findingId) :
    (world.putRecord record).records.get? findingId = some record := by
  rw [putRecord_get, if_pos h.symm]

lemma putRecord_keyed {world : World} (hk : RecordsKeyed world) (record : RemediationRecord) :
    RecordsKeyed (world.putRecord record) := by
  intro findingId r hr
  rw [putRecord_get] at hr
  split_ifs at hr with hf
  · rw [← Option.some.inj hr, hf]
  · exact hk findingId r hr

lemma initial_keyed (files : Path → Option (List UInt8)) :
    RecordsKeyed (World.initial files) := by
  intro findingId record h
  simp [World.initial] at h

/-- The record that a call works on, or creates, is kept under the call's finding. -/
lemma admission_findingId {world : World} (hk : RecordsKeyed world) {findingId : String}
    {confirmed : Bool} {adm : Admission}
    (h : admission env world findingId confirmed = .ok adm) : adm.record.findingId = findingId :=
  hk _ _ (offeredProposal_ok.1 (admission_ok.1 h).1).1

lemma propose_findingId {world : World} (hk : RecordsKeyed world) {findingId : String}
    {record : RemediationRecord} (h : propose rt env world findingId = .ok record) :
    record.findingId = findingId := by
  obtain ⟨finding, approval, source, proposal, path, -, -, -, -, -, rfl⟩ := propose_ok h
  cases hrec : world.records.get? findingId with
  | none => rfl
  | some old => exact hk findingId old hrec

lemma verify_findingId {world : World} (hk : RecordsKeyed world) {findingId : String}
    {record : RemediationRecord} (h : verify rt env world findingId = .ok record) :
    record.findingId = findingId := by
  obtain ⟨old, report, hold, -, -, rfl⟩ := verify_ok h
  exact hk findingId old hold

/-- Calls keep the records under their findings. -/
lemma workflowStep_keyed {world : World} (hk : RecordsKeyed world) (call : WorkflowCall) :
    RecordsKeyed (workflowStep policy rt world call) := by
  have hchange := workflowStep_change policy rt world call
  generalize workflowStep policy rt world call = world' at hchange ⊢
  cases hchange with
  | approval op hop => exact hk
  | refused _ => exact hk
  | proposed findingId record hop h => exact putRecord_keyed hk _
  | failed findingId confirmed adm source message hop hadm _ _ => exact putRecord_keyed hk _
  | applied findingId confirmed adm source patched hop hadm _ _ _ =>
      exact putRecord_keyed (show RecordsKeyed (world.write _ _) from hk) _
  | verified findingId record hop h => exact putRecord_keyed hk _

end Sast
