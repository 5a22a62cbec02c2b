import SastEngine.Approval.Service
import SastEngine.Remediation.Patches
import SastEngine.Scan.Service

/-!
# The remediation service

`remediation/service.py`, over the state it shares with the approval service: the approval
requests, the remediation records, and the files on disk.  Everything else a call reads (findings,
scan lineage, projects, the persisted code model, the clock, the resolution of paths) is an input
of the call.
-/

namespace Sast

/-- An absolute, resolved path: its parts from the root. -/
abbrev Path := List String

/-- `path.is_relative_to(parent)`. -/
def isRelativeTo (path parent : Path) : Bool := parent.isPrefixOf path

/-- The fields of `db.models.Project` the workflow reads. -/
structure Project where
  id : String
  snapshotPath : String
deriving DecidableEq

/-- What a call reads besides the state: `get_finding_store().get`, the projects of
`runs_for_finding`, `session.get(Project, id)`, `load_code_model`, the clock, and the three path
resolutions (the workspace, the `repo` directory of a project, a file below it). -/
structure Surroundings where
  finding : String → Option CandidateFinding
  runProjects : String → List String
  project : String → Option Project
  codeModel : Project → Except String CodeModel
  utcnow : DateTime
  workspaceDir : Path
  repoDir : Project → Path
  resolveIn : Path → String → Path

/-- The interpreter and its file codec: `read_text(encoding="utf-8", errors="replace")` and
`write_text(encoding="utf-8")` as functions of the bytes. -/
structure Runtime where
  py : Stdlib
  decode : List UInt8 → String
  encode : String → List UInt8

/-- The state of the approval and remediation workflow. -/
structure World where
  approvals : ApprovalStore
  records : Dict String RemediationRecord
  files : Path → Option (List UInt8)

/-- The state at startup: empty stores, and the files of the workspace. -/
def World.initial (files : Path → Option (List UInt8)) : World :=
  ⟨.empty, .empty, files⟩

/-- The exceptions of the service: `RemediationGateError`, an exception of the patch module that
nobody catches, and those of the file system, the code model and the scanner. -/
inductive RemediationError where
  | gate (message : String)
  | patch (failure : PatchFailure)
  | raised (message : String)
deriving DecidableEq

/-! ## Gates -/

/-- `_require_approved_approval`. -/
def requireApprovedApproval (approvals : ApprovalStore) (findingId : String) :
    Except RemediationError ApprovalRequest :=
  match approvals.findForFinding findingId with
  | none => .error (.gate (s!"finding {findingId} has no approval request; "
      ++ "remediation requires an approved approval"))
  | some approval =>
      if approval.action ≠ .remediation then
        .error (.gate ("approval " ++ approval.id ++ " authorizes action '"
          ++ approval.action.text ++ "', not remediation"))
      else if approval.status ≠ .approved then
        .error (.gate ("approval " ++ approval.id ++ " is '" ++ approval.status.text
          ++ "'; remediation requires an approved approval"))
      else .ok approval

/-- `_project_for_finding`. -/
def projectForFinding (env : Surroundings) (findingId : String) :
    Except RemediationError Project :=
  match (env.runProjects findingId).dedup with
  | [projectId] =>
      match env.project projectId with
      | some project => .ok project
      | none => .error (.gate (s!"owning project {projectId} for finding {findingId} "
          ++ "no longer exists"))
  | projectIds => .error (.gate (s!"finding {findingId} has {projectIds.length} owning "
      ++ "projects in its scan lineage; cannot resolve a workspace"))

/-- `_workspace_repo_dir`. -/
def workspaceRepoDir (env : Surroundings) (project : Project) : Except RemediationError Path :=
  if isRelativeTo (env.repoDir project) env.workspaceDir then .ok (env.repoDir project)
  else .error (.gate "repository workspace is outside the application workspace")

/-- The resolved path of a file of the repository, refused when it leaves the repository. -/
def repoFile (env : Surroundings) (repoDir : Path) (file what : String) :
    Except RemediationError Path :=
  if isRelativeTo (env.resolveIn repoDir file) repoDir then .ok (env.resolveIn repoDir file)
  else .error (.gate s!"{what} {file} escapes the repository workspace")

/-- `file_path.read_text(encoding="utf-8", errors="replace")`. -/
def readText (rt : Runtime) (world : World) (path : Path) : Except RemediationError String :=
  match world.files path with
  | some content => .ok (rt.decode content)
  | none => .error (.raised ("cannot read /" ++ String.intercalate "/" path))

/-! ## Proposing -/

/-- The status of a fresh proposal. -/
def proposalStatus (proposal : RemediationProposal) : RemediationStatus :=
  if proposal.strategy = .noAutomaticFix then .noFixAvailable else .proposed

/-- The record after a proposal, new or updated. -/
def proposedRecord (env : Surroundings) (findingId : String) (approval : ApprovalRequest)
    (proposal : RemediationProposal) : Option RemediationRecord → RemediationRecord
  | none =>
      { findingId := findingId
        approvalId := approval.id
        status := proposalStatus proposal
        proposal := some proposal
        createdAt := env.utcnow }
  | some record =>
      { record with
        approvalId := approval.id
        proposal := some proposal
        status := proposalStatus proposal
        error := none }

/-- `propose`. -/
def propose (rt : Runtime) (env : Surroundings) (world : World) (findingId : String) :
    Except RemediationError RemediationRecord := do
  match env.finding findingId with
  | none => .error (.gate s!"finding not found: {findingId}")
  | some finding =>
      let approval ← requireApprovedApproval world.approvals findingId
      let project ← projectForFinding env findingId
      let repoDir ← workspaceRepoDir env project
      let path ← repoFile env repoDir finding.sink.file "finding source"
      let source ← readText rt world path
      let proposal ← (buildProposal rt.py finding source).mapError .patch
      return proposedRecord env findingId approval proposal (world.records.get? findingId)

/-! ## Applying -/

/-- What `apply` works on once every check has passed. -/
structure Admission where
  record : RemediationRecord
  proposal : RemediationProposal
  path : Path

/-- The proposal that the record of a finding offers for application. -/
def offeredProposal (world : World) (findingId : String) :
    Except RemediationError (RemediationRecord × RemediationProposal) :=
  match world.records.get? findingId with
  | none => .error (.gate (s!"no remediation proposal for finding {findingId}; "
      ++ "generate one before applying"))
  | some record =>
      match record.proposal with
      | none => .error (.gate (s!"no remediation proposal for finding {findingId}; "
          ++ "generate one before applying"))
      | some proposal =>
          if record.status = .noFixAvailable then
            .error (.gate ("no automatic fix is available for this finding; "
              ++ "manual remediation is required"))
          else if record.status = .applied then
            .error (.gate s!"remediation for finding {findingId} was already applied")
          else .ok (record, proposal)

/-- The checks of `apply` on everything but the record: the approval, the confirmation, the
project and the path. -/
def applyTarget (env : Surroundings) (world : World) (findingId : String) (confirmed : Bool)
    (file : String) : Except RemediationError Path := do
  let _ ← requireApprovedApproval world.approvals findingId
  if confirmed then
    let project ← projectForFinding env findingId
    let repoDir ← workspaceRepoDir env project
    repoFile env repoDir file "patch target"
  else .error (.gate ("fix application requires explicit human confirmation "
    ++ "(confirm=true)"))

/-- All checks of `apply` before the file is touched. -/
def admission (env : Surroundings) (world : World) (findingId : String) (confirmed : Bool) :
    Except RemediationError Admission := do
  let (record, proposal) ← offeredProposal world findingId
  let path ← applyTarget env world findingId confirmed proposal.file
  return ⟨record, proposal, path⟩

/-- `file_path.write_text(patched)`. -/
def World.write (world : World) (path : Path) (content : List UInt8) : World :=
  { world with files := fun p => if p = path then some content else world.files p }

/-- `store.record(record)`. -/
def World.putRecord (world : World) (record : RemediationRecord) : World :=
  { world with records := world.records.set record.findingId record }

/-- `DEMO_APPLIED_BY`. -/
def demoAppliedBy : String := "security-analyst"

/-- The record after a successful application. -/
def appliedRecord (env : Surroundings) (record : RemediationRecord) : RemediationRecord :=
  { record with
    status := .applied
    appliedAt := some env.utcnow
    appliedBy := some demoAppliedBy
    error := none }

/-- The record after a refused patch. -/
def failedRecord (record : RemediationRecord) (message : String) : RemediationRecord :=
  { record with status := .error, error := some message }

/-- `apply` past its checks. -/
def applyAdmitted (rt : Runtime) (env : Surroundings) (world : World) (adm : Admission) :
    Except RemediationError RemediationRecord × World :=
  match readText rt world adm.path with
  | .error e => (.error e, world)
  | .ok source =>
      match applyProposal rt.py adm.proposal source with
      | .error (.patchError message) =>
          (.error (.gate message), world.putRecord (failedRecord adm.record message))
      | .error (.raised message) => (.error (.raised message), world)
      | .ok patched =>
          let record := appliedRecord env adm.record
          (.ok record, (world.write adm.path (rt.encode patched)).putRecord record)

/-- `apply`. -/
def apply (rt : Runtime) (env : Surroundings) (world : World) (findingId : String)
    (confirmed : Bool) : Except RemediationError RemediationRecord × World :=
  match admission env world findingId confirmed with
  | .error e => (.error e, world)
  | .ok adm => applyAdmitted rt env world adm

/-! ## Verifying -/

/-- The statuses from which `verify` starts. -/
def verifiableStatuses : List RemediationStatus := [.applied, .verified, .stillPresent]

/-- The record after a verification. -/
def verifiedRecord (env : Surroundings) (record : RemediationRecord) (present : Bool) :
    RemediationRecord :=
  let status := if present then RemediationStatus.stillPresent else .verified
  { record with
    status := status
    verification := some status.text
    verifiedAt := some env.utcnow
    error := none }

/-- A fresh scan of the persisted code model of the finding's project. -/
def freshScan (rt : Runtime) (env : Surroundings) (findingId : String) :
    Except RemediationError ScanReport := do
  let project ← projectForFinding env findingId
  let codeModel ← (env.codeModel project).mapError .raised
  (scan rt.py (defaultRules rt.py) codeModel (some project.id)).mapError .raised

/-- `verify`. -/
def verify (rt : Runtime) (env : Surroundings) (world : World) (findingId : String) :
    Except RemediationError RemediationRecord :=
  match world.records.get? findingId with
  | none => .error (.gate s!"no remediation record for finding {findingId}")
  | some record =>
      if record.status ∈ verifiableStatuses then do
        let report ← freshScan rt env findingId
        return verifiedRecord env record (report.findings.any fun f => f.id = findingId)
      else .error (.gate (s!"remediation for finding {findingId} is '"
        ++ record.status.text ++ "'; verify requires an applied fix"))

/-! ## Calls -/

/-- One call of the approval or the remediation service. -/
inductive WorkflowOp where
  | approval (op : ApprovalOp)
  | propose (findingId : String)
  | apply (findingId : String) (confirmed : Bool)
  | verify (findingId : String)

/-- A call together with what it reads from its surroundings. -/
structure WorkflowCall where
  op : WorkflowOp
  gates : Gates
  moment : Moment
  env : Surroundings

/-- The part of a call that the approval service sees. -/
def WorkflowCall.approvalCall (call : WorkflowCall) (op : ApprovalOp) : ApprovalCall :=
  ⟨op, call.gates, call.moment⟩

/-- The world after storing the record a call returned, if it returned one. -/
def World.store (world : World) : Except RemediationError RemediationRecord → World
  | .ok record => world.putRecord record
  | .error _ => world

variable (policy : ApprovalPolicy) (rt : Runtime)

/-- The world after a call. -/
def workflowStep (world : World) (call : WorkflowCall) : World :=
  match call.op with
  | .approval op =>
      { world with approvals := approvalStep policy world.approvals (call.approvalCall op) }
  | .propose findingId => world.store (propose rt call.env world findingId)
  | .apply findingId confirmed => (apply rt call.env world findingId confirmed).2
  | .verify findingId => world.store (verify rt call.env world findingId)

/-- The record a remediation call returns, or the exception it raises. -/
def outcome (world : World) (call : WorkflowCall) :
    Option (Except RemediationError RemediationRecord) :=
  match call.op with
  | .approval _ => none
  | .propose findingId => some (propose rt call.env world findingId)
  | .apply findingId confirmed => some (apply rt call.env world findingId confirmed).1
  | .verify findingId => some (verify rt call.env world findingId)

end Sast
