import SastEngine.Api.Deletion
import SastEngine.Auth.Service
import SastEngine.Prove.Service
import SastEngine.Remediation.Service
import SastEngine.Validate.Provider

/-!
# The platform

The endpoints of `api/routes` that take a finding from its scan to the fix of its source, over the
state they share: users and sessions, runs and findings, verdicts, proofs, approval requests,
remediation records, and files.  A request is authenticated by its cookie and authorized by the role
of its user before anything else happens.  What it reads from elsewhere comes with it: the clock,
the ids that are drawn, the language model, the host of the sandbox, the projects with their code
models, and what PREPARE writes.
-/

namespace Sast

/-- What the endpoints share. -/
structure Platform where
  auth : AuthTables
  scans : ScanStores
  validations : Dict String ValidationReport
  proofs : Dict String ProofReport
  world : World

/-- The state at the first start: the users of the database, and the files of the workspace. -/
def Platform.start (users : UserTable) (files : Path → Option (List UInt8)) : Platform where
  auth := ⟨users, .empty⟩
  scans := .empty
  validations := .empty
  proofs := .empty
  world := .initial files

/-- What PREPARE writes, and how it ends. -/
structure Preparation where
  written : Path → Option (List UInt8)
  ending : Except HttpError Unit

/-- What a request reads besides the state.  `removes` tells which files `shutil.rmtree` removes; of
the surroundings, the findings and the lineage are those of the state. -/
structure RequestEnv where
  utcnow : DateTime
  moment : Moment
  execution : ExecutionStamp
  scanStamps : ScanStamps
  createdAt : Project → DateTime
  surroundings : Surroundings
  validateEnv : ValidateEnv
  proveEnv : ProveEnv
  preparation : Preparation
  order : SetOrder
  removes : Path → Bool

/-- An endpoint, with the path and the body of its request. -/
inductive Endpoint where
  | createProject
  | scan (projectId : String)
  | reprepare (projectId : String)
  | deleteProject (projectId : String)
  | validate (findingId provider : String) (scanRunId : Option String)
  | prove (findingId : String) (scanRunId : Option String)
  | requestApproval (findingId : String) (action : ApprovalAction) (scanRunId : Option String)
  | decide (decision : Decision) (approvalId : String) (reason : Option String)
  | propose (findingId : String)
  | apply (findingId : String) (confirm : Bool)
  | verify (findingId : String)

/-- The permission that a decision asks for. -/
def Decision.permission : Decision → Permission
  | .approve => .approve
  | .reject => .reject
  | .requestChanges => .requestChanges
  | .resubmit => .resubmit

/-- The permission that an endpoint asks for. -/
def Endpoint.permission : Endpoint → Permission
  | .createProject => .createRepository
  | .scan _ => .scan
  | .reprepare _ => .reprepare
  | .deleteProject _ => .deleteRepository
  | .validate _ _ _ => .validate
  | .prove _ _ => .prove
  | .requestApproval _ _ _ => .requestApproval
  | .decide decision _ _ => decision.permission
  | .propose _ => .proposeRemediation
  | .apply _ _ => .applyRemediation
  | .verify _ => .verifyRemediation

/-- What an endpoint returns. -/
inductive Reply where
  | scanned (run : ScanRun) (report : ScanReport)
  | validated (report : ValidationReport)
  | proved (report : ProofReport)
  | approval (request : ApprovalRequest)
  | remediation (record : RemediationRecord)
  | done

/-- The state after a request, and its answer. -/
abbrev Response : Type := Platform × Except HttpError Reply

/-! ## Exceptions -/

/-- The answer where an exception is not handled. -/
def internalError : HttpError := ⟨500, "Internal Server Error"⟩

/-- `str(exc)`. -/
def ValidateError.text : ValidateError → String
  | .configuration message => message
  | .raised message => message

/-- The answer of `validate_finding`. -/
def ValidateError.http : ValidateError → HttpError
  | .configuration message => ⟨503, message⟩
  | .raised _ => internalError

/-- `str(exc)`. -/
def ProveError.text : ProveError → String
  | .gate message => message
  | .raised message => message

/-- The answer of `prove_finding`. -/
def ProveError.http : ProveError → HttpError
  | .gate message => ⟨409, message⟩
  | .raised _ => internalError

/-- `str(exc)`. -/
def ApprovalError.text : ApprovalError → String
  | .gate message => message
  | .invalidTransition message => message
  | .value message => message

/-- The answer of `request_approval` and `_transition`. -/
def ApprovalError.http : ApprovalError → HttpError
  | .gate message => ⟨409, message⟩
  | .invalidTransition message => ⟨409, message⟩
  | .value _ => internalError

/-- The answer of `propose_remediation` and `apply_remediation`, and with `verify_remediation` the
one to what is not a `RemediationGateError`. -/
def RemediationError.http (other : HttpError) : RemediationError → HttpError
  | .gate message => ⟨409, message⟩
  | .patch _ => other
  | .raised _ => other

/-! ## Stages -/

/-- `validate_stage_context`. -/
def ScanRunStore.validateStageContext (store : ScanRunStore) (scanRunId findingId : String) :
    Except HttpError Unit :=
  match store.getRun scanRunId with
  | none => .error ⟨404, s!"scan run not found: {scanRunId}"⟩
  | some _ =>
      if findingId ∈ store.findingIdsForRun scanRunId then .ok ()
      else .error ⟨400, s!"scan run {scanRunId} does not produce finding {findingId}"⟩

/-- `_proof_error_condition`. -/
def proofErrorCondition (report : ProofReport) : Bool × String :=
  if report.status = .error then
    (true, report.error.getD "proof execution returned status=error")
  else (false, "")

/-- An answer with what an action returns or raises. -/
def answer {ε α : Type} (http : ε → HttpError) (reply : α → Reply)
    (result : Platform × Except ε α) : Response :=
  (result.1, (result.2.mapError http).map reply)

/-- An action that is recorded as an execution of a stage where the request names a run.  The action
itself does not touch the runs. -/
def recorded {ε α : Type} (stageName : String) (stamp : ExecutionStamp) (text : ε → String)
    (errorCondition : Option (α → Bool × String)) (scanRunId : Option String)
    (result : Platform × Except ε α) : Platform × Except ε α :=
  match scanRunId with
  | none => result
  | some runId =>
      ({ result.1 with
          scans := (recordStageExecution result.1.scans runId stageName stamp
            (fun stores => (stores, result.2.mapError text)) errorCondition).1 }, result.2)

namespace Platform

variable (s : Platform) (rt : Runtime) (env : RequestEnv)

/-- `_require_stage_context`, where the request names a run. -/
def stageContext (scanRunId : Option String) (findingId : String) : Except HttpError Unit :=
  match scanRunId with
  | none => .ok ()
  | some runId => s.scans.runs.validateStageContext runId findingId

/-- The checks that the endpoints of a finding begin with. -/
def onFinding (findingId : String) (scanRunId : Option String)
    (handle : CandidateFinding → Response) : Response :=
  match s.scans.findings.get findingId with
  | none => (s, .error ⟨404, s!"finding not found: {findingId}"⟩)
  | some finding =>
      match s.stageContext scanRunId findingId with
      | .error e => (s, .error e)
      | .ok () => handle finding

/-- `_validate_and_store`. -/
def validateAndStore (finding : CandidateFinding) (provider : String) :
    Platform × Except ValidateError ValidationReport :=
  match Sast.validateFinding env.validateEnv finding provider with
  | .error e => (s, .error e)
  | .ok report =>
      ({ s with validations := s.validations.set report.findingId report }, .ok report)

/-- `validate_finding`. -/
def validateFinding (findingId provider : String) (scanRunId : Option String) : Response :=
  s.onFinding findingId scanRunId fun finding =>
    answer ValidateError.http .validated (recorded "VALIDATE" env.execution ValidateError.text
      none scanRunId (s.validateAndStore env finding provider))

/-- `_prove_and_store`, with the `ProofService` of the request. -/
def proveAndStore (finding : CandidateFinding) (validation : ValidationReport) :
    Platform × Except ProveError ProofReport :=
  match (prove env.proveEnv ⟨{}⟩ finding (some validation)).2 with
  | .error e => (s, .error e)
  | .ok report => ({ s with proofs := s.proofs.set report.findingId report }, .ok report)

/-- `prove_finding`. -/
def proveFinding (findingId : String) (scanRunId : Option String) : Response :=
  s.onFinding findingId scanRunId fun finding =>
    match s.validations.get? findingId with
    | none => (s, .error ⟨404, s!"validation result missing: {findingId}"⟩)
    | some validation =>
        answer ProveError.http .proved (recorded "PROVE" env.execution ProveError.text
          (some proofErrorCondition) scanRunId (s.proveAndStore env finding validation))

/-! ## Approval and remediation -/

/-- What the approval service reads of the other stages. -/
def gates : Gates where
  verdict findingId := (s.validations.get? findingId).map fun report => report.verdict.text
  proofStatus findingId := (s.proofs.get? findingId).map fun report => report.status.text

/-- The projects of `runs_for_finding`.  The store holds every run that a lineage names, with an
aware time, so that the listing does not fail. -/
def runProjects (findingId : String) : List String :=
  match s.scans.runs.runsForFinding findingId with
  | .error _ => []
  | .ok runs => runs.map ScanRun.projectId

/-- What the remediation service reads. -/
def surroundings : Surroundings :=
  { env.surroundings with
    finding := s.scans.findings.get
    runProjects := s.runProjects }

/-- A call of the approval or the remediation service. -/
def workflowCall (op : WorkflowOp) : WorkflowCall where
  op := op
  gates := s.gates
  moment := env.moment
  env := s.surroundings env

/-- The state after a call of the approval or the remediation service. -/
def work (op : WorkflowOp) : Platform :=
  { s with world := workflowStep defaultPolicy rt s.world (s.workflowCall env op) }

/-- A call of the approval service. -/
def callApproval (op : ApprovalOp) : Platform × Except ApprovalError ApprovalRequest :=
  (s.work rt env (.approval op),
    (((s.workflowCall env (.approval op)).approvalCall op).run defaultPolicy
      s.world.approvals).map Prod.fst)

/-- `request_approval`. -/
def requestApproval (user : User) (findingId : String) (action : ApprovalAction)
    (scanRunId : Option String) : Response :=
  s.onFinding findingId scanRunId fun _ =>
    answer ApprovalError.http .approval (recorded "APPROVAL" env.execution ApprovalError.text
      none scanRunId
      (s.callApproval rt env (.request findingId action user.username none scanRunId)))

/-- The validator `_not_blank`. -/
def blankReason (reason : Option String) : Bool :=
  reason.any fun text => (strip text.toList).isEmpty

/-- `approve`, `reject`, `request_changes` and `resubmit`, which are `_transition` with the name of
a decision.  Where the request names a run, the transition is checked before it is recorded. -/
def decideApproval (user : User) (decision : Decision) (approvalId : String)
    (reason : Option String) : Response :=
  if blankReason reason then (s, .error ⟨422, "Value error, reason must not be blank"⟩)
  else
    match s.world.approvals.get approvalId with
    | none => (s, .error ⟨404, s!"approval not found: {approvalId}"⟩)
    | some request =>
        if request.scanRunId.isSome ∧ decision.target ∉ allowedTransitions request.status then
          (s, .error ⟨409, "invalid approval transition: " ++ request.status.text ++ " -> "
            ++ decision.target.text ++ " is not allowed"⟩)
        else
          answer ApprovalError.http .approval (recorded "APPROVAL" env.execution
            ApprovalError.text none request.scanRunId
            (s.callApproval rt env (.decide decision approvalId user.username reason none)))

/-- `propose_remediation`. -/
def proposeRemediation (findingId : String) : Response :=
  s.onFinding findingId none fun _ =>
    answer (RemediationError.http internalError) .remediation
      (s.work rt env (.propose findingId),
        propose rt (s.surroundings env) s.world findingId)

/-- `apply_remediation`. -/
def applyRemediation (findingId : String) (confirm : Bool) : Response :=
  s.onFinding findingId none fun _ =>
    answer (RemediationError.http internalError) .remediation
      (s.work rt env (.apply findingId confirm),
        (apply rt (s.surroundings env) s.world findingId confirm).1)

/-- `verify_remediation`. -/
def verifyRemediation (findingId : String) : Response :=
  s.onFinding findingId none fun _ =>
    answer (RemediationError.http ⟨500, "remediation verify failed"⟩) .remediation
      (s.work rt env (.verify findingId),
        verify rt (s.surroundings env) s.world findingId)

/-! ## Projects -/

/-- The checks that the endpoints of a project begin with. -/
def onProject (projectId : String) (handle : Project → Response) : Response :=
  match env.surroundings.project projectId with
  | none => (s, .error ⟨404, s!"project not found: {projectId}"⟩)
  | some project => handle project

/-- The files after PREPARE. -/
def prepared : Platform :=
  { s with
    world := { s.world with
      files := fun path => (env.preparation.written path).or (s.world.files path) } }

/-- `create_project`. -/
def createProject : Response :=
  (s.prepared env, env.preparation.ending.map fun _ => .done)

/-- `reprepare_project`. -/
def reprepareProject (projectId : String) : Response :=
  s.onProject env projectId fun _ =>
    (s.prepared env, env.preparation.ending.map fun _ => .done)

/-- `scan_project`. -/
def scanProject (projectId : String) : Response :=
  s.onProject env projectId fun project =>
    match env.surroundings.codeModel project with
    | .error _ => (s, .error ⟨500, "code model unavailable"⟩)
    | .ok codeModel =>
        let (scans, result) := executeScan rt.py (defaultRules rt.py) s.scans projectId codeModel
          (some (env.createdAt project)) env.scanStamps
        answer (fun _ => internalError) (fun found => .scanned found.1 found.2)
          ({ s with scans := scans }, result)

/-- What `delete_project` removes for a finding. -/
def removeFinding (findingId : String) : Platform where
  auth := s.auth
  scans := { s.scans with findings := s.scans.findings.remove findingId }
  validations := s.validations.erase findingId
  proofs := s.proofs.erase findingId
  world :=
    { s.world with
      approvals := s.world.approvals.removeFinding findingId
      records := s.world.records.erase findingId }

/-- What `delete_project` removes with the project. -/
def removeProject (projectId : String) : Platform :=
  { s with
    scans := { s.scans with runs := s.scans.runs.deleteProjectRuns projectId }
    world := { s.world with
      files := fun path => if env.removes path then none else s.world.files path } }

/-- `delete_project`. -/
def deleteProject (projectId : String) : Response :=
  s.onProject env projectId fun _ =>
    match projectFindingIds s.scans.runs projectId with
    | .error _ => (s, .error internalError)
    | .ok found =>
        (((env.order.arrange found).foldl removeFinding s).removeProject env projectId,
          .ok .done)

/-! ## Requests -/

/-- An endpoint, for a user who may call it. -/
def handle (user : User) : Endpoint → Response
  | .createProject => s.createProject env
  | .scan projectId => s.scanProject rt env projectId
  | .reprepare projectId => s.reprepareProject env projectId
  | .deleteProject projectId => s.deleteProject env projectId
  | .validate findingId provider scanRunId =>
      s.validateFinding env findingId provider scanRunId
  | .prove findingId scanRunId => s.proveFinding env findingId scanRunId
  | .requestApproval findingId action scanRunId =>
      s.requestApproval rt env user findingId action scanRunId
  | .decide decision approvalId reason =>
      s.decideApproval rt env user decision approvalId reason
  | .propose findingId => s.proposeRemediation rt env findingId
  | .apply findingId confirm => s.applyRemediation rt env findingId confirm
  | .verify findingId => s.verifyRemediation rt env findingId

/-- A request to an endpoint. -/
def respond (crypto : Crypto) (endpoint : Endpoint) (cookie : Option String) : Response :=
  match s.auth.requirePermission crypto endpoint.permission cookie env.utcnow with
  | .error e => (s, .error e)
  | .ok user => s.handle rt env user endpoint

end Platform

/-- What changes the state: the calls that concern users and sessions, and requests to the
endpoints. -/
inductive Request where
  | account (call : AuthCall)
  | call (endpoint : Endpoint) (cookie : Option String) (env : RequestEnv)

/-- The state after a request. -/
def platformStep (crypto : Crypto) (rt : Runtime) (s : Platform) : Request → Platform
  | .account call => { s with auth := authStep crypto s.auth call }
  | .call endpoint cookie env => (s.respond rt env crypto endpoint cookie).1

end Sast
