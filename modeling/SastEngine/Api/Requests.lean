import SastEngine.Api.Platform
import SastEngine.Approval.Trail
import SastEngine.Remediation.Steps

/-!
# What one request can do

A request to an endpoint is refused, or does what its endpoint is for, on behalf of a user who is
logged in and has the permission (`platformStep_change`).  Everything proved about runs of requests
is derived from this case distinction.
-/

namespace Sast

variable {crypto : Crypto} {rt : Runtime} {s : Platform}

/-- The endpoint is called by the user, who is logged in and may call it. -/
def Calls (crypto : Crypto) (user : User) (endpoint : Endpoint) (env : RequestEnv) (s : Platform)
    (request : Request) : Prop :=
  ∃ cookie, request = .call endpoint cookie env
    ∧ s.auth.requirePermission crypto endpoint.permission cookie env.utcnow = .ok user

/-- The call of the approval or the remediation service that an endpoint is for. -/
def Endpoint.op (user : User) : Endpoint → Option WorkflowOp
  | .requestApproval findingId action scanRunId =>
      some (.approval (.request findingId action user.username none scanRunId))
  | .decide decision approvalId reason =>
      some (.approval (.decide decision approvalId user.username reason none))
  | .propose findingId => some (.propose findingId)
  | .apply findingId confirm => some (.apply findingId confirm)
  | .verify findingId => some (.verify findingId)
  | _ => none

/-- The checks that an endpoint makes before it calls the approval or the remediation service. -/
def Platform.Admits (s : Platform) : Endpoint → Prop
  | .requestApproval findingId _ scanRunId =>
      (∃ finding, s.scans.findings.get findingId = some finding)
        ∧ s.stageContext scanRunId findingId = .ok ()
  | .decide _ _ reason => Platform.blankReason reason = false
  | .propose findingId => ∃ finding, s.scans.findings.get findingId = some finding
  | .apply findingId _ => ∃ finding, s.scans.findings.get findingId = some finding
  | .verify findingId => ∃ finding, s.scans.findings.get findingId = some finding
  | _ => True

/-- The endpoint writes what PREPARE writes. -/
def Endpoint.Prepares : Endpoint → Prop
  | .createProject => True
  | .reprepare _ => True
  | _ => False

/-! ## What one request can do -/

/-- **What one request can do to the state**, up to the records of runs and their stages. -/
inductive PlatformChange (crypto : Crypto) (rt : Runtime) (s : Platform) (request : Request) :
    Platform → Prop
  | account (auth : AuthTables) : PlatformChange crypto rt s request { s with auth := auth }
  | kept (runs : ScanRunStore) :
      PlatformChange crypto rt s request { s with scans := ⟨runs, s.scans.findings⟩ }
  | scanned (user : User) (projectId : String) (env : RequestEnv) (project : Project)
      (codeModel : CodeModel) (report : ScanReport) (runs : ScanRunStore) :
      Calls crypto user (.scan projectId) env s request →
      env.surroundings.project projectId = some project →
      env.surroundings.codeModel project = .ok codeModel →
      scan rt.py (defaultRules rt.py) codeModel (some projectId) = .ok report →
      PlatformChange crypto rt s request
        { s with scans := ⟨runs, s.scans.findings.addReport report.findings⟩ }
  | validated (user : User) (findingId provider : String) (scanRunId : Option String)
      (env : RequestEnv) (finding : CandidateFinding) (report : ValidationReport)
      (runs : ScanRunStore) :
      Calls crypto user (.validate findingId provider scanRunId) env s request →
      s.scans.findings.get findingId = some finding →
      validateFinding env.validateEnv finding provider = .ok report →
      PlatformChange crypto rt s request
        { s with
          scans := ⟨runs, s.scans.findings⟩
          validations := s.validations.set findingId report }
  | proved (user : User) (findingId : String) (scanRunId : Option String) (env : RequestEnv)
      (finding : CandidateFinding) (validation : ValidationReport) (runner : SandboxRunner)
      (report : ProofReport) (runs : ScanRunStore) :
      Calls crypto user (.prove findingId scanRunId) env s request →
      s.scans.findings.get findingId = some finding →
      s.validations.get? findingId = some validation →
      prove env.proveEnv ⟨{}⟩ finding (some validation) = (runner, .ok report) →
      PlatformChange crypto rt s request
        { s with
          scans := ⟨runs, s.scans.findings⟩
          proofs := s.proofs.set findingId report }
  | worked (user : User) (endpoint : Endpoint) (env : RequestEnv) (op : WorkflowOp)
      (runs : ScanRunStore) :
      Calls crypto user endpoint env s request → s.Admits endpoint → endpoint.op user = some op →
      PlatformChange crypto rt s request
        { s with
          scans := ⟨runs, s.scans.findings⟩
          world := workflowStep defaultPolicy rt s.world (s.workflowCall env op) }
  | prepared (user : User) (endpoint : Endpoint) (env : RequestEnv) :
      Calls crypto user endpoint env s request → endpoint.Prepares →
      PlatformChange crypto rt s request (s.prepared env)
  | deleted (user : User) (projectId : String) (env : RequestEnv) (project : Project)
      (found : List String) :
      Calls crypto user (.deleteProject projectId) env s request →
      env.surroundings.project projectId = some project →
      projectFindingIds s.scans.runs projectId = .ok found →
      PlatformChange crypto rt s request
        (((env.order.arrange found).foldl Platform.removeFinding s).removeProject env projectId)

/-- Recording an action concerns the runs alone. -/
lemma recorded_eq {ε α : Type} (stageName : String) (stamp : ExecutionStamp) (text : ε → String)
    (errorCondition : Option (α → Bool × String)) (scanRunId : Option String)
    (result : Platform × Except ε α) :
    ∃ runs, recorded stageName stamp text errorCondition scanRunId result
      = ({ result.1 with scans := ⟨runs, result.1.scans.findings⟩ }, result.2) := by
  obtain ⟨after, outcome⟩ := result
  cases scanRunId with
  | none => exact ⟨after.scans.runs, rfl⟩
  | some runId =>
      rw [recorded, recordStageExecution]
      cases outcome with
      | error e => exact ⟨_, rfl⟩
      | ok value =>
          dsimp only [Except.mapError]
          split_ifs
          · exact ⟨_, rfl⟩
          · exact ⟨_, rfl⟩

/-- The endpoints of a finding, past their checks. -/
lemma onFinding_cases (s : Platform) (findingId : String) (scanRunId : Option String)
    (handle : CandidateFinding → Response) :
    (∃ e, s.onFinding findingId scanRunId handle = (s, .error e))
      ∨ ∃ finding, s.scans.findings.get findingId = some finding
        ∧ s.stageContext scanRunId findingId = .ok ()
        ∧ s.onFinding findingId scanRunId handle = handle finding := by
  rw [Platform.onFinding]
  cases hfinding : s.scans.findings.get findingId with
  | none => exact Or.inl ⟨_, rfl⟩
  | some finding =>
      cases hcontext : s.stageContext scanRunId findingId with
      | error e => exact Or.inl ⟨e, by simp only⟩
      | ok u => exact Or.inr ⟨finding, rfl, rfl, rfl⟩

/-- The endpoints of a project, past their check. -/
lemma onProject_cases (s : Platform) (env : RequestEnv) (projectId : String)
    (handle : Project → Response) :
    (∃ e, s.onProject env projectId handle = (s, .error e))
      ∨ ∃ project, env.surroundings.project projectId = some project
        ∧ s.onProject env projectId handle = handle project := by
  rw [Platform.onProject]
  cases hproject : env.surroundings.project projectId with
  | none => exact Or.inl ⟨_, rfl⟩
  | some project => exact Or.inr ⟨project, rfl, rfl⟩

/-- A scan concerns the runs, and adds the findings of its report. -/
lemma executeScan_cases (py : Stdlib) (rules : List ScanRule) (stores : ScanStores)
    (projectId : String) (codeModel : CodeModel) (createdAt : Option DateTime)
    (stamps : ScanStamps) :
    ∃ runs, (executeScan py rules stores projectId codeModel createdAt stamps).1
        = ⟨runs, stores.findings⟩
      ∨ ∃ report, scan py rules codeModel (some projectId) = .ok report
        ∧ (executeScan py rules stores projectId codeModel createdAt stamps).1
          = ⟨runs, stores.findings.addReport report.findings⟩ := by
  cases hscan : scan py rules codeModel (some projectId) with
  | error exc =>
      simp only [executeScan, runScanStage_error hscan]
      exact ⟨_, Or.inl rfl⟩
  | ok report =>
      simp only [executeScan, runScanStage_ok hscan]
      exact ⟨_, Or.inr ⟨report, rfl, rfl⟩⟩

section Handle

variable {user : User} {env : RequestEnv} {request : Request}

/-- A refused request. -/
lemma change_refused : PlatformChange crypto rt s request s := .kept s.scans.runs

/-- The endpoints that call the approval or the remediation service. -/
lemma change_worked {ε α : Type} {endpoint : Endpoint}
    (hcalls : Calls crypto user endpoint env s request) (hadmits : s.Admits endpoint)
    {op : WorkflowOp} (hop : endpoint.op user = some op) (http : ε → HttpError) (reply : α → Reply)
    (stageName : String) (text : ε → String) (scanRunId : Option String) (result : Except ε α) :
    PlatformChange crypto rt s request
      (answer http reply (recorded stageName env.execution text none scanRunId
        (s.work rt env op, result))).1 := by
  obtain ⟨runs, hrecorded⟩ := recorded_eq stageName env.execution text none scanRunId
    (s.work rt env op, result)
  rw [hrecorded]
  exact .worked user endpoint env op runs hcalls hadmits hop

lemma validateFinding_change {findingId provider : String} {scanRunId : Option String}
    (hcalls : Calls crypto user (.validate findingId provider scanRunId) env s request) :
    PlatformChange crypto rt s request
      (s.validateFinding env findingId provider scanRunId).1 := by
  rw [Platform.validateFinding]
  rcases onFinding_cases s findingId scanRunId _ with ⟨e, h⟩ | ⟨finding, hfinding, -, h⟩
  · rw [h]
    exact change_refused
  · rw [h]
    obtain ⟨runs, hrecorded⟩ := recorded_eq "VALIDATE" env.execution ValidateError.text none
      scanRunId (s.validateAndStore env finding provider)
    rw [hrecorded, Platform.validateAndStore]
    cases hvalidate : validateFinding env.validateEnv finding provider with
    | error e => exact .kept runs
    | ok report =>
        have hid : report.findingId = findingId :=
          (validateFinding_ok hvalidate).1.trans (s.scans.findings.keyed _ _ hfinding)
        rw [← hid] at hfinding hcalls
        exact .validated user report.findingId provider scanRunId env finding report runs hcalls
          hfinding hvalidate

lemma proveFinding_change {findingId : String} {scanRunId : Option String}
    (hcalls : Calls crypto user (.prove findingId scanRunId) env s request) :
    PlatformChange crypto rt s request (s.proveFinding env findingId scanRunId).1 := by
  rw [Platform.proveFinding]
  rcases onFinding_cases s findingId scanRunId _ with ⟨e, h⟩ | ⟨finding, hfinding, -, h⟩
  · rw [h]
    exact change_refused
  · rw [h]
    cases hvalidation : s.validations.get? findingId with
    | none => exact change_refused
    | some validation =>
        dsimp only
        obtain ⟨runs, hrecorded⟩ := recorded_eq "PROVE" env.execution ProveError.text
          (some proofErrorCondition) scanRunId (s.proveAndStore env finding validation)
        rw [hrecorded, Platform.proveAndStore]
        cases hprove : prove env.proveEnv ⟨{}⟩ finding (some validation) with
        | mk runner ending =>
            cases ending with
            | error e => exact .kept runs
            | ok report =>
                obtain ⟨-, -, -, -, hreport, -⟩ := prove_ok hprove
                have hid : report.findingId = findingId :=
                  hreport.trans (s.scans.findings.keyed _ _ hfinding)
                rw [← hid] at hfinding hcalls hvalidation
                exact .proved user report.findingId scanRunId env finding validation runner report
                  runs hcalls hfinding hvalidation hprove

lemma scanProject_change {projectId : String}
    (hcalls : Calls crypto user (.scan projectId) env s request) :
    PlatformChange crypto rt s request (s.scanProject rt env projectId).1 := by
  rw [Platform.scanProject]
  rcases onProject_cases s env projectId _ with ⟨e, h⟩ | ⟨project, hproject, h⟩
  · rw [h]
    exact change_refused
  · rw [h]
    cases hmodel : env.surroundings.codeModel project with
    | error e => exact change_refused
    | ok codeModel =>
        obtain ⟨runs, hscans | ⟨report, hscan, hscans⟩⟩ := executeScan_cases rt.py
          (defaultRules rt.py) s.scans projectId codeModel (some (env.createdAt project))
          env.scanStamps
        · have hkept : PlatformChange crypto rt s request
              { s with scans := ⟨runs, s.scans.findings⟩ } := .kept runs
          rw [← hscans] at hkept
          exact hkept
        · have hscanned := PlatformChange.scanned user projectId env project codeModel report runs
            hcalls hproject hmodel hscan
          rw [← hscans] at hscanned
          exact hscanned

lemma deleteProject_change {projectId : String}
    (hcalls : Calls crypto user (.deleteProject projectId) env s request) :
    PlatformChange crypto rt s request (s.deleteProject env projectId).1 := by
  rw [Platform.deleteProject]
  rcases onProject_cases s env projectId _ with ⟨e, h⟩ | ⟨project, hproject, h⟩
  · rw [h]
    exact change_refused
  · rw [h]
    cases hfound : projectFindingIds s.scans.runs projectId with
    | error e => exact change_refused
    | ok found => exact .deleted user projectId env project found hcalls hproject hfound

lemma decideApproval_change {decision : Decision} {approvalId : String} {reason : Option String}
    (hcalls : Calls crypto user (.decide decision approvalId reason) env s request) :
    PlatformChange crypto rt s request
      (s.decideApproval rt env user decision approvalId reason).1 := by
  rw [Platform.decideApproval]
  split_ifs with hblank
  · exact change_refused
  · cases s.world.approvals.get approvalId with
    | none => exact change_refused
    | some stored =>
        dsimp only
        split_ifs with hchecked
        · exact change_refused
        · exact change_worked hcalls (Bool.eq_false_iff.2 hblank) rfl _ _ _ _ _ _

/-- An endpoint that calls a service for a finding. -/
lemma onFinding_change {findingId : String} {scanRunId : Option String}
    {handle : CandidateFinding → Response}
    (h : ∀ finding, s.scans.findings.get findingId = some finding →
      s.stageContext scanRunId findingId = .ok () →
      PlatformChange crypto rt s request (handle finding).1) :
    PlatformChange crypto rt s request (s.onFinding findingId scanRunId handle).1 := by
  rcases onFinding_cases s findingId scanRunId handle
    with ⟨e, hfound⟩ | ⟨finding, hfinding, hcontext, hfound⟩
  · rw [hfound]
    exact change_refused
  · rw [hfound]
    exact h finding hfinding hcontext

lemma handle_change {endpoint : Endpoint} (hcalls : Calls crypto user endpoint env s request) :
    PlatformChange crypto rt s request (s.handle rt env user endpoint).1 := by
  cases endpoint with
  | createProject => exact .prepared user _ env hcalls trivial
  | scan projectId => exact scanProject_change hcalls
  | reprepare projectId =>
      rcases onProject_cases s env projectId _ with ⟨e, h⟩ | ⟨project, -, h⟩
      · rw [Platform.handle, Platform.reprepareProject, h]
        exact change_refused
      · rw [Platform.handle, Platform.reprepareProject, h]
        exact .prepared user _ env hcalls trivial
  | deleteProject projectId => exact deleteProject_change hcalls
  | validate findingId provider scanRunId => exact validateFinding_change hcalls
  | prove findingId scanRunId => exact proveFinding_change hcalls
  | requestApproval findingId action scanRunId =>
      exact onFinding_change fun finding hfinding hcontext =>
        change_worked hcalls ⟨⟨finding, hfinding⟩, hcontext⟩ rfl _ _ _ _ _ _
  | decide decision approvalId reason => exact decideApproval_change hcalls
  | propose findingId =>
      exact onFinding_change fun finding hfinding _ =>
        .worked user _ env _ s.scans.runs hcalls ⟨finding, hfinding⟩ rfl
  | apply findingId confirm =>
      exact onFinding_change fun finding hfinding _ =>
        .worked user _ env _ s.scans.runs hcalls ⟨finding, hfinding⟩ rfl
  | verify findingId =>
      exact onFinding_change fun finding hfinding _ =>
        .worked user _ env _ s.scans.runs hcalls ⟨finding, hfinding⟩ rfl

end Handle

/-- The inversion of a request: one case for each way it can end. -/
theorem platformStep_change (crypto : Crypto) (rt : Runtime) (s : Platform) (request : Request) :
    PlatformChange crypto rt s request (platformStep crypto rt s request) := by
  cases request with
  | account call => exact .account _
  | call endpoint cookie env =>
      rw [platformStep, Platform.respond]
      cases hpermits : s.auth.requirePermission crypto endpoint.permission cookie env.utcnow with
      | error e => exact change_refused
      | ok user => exact handle_change ⟨cookie, rfl, hpermits⟩

/-! ## Deletions -/

namespace Platform

/-- What the first state stores about findings, the second one stores as well. -/
structure Within (s' s : Platform) : Prop where
  findings : ∀ id finding, s'.scans.findings.get id = some finding →
    s.scans.findings.get id = some finding
  validations : ∀ id report, s'.validations.get? id = some report →
    s.validations.get? id = some report
  proofs : ∀ id report, s'.proofs.get? id = some report → s.proofs.get? id = some report
  approvals : ∀ id r, s'.world.approvals.get id = some r → s.world.approvals.get id = some r
  records : ∀ id record, s'.world.records.get? id = some record →
    s.world.records.get? id = some record
  events : ∀ id event, event ∈ s'.world.approvals.eventsFor id →
    event ∈ s.world.approvals.eventsFor id

lemma Within.refl (s : Platform) : Within s s :=
  ⟨fun _ _ h => h, fun _ _ h => h, fun _ _ h => h, fun _ _ h => h, fun _ _ h => h, fun _ _ h => h⟩

lemma within_removeFinding (s : Platform) (findingId : String) :
    Within (s.removeFinding findingId) s where
  findings id finding h := by
    have hget := (FindingStore.get_remove s.scans.findings findingId id).symm.trans h
    split_ifs at hget
    exact hget
  validations id report h := by
    have hget := (s.validations.get?_erase findingId id).symm.trans h
    split_ifs at hget
    exact hget
  proofs id report h := by
    have hget := (s.proofs.get?_erase findingId id).symm.trans h
    split_ifs at hget
    exact hget
  approvals id r h := by
    have hget := (s.world.approvals.requests.get?_eraseAll _ id).symm.trans h
    split_ifs at hget
    exact hget
  records id record h := by
    have hget := (s.world.records.get?_erase findingId id).symm.trans h
    split_ifs at hget
    exact hget
  events id event h := by
    have hget := s.world.approvals.eventsFor_without [findingId] id
    rw [← ApprovalStore.removeFinding_eq_without] at hget
    have hmem : event ∈ (s.world.approvals.removeFinding findingId).eventsFor id := h
    rw [hget] at hmem
    split_ifs at hmem with hgone
    · cases hmem
    · exact hmem

/-- A deletion only removes. -/
lemma within_deleted (s : Platform) (env : RequestEnv) (projectId : String)
    (findingIds : List String) :
    Within ((findingIds.foldl removeFinding s).removeProject env projectId) s := by
  induction findingIds generalizing s with
  | nil =>
      exact ⟨fun _ _ h => h, fun _ _ h => h, fun _ _ h => h, fun _ _ h => h, fun _ _ h => h,
        fun _ _ h => h⟩
  | cons id ids ih =>
      have hfirst := within_removeFinding s id
      have hrest := ih (s.removeFinding id)
      exact ⟨fun _ _ h => hfirst.findings _ _ (hrest.findings _ _ h),
        fun _ _ h => hfirst.validations _ _ (hrest.validations _ _ h),
        fun _ _ h => hfirst.proofs _ _ (hrest.proofs _ _ h),
        fun _ _ h => hfirst.approvals _ _ (hrest.approvals _ _ h),
        fun _ _ h => hfirst.records _ _ (hrest.records _ _ h),
        fun _ _ h => hfirst.events _ _ (hrest.events _ _ h)⟩

end Platform

/-! ## Calls of the approval service -/

section Approvals

variable {policy : ApprovalPolicy} {store : ApprovalStore} {call : ApprovalCall}

/-- **Where a stored request comes from**: it was stored before, or the call has created it for an
eligible finding, or the call has decided on it. -/
lemma get_approvalStep {id : String} {r : ApprovalRequest}
    (h : (approvalStep policy store call).get id = some r) :
    store.get id = some r
      ∨ (∃ findingId action requestedBy requestedAt scanRunId,
        call.op = .request findingId action requestedBy requestedAt scanRunId
          ∧ Eligible policy call.gates findingId
          ∧ r = requested call findingId action requestedBy requestedAt scanRunId)
      ∨ ∃ decision approvalId reviewedBy reason reviewedAt old,
        call.op = .decide decision approvalId reviewedBy reason reviewedAt
          ∧ store.get approvalId = some old ∧ decision.target ∈ allowedTransitions old.status
          ∧ r = decided call old decision reviewedBy reason reviewedAt := by
  have hsaved : ∀ (x : ApprovalRequest) (event : ApprovalEvent),
      ((store.save x).recordEvent event).get id = some r → r = x ∨ store.get id = some r := by
    intro x event hget
    rw [ApprovalStore.get_recordEvent, ApprovalStore.get_save] at hget
    split_ifs at hget with hid
    · exact Or.inl (Option.some.inj hget).symm
    · exact Or.inr hget
  cases hop : call.op with
  | request findingId action requestedBy requestedAt scanRunId =>
      rw [approvalStep_request policy store call hop] at h
      split_ifs at h with hcreates
      · rcases hsaved _ _ h with heq | hold
        · exact Or.inr (Or.inl ⟨_, _, _, _, _, rfl, hcreates.2.1, heq⟩)
        · exact Or.inl hold
      · exact Or.inl h
  | decide decision approvalId reviewedBy reason reviewedAt =>
      rcases approvalStep_decide policy store call hop with hsame | ⟨old, hget, hallowed, hstep⟩
      · exact Or.inl (hsame ▸ h)
      · rw [hstep] at h
        rcases hsaved _ _ h with heq | hold
        · exact Or.inr (Or.inr ⟨_, _, _, _, _, old, rfl, hget, hallowed, heq⟩)
        · exact Or.inl hold

lemma wellKeyed_approvalStep (hk : store.WellKeyed) :
    (approvalStep policy store call).WellKeyed := by
  cases hop : call.op with
  | request findingId action requestedBy requestedAt scanRunId =>
      rw [approvalStep_request policy store call hop]
      split_ifs
      · exact hk.save _
      · exact hk
  | decide decision approvalId reviewedBy reason reviewedAt =>
      rcases approvalStep_decide policy store call hop with hsame | ⟨old, hget, hallowed, hstep⟩
      · rw [hsame]
        exact hk
      · rw [hstep]
        exact hk.save _

/-- Only calls of the approval service change approvals. -/
lemma approvals_workflowStep (policy : ApprovalPolicy) (rt : Runtime) (world : World)
    (call : WorkflowCall) :
    (workflowStep policy rt world call).approvals = world.approvals
      ∨ ∃ op, call.op = .approval op ∧ (workflowStep policy rt world call).approvals
        = approvalStep policy world.approvals (call.approvalCall op) := by
  have hchange := workflowStep_change policy rt world call
  generalize workflowStep policy rt world call = world' at hchange ⊢
  cases hchange with
  | approval op hop => exact Or.inr ⟨op, hop, rfl⟩
  | refused _ => exact Or.inl rfl
  | proposed findingId record _ _ => exact Or.inl rfl
  | failed findingId confirmed adm source message _ _ _ _ => exact Or.inl rfl
  | applied findingId confirmed adm source patched _ _ _ _ _ => exact Or.inl rfl
  | verified findingId record _ _ => exact Or.inl rfl

end Approvals

/-- Everything is stored under its own key. -/
structure Platform.Sound (s : Platform) : Prop where
  approvals : s.world.approvals.WellKeyed
  records : RecordsKeyed s.world

lemma Platform.sound_start (users : UserTable) (files : Path → Option (List UInt8)) :
    (Platform.start users files).Sound :=
  ⟨ApprovalStore.wellKeyed_empty, initial_keyed files⟩

/-- Requests keep everything under its own key. -/
lemma Platform.Sound.step (h : s.Sound) (request : Request) :
    (platformStep crypto rt s request).Sound := by
  have hchange := platformStep_change crypto rt s request
  generalize platformStep crypto rt s request = s' at hchange ⊢
  cases hchange with
  | account auth => exact ⟨h.approvals, h.records⟩
  | kept runs => exact ⟨h.approvals, h.records⟩
  | scanned user projectId env project codeModel report runs _ _ _ _ =>
      exact ⟨h.approvals, h.records⟩
  | validated user findingId provider scanRunId env finding report runs _ _ _ =>
      exact ⟨h.approvals, h.records⟩
  | proved user findingId scanRunId env finding validation runner report runs _ _ _ _ =>
      exact ⟨h.approvals, h.records⟩
  | worked user endpoint env op runs _ _ _ =>
      refine ⟨?_, workflowStep_keyed h.records _⟩
      rcases approvals_workflowStep defaultPolicy rt s.world (s.workflowCall env op)
        with heq | ⟨_, _, heq⟩
      · exact heq ▸ h.approvals
      · exact heq ▸ wellKeyed_approvalStep h.approvals
  | prepared user endpoint env _ _ => exact ⟨h.approvals, h.records⟩
  | deleted user projectId env project found _ _ _ =>
      have hwithin := s.within_deleted env projectId (env.order.arrange found)
      exact ⟨fun id r hr => h.approvals id r (hwithin.approvals id r hr),
        fun id record hr => h.records id record (hwithin.records id record hr)⟩

end Sast
