import SastEngine.Api.Requests
import SastEngine.Risk.Evaluator
import SastEngine.Risk.Scoring

/-!
# The platform with risk and SLAs

The endpoints of `api/routes/risk.py` over the state of the platform and the risk stores, with the
background evaluator.  They read what the other endpoints have stored about a finding, and of the
rest of the state change only the records of stages.  What one request does to the assessment and to
the SLA of a finding is told by one case distinction each (`report_change`, `sla_change`).
-/

namespace Sast

/-- The platform with the risk stores; `reports` are the assessments of `_risk_store` in full. -/
structure RiskPlatform extends Platform where
  risk : RiskStores
  reports : Dict String AssessmentReport
  filed : ∀ findingId, risk.getAssessment findingId
    = (reports.get? findingId).map AssessmentReport.toRiskAssessment

/-- The state at the first start. -/
def RiskPlatform.start (users : UserTable) (files : Path → Option (List UInt8)) : RiskPlatform where
  toPlatform := .start users files
  risk := .empty
  reports := .empty
  filed _ := rfl

/-- An endpoint of `api/routes/risk.py` that changes the state, with the path and the body of its
request. -/
inductive RiskEndpoint where
  | assess (findingId : String) (scanRunId : Option String)
  | start (findingId : String) (scanRunId : Option String)
  | check (findingId : String) (now : Option DateTime) (scanRunId : Option String)
  | resolve (findingId : String) (resolvedAt : Option DateTime)

/-- The permission that an endpoint asks for. -/
def RiskEndpoint.permission : RiskEndpoint → Permission
  | .assess _ _ => .assessRisk
  | .start _ _ => .startSla
  | .check _ _ _ => .checkSla
  | .resolve _ _ => .checkSla

/-- What an endpoint returns. -/
inductive RiskReply where
  | assessment (report : AssessmentReport)
  | sla (record : SLARecord)
  | checked (record : SLARecord) (escalation : Option EscalationEvent)

/-- How an action fails: with an `HTTPException`, or with a `ValueError`. -/
inductive RiskError where
  | http (error : HttpError)
  | value (error : ValueError)

/-- `str(exc)`. -/
def RiskError.text : RiskError → String
  | .http error => s!"{error.statusCode}: {error.detail}"
  | .value error => error.message

/-- The answer to an exception. -/
def RiskError.answer : RiskError → HttpError
  | .http error => error
  | .value _ => internalError

/-- The state after a request, and its answer. -/
abbrev RiskResponse : Type := RiskPlatform × Except HttpError RiskReply

/-! ## Assessments are filed by assessments alone -/

section Assessments

variable (stores : RiskStores) (utcnow : DateTime)

lemma assessments_checked (findingId : String) (now : Option DateTime) :
    (stores.checked findingId utcnow now).assessments = stores.assessments := by
  rw [RiskStores.checked, checkAndPersistSla]
  cases stores.getSla findingId with
  | none => rfl
  | some record =>
      cases hcheck : SLAService.checkSla utcnow record now with
      | error e => simp only [hcheck, bind, Except.bind]
      | ok outcome =>
          obtain ⟨updated, event⟩ := outcome
          simp only [hcheck, bind, Except.bind, pure, Except.pure, persistCheck]
          split_ifs <;> cases event <;> rfl

lemma assessments_resolveRoute (findingId : String) (resolvedAt : Option DateTime) :
    (resolveRoute stores findingId utcnow resolvedAt).assessments = stores.assessments := by
  rw [resolveRoute]
  cases stores.getSla findingId with
  | none => rfl
  | some record =>
      cases hresolve : SLAService.resolveSla utcnow record resolvedAt with
      | error e => simp only [hresolve]
      | ok updated => simp only [hresolve, RiskStores.recordSla]

lemma assessments_evaluateOnce (now : Option DateTime) :
    (evaluateOnce stores utcnow now).1.assessments = stores.assessments := by
  have hfold : ∀ (records : List SLARecord) (state : RiskStores × EvaluationStats),
      (records.foldl (evaluateRecord utcnow (now.getD utcnow)) state).1.assessments
        = state.1.assessments := by
    intro records
    induction records with
    | nil => exact fun _ => rfl
    | cons record records ih =>
        intro state
        rw [List.foldl_cons, ih, evaluateRecord_stores]
        split_ifs
        · exact assessments_checked ..
        · rfl
  exact hfold _ _

end Assessments

namespace RiskPlatform

variable (s : RiskPlatform) (letters : StringCase) (utcnow : DateTime)

/-! ## The stores -/

/-- `record_risk_assessment`. -/
def recordReport (report : AssessmentReport) : RiskPlatform :=
  { s with
    risk := s.risk.recordAssessment report.toRiskAssessment
    reports := s.reports.set report.findingId report
    filed := by
      intro findingId
      have hfiled := s.filed findingId
      rw [RiskStores.getAssessment] at hfiled
      rw [RiskStores.getAssessment, RiskStores.recordAssessment, Dict.get?_set, Dict.get?_set,
        hfiled]
      split_ifs <;> rfl }

/-- The stores with other records and events. -/
def withRisk (risk : RiskStores) (h : risk.assessments = s.risk.assessments) : RiskPlatform :=
  { s with
    risk := risk
    filed := by
      intro findingId
      rw [RiskStores.getAssessment, h]
      exact s.filed findingId }

/-- `remove_finding_state`, for the findings that have been deleted. -/
def removeStates (findingIds : List String) : RiskPlatform :=
  { s with
    risk := findingIds.foldl RiskStores.removeFindingState s.risk
    reports := s.reports.eraseAll findingIds
    filed := by
      intro findingId
      induction findingIds generalizing s with
      | nil => exact s.filed findingId
      | cons id ids ih =>
          exact ih
            { s with
              risk := s.risk.removeFindingState id
              reports := s.reports.erase id
              filed := by
                intro findingId
                have hfiled := s.filed findingId
                rw [RiskStores.getAssessment] at hfiled
                rw [RiskStores.getAssessment, RiskStores.removeFindingState, Dict.get?_erase,
                  Dict.get?_erase, hfiled]
                split_ifs <;> rfl } }

/-! ## The endpoints -/

/-- `_assess_risk`. -/
def assessRisk (findingId : String) : RiskPlatform × Except RiskError RiskReply :=
  match s.scans.findings.get findingId with
  | none => (s, .error (.http ⟨404, s!"finding not found: {findingId}"⟩))
  | some finding =>
      let report := RiskService.assess {} letters utcnow finding
        ((s.validations.get? findingId).map ValidationReport.toValidationResult)
        ((s.proofs.get? findingId).map ProofReport.toProofResult) none
      (s.recordReport report, .ok (.assessment report))

/-- `_start_sla`. -/
def startSla (findingId : String) : RiskPlatform × Except RiskError RiskReply :=
  match s.risk.getAssessment findingId with
  | none => (s, .error (.http ⟨404, s!"no risk assessment for finding: {findingId}"⟩))
  | some assessment =>
      match Sast.startSla utcnow assessment (s.risk.getSla findingId) with
      | .error e => (s, .error (.value e))
      | .ok (record, false) => (s, .ok (.sla record))
      | .ok (record, true) => (s.withRisk (s.risk.recordSla record) rfl, .ok (.sla record))

/-- `_check_sla`. -/
def checkSla (findingId : String) (now : Option DateTime) :
    RiskPlatform × Except RiskError RiskReply :=
  (s.withRisk (s.risk.checked findingId utcnow now) (assessments_checked ..),
    match checkAndPersistSla s.risk findingId utcnow now with
    | .error e => .error (.value e)
    | .ok ((none, _), _) => .error (.http ⟨404, s!"no SLA record for finding: {findingId}"⟩)
    | .ok ((some record, event), _) => .ok (.checked record event))

/-- `resolve_sla`. -/
def resolveSla (findingId : String) (resolvedAt : Option DateTime) :
    RiskPlatform × Except RiskError RiskReply :=
  (s.withRisk (resolveRoute s.risk findingId utcnow resolvedAt) (assessments_resolveRoute ..),
    match s.risk.getSla findingId with
    | none => .error (.http ⟨404, s!"no SLA record for finding: {findingId}"⟩)
    | some record =>
        match SLAService.resolveSla utcnow record resolvedAt with
        | .error e => .error (.value e)
        | .ok updated => .ok (.sla updated))

/-- An action that is recorded as an execution of a stage where the request names a run that has
produced the finding. -/
def staged (stageName : String) (stamp : ExecutionStamp) (findingId : String)
    (scanRunId : Option String) (result : RiskPlatform × Except RiskError RiskReply) :
    RiskResponse :=
  match s.stageContext scanRunId findingId with
  | .error e => (s, .error e)
  | .ok () =>
      let noted := recorded stageName stamp RiskError.text none scanRunId
        (result.1.toPlatform, result.2)
      ({ result.1 with toPlatform := noted.1 }, noted.2.mapError RiskError.answer)

/-- The validators `_aware`. -/
def naive (value : Option DateTime) : Bool := value.any fun time => !time.isAware

/-- An endpoint, for a user who may call it. -/
def handleRisk (execution : ExecutionStamp) : RiskEndpoint → RiskResponse
  | .assess findingId scanRunId =>
      s.staged "RISK" execution findingId scanRunId (s.assessRisk letters utcnow findingId)
  | .start findingId scanRunId =>
      s.staged "SLA" execution findingId scanRunId (s.startSla utcnow findingId)
  | .check findingId now scanRunId =>
      if naive now then (s, .error ⟨422, "Value error, now must be timezone-aware"⟩)
      else s.staged "SLA" execution findingId scanRunId (s.checkSla utcnow findingId now)
  | .resolve findingId resolvedAt =>
      if naive resolvedAt then
        (s, .error ⟨422, "Value error, resolved_at must be timezone-aware"⟩)
      else
        let result := s.resolveSla utcnow findingId resolvedAt
        (result.1, result.2.mapError RiskError.answer)

/-- A request to an endpoint. -/
def respondRisk (crypto : Crypto) (endpoint : RiskEndpoint) (cookie : Option String)
    (execution : ExecutionStamp) : RiskResponse :=
  match s.auth.requirePermission crypto endpoint.permission cookie utcnow with
  | .error e => (s, .error e)
  | .ok _ => s.handleRisk letters utcnow execution endpoint

end RiskPlatform

/-! ## Requests -/

/-- The findings that a request deletes: those in the lineage of a project that its user may
delete. -/
def Platform.deletedFindings (crypto : Crypto) (s : Platform) : Request → List String
  | .call (.deleteProject projectId) cookie env =>
      match s.auth.requirePermission crypto .deleteRepository cookie env.utcnow,
        env.surroundings.project projectId, projectFindingIds s.scans.runs projectId with
      | .ok _, some _, .ok found => env.order.arrange found
      | _, _, _ => []
  | _ => []

/-- What changes the state: requests to the other endpoints and to those of `api/routes/risk.py`,
and the cycles of the evaluator. -/
inductive RiskRequest where
  | platform (request : Request)
  | call (endpoint : RiskEndpoint) (cookie : Option String) (utcnow : DateTime)
      (execution : ExecutionStamp)
  | evaluate (utcnow : DateTime) (now : Option DateTime)

/-- The state after a request. -/
def riskStep (crypto : Crypto) (rt : Runtime) (letters : StringCase) (s : RiskPlatform) :
    RiskRequest → RiskPlatform
  | .platform request =>
      { s.removeStates (s.deletedFindings crypto request) with
        toPlatform := platformStep crypto rt s.toPlatform request }
  | .call endpoint cookie utcnow execution =>
      (s.respondRisk letters utcnow crypto endpoint cookie execution).1
  | .evaluate utcnow now =>
      s.withRisk (evaluateOnce s.risk utcnow now).1 (assessments_evaluateOnce ..)

/-! ## What one request can do -/

/-- The endpoint is called by the user, who is logged in and may call it. -/
def CallsRisk (crypto : Crypto) (user : User) (endpoint : RiskEndpoint) (utcnow : DateTime)
    (execution : ExecutionStamp) (s : Platform) (request : RiskRequest) : Prop :=
  ∃ cookie, request = .call endpoint cookie utcnow execution
    ∧ s.auth.requirePermission crypto endpoint.permission cookie utcnow = .ok user

/-- The state with other runs. -/
def Platform.withRuns (s : Platform) (runs : ScanRunStore) : Platform :=
  { s with scans := ⟨runs, s.scans.findings⟩ }

/-- The assessment that a request makes of a finding. -/
def RiskPlatform.assessment (s : RiskPlatform) (letters : StringCase) (utcnow : DateTime)
    (finding : CandidateFinding) : AssessmentReport :=
  RiskService.assess {} letters utcnow finding
    ((s.validations.get? finding.id).map ValidationReport.toValidationResult)
    ((s.proofs.get? finding.id).map ProofReport.toProofResult) none

section RiskChange

variable {crypto : Crypto} {rt : Runtime} {letters : StringCase} {s : RiskPlatform}
  {request : RiskRequest}

/-- **What one request can do** to the platform, to the risk stores, and to the assessments. -/
inductive RiskChange (crypto : Crypto) (rt : Runtime) (letters : StringCase) (s : RiskPlatform)
    (request : RiskRequest) : Platform → RiskStores → Dict String AssessmentReport → Prop
  | platform (other : Request) :
      request = .platform other →
      RiskChange crypto rt letters s request (platformStep crypto rt s.toPlatform other)
        ((s.deletedFindings crypto other).foldl RiskStores.removeFindingState s.risk)
        (s.reports.eraseAll (s.deletedFindings crypto other))
  | kept (runs : ScanRunStore) :
      (∀ other, request ≠ .platform other) →
      RiskChange crypto rt letters s request (s.withRuns runs) s.risk s.reports
  | assessed (user : User) (findingId : String) (scanRunId : Option String) (utcnow : DateTime)
      (execution : ExecutionStamp) (finding : CandidateFinding) (runs : ScanRunStore) :
      CallsRisk crypto user (.assess findingId scanRunId) utcnow execution s.toPlatform request →
      s.stageContext scanRunId findingId = .ok () →
      s.scans.findings.get findingId = some finding →
      RiskChange crypto rt letters s request (s.withRuns runs)
        (s.risk.recordAssessment (s.assessment letters utcnow finding).toRiskAssessment)
        (s.reports.set findingId (s.assessment letters utcnow finding))
  | started (user : User) (findingId : String) (scanRunId : Option String) (utcnow : DateTime)
      (execution : ExecutionStamp) (assessment : RiskAssessment) (record : SLARecord)
      (runs : ScanRunStore) :
      CallsRisk crypto user (.start findingId scanRunId) utcnow execution s.toPlatform request →
      s.stageContext scanRunId findingId = .ok () →
      s.risk.getAssessment findingId = some assessment →
      Sast.startSla utcnow assessment (s.risk.getSla findingId) = .ok (record, true) →
      RiskChange crypto rt letters s request (s.withRuns runs) (s.risk.recordSla record) s.reports
  | checked (user : User) (findingId : String) (now : Option DateTime) (scanRunId : Option String)
      (utcnow : DateTime) (execution : ExecutionStamp) (runs : ScanRunStore) :
      CallsRisk crypto user (.check findingId now scanRunId) utcnow execution s.toPlatform request →
      RiskChange crypto rt letters s request (s.withRuns runs)
        (s.risk.checked findingId utcnow now) s.reports
  | resolved (user : User) (findingId : String) (resolvedAt : Option DateTime) (utcnow : DateTime)
      (execution : ExecutionStamp) :
      CallsRisk crypto user (.resolve findingId resolvedAt) utcnow execution s.toPlatform request →
      RiskChange crypto rt letters s request s.toPlatform
        (resolveRoute s.risk findingId utcnow resolvedAt) s.reports
  | evaluated (utcnow : DateTime) (now : Option DateTime) :
      request = .evaluate utcnow now →
      RiskChange crypto rt letters s request s.toPlatform (evaluateOnce s.risk utcnow now).1
        s.reports

/-- An action that may be recorded as an execution of a stage. -/
lemma staged_cases (s : RiskPlatform) (stageName : String) (stamp : ExecutionStamp)
    (findingId : String) (scanRunId : Option String)
    (result : RiskPlatform × Except RiskError RiskReply) :
    (∃ e, s.stageContext scanRunId findingId = .error e
        ∧ (s.staged stageName stamp findingId scanRunId result).1 = s)
      ∨ s.stageContext scanRunId findingId = .ok ()
        ∧ ∃ runs, (s.staged stageName stamp findingId scanRunId result).1
          = { result.1 with toPlatform := result.1.toPlatform.withRuns runs } := by
  rw [RiskPlatform.staged]
  cases hcontext : s.stageContext scanRunId findingId with
  | error e => exact Or.inl ⟨e, rfl, rfl⟩
  | ok u =>
      obtain ⟨runs, hrecorded⟩ := recorded_eq stageName stamp RiskError.text none scanRunId
        (result.1.toPlatform, result.2)
      refine Or.inr ⟨rfl, runs, ?_⟩
      simp only [hrecorded]
      rfl

variable {user : User} {utcnow : DateTime} {execution : ExecutionStamp}

lemma assess_change {findingId : String} {scanRunId : Option String}
    (hcalls : CallsRisk crypto user (.assess findingId scanRunId) utcnow execution s.toPlatform
      request) (hother : ∀ other, request ≠ .platform other) :
    let s' := (s.handleRisk letters utcnow execution (.assess findingId scanRunId)).1
    RiskChange crypto rt letters s request s'.toPlatform s'.risk s'.reports := by
  dsimp only [RiskPlatform.handleRisk]
  rcases staged_cases s "RISK" execution findingId scanRunId (s.assessRisk letters utcnow findingId)
    with ⟨e, -, h⟩ | ⟨hcontext, runs, h⟩
  · rw [h]
    exact .kept s.scans.runs hother
  · rw [h, RiskPlatform.assessRisk]
    cases hfinding : s.scans.findings.get findingId with
    | none => exact .kept runs hother
    | some finding =>
        obtain rfl : finding.id = findingId := s.scans.findings.keyed _ _ hfinding
        exact .assessed user finding.id scanRunId utcnow execution finding runs hcalls hcontext
          hfinding

lemma start_change {findingId : String} {scanRunId : Option String}
    (hcalls : CallsRisk crypto user (.start findingId scanRunId) utcnow execution s.toPlatform
      request) (hother : ∀ other, request ≠ .platform other) :
    let s' := (s.handleRisk letters utcnow execution (.start findingId scanRunId)).1
    RiskChange crypto rt letters s request s'.toPlatform s'.risk s'.reports := by
  dsimp only [RiskPlatform.handleRisk]
  rcases staged_cases s "SLA" execution findingId scanRunId (s.startSla utcnow findingId)
    with ⟨e, -, h⟩ | ⟨hcontext, runs, h⟩
  · rw [h]
    exact .kept s.scans.runs hother
  · rw [h, RiskPlatform.startSla]
    cases hassessment : s.risk.getAssessment findingId with
    | none => exact .kept runs hother
    | some assessment =>
        dsimp only
        cases hstart : Sast.startSla utcnow assessment (s.risk.getSla findingId) with
        | error e => exact .kept runs hother
        | ok started =>
            obtain ⟨record, isNew⟩ := started
            cases isNew with
            | false => exact .kept runs hother
            | true =>
                exact .started user findingId scanRunId utcnow execution assessment record runs
                  hcalls hcontext hassessment hstart

lemma check_change {findingId : String} {now : Option DateTime} {scanRunId : Option String}
    (hcalls : CallsRisk crypto user (.check findingId now scanRunId) utcnow execution s.toPlatform
      request) (hother : ∀ other, request ≠ .platform other) :
    let s' := (s.handleRisk letters utcnow execution (.check findingId now scanRunId)).1
    RiskChange crypto rt letters s request s'.toPlatform s'.risk s'.reports := by
  dsimp only [RiskPlatform.handleRisk]
  split_ifs with hnaive
  · exact .kept s.scans.runs hother
  · rcases staged_cases s "SLA" execution findingId scanRunId (s.checkSla utcnow findingId now)
      with ⟨e, -, h⟩ | ⟨-, runs, h⟩
    · rw [h]
      exact .kept s.scans.runs hother
    · rw [h]
      exact .checked user findingId now scanRunId utcnow execution runs hcalls

lemma resolve_change {findingId : String} {resolvedAt : Option DateTime}
    (hcalls : CallsRisk crypto user (.resolve findingId resolvedAt) utcnow execution s.toPlatform
      request) (hother : ∀ other, request ≠ .platform other) :
    let s' := (s.handleRisk letters utcnow execution (.resolve findingId resolvedAt)).1
    RiskChange crypto rt letters s request s'.toPlatform s'.risk s'.reports := by
  dsimp only [RiskPlatform.handleRisk]
  split_ifs with hnaive
  · exact .kept s.scans.runs hother
  · exact .resolved user findingId resolvedAt utcnow execution hcalls

end RiskChange

/-- The inversion of a request: one case for each way it can end. -/
theorem riskStep_change (crypto : Crypto) (rt : Runtime) (letters : StringCase) (s : RiskPlatform)
    (request : RiskRequest) :
    RiskChange crypto rt letters s request (riskStep crypto rt letters s request).toPlatform
      (riskStep crypto rt letters s request).risk
      (riskStep crypto rt letters s request).reports := by
  cases request with
  | platform other => exact .platform other rfl
  | evaluate utcnow now => exact .evaluated utcnow now rfl
  | call endpoint cookie utcnow execution =>
      have hother : ∀ other,
          RiskRequest.call endpoint cookie utcnow execution ≠ .platform other := by
        intro other h
        cases h
      rw [riskStep, RiskPlatform.respondRisk]
      cases hpermits : s.auth.requirePermission crypto endpoint.permission cookie utcnow with
      | error e => exact .kept s.scans.runs hother
      | ok user =>
          have hcalls : CallsRisk crypto user endpoint utcnow execution s.toPlatform
              (.call endpoint cookie utcnow execution) := ⟨cookie, rfl, hpermits⟩
          cases endpoint with
          | assess findingId scanRunId => exact assess_change hcalls hother
          | start findingId scanRunId => exact start_change hcalls hother
          | check findingId now scanRunId => exact check_change hcalls hother
          | resolve findingId resolvedAt => exact resolve_change hcalls hother

end Sast
