import SastEngine.Api.Custody
import SastEngine.Api.RiskRoutes

/-!
# Where a deadline comes from

The assessment and the SLA of a finding are registers that few requests write: one is set by
assessing the finding, the other by starting its SLA on an assessment of another priority, and both
are cleared with the finding.  Checks, evaluation cycles and resolutions leave the terms of an SLA
alone.  So what is on file is accounted for by the request that wrote it, and the most urgent
priority by what the finding has been through before.
-/

namespace Sast

variable {crypto : Crypto} {rt : Runtime} {letters : StringCase} {s : RiskPlatform}
  {request : RiskRequest} {findingId : String}

/-! ## The terms of an SLA -/

/-- What an SLA is started with. -/
structure SlaTerms where
  priority : Priority
  startedAt : DateTime
  dueAt : Option DateTime
deriving DecidableEq

/-- The terms of a record. -/
def SLARecord.terms (record : SLARecord) : SlaTerms where
  priority := record.priority
  startedAt := record.startedAt
  dueAt := record.dueAt

/-- The terms of the SLA of a finding. -/
def RiskStores.terms (stores : RiskStores) (findingId : String) : Option SlaTerms :=
  (stores.getSla findingId).map SLARecord.terms

lemma terms_checkAt (record : SLARecord) (now : DateTime) :
    (SLAService.checkAt record now).1.terms = record.terms := by
  rw [SLAService.checkAt]
  split
  · rfl
  · rfl
  · rfl
  · split_ifs <;> rfl

lemma terms_resolveSla {record updated : SLARecord} {utcnow : DateTime}
    {resolvedAt : Option DateTime}
    (h : SLAService.resolveSla utcnow record resolvedAt = .ok updated) :
    updated.terms = record.terms ∧ updated.findingId = record.findingId := by
  rw [SLAService.resolveSla] at h
  split_ifs at h
  · obtain rfl := Except.ok.inj h
    exact ⟨rfl, rfl⟩
  · obtain ⟨now, -, h⟩ := bind_eq_ok.1 h
    obtain rfl := pure_eq_ok.1 h
    exact ⟨rfl, rfl⟩

namespace RiskStores

variable (stores : RiskStores) (utcnow : DateTime)

lemma terms_checkView (now : Option DateTime)
    (view : Option SLARecord × List EscalationEvent) :
    (checkView utcnow now view).1.map SLARecord.terms = view.1.map SLARecord.terms := by
  rw [checkView]
  cases hrecord : view.1 with
  | none => simp only [hrecord, Option.map_none]
  | some record =>
      cases hcheck : SLAService.checkSla utcnow record now with
      | error e => simp only [hcheck, hrecord, Option.map_some]
      | ok outcome =>
          obtain ⟨at_, -, houtcome⟩ := bind_eq_ok.1 hcheck
          obtain rfl := pure_eq_ok.1 houtcome
          simp only [hcheck, Option.map_some, terms_checkAt]

/-- Checks leave terms alone. -/
lemma terms_checked (checkedId : String) (now : Option DateTime) (findingId : String) :
    (stores.checked checkedId utcnow now).terms findingId = stores.terms findingId := by
  have hview := congrArg Prod.fst (view_checked stores checkedId utcnow now findingId)
  rw [terms, terms]
  show ((stores.checked checkedId utcnow now).view findingId).1.map SLARecord.terms
    = (stores.view findingId).1.map SLARecord.terms
  rw [hview]
  split_ifs with hid
  · rw [hid, terms_checkView]
  · rfl

/-- Evaluation cycles leave terms alone. -/
lemma terms_evaluateOnce (now : Option DateTime) (findingId : String) :
    (evaluateOnce stores utcnow now).1.terms findingId = stores.terms findingId := by
  have hview := congrArg Prod.fst (view_evaluateOnce stores utcnow now findingId)
  rw [terms, terms]
  show ((evaluateOnce stores utcnow now).1.view findingId).1.map SLARecord.terms
    = (stores.view findingId).1.map SLARecord.terms
  rw [hview, evaluateView]
  split_ifs
  · rw [terms_checkView]
  · rfl

/-- Resolutions leave terms alone. -/
lemma terms_resolveRoute (resolvedId : String) (resolvedAt : Option DateTime)
    (findingId : String) :
    (resolveRoute stores resolvedId utcnow resolvedAt).terms findingId
      = stores.terms findingId := by
  rw [resolveRoute]
  cases hget : stores.getSla resolvedId with
  | none => rfl
  | some record =>
      cases hresolve : SLAService.resolveSla utcnow record resolvedAt with
      | error e => simp only [hresolve]
      | ok updated =>
          obtain ⟨hterms, hid⟩ := terms_resolveSla hresolve
          simp only [hresolve, terms, getSla_recordSla]
          split_ifs with hsame
          · rw [hsame, hid, stores.keyed _ _ hget, hget, Option.map_some, Option.map_some, hterms]
          · rfl

lemma getSla_foldl_removeFindingState (findingIds : List String) (findingId : String) :
    (findingIds.foldl removeFindingState stores).getSla findingId
      = if findingId ∈ findingIds then none else stores.getSla findingId := by
  induction findingIds generalizing stores with
  | nil => simp
  | cons id ids ih =>
      have herase : (stores.removeFindingState id).getSla findingId
          = if findingId = id then none else stores.getSla findingId :=
        stores.records.get?_erase id findingId
      rw [List.foldl_cons, ih, herase]
      by_cases hid : findingId = id <;> simp [hid]

end RiskStores

/-! ## What is set, and what is cleared -/

/-- The finding is assessed, by a user who may assess, with what is stored about it. -/
def Assesses (crypto : Crypto) (letters : StringCase) (findingId : String)
    (report : AssessmentReport) (s : RiskPlatform) (request : RiskRequest) : Prop :=
  ∃ user scanRunId utcnow execution finding,
    CallsRisk crypto user (.assess findingId scanRunId) utcnow execution s.toPlatform request
      ∧ s.stageContext scanRunId findingId = .ok ()
      ∧ s.scans.findings.get findingId = some finding
      ∧ report = s.assessment letters utcnow finding

/-- The SLA of the finding is started with these terms, by a user who may start SLAs: those of the
assessment on file, which is of another priority than the SLA on file, if there is one. -/
def OpensSla (crypto : Crypto) (findingId : String) (terms : SlaTerms) (s : RiskPlatform)
    (request : RiskRequest) : Prop :=
  ∃ user scanRunId utcnow execution report,
    CallsRisk crypto user (.start findingId scanRunId) utcnow execution s.toPlatform request
      ∧ s.stageContext scanRunId findingId = .ok ()
      ∧ s.reports.get? findingId = some report
      ∧ (∀ old, s.risk.getSla findingId = some old → old.priority ≠ report.priority)
      ∧ utcnow.isAware = true
      ∧ terms =
        { priority := report.priority
          startedAt := utcnow.asAwareUtc
          dueAt := (defaultDeadlines.durationFor report.priority).map
            (SLAService.addDuration utcnow.asAwareUtc) }

/-- The finding is deleted with its project. -/
def Purges (crypto : Crypto) (findingId : String) (s : RiskPlatform) (request : RiskRequest) :
    Prop :=
  ∃ other, request = .platform other ∧ findingId ∈ s.deletedFindings crypto other

/-- What `_start_sla` starts. -/
lemma startSla_new {utcnow : DateTime} {assessment : RiskAssessment} {existing : Option SLARecord}
    {record : SLARecord} :
    startSla utcnow assessment existing = .ok (record, true)
      ↔ (∀ old, existing = some old → old.priority ≠ assessment.priority)
        ∧ SLAService.createSla defaultDeadlines utcnow assessment none = .ok record := by
  have hnew : (SLAService.createSla defaultDeadlines utcnow assessment none).map (·, true)
        = .ok (record, true)
      ↔ SLAService.createSla defaultDeadlines utcnow assessment none = .ok record := by
    simp [map_eq_ok]
  cases existing with
  | none => simp [startSla, hnew]
  | some old =>
      by_cases hsame : old.priority = assessment.priority
      · simp [startSla, hsame]
      · simp [startSla, hsame, hnew]

/-- The terms of a new SLA. -/
lemma createSla_terms {utcnow : DateTime} {assessment : RiskAssessment} {record : SLARecord}
    (h : SLAService.createSla defaultDeadlines utcnow assessment none = .ok record) :
    utcnow.isAware = true ∧ record.findingId = assessment.findingId
      ∧ record.terms =
        { priority := assessment.priority
          startedAt := utcnow.asAwareUtc
          dueAt := (defaultDeadlines.durationFor assessment.priority).map
            (SLAService.addDuration utcnow.asAwareUtc) } := by
  obtain ⟨started, hstarted, h⟩ := bind_eq_ok.1 h
  obtain rfl := pure_eq_ok.1 h
  rw [Option.getD_none, SLAService.ensureAware] at hstarted
  split_ifs at hstarted with haware
  obtain rfl := Except.ok.inj hstarted
  exact ⟨haware, rfl, rfl⟩

lemma createSla_of_aware {utcnow : DateTime} (h : utcnow.isAware = true)
    (assessment : RiskAssessment) :
    ∃ record, SLAService.createSla defaultDeadlines utcnow assessment none = .ok record :=
  ⟨_, bind_eq_ok.2 ⟨utcnow.asAwareUtc, if_pos h, rfl⟩⟩

/-- The assessment on file, as the SLA service reads it. -/
lemma getAssessment_of_report {report : AssessmentReport}
    (h : s.reports.get? findingId = some report) :
    s.risk.getAssessment findingId = some report.toRiskAssessment := by
  rw [s.filed, h]
  rfl

lemma report_of_getAssessment {assessment : RiskAssessment}
    (h : s.risk.getAssessment findingId = some assessment) :
    ∃ report, s.reports.get? findingId = some report ∧ report.toRiskAssessment = assessment := by
  rw [s.filed] at h
  exact Option.map_eq_some_iff.1 h

/-- A request to an endpoint, by a user who may call it. -/
lemma riskStep_calls {user : User} {endpoint : RiskEndpoint} {utcnow : DateTime}
    {execution : ExecutionStamp}
    (h : CallsRisk crypto user endpoint utcnow execution s.toPlatform request) :
    riskStep crypto rt letters s request = (s.handleRisk letters utcnow execution endpoint).1 := by
  obtain ⟨cookie, rfl, hpermits⟩ := h
  rw [riskStep, RiskPlatform.respondRisk, hpermits]

/-! ## The assessment on file -/

lemma reports_of_assesses {report : AssessmentReport}
    (h : Assesses crypto letters findingId report s request) :
    (riskStep crypto rt letters s request).reports.get? findingId = some report := by
  obtain ⟨user, scanRunId, utcnow, execution, finding, hcalls, hcontext, hfinding, rfl⟩ := h
  obtain rfl : finding.id = findingId := s.scans.findings.keyed _ _ hfinding
  rw [riskStep_calls hcalls, RiskPlatform.handleRisk]
  rcases staged_cases s "RISK" execution finding.id scanRunId
      (s.assessRisk letters utcnow finding.id) with ⟨e, herror, -⟩ | ⟨-, runs, h⟩
  · rw [herror] at hcontext
    cases hcontext
  · rw [h, RiskPlatform.assessRisk]
    simp only [hfinding]
    exact s.reports.get?_set_self _ _

lemma reports_of_purges (h : Purges crypto findingId s request) :
    (riskStep crypto rt letters s request).reports.get? findingId = none := by
  obtain ⟨other, rfl, hmem⟩ := h
  exact (s.reports.get?_eraseAll _ findingId).trans (if_pos hmem)

lemma reports_kept (hassesses : ∀ report, ¬ Assesses crypto letters findingId report s request)
    (hpurges : ¬ Purges crypto findingId s request) :
    (riskStep crypto rt letters s request).reports.get? findingId
      = s.reports.get? findingId := by
  have hchange := riskStep_change crypto rt letters s request
  generalize (riskStep crypto rt letters s request).toPlatform = platform at hchange
  generalize (riskStep crypto rt letters s request).risk = risk at hchange
  generalize (riskStep crypto rt letters s request).reports = reports at hchange ⊢
  cases hchange with
  | platform other hother =>
      rw [Dict.get?_eraseAll, if_neg fun hmem => hpurges ⟨other, hother, hmem⟩]
  | assessed user assessedId scanRunId utcnow execution finding runs hcalls hcontext hfinding =>
      refine s.reports.get?_set_ne _ fun hid => ?_
      subst hid
      exact hassesses _ ⟨user, scanRunId, utcnow, execution, finding, hcalls, hcontext, hfinding,
        rfl⟩
  | _ => rfl

/-! ## The SLA on file -/

lemma terms_of_opens {terms : SlaTerms} (h : OpensSla crypto findingId terms s request) :
    (riskStep crypto rt letters s request).risk.terms findingId = some terms := by
  obtain ⟨user, scanRunId, utcnow, execution, report, hcalls, hcontext, hreport, hother, haware,
    rfl⟩ := h
  have hassessment := getAssessment_of_report hreport
  obtain ⟨record, hcreate⟩ := createSla_of_aware haware report.toRiskAssessment
  obtain ⟨-, hid, hterms⟩ := createSla_terms hcreate
  have hstart := startSla_new.2 ⟨hother, hcreate⟩
  rw [riskStep_calls hcalls, RiskPlatform.handleRisk]
  rcases staged_cases s "SLA" execution findingId scanRunId (s.startSla utcnow findingId)
    with ⟨e, herror, -⟩ | ⟨-, runs, h⟩
  · rw [herror] at hcontext
    cases hcontext
  · rw [h, RiskPlatform.startSla]
    simp only [hassessment, hstart]
    have hkey : report.findingId = findingId := s.risk.assessed _ _ hassessment
    show (s.risk.recordSla record).terms findingId = _
    rw [RiskStores.terms, RiskStores.getSla_recordSla, if_pos (hid.trans hkey).symm,
      Option.map_some, hterms]

lemma terms_of_purges (h : Purges crypto findingId s request) :
    (riskStep crypto rt letters s request).risk.terms findingId = none := by
  obtain ⟨other, rfl, hmem⟩ := h
  have hget := (s.risk.getSla_foldl_removeFindingState (s.deletedFindings crypto other)
    findingId).trans (if_pos hmem)
  exact congrArg (Option.map SLARecord.terms) hget

lemma terms_kept (hopens : ∀ terms, ¬ OpensSla crypto findingId terms s request)
    (hpurges : ¬ Purges crypto findingId s request) :
    (riskStep crypto rt letters s request).risk.terms findingId = s.risk.terms findingId := by
  have hchange := riskStep_change crypto rt letters s request
  generalize (riskStep crypto rt letters s request).toPlatform = platform at hchange
  generalize (riskStep crypto rt letters s request).reports = reports at hchange
  generalize (riskStep crypto rt letters s request).risk = risk at hchange ⊢
  cases hchange with
  | platform other hother =>
      rw [RiskStores.terms, RiskStores.getSla_foldl_removeFindingState,
        if_neg fun hmem => hpurges ⟨other, hother, hmem⟩]
      rfl
  | kept runs _ => rfl
  | assessed user assessedId scanRunId utcnow execution finding runs _ _ _ => rfl
  | started user startedId scanRunId utcnow execution assessment record runs hcalls hcontext
      hassessment hstart =>
      obtain ⟨hold, hcreate⟩ := startSla_new.1 hstart
      obtain ⟨haware, hid, hterms⟩ := createSla_terms hcreate
      have hkey : assessment.findingId = startedId := s.risk.assessed _ _ hassessment
      rw [RiskStores.terms, RiskStores.getSla_recordSla, hid.trans hkey]
      split_ifs with hsame
      · subst hsame
        obtain ⟨report, hreport, rfl⟩ := report_of_getAssessment hassessment
        exact absurd ⟨user, scanRunId, utcnow, execution, report, hcalls, hcontext, hreport, hold,
          haware, rfl⟩ (hopens _)
      · rfl
  | checked user checkedId now scanRunId utcnow execution runs _ =>
      exact s.risk.terms_checked utcnow checkedId now findingId
  | resolved user resolvedId resolvedAt utcnow execution _ =>
      exact s.risk.terms_resolveRoute utcnow resolvedId resolvedAt findingId
  | evaluated utcnow now _ => exact s.risk.terms_evaluateOnce utcnow now findingId

/-- **What is on file about the risk of a finding is accounted for.**  In every run of requests and
evaluation cycles, whoever makes them and in whatever order: the assessment on file is the given one
exactly if an earlier request of a user who may assess computed it, from the finding, the verdict
and the proof stored then, and since then the finding has neither been assessed again nor deleted;
and the SLA on file has the given terms exactly if an earlier request of a user who may start SLAs
gave it these terms, by the priority of the assessment on file then, and since then no SLA has been
started for the finding, nor has it been deleted. -/
theorem onFile_iff (crypto : Crypto) (rt : Runtime) (letters : StringCase) (users : UserTable)
    (files : Path → Option (List UInt8)) (requests : List RiskRequest) (findingId : String) :
    (∀ report,
      (exec (riskStep crypto rt letters) (.start users files) requests).reports.get? findingId
          = some report
        ↔ ∃ pre request post, requests = pre ++ request :: post
          ∧ Assesses crypto letters findingId report
            (exec (riskStep crypto rt letters) (.start users files) pre) request
          ∧ Throughout (riskStep crypto rt letters)
            (fun s later => (∀ report', ¬ Assesses crypto letters findingId report' s later)
              ∧ ¬ Purges crypto findingId s later)
            (riskStep crypto rt letters
              (exec (riskStep crypto rt letters) (.start users files) pre) request) post)
      ∧ ∀ terms,
        (exec (riskStep crypto rt letters) (.start users files) requests).risk.terms findingId
            = some terms
          ↔ ∃ pre request post, requests = pre ++ request :: post
            ∧ OpensSla crypto findingId terms
              (exec (riskStep crypto rt letters) (.start users files) pre) request
            ∧ Throughout (riskStep crypto rt letters)
              (fun s later => (∀ terms', ¬ OpensSla crypto findingId terms' s later)
                ∧ ¬ Purges crypto findingId s later)
              (riskStep crypto rt letters
                (exec (riskStep crypto rt letters) (.start users files) pre) request) post := by
  constructor
  · intro report
    exact exec_register (fun s : RiskPlatform => s.reports.get? findingId)
      (Assesses crypto letters findingId) (Purges crypto findingId)
      (fun _ _ _ => reports_of_assesses) (fun _ _ => reports_of_purges) (fun _ _ => reports_kept)
      (show (RiskPlatform.start users files).reports.get? findingId = none from rfl) report requests
  · intro terms
    exact exec_register (fun s : RiskPlatform => s.risk.terms findingId)
      (OpensSla crypto findingId) (Purges crypto findingId)
      (fun _ _ _ => terms_of_opens) (fun _ _ => terms_of_purges) (fun _ _ => terms_kept)
      (show (RiskPlatform.start users files).risk.terms findingId = none from rfl) terms requests

/-! ## The most urgent priority -/

/-- A request to another endpoint. -/
def ByRequest (By : Platform → Request → Prop) (s : RiskPlatform) (request : RiskRequest) : Prop :=
  ∃ other, request = .platform other ∧ By s.toPlatform other

/-- What only requests to the other endpoints establish. -/
lemma byRequest_of_step {Has : Platform → Prop} {By : Platform → Request → Prop}
    (hstep : ∀ s request, Has (platformStep crypto rt s request) → By s request ∨ Has s)
    (hruns : ∀ s runs, Has (Platform.withRuns s runs) → Has s)
    (h : Has (riskStep crypto rt letters s request).toPlatform) :
    ByRequest By s request ∨ Has s.toPlatform := by
  have hchange := riskStep_change crypto rt letters s request
  generalize (riskStep crypto rt letters s request).toPlatform = platform at hchange h
  generalize (riskStep crypto rt letters s request).risk = risk at hchange
  generalize (riskStep crypto rt letters s request).reports = reports at hchange
  cases hchange with
  | platform other hother =>
      exact (hstep s.toPlatform other h).imp_left fun hby => ⟨other, hother, hby⟩
  | resolved user resolvedId resolvedAt utcnow execution _ => exact Or.inr h
  | evaluated utcnow now _ => exact Or.inr h
  | _ => exact Or.inr (hruns _ _ h)

/-- What a critical finding has behind it when it is assessed. -/
def criticalHistory (crypto : Crypto) (rt : Runtime) (findingId : String) :
    List (Milestone RiskPlatform RiskRequest) :=
  [⟨fun s => s.toPlatform.Found findingId, ByRequest (Detects crypto rt findingId)⟩]

/-- What a proved finding has behind it. -/
def provedHistory (crypto : Crypto) (rt : Runtime) (findingId : String) :
    List (Milestone RiskPlatform RiskRequest) :=
  ⟨fun s => s.toPlatform.Proved findingId, ByRequest (Proves crypto findingId)⟩
    :: ⟨fun s => s.toPlatform.Validated findingId, ByRequest (Validates crypto findingId)⟩
    :: criticalHistory crypto rt findingId

/-- An assessment of the most urgent priority finds the finding critical, or high and proved. -/
lemma assesses_p0 {report : AssessmentReport}
    (h : Assesses crypto letters findingId report s request) (hp0 : report.priority = .p0) :
    (letters.lower report.severity = "critical" ∧ s.toPlatform.Found findingId)
      ∨ letters.lower report.severity = "high" ∧ s.toPlatform.Proved findingId := by
  obtain ⟨user, scanRunId, utcnow, execution, finding, -, -, hfinding, rfl⟩ := h
  obtain rfl : finding.id = findingId := s.scans.findings.keyed _ _ hfinding
  let subject : RiskSubject :=
    { finding := finding
      validation := (s.validations.get? finding.id).map ValidationReport.toValidationResult
      proof := (s.proofs.get? finding.id).map ProofReport.toProofResult }
  have hscore : (RiskScorer.score {} letters subject.finding subject.validation
      subject.proof).2.1 = .p0 := hp0
  rcases p0_default.1 hscore with ⟨hcritical, -⟩ | ⟨hhigh, -, hverified⟩
  · exact Or.inl ⟨hcritical, finding, hfinding⟩
  · obtain ⟨result, hresult, hstatus⟩ := Option.map_eq_some_iff.1 hverified
    obtain ⟨proof, hproof, rfl⟩ := Option.map_eq_some_iff.1 hresult
    exact Or.inr ⟨hhigh, proof, hproof, hstatus⟩

/-- The milestones of the platform are established by requests to its endpoints alone. -/
lemma history_step {m : Milestone RiskPlatform RiskRequest}
    (hm : m ∈ provedHistory crypto rt findingId)
    (h : m.Has (riskStep crypto rt letters s request)) : m.By s request ∨ m.Has s := by
  simp only [provedHistory, criticalHistory, List.mem_cons, List.not_mem_nil, or_false] at hm
  rcases hm with rfl | rfl | rfl
  · exact byRequest_of_step (fun _ _ => proved_step) (fun _ _ h => h) h
  · exact byRequest_of_step (fun _ _ => validated_step) (fun _ _ h => h) h
  · exact byRequest_of_step (fun _ _ => found_step) (fun _ _ h => h) h

/-- A proof presupposes a validation, and that the scan. -/
lemma history_chain : (provedHistory crypto rt findingId).IsChain fun later earlier =>
    ∀ s request, True → later.By s request → earlier.Has s := by
  simp only [provedHistory, criticalHistory, List.isChain_cons_cons]
  refine ⟨?_, ?_, .singleton _⟩
  · rintro s request - ⟨other, -, user, scanRunId, env, finding, plan, runner, execution, reading,
      -, -, hvalidated, -⟩
    exact hvalidated
  · rintro s request - ⟨other, -, user, providerName, scanRunId, env, finding, provider, response,
      -, hfinding, -⟩
    exact ⟨finding, hfinding⟩

lemma history_start (users : UserTable) (files : Path → Option (List UInt8))
    {m : Milestone RiskPlatform RiskRequest} (hm : m ∈ provedHistory crypto rt findingId) :
    ¬ m.Has (.start users files) := by
  simp only [provedHistory, criticalHistory, List.mem_cons, List.not_mem_nil, or_false] at hm
  rcases hm with rfl | rfl | rfl
  · rintro ⟨report, hget, -⟩
    cases hget
  · rintro ⟨report, hget, -⟩
    cases hget
  · rintro ⟨finding, hget⟩
    cases hget

/-- What is on file was put there by an assessment, with a history of its own behind it. -/
lemma report_history (users : UserTable) (files : Path → Option (List UInt8))
    (requests : List RiskRequest) {report : AssessmentReport}
    (milestones : List (Milestone RiskPlatform RiskRequest))
    (hsuffix : milestones <:+ provedHistory crypto rt findingId)
    (hfirst : ∀ s request, Assesses crypto letters findingId report s request →
      ∀ m ∈ milestones.head?, m.Has s)
    (h : (exec (riskStep crypto rt letters) (RiskPlatform.start users files) requests).reports.get?
      findingId = some report) :
    InOrder (riskStep crypto rt letters) (.start users files)
      (Assesses crypto letters findingId report :: milestones.map Milestone.By) requests := by
  let onFile : Milestone RiskPlatform RiskRequest :=
    ⟨fun s => s.reports.get? findingId = some report, Assesses crypto letters findingId report⟩
  show InOrder _ _ ((onFile :: milestones).map Milestone.By) requests
  refine exec_history (fun _ => True) (fun _ _ _ => trivial) trivial ?_ ?_ ?_ requests ?_
  · rw [List.forall_mem_cons]
    refine ⟨fun s request _ hreport => ?_, fun m hm s request _ =>
      history_step (hsuffix.subset hm)⟩
    exact ((register_step (fun s : RiskPlatform => s.reports.get? findingId)
      (Assesses crypto letters findingId) (Purges crypto findingId)
      (fun _ _ _ => reports_of_assesses) (fun _ _ => reports_of_purges) (fun _ _ => reports_kept)
      report s request).1 hreport).imp_right And.left
  · rw [List.isChain_cons]
    exact ⟨fun m hm s request _ hby => hfirst s request hby m hm,
      history_chain.suffix hsuffix⟩
  · rw [List.forall_mem_cons]
    refine ⟨?_, fun m hm => history_start users files (hsuffix.subset hm)⟩
    intro hnone
    cases hnone
  · intro m hm
    cases hm
    exact h

/-- **The most urgent deadline is earned.**  In every run of requests and evaluation cycles, whoever
makes them and in whatever order: if the SLA of a finding has the priority P0, then it is due four
hours after it was started, and the run contains, each before the next: a scan that reports the
finding; unless the finding was critical, a validation in which the model gives the verdict of a
true positive, and a proof whose harness succeeds; the assessment on file when the SLA was started;
and that start, each by a user who may make the request. -/
theorem p0_earned (crypto : Crypto) (rt : Runtime) (letters : StringCase) (users : UserTable)
    (files : Path → Option (List UInt8)) (requests : List RiskRequest) (findingId : String)
    (record : SLARecord)
    (hrecord : (exec (riskStep crypto rt letters) (.start users files) requests).risk.getSla
      findingId = some record) (hp0 : record.priority = .p0) :
    record.dueAt = some (SLAService.addDuration record.startedAt (hours 4))
      ∧ ∃ report, report.priority = .p0
        ∧ ((letters.lower report.severity = "critical"
            ∧ InOrder (riskStep crypto rt letters) (.start users files)
              [OpensSla crypto findingId record.terms, Assesses crypto letters findingId report,
                ByRequest (Detects crypto rt findingId)] requests)
          ∨ letters.lower report.severity = "high"
            ∧ InOrder (riskStep crypto rt letters) (.start users files)
              [OpensSla crypto findingId record.terms, Assesses crypto letters findingId report,
                ByRequest (Proves crypto findingId), ByRequest (Validates crypto findingId),
                ByRequest (Detects crypto rt findingId)] requests) := by
  have hterms : (exec (riskStep crypto rt letters) (.start users files) requests).risk.terms
      findingId = some record.terms := congrArg (Option.map SLARecord.terms) hrecord
  obtain ⟨pre, start, post, rfl, hopens, -⟩ :=
    (exec_register (fun s : RiskPlatform => s.risk.terms findingId) (OpensSla crypto findingId)
      (Purges crypto findingId) (fun _ _ _ => terms_of_opens) (fun _ _ => terms_of_purges)
      (fun _ _ => terms_kept)
      (show (RiskPlatform.start users files).risk.terms findingId = none from rfl) _ _).1 hterms
  obtain ⟨user, scanRunId, utcnow, execution, report, -, -, hreport, -, -, hgiven⟩ := id hopens
  have hpriority : report.priority = .p0 :=
    (congrArg SlaTerms.priority hgiven).symm.trans hp0
  have hstarted : record.startedAt = utcnow.asAwareUtc := congrArg SlaTerms.startedAt hgiven
  have hdue : record.dueAt = (defaultDeadlines.durationFor report.priority).map
      (SLAService.addDuration utcnow.asAwareUtc) := congrArg SlaTerms.dueAt hgiven
  refine ⟨?_, report, hpriority, ?_⟩
  · rw [hdue, hstarted, hpriority]
    rfl
  · obtain ⟨pre', assess, post', -, hassesses, -⟩ :=
      report_history users files pre [] List.nil_suffix (fun _ _ _ _ hm => by cases hm) hreport
    have hne : "critical" ≠ "high" := by decide
    rcases assesses_p0 hassesses hpriority with ⟨hcritical, -⟩ | ⟨hhigh, -⟩
    · refine Or.inl ⟨hcritical, pre, start, post, rfl, hopens, ?_⟩
      refine report_history users files pre (criticalHistory crypto rt findingId)
        ((List.suffix_cons _ _).trans (List.suffix_cons _ _)) ?_ hreport
      intro s request hassesses m hm
      cases hm
      rcases assesses_p0 hassesses hpriority with ⟨-, hfound⟩ | ⟨hhigh, -⟩
      · exact hfound
      · exact absurd (hcritical.symm.trans hhigh) hne
    · refine Or.inr ⟨hhigh, pre, start, post, rfl, hopens, ?_⟩
      refine report_history users files pre (provedHistory crypto rt findingId) List.suffix_rfl ?_
        hreport
      intro s request hassesses m hm
      cases hm
      rcases assesses_p0 hassesses hpriority with ⟨hcritical, -⟩ | ⟨-, hproved⟩
      · exact absurd (hcritical.symm.trans hhigh) hne
      · exact hproved

/-- The manager has the finding scanned, validated and proved, assesses it, and starts its SLA. -/
def urgentRequests : List RiskRequest :=
  (managerRequests.take 5).map .platform
    ++ [.call (.assess systemFinding (some "run")) (some "cookie") fixTime fixEnv.execution,
      .call (.start systemFinding (some "run")) (some "cookie") fixTime fixEnv.execution]

theorem p0_earned_manager :
    ∃ record, (exec (riskStep suffixCrypto systemRuntime asciiCase)
          (.start .empty (oneFileWorkspace systemRuntime systemText)) urgentRequests).risk.getSla
        systemFinding = some record
      ∧ record.dueAt = some (SLAService.addDuration record.startedAt (hours 4)) := by
  have hurgent : ((exec (riskStep suffixCrypto systemRuntime asciiCase)
      (.start .empty (oneFileWorkspace systemRuntime systemText)) urgentRequests).risk.getSla
        systemFinding).map SLARecord.priority = some .p0 := by
    decide +kernel
  obtain ⟨record, hrecord, hp0⟩ := Option.map_eq_some_iff.1 hurgent
  exact ⟨record, hrecord, (p0_earned suffixCrypto systemRuntime asciiCase .empty
    (oneFileWorkspace systemRuntime systemText) urgentRequests systemFinding record hrecord hp0).1⟩

end Sast
