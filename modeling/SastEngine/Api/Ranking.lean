import SastEngine.Api.Repositories
import SastEngine.Api.RiskRoutes
import SastEngine.Approval.Views
import SastEngine.Lib.Ranking

/-!
# One ranking, and three views of it

The risk summary, the dashboard and the list of repositories each sort the assessments they are
about, and show the first ten, the first five, and the first.  Sorting is stable, and each of them
selects before or after it, so that they all cut one ranking of all assessments.  It goes by the
score alone, since with the default policy the priority follows from the score.
-/

namespace Sast

/-! ## The views -/

/-- `RiskFindingRow`; `sla` is missing where the row says `"none"`. -/
structure RiskFindingRow where
  findingId : String
  priority : Priority
  riskScore : Int
  severity : String
  vulnerabilityType : String
  repository : String
  file : String
  validation : Option Verdict
  proof : Option ProofStatus
  sla : Option SlaStatus
  factors : List RiskFactor

/-- `DashboardFinding`. -/
structure DashboardFinding where
  findingId : String
  priority : Priority
  vulnerabilityType : String
  repository : String
  file : String
  status : String
  riskScore : Int

/-- The first assessment comes before the second one, by priority and falling score. -/
def AssessmentReport.Precedes (report report' : AssessmentReport) : Prop :=
  report.priority.rank < report'.priority.rank
    ∨ report.priority.rank = report'.priority.rank ∧ report'.riskScore ≤ report.riskScore

instance : DecidableRel AssessmentReport.Precedes := fun report report' =>
  inferInstanceAs (Decidable (report.priority.rank < report'.priority.rank
    ∨ report.priority.rank = report'.priority.rank ∧ report'.riskScore ≤ report.riskScore))

/-- `sorted(risks, key=lambda r: (_PRIORITY_RANK.get(r.priority, 9), -r.risk_score))`. -/
def rankedReports (reports : List AssessmentReport) : List AssessmentReport :=
  reports.insertionSort AssessmentReport.Precedes

/-- The scope of a dashboard: the findings of a project, if it is restricted to one. -/
def dashboardScope (runs : ScanRunStore) (projectId : Option String) :
    Except ScanRunStore.ReadError ViewScope :=
  match projectId with
  | none => .ok none
  | some id => if id = "all" then .ok none else (projectFindingIds runs id).map some

namespace RiskPlatform

variable (s : RiskPlatform)

/-- A row of `highest_risk_findings`, if the finding is stored. -/
def riskFindingRow (report : AssessmentReport) : Option RiskFindingRow :=
  (s.scans.findings.get report.findingId).map fun finding =>
    { findingId := finding.id
      priority := report.priority
      riskScore := report.riskScore
      severity := report.severity
      vulnerabilityType := finding.vulnerabilityType
      repository := repoLabelForFile finding.source.file
      file := finding.source.file
      validation := (s.validations.get? finding.id).map fun validation => validation.verdict
      proof := (s.proofs.get? finding.id).map fun proof => proof.status
      sla := (s.risk.getSla finding.id).map SLARecord.status
      factors := report.factors }

/-- `highest_risk_findings` of `risk_summary`. -/
def highestRiskFindings : List RiskFindingRow :=
  showUpTo 10 s.riskFindingRow [] (rankedReports s.reports.values)

/-- A row of `critical_findings`, if the finding is stored and in the scope. -/
def dashboardRow (scope : ViewScope) (report : AssessmentReport) : Option DashboardFinding :=
  if scope.contains report.findingId then
    (s.scans.findings.get report.findingId).map fun finding =>
      { findingId := finding.id
        priority := report.priority
        vulnerabilityType := finding.vulnerabilityType
        repository := repoLabelForFile finding.source.file
        file := finding.source.file
        status := findingStatus finding.id s.gates (scopedApprovals scope s.world.approvals)
        riskScore := report.riskScore }
  else none

/-- `critical_findings` of `dashboard_summary`. -/
def criticalFindings (projectId : Option String) :
    Except ScanRunStore.ReadError (List DashboardFinding) :=
  (dashboardScope s.scans.runs projectId).map fun scope =>
    showUpTo 5 (s.dashboardRow scope) []
      (rankedReports (s.reports.values.filter fun report => scope.contains report.findingId))

/-- What the summary of a repository reads. -/
def stageResults : StageResults where
  assessments := s.reports.mapValues fun report => ⟨report.toRiskAssessment, report.riskScore⟩
  validations := s.validations.mapValues ValidationReport.toValidationResult
  proofs := s.proofs.mapValues ProofReport.toProofResult
  slaRecords := s.risk.records

/-- `top_finding_id` of the summary of a repository. -/
def topFinding (project : ProjectRow) (files : Option (List String)) : Option String :=
  (summarize project files s.scans.findings s.stageResults).risk.bind RepositoryRisk.topFindingId

end RiskPlatform

/-! ## What a view says about an assessment -/

/-- The finding, the priority and the score of an assessment. -/
def AssessmentReport.entry (report : AssessmentReport) : String × Priority × Int :=
  (report.findingId, report.priority, report.riskScore)

/-- The finding, the priority and the score of a row. -/
def RiskFindingRow.entry (row : RiskFindingRow) : String × Priority × Int :=
  (row.findingId, row.priority, row.riskScore)

/-- The finding, the priority and the score of a row. -/
def DashboardFinding.entry (row : DashboardFinding) : String × Priority × Int :=
  (row.findingId, row.priority, row.riskScore)

/-- The assessed finding is stored. -/
def RiskPlatform.knows (s : RiskPlatform) (report : AssessmentReport) : Bool :=
  (s.scans.findings.get report.findingId).isSome

/-! ## The ranking -/

instance : IsTrans AssessmentReport AssessmentReport.Precedes where
  trans report report' report'' h h' := by
    simp only [AssessmentReport.Precedes] at h h' ⊢
    omega

instance : Std.Total AssessmentReport.Precedes where
  total report report' := by
    simp only [AssessmentReport.Precedes]
    omega

/-- The priority of the assessment follows from its score. -/
def AssessmentReport.Graded (report : AssessmentReport) : Prop :=
  report.priority = RiskScorer.priorityFor {} report.riskScore

lemma graded_assess (letters : StringCase) (utcnow : DateTime) (finding : CandidateFinding)
    (validation : Option ValidationResult) (proof : Option ProofResult)
    (assessedAt : Option DateTime) :
    (RiskService.assess {} letters utcnow finding validation proof assessedAt).Graded :=
  priority_default letters ⟨finding, validation, proof⟩

/-- A graded assessment that comes first does not have a lower score. -/
lemma score_of_precedes {report report' : AssessmentReport} (h : report.Precedes report')
    (hg : report.Graded) (hg' : report'.Graded) :
    report'.riskScore ≤ report.riskScore ∧ report.priority.rank ≤ report'.priority.rank := by
  rcases h with hlt | ⟨heq, hle⟩
  · refine ⟨?_, hlt.le⟩
    by_contra hmore
    have hmono := priorityFor_mono rewards_default (not_le.1 hmore).le
    rw [← hg, ← hg'] at hmono
    omega
  · exact ⟨hle, heq.le⟩

/-- The assessments on file are graded. -/
def RiskPlatform.Graded (s : RiskPlatform) : Prop :=
  ∀ findingId report, s.reports.get? findingId = some report → report.Graded

lemma RiskPlatform.Graded.step {crypto : Crypto} {rt : Runtime} {letters : StringCase}
    {s : RiskPlatform} (h : s.Graded) (request : RiskRequest) :
    (riskStep crypto rt letters s request).Graded := by
  have hchange := riskStep_change crypto rt letters s request
  rw [RiskPlatform.Graded]
  generalize (riskStep crypto rt letters s request).toPlatform = platform at hchange
  generalize (riskStep crypto rt letters s request).risk = risk at hchange
  generalize (riskStep crypto rt letters s request).reports = reports at hchange ⊢
  cases hchange with
  | platform other _ =>
      intro findingId report hreport
      rw [Dict.get?_eraseAll] at hreport
      split_ifs at hreport
      exact h findingId report hreport
  | assessed user assessedId scanRunId utcnow execution finding runs _ _ _ =>
      intro findingId report hreport
      rw [Dict.get?_set] at hreport
      split_ifs at hreport
      · obtain rfl := Option.some.inj hreport
        exact graded_assess ..
      · exact h findingId report hreport
  | _ => exact h

/-! ## The cuts -/

section Cuts

variable (s : RiskPlatform)

lemma findingId_of_get {report : AssessmentReport} {finding : CandidateFinding}
    (h : s.scans.findings.get report.findingId = some finding) : finding.id = report.findingId :=
  s.scans.findings.keyed _ _ h

lemma entries_highestRiskFindings :
    s.highestRiskFindings.map RiskFindingRow.entry
      = (((rankedReports s.reports.values).filter s.knows).map AssessmentReport.entry).take 10 := by
  rw [RiskPlatform.highestRiskFindings, showUpTo_eq_take _ _ (by simp), List.nil_append,
    List.map_take]
  refine congrArg (List.take 10) (map_filterMap_eq_map_filter ?_ ?_)
  · intro report _ hunknown
    rw [RiskPlatform.riskFindingRow, Option.not_isSome_iff_eq_none.1 (Bool.eq_false_iff.1 hunknown)]
    rfl
  · intro report _ hknown
    obtain ⟨finding, hfinding⟩ := Option.isSome_iff_exists.1 hknown
    refine ⟨_, by rw [RiskPlatform.riskFindingRow, hfinding, Option.map_some], ?_⟩
    simp only [RiskFindingRow.entry, AssessmentReport.entry, findingId_of_get s hfinding]

lemma entries_criticalFindings (projectId : Option String) :
    (s.criticalFindings projectId).map (List.map DashboardFinding.entry)
      = (dashboardScope s.scans.runs projectId).map fun scope =>
        ((((rankedReports s.reports.values).filter s.knows).filter fun report =>
          scope.contains report.findingId).map AssessmentReport.entry).take 5 := by
  rw [RiskPlatform.criticalFindings]
  cases hscope : dashboardScope s.scans.runs projectId with
  | error e => rfl
  | ok scope =>
      have hselect : rankedReports (s.reports.values.filter fun report =>
            scope.contains report.findingId)
          = (rankedReports s.reports.values).filter fun report => scope.contains report.findingId :=
        (filter_insertionSort _ _).symm
      simp only [Except.map]
      rw [hselect, showUpTo_eq_take _ _ (by simp), List.nil_append, List.map_take, List.filter_comm]
      refine congrArg (fun entries => Except.ok (List.take 5 entries))
        (map_filterMap_eq_map_filter ?_ ?_)
      · intro report _ hunknown
        rw [RiskPlatform.dashboardRow,
          Option.not_isSome_iff_eq_none.1 (Bool.eq_false_iff.1 hunknown)]
        split_ifs <;> rfl
      · intro report hmem hknown
        obtain ⟨finding, hfinding⟩ := Option.isSome_iff_exists.1 hknown
        have hscoped : scope.contains report.findingId = true := (List.mem_filter.1 hmem).2
        refine ⟨_, by rw [RiskPlatform.dashboardRow, if_pos hscoped, hfinding, Option.map_some], ?_⟩
        simp only [DashboardFinding.entry, AssessmentReport.entry, findingId_of_get s hfinding]

/-- The assessment as the summary of a repository reads it. -/
def AssessmentReport.scored (report : AssessmentReport) : ScoredAssessment :=
  ⟨report.toRiskAssessment, report.riskScore⟩

lemma idxOf_priorities (priority : Priority) : priorities.idxOf priority = priority.rank := by
  cases priority <;> decide

lemma rank_inj {priority priority' : Priority} :
    priority.rank = priority'.rank ↔ priority = priority' := by
  cases priority <;> cases priority' <;> decide

/-- The summary of a repository ranks assessments as the other views do. -/
lemma rankedAssessments_map (reports : List AssessmentReport) :
    rankedAssessments (reports.map AssessmentReport.scored)
      = (rankedReports reports).map AssessmentReport.scored := by
  refine (List.map_insertionSort _ _ AssessmentReport.scored reports
    fun report _ report' _ => ?_).symm
  simp only [AssessmentReport.Precedes, AssessmentReport.scored, idxOf_priorities, rank_inj]

lemma topFinding_eq_head (project : ProjectRow) (files : Option (List String)) :
    s.topFinding project files
      = (((rankedReports s.reports.values).filter fun report =>
          report.findingId ∈ (countedFindings s.scans.findings files).map CandidateFinding.id).map
        fun report => report.findingId).head? := by
  have hvalues : s.stageResults.assessments.values
      = s.reports.values.map AssessmentReport.scored := by
    simp only [RiskPlatform.stageResults, Dict.values, Dict.mapValues, List.map_map]
    rfl
  have hranked : rankedAssessments (s.stageResults.assessments.values.filter fun a =>
        a.findingId ∈ (countedFindings s.scans.findings files).map CandidateFinding.id)
      = ((rankedReports s.reports.values).filter fun report => report.findingId
        ∈ (countedFindings s.scans.findings files).map CandidateFinding.id).map
          AssessmentReport.scored := by
    rw [hvalues, List.filter_map, rankedAssessments_map]
    refine congrArg (List.map AssessmentReport.scored) ?_
    exact (filter_insertionSort _ _).symm
  simp only [RiskPlatform.topFinding, summarize]
  split_ifs with hnone
  · have hempty : countedFindings s.scans.findings files = [] := List.isEmpty_iff.1 hnone
    simp [hempty]
  · simp only [hranked, unlessEmpty]
    split_ifs with hunassessed
    · rw [List.isEmpty_iff.1 hunassessed] at hranked
      rw [List.map_eq_nil_iff.1 hranked.symm]
      rfl
    · rw [Option.bind_some, List.head?_map, List.head?_map]
      dsimp only
      rw [Option.map_map]
      rfl

end Cuts

/-- **There is one ranking of the assessments.**  In every state that requests and evaluation cycles
reach, the assessments on file can be listed by falling score, none less urgent than those after it,
such that the risk summary shows the first ten of those whose finding is stored, the dashboard the
first five of those that are also in its scope, and the summary of a repository the first one of
those whose finding it counts.  So nothing that a view leaves out has a higher score than what it
shows, and what the views have in common, they have in the same order. -/
theorem one_ranking (crypto : Crypto) (rt : Runtime) (letters : StringCase) (users : UserTable)
    (files : Path → Option (List UInt8)) (requests : List RiskRequest) :
    let s := exec (riskStep crypto rt letters) (.start users files) requests
    ∃ ranking : List AssessmentReport, ranking.Perm s.reports.values
      ∧ (ranking.Pairwise fun higher lower =>
        lower.riskScore ≤ higher.riskScore ∧ higher.priority.rank ≤ lower.priority.rank)
      ∧ s.highestRiskFindings.map RiskFindingRow.entry
        = ((ranking.filter s.knows).map AssessmentReport.entry).take 10
      ∧ (∀ projectId, (s.criticalFindings projectId).map (List.map DashboardFinding.entry)
        = (dashboardScope s.scans.runs projectId).map fun scope =>
          (((ranking.filter s.knows).filter fun report => scope.contains report.findingId).map
            AssessmentReport.entry).take 5)
      ∧ ∀ project snapshot, s.topFinding project snapshot
        = ((ranking.filter fun report => report.findingId
            ∈ (countedFindings s.scans.findings snapshot).map CandidateFinding.id).map
          fun report => report.findingId).head? := by
  intro s
  have hgraded : s.Graded := by
    refine exec_keeps RiskPlatform.Graded (fun _ request h => h.step request) ?_ requests
    intro findingId report hreport
    cases hreport
  refine ⟨rankedReports s.reports.values, List.perm_insertionSort _ _, ?_,
    entries_highestRiskFindings s, entries_criticalFindings s, topFinding_eq_head s⟩
  have hranked := List.pairwise_insertionSort AssessmentReport.Precedes s.reports.values
  have hall : ∀ report ∈ rankedReports s.reports.values, report.Graded := by
    intro report hreport
    have hmem := (List.perm_insertionSort AssessmentReport.Precedes s.reports.values).mem_iff.1
      hreport
    obtain ⟨findingId, hget⟩ := s.reports.mem_values_iff.1 hmem
    exact hgraded findingId report hget
  exact hranked.imp_of_mem fun hhigher hlower h =>
    score_of_precedes h (hall _ hhigher) (hall _ hlower)

end Sast
