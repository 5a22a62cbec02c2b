import SastEngine.Scan.RunStore
import SastEngine.Scan.Service
import SastEngine.Validate.Store

/-!
# The scan run service

`scan/run_service.py`: one synchronous scan, recorded as a run with its stages, their executions
and the lineage of its findings.  The ids the source draws with `uuid4` and its readings of the
clock are inputs here.
-/

namespace Sast

/-- What `get_scan_run_store()` and `get_finding_store()` return. -/
structure ScanStores where
  runs : ScanRunStore
  findings : FindingStore

namespace ScanStores

/-- The stores before the first scan. -/
def empty : ScanStores := ⟨.empty, .empty⟩

end ScanStores

/-- The id of one stage execution, and the clock when it starts and when it ends. -/
structure ExecutionStamp where
  executionId : String
  startedAt : DateTime
  endedAt : DateTime

/-- `record_stage_execution`.  An exception of `fn` is recorded and raised again; a result that
`error_condition` rejects is recorded as a failure and returned. -/
def recordStageExecution {α : Type} (stores : ScanStores) (scanRunId stageName : String)
    (stamp : ExecutionStamp) (fn : ScanStores → ScanStores × Except String α)
    (errorCondition : Option (α → Bool × String)) : ScanStores × Except String α :=
  let begun := { stores with
    runs := stores.runs.beginStageExecution scanRunId stageName stamp.executionId
      stamp.startedAt }
  let fail := fun (after : ScanStores) message => { after with
    runs := after.runs.failStageExecution scanRunId stageName stamp.executionId stamp.endedAt
      message }
  match fn begun with
  | (after, .error exc) => (fail after exc, .error exc)
  | (after, .ok result) =>
      let verdict := (errorCondition.map fun condition => condition result).getD (false, "")
      if verdict.1 then (fail after verdict.2, .ok result)
      else
        ({ after with
            runs := after.runs.completeStageExecution scanRunId stageName stamp.executionId
              stamp.endedAt }, .ok result)

variable (py : Stdlib) (rules : List ScanRule)

/-- `_do_scan`: the scan, the registration of its findings, and their lineage. -/
def doScan (scanRunId projectId : String) (codeModel : CodeModel) (stores : ScanStores) :
    ScanStores × Except String ScanReport :=
  match scan py rules codeModel (some projectId) with
  | .error exc => (stores, .error exc)
  | .ok report =>
      ({ runs := report.findings.foldl
            (fun runs finding => runs.addFindingLineage scanRunId finding.id) stores.runs
         findings := stores.findings.addReport report.findings }, .ok report)

/-- `_run_scan_stage`. -/
def runScanStage (scanRunId projectId : String) (codeModel : CodeModel) (stamp : ExecutionStamp)
    (stores : ScanStores) : ScanStores × Except String ScanReport :=
  recordStageExecution stores scanRunId "SCAN" stamp
    (doScan py rules scanRunId projectId codeModel) none

/-- The ids of a scan, and the clock when it starts and when its run is closed. -/
structure ScanStamps where
  scanRunId : String
  prepareExecutionId : String
  scanExecution : ExecutionStamp
  now : DateTime
  closedAt : DateTime

/-- The run that a scan creates. -/
def openedRun (projectId : String) (stamps : ScanStamps) : ScanRun :=
  { scanRunId := stamps.scanRunId, projectId := projectId, status := .running,
    startedAt := stamps.now, createdAt := stamps.now }

/-- The run of a scan before its SCAN stage: the stages are registered, and PREPARE is recorded as
completed when the project was created. -/
def openRun (projectId : String) (projectCreatedAt : Option DateTime) (stamps : ScanStamps)
    (runs : ScanRunStore) : ScanRunStore :=
  let prepareAt := (projectCreatedAt.map DateTime.asAwareUtc).getD stamps.now
  (((runs.createRun (openedRun projectId stamps)).registerStages
    stamps.scanRunId).beginStageExecution stamps.scanRunId "PREPARE" stamps.prepareExecutionId
      prepareAt).completeStageExecution stamps.scanRunId "PREPARE" stamps.prepareExecutionId
      prepareAt

/-- `execute_scan`, for the rules of the scan service; the source builds it with `defaultRules`. -/
def executeScan (stores : ScanStores) (projectId : String) (codeModel : CodeModel)
    (projectCreatedAt : Option DateTime) (stamps : ScanStamps) :
    ScanStores × Except String (ScanRun × ScanReport) :=
  let run := openedRun projectId stamps
  let opened := { stores with runs := openRun projectId projectCreatedAt stamps stores.runs }
  match runScanStage py rules stamps.scanRunId projectId codeModel stamps.scanExecution opened with
  | (after, .error exc) =>
      ({ after with
          runs := after.runs.createRun { run with
            status := .failed, completedAt := some stamps.closedAt, error := some exc } },
        .error exc)
  | (after, .ok report) =>
      let completed := { run with
        status := .completed, completedAt := some stamps.closedAt,
        scannedFileCount := some report.scannedFileCount,
        totalFindings := some report.findings.length }
      ({ after with runs := after.runs.createRun completed }, .ok (completed, report))

/-! ## Lineage -/

namespace ScanRunStore

@[simp] lemma findingIdsForRun_createRun (store : ScanRunStore) (run : ScanRun)
    (scanRunId : String) :
    (store.createRun run).findingIdsForRun scanRunId = store.findingIdsForRun scanRunId := rfl

@[simp] lemma findingIdsForRun_beginStageExecution (store : ScanRunStore)
    (runId stageName executionId : String) (startedAt : DateTime) (scanRunId : String) :
    (store.beginStageExecution runId stageName executionId startedAt).findingIdsForRun scanRunId
      = store.findingIdsForRun scanRunId := rfl

@[simp] lemma findingIdsForRun_registerStages (store : ScanRunStore) (runId scanRunId : String) :
    (store.registerStages runId).findingIdsForRun scanRunId
      = store.findingIdsForRun scanRunId := rfl

@[simp] lemma findingIdsForRun_endStageExecution (store : ScanRunStore)
    (runId stageName executionId : String) (ending : Ending) (scanRunId : String) :
    (store.endStageExecution runId stageName executionId ending).findingIdsForRun scanRunId
      = store.findingIdsForRun scanRunId := by
  show (store.updateExecution executionId ending).findingIdsForRun scanRunId = _
  unfold updateExecution
  split <;> rfl

lemma getRun_createRun (store : ScanRunStore) (run : ScanRun) (scanRunId : String) :
    (store.createRun run).getRun scanRunId
      = if scanRunId = run.scanRunId then some run else store.getRun scanRunId :=
  store.runs.get?_set run.scanRunId run scanRunId

lemma findingIdsForRun_addFindingLineage (store : ScanRunStore) (runId findingId : String)
    (scanRunId : String) :
    (store.addFindingLineage runId findingId).findingIdsForRun scanRunId
      = if scanRunId = runId then
          (if findingId ∈ store.findingIdsForRun runId then store.findingIdsForRun runId
            else store.findingIdsForRun runId ++ [findingId])
        else store.findingIdsForRun scanRunId := by
  rw [addFindingLineage, findingIdsForRun, Dict.get?_set]
  split_ifs <;> rfl

/-- The lineage of a run after a list of findings: each id is there once. -/
lemma lineage_foldl (scanRunId : String) (findings : List CandidateFinding) :
    ∀ store : ScanRunStore, (store.findingIdsForRun scanRunId).Nodup →
      let ids := (findings.foldl (fun store finding =>
        store.addFindingLineage scanRunId finding.id) store).findingIdsForRun scanRunId
      ids.Nodup ∧ ∀ id, id ∈ ids
        ↔ id ∈ store.findingIdsForRun scanRunId ∨ id ∈ findings.map CandidateFinding.id := by
  induction findings with
  | nil =>
      intro store hnodup
      exact ⟨hnodup, fun id => by simp⟩
  | cons finding findings ih =>
      intro store hnodup
      have hadd := store.findingIdsForRun_addFindingLineage scanRunId finding.id scanRunId
      rw [if_pos rfl] at hadd
      have hnext : ((store.addFindingLineage scanRunId finding.id).findingIdsForRun
          scanRunId).Nodup := by
        rw [hadd]
        split_ifs with hmem
        · exact hnodup
        · exact List.nodup_append.2 ⟨hnodup, by simp, by grind⟩
      obtain ⟨hids, hiff⟩ := ih _ hnext
      refine ⟨hids, fun id => ?_⟩
      rw [List.foldl_cons, hiff, hadd]
      split_ifs with hmem
      · grind
      · simp only [List.mem_append, List.map_cons, List.mem_cons]
        grind

end ScanRunStore

/-! ## What a scan leaves behind -/

variable {py rules} {stores : ScanStores} {projectId : String} {codeModel : CodeModel}
  {projectCreatedAt : Option DateTime} {stamps : ScanStamps}

@[simp] lemma findingIdsForRun_openRun (runs : ScanRunStore) (scanRunId : String) :
    (openRun projectId projectCreatedAt stamps runs).findingIdsForRun scanRunId
      = runs.findingIdsForRun scanRunId := by
  simp [openRun, ScanRunStore.completeStageExecution]

lemma runScanStage_error {exc scanRunId : String} {stamp : ExecutionStamp}
    (h : scan py rules codeModel (some projectId) = .error exc) :
    runScanStage py rules scanRunId projectId codeModel stamp stores
      = ({ stores with
            runs := (stores.runs.beginStageExecution scanRunId "SCAN" stamp.executionId
              stamp.startedAt).failStageExecution scanRunId "SCAN" stamp.executionId stamp.endedAt
                exc }, .error exc) := by
  simp [runScanStage, recordStageExecution, doScan, h]

lemma runScanStage_ok {scanRunId : String} {stamp : ExecutionStamp} {report : ScanReport}
    (h : scan py rules codeModel (some projectId) = .ok report) :
    runScanStage py rules scanRunId projectId codeModel stamp stores
      = ({ runs := (report.findings.foldl
              (fun runs finding => runs.addFindingLineage scanRunId finding.id)
              (stores.runs.beginStageExecution scanRunId "SCAN" stamp.executionId
                stamp.startedAt)).completeStageExecution scanRunId "SCAN" stamp.executionId
                  stamp.endedAt
           findings := stores.findings.addReport report.findings }, .ok report) := by
  simp [runScanStage, recordStageExecution, doScan, h]

/-- **A scan that fails** stores no finding and no lineage, raises the exception again, and leaves
a failed run without a total. -/
theorem executeScan_error {exc : String}
    (h : scan py rules codeModel (some projectId) = .error exc) :
    let outcome := executeScan py rules stores projectId codeModel projectCreatedAt stamps
    outcome.2 = .error exc ∧ outcome.1.findings = stores.findings
      ∧ (∀ scanRunId, outcome.1.runs.findingIdsForRun scanRunId
        = stores.runs.findingIdsForRun scanRunId)
      ∧ ∃ run, outcome.1.runs.getRun stamps.scanRunId = some run ∧ run.status = .failed
        ∧ run.error = some exc ∧ run.totalFindings = none := by
  simp only [executeScan, runScanStage_error h]
  refine ⟨trivial, trivial, fun scanRunId => ?_, _,
    (ScanRunStore.getRun_createRun ..).trans (if_pos rfl), rfl, rfl, rfl⟩
  simp [ScanRunStore.failStageExecution]

/-- **A scan that returns** registers the findings of its report, makes their ids the lineage of
its new run, and closes the run with the length of the report. -/
theorem executeScan_ok {report : ScanReport}
    (h : scan py rules codeModel (some projectId) = .ok report)
    (hfresh : stores.runs.findingIdsForRun stamps.scanRunId = []) :
    let outcome := executeScan py rules stores projectId codeModel projectCreatedAt stamps
    outcome.1.findings = stores.findings.addReport report.findings
      ∧ (outcome.1.runs.findingIdsForRun stamps.scanRunId).Nodup
      ∧ (∀ id, id ∈ outcome.1.runs.findingIdsForRun stamps.scanRunId
        ↔ id ∈ report.findings.map CandidateFinding.id)
      ∧ ∃ run, outcome.2 = .ok (run, report)
        ∧ outcome.1.runs.getRun stamps.scanRunId = some run ∧ run.status = .completed
        ∧ run.totalFindings = some report.findings.length := by
  have hlineage := ScanRunStore.lineage_foldl stamps.scanRunId report.findings
    ((openRun projectId projectCreatedAt stamps stores.runs).beginStageExecution stamps.scanRunId
      "SCAN" stamps.scanExecution.executionId stamps.scanExecution.startedAt)
  simp only [ScanRunStore.findingIdsForRun_beginStageExecution, findingIdsForRun_openRun, hfresh,
    List.nodup_nil, List.not_mem_nil, false_or, true_implies] at hlineage
  simp only [executeScan, runScanStage_ok h]
  refine ⟨trivial, ?_, ?_, _, rfl, (ScanRunStore.getRun_createRun ..).trans (if_pos rfl), rfl,
    rfl⟩
  · simpa [ScanRunStore.completeStageExecution] using hlineage.1
  · simpa [ScanRunStore.completeStageExecution] using hlineage.2

end Sast
