import SastEngine.Scan.RunService
import SastEngine.Scan.RunTables

/-!
# The writes of a scan

`execute_scan` as the list of its changes to the stores.  Each change is made in memory and then
committed on its own; what a scan does without a failing commit is the list, from first to last.
-/

namespace Sast

/-- One change of the stores by a scan. -/
inductive ScanWrite where
  | saveRun (run : ScanRun)
  | upsertStage (stage : ScanStageRun)
  | appendExecution (execution : ScanStageExecution)
  | startStage (scanRunId stageName : String) (startedAt : DateTime)
  | endExecution (executionId : String) (ending : ScanRunStore.Ending)
  | endStage (scanRunId stageName : String) (ending : ScanRunStore.Ending)
  | addFinding (finding : CandidateFinding)
  | addLineage (scanRunId findingId : String)

namespace ScanRunStore

/-- The first change of `begin_stage_execution`. -/
def appendExecution (store : ScanRunStore) (execution : ScanStageExecution) : ScanRunStore :=
  { store with
    executions := store.executions.set execution.scanRunId
      (store.executionsOf execution.scanRunId ++ [execution]) }

/-- The record that `complete_stage_execution` and `fail_stage_execution` store. -/
def endedStage (store : ScanRunStore) (scanRunId stageName : String) (ending : Ending) :
    ScanStageRun :=
  (Closing.mk scanRunId stageName "" ending).record (store.stage scanRunId stageName)

end ScanRunStore

/-- What a change does in memory. -/
def ScanWrite.remember (stores : ScanStores) : ScanWrite → ScanStores
  | .saveRun run => { stores with runs := stores.runs.createRun run }
  | .upsertStage stage => { stores with runs := stores.runs.upsertStage stage }
  | .appendExecution execution => { stores with runs := stores.runs.appendExecution execution }
  | .startStage scanRunId stageName startedAt =>
      { stores with
        runs := stores.runs.upsertStage
          (stores.runs.startedStage scanRunId stageName startedAt) }
  | .endExecution executionId ending =>
      { stores with runs := stores.runs.updateExecution executionId ending }
  | .endStage scanRunId stageName ending =>
      { stores with
        runs := stores.runs.upsertStage (stores.runs.endedStage scanRunId stageName ending) }
  | .addFinding finding => { stores with findings := stores.findings.add finding }
  | .addLineage scanRunId findingId =>
      { stores with runs := stores.runs.addFindingLineage scanRunId findingId }

/-- Changes one after another, in memory. -/
def rememberAll (writes : List ScanWrite) (stores : ScanStores) : ScanStores :=
  writes.foldl ScanWrite.remember stores

/-! ## The list of a scan -/

/-- `begin_stage_execution`. -/
def beginWrites (scanRunId stageName executionId : String) (startedAt : DateTime) :
    List ScanWrite :=
  [.appendExecution (begunExecution scanRunId stageName executionId startedAt),
    .startStage scanRunId stageName startedAt]

/-- `complete_stage_execution` and `fail_stage_execution`. -/
def endWrites (scanRunId stageName executionId : String) (ending : ScanRunStore.Ending) :
    List ScanWrite :=
  [.endExecution executionId ending, .endStage scanRunId stageName ending]

/-- The changes of a scan up to its SCAN stage. -/
def openWrites (projectId : String) (projectCreatedAt : Option DateTime) (stamps : ScanStamps) :
    List ScanWrite :=
  let prepareAt := (projectCreatedAt.map DateTime.asAwareUtc).getD stamps.now
  .saveRun (openedRun projectId stamps)
    :: stageNames.map (fun name => .upsertStage
      { scanRunId := stamps.scanRunId, stageName := name, status := .pending })
    ++ beginWrites stamps.scanRunId "PREPARE" stamps.prepareExecutionId prepareAt
    ++ endWrites stamps.scanRunId "PREPARE" stamps.prepareExecutionId
      ⟨.completed, prepareAt, none⟩

/-- The run of a scan whose scanner raised. -/
def failedRun (projectId : String) (stamps : ScanStamps) (exc : String) : ScanRun :=
  { openedRun projectId stamps with
    status := .failed, completedAt := some stamps.closedAt, error := some exc }

/-- The run of a scan that returns. -/
def completedRun (projectId : String) (stamps : ScanStamps) (report : ScanReport) : ScanRun :=
  { openedRun projectId stamps with
    status := .completed, completedAt := some stamps.closedAt,
    scannedFileCount := some report.scannedFileCount,
    totalFindings := some report.findings.length }

/-- The changes of a scan, for what the scanner returns. -/
def scanWrites (projectId : String) (projectCreatedAt : Option DateTime) (stamps : ScanStamps)
    (outcome : Except String ScanReport) : List ScanWrite :=
  let execution := stamps.scanExecution
  openWrites projectId projectCreatedAt stamps
    ++ beginWrites stamps.scanRunId "SCAN" execution.executionId execution.startedAt
    ++ match outcome with
      | .error exc =>
          endWrites stamps.scanRunId "SCAN" execution.executionId
              ⟨.failed, execution.endedAt, some exc⟩
            ++ [.saveRun (failedRun projectId stamps exc)]
      | .ok report =>
          report.findings.map .addFinding
            ++ report.findings.map (fun finding => .addLineage stamps.scanRunId finding.id)
            ++ endWrites stamps.scanRunId "SCAN" execution.executionId
              ⟨.completed, execution.endedAt, none⟩
            ++ [.saveRun (completedRun projectId stamps report)]

/-! ## The list is `execute_scan` -/

lemma rememberAll_append (xs ys : List ScanWrite) (stores : ScanStores) :
    rememberAll (xs ++ ys) stores = rememberAll ys (rememberAll xs stores) := List.foldl_append

@[simp] lemma rememberAll_cons (write : ScanWrite) (writes : List ScanWrite)
    (stores : ScanStores) :
    rememberAll (write :: writes) stores = rememberAll writes (write.remember stores) := rfl

@[simp] lemma rememberAll_nil (stores : ScanStores) : rememberAll [] stores = stores := rfl

lemma rememberAll_beginWrites (scanRunId stageName executionId : String) (startedAt : DateTime)
    (stores : ScanStores) :
    rememberAll (beginWrites scanRunId stageName executionId startedAt) stores
      = { stores with
          runs := stores.runs.beginStageExecution scanRunId stageName executionId startedAt } :=
  rfl

lemma rememberAll_endWrites (scanRunId stageName executionId : String)
    (ending : ScanRunStore.Ending) (stores : ScanStores) :
    rememberAll (endWrites scanRunId stageName executionId ending) stores
      = { stores with
          runs := stores.runs.endStageExecution scanRunId stageName executionId ending } := rfl

lemma rememberAll_openWrites (projectId : String) (projectCreatedAt : Option DateTime)
    (stamps : ScanStamps) (stores : ScanStores) :
    rememberAll (openWrites projectId projectCreatedAt stamps) stores
      = { stores with runs := openRun projectId projectCreatedAt stamps stores.runs } := rfl

lemma rememberAll_findings (findings : List CandidateFinding) (stores : ScanStores) :
    rememberAll (findings.map .addFinding) stores
      = { stores with findings := stores.findings.addReport findings } := by
  induction findings generalizing stores with
  | nil => rfl
  | cons finding findings ih =>
      rw [List.map_cons, rememberAll_cons, ih]
      rfl

lemma rememberAll_lineage (scanRunId : String) (findings : List CandidateFinding)
    (stores : ScanStores) :
    rememberAll (findings.map fun finding => .addLineage scanRunId finding.id) stores
      = { stores with
          runs := findings.foldl
            (fun runs finding => runs.addFindingLineage scanRunId finding.id) stores.runs } := by
  induction findings generalizing stores with
  | nil => rfl
  | cons finding findings ih =>
      rw [List.map_cons, rememberAll_cons, ih]
      rfl

/-- **The changes of a scan, one after another**, are what `execute_scan` does to the stores. -/
theorem rememberAll_scanWrites (py : Stdlib) (rules : List ScanRule) (stores : ScanStores)
    (projectId : String) (codeModel : CodeModel) (projectCreatedAt : Option DateTime)
    (stamps : ScanStamps) :
    rememberAll (scanWrites projectId projectCreatedAt stamps
        (scan py rules codeModel (some projectId))) stores
      = (executeScan py rules stores projectId codeModel projectCreatedAt stamps).1 := by
  cases houtcome : scan py rules codeModel (some projectId) with
  | error exc =>
      simp only [scanWrites, rememberAll_append, rememberAll_openWrites, rememberAll_beginWrites,
        rememberAll_endWrites, executeScan, runScanStage_error houtcome]
      rfl
  | ok report =>
      simp only [scanWrites, rememberAll_append, rememberAll_openWrites, rememberAll_beginWrites,
        rememberAll_endWrites, rememberAll_findings, rememberAll_lineage, executeScan,
        runScanStage_ok houtcome]
      rfl

end Sast
