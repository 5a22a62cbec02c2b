import SastEngine.Lib.Dict
import SastEngine.Lib.Sorting
import SastEngine.Scan.RunModels

/-!
# The scan run store

The in-memory store of `scan/run_store.py`: runs, the record of each stage of a run, the execution
history of each run in the order in which executions were begun, and the finding lineage.
-/

namespace Sast

/-- `ScanRunStore`. -/
structure ScanRunStore where
  runs : Dict String ScanRun
  stages : Dict String (Dict String ScanStageRun)
  executions : Dict String (List ScanStageExecution)
  lineage : Dict String (List String)

namespace ScanRunStore

/-- The store without runs. -/
def empty : ScanRunStore := ⟨.empty, .empty, .empty, .empty⟩

/-- `get_run`. -/
def getRun (store : ScanRunStore) (scanRunId : String) : Option ScanRun :=
  store.runs.get? scanRunId

/-- `create_run` and `update_run`. -/
def createRun (store : ScanRunStore) (run : ScanRun) : ScanRunStore :=
  { store with runs := store.runs.set run.scanRunId run }

/-- `_stage`. -/
def stage (store : ScanRunStore) (scanRunId stageName : String) : Option ScanStageRun :=
  ((store.stages.get? scanRunId).getD .empty).get? stageName

/-- `upsert_stage`. -/
def upsertStage (store : ScanRunStore) (record : ScanStageRun) : ScanRunStore :=
  { store with
    stages := store.stages.set record.scanRunId
      (((store.stages.get? record.scanRunId).getD .empty).set record.stageName record) }

/-- The stages of a new run, all `pending`, as `execute_scan` registers them. -/
def registerStages (store : ScanRunStore) (scanRunId : String) : ScanRunStore :=
  stageNames.foldl (fun store name =>
    store.upsertStage { scanRunId := scanRunId, stageName := name, status := .pending }) store

/-- The execution history of a run, in the order in which executions were begun. -/
def executionsOf (store : ScanRunStore) (scanRunId : String) : List ScanStageExecution :=
  (store.executions.get? scanRunId).getD []

/-- `finding_ids_for_run`. -/
def findingIdsForRun (store : ScanRunStore) (scanRunId : String) : List String :=
  (store.lineage.get? scanRunId).getD []

/-- `add_finding_lineage`. -/
def addFindingLineage (store : ScanRunStore) (scanRunId findingId : String) : ScanRunStore :=
  let ids := store.findingIdsForRun scanRunId
  { store with
    lineage := store.lineage.set scanRunId
      (if findingId ∈ ids then ids else ids ++ [findingId]) }

/-- `begin_stage_execution`. -/
def beginStageExecution (store : ScanRunStore) (scanRunId stageName executionId : String)
    (startedAt : DateTime) : ScanRunStore :=
  let execution : ScanStageExecution :=
    { executionId := executionId, scanRunId := scanRunId, stageName := stageName,
      status := .running, startedAt := startedAt }
  let store := { store with
    executions := store.executions.set scanRunId (store.executionsOf scanRunId ++ [execution]) }
  let previous := store.stage scanRunId stageName
  store.upsertStage
    { scanRunId := scanRunId, stageName := stageName, status := .running,
      startedAt := some startedAt, completedAt := none, error := none,
      executionCount := (previous.map ScanStageRun.executionCount).getD 0 + 1,
      lastExecutionAt := some startedAt }

/-- How an execution ends. -/
structure Ending where
  status : RunStatus
  completedAt : DateTime
  error : Option String
deriving DecidableEq

/-- The execution with its ending. -/
def Ending.close (ending : Ending) (execution : ScanStageExecution) : ScanStageExecution :=
  { execution with
    status := ending.status, completedAt := some ending.completedAt, error := ending.error }

/-- Replace the first execution with the id. -/
def closeFirst (executionId : String) (ending : Ending) :
    List ScanStageExecution → List ScanStageExecution
  | [] => []
  | e :: es =>
      if e.executionId = executionId then ending.close e :: es
      else e :: closeFirst executionId ending es

/-- `_update_execution`: the first execution with the id, over all runs, is replaced. -/
def updateExecution (store : ScanRunStore) (executionId : String) (ending : Ending) :
    ScanRunStore :=
  match store.executions.entries.find? fun entry =>
      entry.2.any fun e => e.executionId = executionId with
  | some (scanRunId, executions) =>
      { store with
        executions := store.executions.set scanRunId (closeFirst executionId ending executions) }
  | none => store

/-- `complete_stage_execution` and `fail_stage_execution`, which differ in the ending. -/
def endStageExecution (store : ScanRunStore) (scanRunId stageName executionId : String)
    (ending : Ending) : ScanRunStore :=
  let store := store.updateExecution executionId ending
  let previous := store.stage scanRunId stageName
  store.upsertStage
    { scanRunId := scanRunId, stageName := stageName, status := ending.status,
      startedAt := previous.bind ScanStageRun.startedAt,
      completedAt := some ending.completedAt, error := ending.error,
      executionCount := (previous.map ScanStageRun.executionCount).getD 0,
      lastExecutionAt := previous.bind ScanStageRun.lastExecutionAt }

/-- `complete_stage_execution`. -/
def completeStageExecution (store : ScanRunStore) (scanRunId stageName executionId : String)
    (completedAt : DateTime) : ScanRunStore :=
  store.endStageExecution scanRunId stageName executionId ⟨.completed, completedAt, none⟩

/-- `fail_stage_execution`. -/
def failStageExecution (store : ScanRunStore) (scanRunId stageName executionId : String)
    (completedAt : DateTime) (error : String) : ScanRunStore :=
  store.endStageExecution scanRunId stageName executionId ⟨.failed, completedAt, some error⟩

/-- The runs of a project. -/
def runIdsOf (store : ScanRunStore) (projectId : String) : List String :=
  (store.runs.values.filter fun run => run.projectId = projectId).map ScanRun.scanRunId

/-- `delete_project_runs`. -/
def deleteProjectRuns (store : ScanRunStore) (projectId : String) : ScanRunStore :=
  let runIds := store.runIdsOf projectId
  { runs := store.runs.eraseAll runIds
    stages := store.stages.eraseAll runIds
    executions := store.executions.eraseAll runIds
    lineage := store.lineage.eraseAll runIds }

/-! ## Reads -/

/-- What a read can raise: a lineage names a run that is not stored, or naive and aware times are
compared. -/
inductive ReadError where
  | keyError
  | typeError
deriving DecidableEq

/-- `sorted(runs, key=lambda r: r.started_at, reverse=True)`. -/
def newestFirst (runs : List ScanRun) : Except ReadError (List ScanRun) :=
  if (runs.any fun run => run.startedAt.isAware) && runs.any fun run => !run.startedAt.isAware then
    .error .typeError
  else .ok (sortDown (fun run => run.startedAt.instant) runs)

/-- `runs_for_project`. -/
def runsForProject (store : ScanRunStore) (projectId : String) :
    Except ReadError (List ScanRun) :=
  newestFirst (store.runs.values.filter fun run => run.projectId = projectId)

/-- The runs whose lineage has the finding. -/
def producers (store : ScanRunStore) (findingId : String) : List String :=
  (store.lineage.entries.filter fun entry => findingId ∈ entry.2).map Prod.fst

/-- `runs_for_finding`. -/
def runsForFinding (store : ScanRunStore) (findingId : String) :
    Except ReadError (List ScanRun) :=
  match (store.producers findingId).mapM store.getRun with
  | none => .error .keyError
  | some runs => newestFirst runs

/-- `stages_for_run`. -/
def stagesForRun (store : ScanRunStore) (scanRunId : String) : List ScanStageRun :=
  stageNames.filterMap (store.stage scanRunId)

/-- `executions_for_run`. -/
def executionsForRun (store : ScanRunStore) (scanRunId : String) : List ScanStageExecution :=
  sortUp (fun e => e.startedAt.instant) (store.executionsOf scanRunId)

/-! ## Reading the store -/

lemma stage_upsertStage (store : ScanRunStore) (record : ScanStageRun)
    (scanRunId stageName : String) :
    (store.upsertStage record).stage scanRunId stageName
      = if scanRunId = record.scanRunId ∧ stageName = record.stageName then some record
        else store.stage scanRunId stageName := by
  simp only [stage, upsertStage, Dict.get?_set]
  by_cases hrun : scanRunId = record.scanRunId
  · subst hrun
    simp [Dict.get?_set]
  · simp [hrun]

lemma stage_updateExecution (store : ScanRunStore) (executionId : String) (ending : Ending)
    (scanRunId stageName : String) :
    (store.updateExecution executionId ending).stage scanRunId stageName
      = store.stage scanRunId stageName := by
  unfold updateExecution
  split <;> rfl

@[simp] lemma executionsOf_upsertStage (store : ScanRunStore) (record : ScanStageRun)
    (scanRunId : String) :
    (store.upsertStage record).executionsOf scanRunId = store.executionsOf scanRunId := rfl

lemma executionsOf_registerStages (store : ScanRunStore) (scanRunId runId : String) :
    (store.registerStages scanRunId).executionsOf runId = store.executionsOf runId := rfl

lemma stage_registerStages (store : ScanRunStore) (scanRunId runId stageName : String) :
    (store.registerStages scanRunId).stage runId stageName
      = if runId = scanRunId ∧ stageName ∈ stageNames
          then some { scanRunId := scanRunId, stageName := stageName, status := .pending }
        else store.stage runId stageName := by
  have h : ∀ (names : List String) (store : ScanRunStore),
      (names.foldl (fun store name => store.upsertStage
        { scanRunId := scanRunId, stageName := name, status := .pending }) store).stage runId
          stageName
        = if runId = scanRunId ∧ stageName ∈ names
            then some { scanRunId := scanRunId, stageName := stageName, status := .pending }
          else store.stage runId stageName := by
    intro names
    induction names with
    | nil => simp
    | cons name names ih =>
        intro store
        rw [List.foldl_cons, ih, stage_upsertStage]
        by_cases hrun : runId = scanRunId
        · by_cases hname : stageName = name
          · simp [hrun, hname]
          · simp [hrun, hname]
        · simp [hrun]
  exact h stageNames store

/-- The executions of a stage, in the order in which they were begun. -/
def begun (store : ScanRunStore) (scanRunId stageName : String) : List ScanStageExecution :=
  (store.executionsOf scanRunId).filter fun e => e.stageName = stageName

end ScanRunStore

/-! ## The runs of a project -/

lemma mem_runIdsOf {store : ScanRunStore}
    (hnamed : ∀ runId run, store.getRun runId = some run → run.scanRunId = runId)
    {projectId scanRunId : String} :
    scanRunId ∈ store.runIdsOf projectId
      ↔ ∃ run, store.getRun scanRunId = some run ∧ run.projectId = projectId := by
  simp only [ScanRunStore.runIdsOf, List.mem_map, List.mem_filter, Dict.mem_values_iff,
    decide_eq_true_eq]
  constructor
  · rintro ⟨run, ⟨⟨runId, hget⟩, hproject⟩, rfl⟩
    exact ⟨run, hnamed runId run hget ▸ hget, hproject⟩
  · rintro ⟨run, hget, hproject⟩
    exact ⟨run, ⟨⟨scanRunId, hget⟩, hproject⟩, hnamed scanRunId run hget⟩

lemma getRun_deleteProjectRuns (store : ScanRunStore) (projectId scanRunId : String) :
    (store.deleteProjectRuns projectId).getRun scanRunId
      = if scanRunId ∈ store.runIdsOf projectId then none else store.getRun scanRunId :=
  store.runs.get?_eraseAll _ _

end Sast
