import SastEngine.Scan.StageRecords

/-!
# The tables of the scan run store

The four tables that `scan/run_store.py` writes to, and what each operation writes.  A table is a
dictionary from its primary key to its other columns; payloads are the records themselves.  A query
returns the rows of a table in any order.
-/

namespace Sast

/-- The columns of `ScanRunRow`, beside its key. -/
structure RunRow where
  projectId : String
  payload : ScanRun
deriving DecidableEq

/-- The columns of `ScanStageExecutionRow`, beside its key. -/
structure ExecutionRow where
  scanRunId : String
  stageName : String
  payload : ScanStageExecution
deriving DecidableEq

/-- `scan_runs`, `scan_stage_runs`, `scan_stage_executions` and `scan_findings`. -/
structure ScanTables where
  runs : Dict String RunRow
  stages : Dict (String × String) ScanStageRun
  executions : Dict String ExecutionRow
  findings : Dict (String × String) Unit

namespace ScanTables

/-- The tables without rows. -/
def empty : ScanTables := ⟨.empty, .empty, .empty, .empty⟩

/-- `db_upsert` of a run: an existing row keeps its other columns. -/
def upsertRun (tables : ScanTables) (run : ScanRun) : ScanTables :=
  { tables with
    runs := tables.runs.set run.scanRunId
      (match tables.runs.get? run.scanRunId with
        | none => ⟨run.projectId, run⟩
        | some row => { row with payload := run }) }

/-- The write of `upsert_stage`. -/
def upsertStage (tables : ScanTables) (stage : ScanStageRun) : ScanTables :=
  { tables with stages := tables.stages.set (stage.scanRunId, stage.stageName) stage }

/-- `_upsert_execution_row`. -/
def upsertExecution (tables : ScanTables) (execution : ScanStageExecution) : ScanTables :=
  { tables with
    executions := tables.executions.set execution.executionId
      (match tables.executions.get? execution.executionId with
        | none => ⟨execution.scanRunId, execution.stageName, execution⟩
        | some row => { row with payload := execution }) }

/-- The write of `add_finding_lineage`. -/
def addFinding (tables : ScanTables) (scanRunId findingId : String) : ScanTables :=
  match tables.findings.get? (scanRunId, findingId) with
  | none => { tables with findings := tables.findings.set (scanRunId, findingId) () }
  | some _ => tables

/-- The write of `delete_project_runs`. -/
def deleteRuns (tables : ScanTables) (runIds : List String) : ScanTables where
  runs := tables.runs.filter fun scanRunId _ => scanRunId ∉ runIds
  stages := tables.stages.filter fun key _ => key.1 ∉ runIds
  executions := tables.executions.filter fun _ row => row.scanRunId ∉ runIds
  findings := tables.findings.filter fun key _ => key.1 ∉ runIds

end ScanTables

/-! ## Loading -/

/-- The rows of the four tables, in the order in which the queries return them. -/
structure ScanRows where
  runs : List (String × RunRow)
  stages : List ((String × String) × ScanStageRun)
  executions : List (String × ExecutionRow)
  findings : List ((String × String) × Unit)

/-- The queries return the rows of the tables. -/
structure ScanTables.Returns (tables : ScanTables) (rows : ScanRows) : Prop where
  runs : rows.runs.Perm tables.runs.entries
  stages : rows.stages.Perm tables.stages.entries
  executions : rows.executions.Perm tables.executions.entries
  findings : rows.findings.Perm tables.findings.entries

namespace ScanRunStore

/-- `set_factory`. -/
def setFactory (rows : ScanRows) : ScanRunStore where
  runs := rows.runs.foldl (fun runs row => runs.set row.1 row.2.payload) .empty
  stages := Dict.groupInto (fun row => row.2.scanRunId)
    (fun row => Dict.empty.set row.2.stageName row.2)
    (fun stages row => stages.set row.2.stageName row.2) rows.stages
  executions := (Dict.collect (fun row => row.2.payload.scanRunId) (fun row => row.2.payload)
    rows.executions).mapValues (sortUp fun e => e.startedAt.instant)
  lineage := Dict.collect (fun row => row.1.1) (fun row => row.1.2) rows.findings

end ScanRunStore

/-! ## Operations on both copies -/

/-- The store with its tables. -/
structure RunHistory where
  store : ScanRunStore
  tables : ScanTables

/-- The operations of the store, and a restart at which the queries return the given rows. -/
inductive HistoryOp where
  | createRun (run : ScanRun)
  | updateRun (run : ScanRun)
  | upsertStage (stage : ScanStageRun)
  | begin (scanRunId stageName executionId : String) (startedAt : DateTime)
  | complete (scanRunId stageName executionId : String) (completedAt : DateTime)
  | fail (scanRunId stageName executionId : String) (completedAt : DateTime) (error : String)
  | addFindingLineage (scanRunId findingId : String)
  | deleteProjectRuns (projectId : String)
  | clear
  | restart (rows : ScanRows)

/-- The record that `begin_stage_execution` stores. -/
def ScanRunStore.startedStage (store : ScanRunStore) (scanRunId stageName : String)
    (startedAt : DateTime) : ScanStageRun :=
  { scanRunId := scanRunId, stageName := stageName, status := .running,
    startedAt := some startedAt, completedAt := none, error := none,
    executionCount := ((store.stage scanRunId stageName).map
      ScanStageRun.executionCount).getD 0 + 1,
    lastExecutionAt := some startedAt }

/-- The execution that `_update_execution` finds. -/
def ScanRunStore.findExecution (store : ScanRunStore) (executionId : String) :
    Option ScanStageExecution :=
  (store.executions.entries.find? fun entry =>
    entry.2.any fun e => e.executionId = executionId).bind fun entry =>
      entry.2.find? fun e => e.executionId = executionId

namespace ScanTables

/-- The write of `_update_execution`: the execution found in memory, with its ending. -/
def closeExecution (tables : ScanTables) (store : ScanRunStore) (executionId : String)
    (ending : ScanRunStore.Ending) : ScanTables :=
  match store.findExecution executionId with
  | none => tables
  | some execution => tables.upsertExecution (ending.close execution)

/-- The writes of `complete_stage_execution` and `fail_stage_execution`. -/
def endStageExecution (tables : ScanTables) (store : ScanRunStore) (c : Closing) : ScanTables :=
  (tables.closeExecution store c.executionId c.ending).upsertStage
    (c.record (store.stage c.scanRunId c.stageName))

/-- What an operation writes to the tables; the store is the one before the operation. -/
def write (tables : ScanTables) (store : ScanRunStore) : HistoryOp → ScanTables
  | .createRun run | .updateRun run => tables.upsertRun run
  | .upsertStage stage => tables.upsertStage stage
  | .begin scanRunId stageName executionId startedAt =>
      (tables.upsertExecution
        (begunExecution scanRunId stageName executionId startedAt)).upsertStage
          (store.startedStage scanRunId stageName startedAt)
  | .complete scanRunId stageName executionId completedAt =>
      tables.endStageExecution store
        ⟨scanRunId, stageName, executionId, ⟨.completed, completedAt, none⟩⟩
  | .fail scanRunId stageName executionId completedAt error =>
      tables.endStageExecution store
        ⟨scanRunId, stageName, executionId, ⟨.failed, completedAt, some error⟩⟩
  | .addFindingLineage scanRunId findingId => tables.addFinding scanRunId findingId
  | .deleteProjectRuns projectId =>
      let runIds := store.runIdsOf projectId
      if runIds.isEmpty then tables else tables.deleteRuns runIds
  | .clear => .empty
  | .restart _ => tables

end ScanTables

/-- The store after an operation. -/
def ScanRunStore.after (store : ScanRunStore) : HistoryOp → ScanRunStore
  | .createRun run | .updateRun run => store.createRun run
  | .upsertStage stage => store.upsertStage stage
  | .begin scanRunId stageName executionId startedAt =>
      store.beginStageExecution scanRunId stageName executionId startedAt
  | .complete scanRunId stageName executionId completedAt =>
      store.completeStageExecution scanRunId stageName executionId completedAt
  | .fail scanRunId stageName executionId completedAt error =>
      store.failStageExecution scanRunId stageName executionId completedAt error
  | .addFindingLineage scanRunId findingId => store.addFindingLineage scanRunId findingId
  | .deleteProjectRuns projectId => store.deleteProjectRuns projectId
  | .clear => .empty
  | .restart rows => .setFactory rows

/-- One operation, on the memory and on the database. -/
def historyStep (h : RunHistory) (op : HistoryOp) : RunHistory where
  store := h.store.after op
  tables := h.tables.write h.store op

end Sast
