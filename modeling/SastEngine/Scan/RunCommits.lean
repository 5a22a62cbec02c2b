import SastEngine.Lib.Commits
import SastEngine.Scan.RunWrites

/-!
# A scan whose database can fail

`execute_scan` with its three levels of exception handlers, on the stores in memory and on their
tables.  A commit that fails raises; the handlers catch it where those of the source do.
-/

namespace Sast

/-- The stores in memory, and the ids of the findings that the scan has put into the finding
store. -/
structure ScanMemory where
  stores : ScanStores
  registered : List String

/-- The tables of the run store, and the rows of the finding store. -/
structure ScanDatabase where
  tables : ScanTables
  findings : Dict String CandidateFinding

/-- The findings that a change puts into the finding store. -/
def ScanWrite.registers : ScanWrite → List String
  | .addFinding finding => [finding.id]
  | _ => []

/-- What a change commits, given the stores before it.  An execution that is not found and a lineage
that is there already are not written. -/
def ScanWrite.row (stores : ScanStores) (database : ScanDatabase) :
    ScanWrite → Option ScanDatabase
  | .saveRun run => some { database with tables := database.tables.upsertRun run }
  | .upsertStage stage => some { database with tables := database.tables.upsertStage stage }
  | .appendExecution execution =>
      some { database with tables := database.tables.upsertExecution execution }
  | .startStage scanRunId stageName startedAt =>
      some { database with
        tables := database.tables.upsertStage
          (stores.runs.startedStage scanRunId stageName startedAt) }
  | .endExecution executionId ending =>
      (stores.runs.findExecution executionId).map fun execution =>
        { database with tables := database.tables.upsertExecution (ending.close execution) }
  | .endStage scanRunId stageName ending =>
      some { database with
        tables := database.tables.upsertStage
          (stores.runs.endedStage scanRunId stageName ending) }
  | .addFinding finding =>
      some { database with findings := database.findings.set finding.id finding }
  | .addLineage scanRunId findingId =>
      match database.tables.findings.get? (scanRunId, findingId) with
      | none => some { database with tables := database.tables.addFinding scanRunId findingId }
      | some _ => none

/-- A change, in memory and in the database. -/
def ScanWrite.commit (write : ScanWrite) : Commit ScanMemory ScanDatabase where
  remember memory := ⟨write.remember memory.stores, memory.registered ++ write.registers⟩
  write memory database := write.row memory.stores database

/-- A scan in progress; exceptions are their texts. -/
abbrev ScanJob (α : Type) : Type := Job String ScanMemory ScanDatabase α

variable (dbError : String)

/-- Changes one after another; `dbError` is the text of the exception of a failing commit. -/
def commitAll (writes : List ScanWrite) : ScanJob Unit :=
  performAll dbError ScanWrite.commit writes

/-- `record_stage_execution`, without an error condition.  The begin and the completion of the
execution are outside its `try`. -/
def recordStageJob {α : Type} (scanRunId stageName : String) (stamp : ExecutionStamp)
    (fn : ScanJob α) : ScanJob α := do
  commitAll dbError (beginWrites scanRunId stageName stamp.executionId stamp.startedAt)
  let result ← tryCatch fn fun exc => do
    commitAll dbError
      (endWrites scanRunId stageName stamp.executionId ⟨.failed, stamp.endedAt, some exc⟩)
    throw exc
  commitAll dbError
    (endWrites scanRunId stageName stamp.executionId ⟨.completed, stamp.endedAt, none⟩)
  return result

variable (py : Stdlib) (rules : List ScanRule)

/-- `_do_scan`. -/
def doScanJob (scanRunId projectId : String) (codeModel : CodeModel) : ScanJob ScanReport :=
  match scan py rules codeModel (some projectId) with
  | .error exc => throw exc
  | .ok report => do
      commitAll dbError (report.findings.map .addFinding)
      commitAll dbError (report.findings.map fun finding => .addLineage scanRunId finding.id)
      return report

/-- `execute_scan`.  What comes before the SCAN stage, and the update of the completed run, are
outside its `try`. -/
def executeScanJob (projectId : String) (codeModel : CodeModel)
    (projectCreatedAt : Option DateTime) (stamps : ScanStamps) :
    ScanJob (ScanRun × ScanReport) := do
  commitAll dbError (openWrites projectId projectCreatedAt stamps)
  let report ← tryCatch
    (recordStageJob dbError stamps.scanRunId "SCAN" stamps.scanExecution
      (doScanJob dbError py rules stamps.scanRunId projectId codeModel)) fun exc => do
    commitAll dbError [.saveRun (failedRun projectId stamps exc)]
    throw exc
  commitAll dbError [.saveRun (completedRun projectId stamps report)]
  return (completedRun projectId stamps report, report)

end Sast
