import SastEngine.Core.Time

/-!
# Scan run contracts

The records of `scan/run_models.py`.
-/

namespace Sast

/-- `ScanRunStatus` and `StageStatus`. -/
inductive RunStatus where
  | pending
  | running
  | completed
  | failed
deriving DecidableEq

/-- `STAGE_NAMES`. -/
def stageNames : List String :=
  ["PREPARE", "SCAN", "DEDUPLICATE", "RISK", "SLA", "VALIDATE", "PROVE", "APPROVAL"]

/-- `ScanRun`. -/
structure ScanRun where
  scanRunId : String
  projectId : String
  status : RunStatus
  startedAt : DateTime
  completedAt : Option DateTime := none
  scannedFileCount : Option Nat := none
  totalFindings : Option Nat := none
  error : Option String := none
  createdAt : DateTime
deriving DecidableEq

/-- `ScanStageRun`. -/
structure ScanStageRun where
  scanRunId : String
  stageName : String
  status : RunStatus
  startedAt : Option DateTime := none
  completedAt : Option DateTime := none
  error : Option String := none
  executionCount : Nat := 0
  lastExecutionAt : Option DateTime := none
deriving DecidableEq

/-- `ScanStageExecution`. -/
structure ScanStageExecution where
  executionId : String
  scanRunId : String
  stageName : String
  status : RunStatus
  startedAt : DateTime
  completedAt : Option DateTime := none
  error : Option String := none
deriving DecidableEq

end Sast
