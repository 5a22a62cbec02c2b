import Mathlib.Data.Rat.Defs

/-!
# SCAN stage contracts

The records of `scan/models.py`.
-/

namespace Sast

/-- `SourceRef`. -/
structure SourceRef where
  file : String
  line : Nat
  snippet : String
  kind : String
deriving DecidableEq

/-- `SinkRef`. -/
structure SinkRef where
  file : String
  line : Nat
  snippet : String
  kind : String
deriving DecidableEq

/-- The literal type of `TaintStep.step_type`. -/
inductive StepType where
  | source
  | assignment
  | propagation
  | stringConstruction
  | sink
deriving DecidableEq

/-- `TaintStep`. -/
structure TaintStep where
  file : String
  line : Nat
  snippet : String
  stepType : StepType
deriving DecidableEq

/-- `Evidence`. -/
structure Evidence where
  sourceSnippet : String
  sinkSnippet : String
  taintPath : List TaintStep
  relevantLines : List Nat
  sanitizerObservations : List String
deriving DecidableEq

/-- `CandidateFinding`; its `status` is always `"candidate"`. -/
structure CandidateFinding where
  id : String
  vulnerabilityType : String
  severity : String
  confidence : Rat
  source : SourceRef
  sink : SinkRef
  taintPath : List TaintStep
  evidence : Evidence
deriving DecidableEq

/-- `FunctionSummary`. -/
structure FunctionSummary where
  qualifiedName : String
  file : String
  line : Nat
  taintedParams : List String
  sinks : List SinkRef
  returnsTaint : Bool
deriving DecidableEq

/-- `ScanSummary`; `byType` in order of first occurrence. -/
structure ScanSummary where
  total : Nat
  byType : List (String × Nat)

/-- The part of `SourceFile` the SCAN stage reads; `error` is set when PREPARE could not parse. -/
structure SourceFile where
  path : String
  source : String
  error : Option String

/-- The part of `CodeModel` the SCAN stage reads. -/
structure CodeModel where
  projectId : String
  files : List SourceFile

/-- `ScanReport`, without its generated id and time. -/
structure ScanReport where
  scannedFileCount : Nat
  findings : List CandidateFinding
  functionSummaries : List FunctionSummary
  summary : ScanSummary

end Sast
