import SastEngine.Lib.Dict
import SastEngine.Python.Text
import SastEngine.Scan.Models

/-!
# Evidence packages

`validate/evidence.py`: what the model provider is shown of a finding.  The redactor is applied to
each snippet and to each surrounding line by itself.
-/

namespace Sast

/-- `_CONTEXT_WINDOW`. -/
def contextWindow : Nat := 3

section Context

variable (finding : CandidateFinding)

/-- `wanted`. -/
def wantedLines : List Int :=
  [finding.source.line, finding.sink.line].flatMap fun center =>
    (List.range (2 * contextWindow + 1)).map fun offset => (center : Int) - contextWindow + offset

/-- `enumerate(lines, start=1)`. -/
def numberedLines (lines : List (List Char)) : List (Nat × List Char) :=
  lines.mapIdx fun index line => (index + 1, line)

/-- The numbered lines of a file that the window shows. -/
def windowLines (source : String) : List (Nat × List Char) :=
  (numberedLines (splitlines source.toList)).filter fun l => (l.1 : Int) ∈ wantedLines finding

/-- `EvidenceBuilder._surrounding_context`. -/
def surroundingContext (redact : String → String) (sources : Dict String String) :
    Dict String (List String) :=
  [finding.source.file, finding.sink.file].foldl (fun context file =>
    match sources.get? file with
    | none => context
    | some source =>
        context.set file ((windowLines finding source).map fun l => redact (String.ofList l.2)))
    .empty

end Context

/-- `ValidationEvidence`. -/
structure ValidationEvidence where
  findingId : String
  vulnerabilityType : String
  severity : String
  scannerConfidence : Rat
  sourceFile : String
  sourceLine : Nat
  sourceSnippet : String
  sinkFile : String
  sinkLine : Nat
  sinkSnippet : String
  taintPath : List TaintStep
  relevantLines : List Nat
  sanitizerObservations : List String
  surroundingContext : Dict String (List String)

/-- `step.model_copy(update={"snippet": redact_secrets(step.snippet)})`. -/
def TaintStep.redact (redact : String → String) (step : TaintStep) : TaintStep :=
  { step with snippet := redact step.snippet }

/-- `EvidenceBuilder.build`. -/
def buildValidationEvidence (redact : String → String) (sources : Dict String String)
    (finding : CandidateFinding) : ValidationEvidence where
  findingId := finding.id
  vulnerabilityType := finding.vulnerabilityType
  severity := finding.severity
  scannerConfidence := finding.confidence
  sourceFile := finding.source.file
  sourceLine := finding.source.line
  sourceSnippet := redact finding.source.snippet
  sinkFile := finding.sink.file
  sinkLine := finding.sink.line
  sinkSnippet := redact finding.sink.snippet
  taintPath := finding.taintPath.map (TaintStep.redact redact)
  relevantLines := finding.evidence.relevantLines
  sanitizerObservations := finding.evidence.sanitizerObservations.map redact
  surroundingContext := surroundingContext finding redact sources

end Sast
