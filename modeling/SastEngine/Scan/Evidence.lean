import Mathlib.Data.List.Sort
import SastEngine.Python.Stdlib
import SastEngine.Scan.Models

/-!
# Evidence from parsed source

The definitions of `scan/evidence.py`: snippets are slices of the repository source.
-/

namespace Sast

/-- `MAX_SNIPPET_CHARS`. -/
def maxSnippetChars : Nat := 200

/-- `line_text(source, line)`. -/
def lineText (source : String) (line : Nat) : String :=
  let lines := splitlines source.toList
  if 0 < line && line ≤ lines.length then
    String.ofList ((strip ((lines[line - 1]?).getD [])).take maxSnippetChars)
  else ""

/-- `source_segment(source, node)`. -/
def sourceSegment (source : String) (loc : Loc) : String :=
  String.ofList ((strip (getSourceSegment source loc).toList).take maxSnippetChars)

/-- `sorted({step.line for step in taint_path})`. -/
def relevantLines (path : List TaintStep) : List Nat :=
  ((path.map TaintStep.line).dedup).insertionSort (· ≤ ·)

/-- `EvidenceBuilder.build`. -/
def buildEvidence (source : SourceRef) (sink : SinkRef) (path : List TaintStep)
    (observations : List String) : Evidence where
  sourceSnippet := source.snippet
  sinkSnippet := sink.snippet
  taintPath := path
  relevantLines := relevantLines path
  sanitizerObservations := observations

end Sast
