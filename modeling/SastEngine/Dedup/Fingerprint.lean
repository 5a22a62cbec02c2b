import SastEngine.Python.Stdlib
import SastEngine.Scan.Models

/-!
# Fingerprints

`dedup/fingerprint.py`.  Snippets are tokenized by Python's `tokenize`, which is a parameter, and
mapped to a small vocabulary; the fingerprint is the hash of the resulting structure.
-/

namespace Sast

/-- The token types that `normalize_snippet` tells apart. -/
inductive TokenType where
  | op
  | name
  | number
  | string
  | fstringStart
  | fstringMiddle
  | fstringEnd
  | other
deriving DecidableEq

/-- `_LITERAL_TYPES`. -/
def literalTypes : List TokenType := [.number, .string, .fstringStart, .fstringMiddle, .fstringEnd]

/-- `TokenInfo`, without its positions. -/
structure Token where
  type : TokenType
  string : String
deriving DecidableEq

/-- `tokenize.generate_tokens`, run to its end; `none` where it raises an error that
`normalize_snippet` catches. -/
abbrev Tokenizer := String → Option (List Token)

/-- The loop of `normalize_snippet`. -/
def tokenParts : List Token → List String
  | [] => []
  | ⟨.op, "."⟩ :: ⟨.name, name⟩ :: tokens => ("." ++ name) :: tokenParts tokens
  | ⟨.op, text⟩ :: tokens => text :: tokenParts tokens
  | ⟨.name, _⟩ :: tokens => "_n_" :: tokenParts tokens
  | ⟨type, _⟩ :: tokens =>
      if type ∈ literalTypes then "_lit_" :: tokenParts tokens else tokenParts tokens

/-- `normalize_snippet`. -/
def normalizeSnippet (tokenize : Tokenizer) (snippet : String) : String :=
  if strip snippet.toList = [] then ""
  else
    match tokenize snippet with
    | none => "_unparsable_"
    | some tokens => " ".intercalate (tokenParts tokens)

/-- `FindingFingerprint`. -/
structure FindingFingerprint where
  value : String
  structuralSignature : String
  vulnerabilityType : String
  sourceCategory : String
  sinkCategory : String
  normalizedSource : String
  normalizedSink : String
  taintStructure : String
deriving DecidableEq

/-- The text of a step type. -/
def StepType.text : StepType → String
  | .source => "source"
  | .assignment => "assignment"
  | .propagation => "propagation"
  | .stringConstruction => "string_construction"
  | .sink => "sink"

/-- `FindingFingerprintBuilder.build`. -/
def buildFingerprint (py : Stdlib) (tokenize : Tokenizer) (finding : CandidateFinding) :
    FindingFingerprint :=
  let normSource := normalizeSnippet tokenize finding.source.snippet
  let normSink := normalizeSnippet tokenize finding.sink.snippet
  let taintStructure := "->".intercalate (finding.taintPath.map fun step => step.stepType.text)
  let signature := "|".intercalate
    [finding.vulnerabilityType, finding.source.kind, finding.sink.kind, normSource, normSink,
      taintStructure]
  { value := py.sha256 signature
    structuralSignature := signature
    vulnerabilityType := finding.vulnerabilityType
    sourceCategory := finding.source.kind
    sinkCategory := finding.sink.kind
    normalizedSource := normSource
    normalizedSink := normSink
    taintStructure := taintStructure }

end Sast
