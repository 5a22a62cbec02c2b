import SastEngine.Scan.Evidence

/-!
# Scan rules

A rule tells the shared engine what a source, a sink and a sanitizer is.  The logic that the
built-in rules share (request objects, confidence) is in `rules/common.py` and follows here.
-/

namespace Sast

/-- First positional argument of a call. -/
def firstArg : Expr → Option Expr
  | .call _ _ (a :: _) _ => some a
  | _ => none

/-- `ScanRule`, with the defaults of the abstract class.  The calls handed to `matchSink`,
`isSanitized` and `sinkExpression` are `Expr.call` nodes; the two strings are the file's path and
its source. -/
structure ScanRule where
  vulnerabilityType : String
  severity : String
  poisonParams : Bool := true
  isSource : Expr → String → String → Option SourceRef
  matchSink : Expr → String → String → Option SinkRef
  isSanitized : Expr → SinkRef → Bool := fun _ _ => false
  sinkExpression : Expr → Option Expr := firstArg
  confidence : List TaintStep → String → Rat := fun _ _ => 7 / 10

/-! ## Request objects -/

/-- `REQUEST_ATTRS`. -/
def requestAttrs : List String := ["args", "form", "values", "json", "cookies", "headers"]

/-- `request.<attr>` for one of the request attributes. -/
def isRequestAttr : Expr → Bool
  | .attribute _ (.name _ id _) attr _ => id == "request" && requestAttrs.contains attr
  | _ => false

/-- The source found at `expr`. -/
def sourceAt (expr : Expr) (file source kind : String) : SourceRef where
  file := file
  line := expr.loc.lineno
  snippet := sourceSegment source expr.loc
  kind := kind

/-- `request_source`. -/
def requestSource (file source : String) : Expr → Option SourceRef
  | .attribute loc value attr ctx =>
      if isRequestAttr (.attribute loc value attr ctx) then
        some (sourceAt (.attribute loc value attr ctx) file source
          (if attr = "json" then "request_json" else "request_param"))
      else requestSource file source value
  | .subscript _ value _ _ => requestSource file source value
  | .call loc (.attribute aloc receiver attr ctx) args keywords =>
      if attr = "get" && isRequestAttr receiver then
        some (sourceAt (.call loc (.attribute aloc receiver attr ctx) args keywords) file source
          "request_param")
      else none
  | _ => none

/-- The steps that `taint_confidence` counts as intermediate. -/
def isIntermediate (step : TaintStep) : Bool :=
  step.stepType = .assignment || step.stepType = .propagation
    || step.stepType = .stringConstruction

/-- `taint_confidence`. -/
def taintConfidence (path : List TaintStep) (sourceKind : String) : Rat :=
  let base : Rat := if startswith "request" sourceKind then 9 / 10 else 7 / 10
  if 3 ≤ (path.filter isIntermediate).length then base - 1 / 10 else base

end Sast
