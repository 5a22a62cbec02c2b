import SastEngine.Scan.Rules.Rule

/-!
# The built-in rules

`sql_injection.py`, `command_injection.py`, `ssrf.py` and `deserialization.py`.  All four share
sources and confidence; they differ in the call sites they match, in what they accept as a
sanitizer, and (SSRF) in which argument is checked.
-/

namespace Sast

variable (py : Stdlib)

/-- The sink found at `call`. -/
def sinkAt (call : Expr) (file source kind : String) : SinkRef where
  file := file
  line := call.loc.lineno
  snippet := sourceSegment source call.loc
  kind := kind

/-- The keywords of a call. -/
def keywordsOf : Expr → List Keyword
  | .call _ _ _ keywords => keywords
  | _ => []

/-- The positional arguments of a call. -/
def argsOf : Expr → List Expr
  | .call _ _ args _ => args
  | _ => []

/-- `keyword.arg`. -/
def Keyword.arg : Keyword → Option String
  | .mk _ arg _ => arg

/-- `keyword.value`. -/
def Keyword.value : Keyword → Expr
  | .mk _ _ value => value

/-- `isinstance(e, ast.Constant) and e.value is None`. -/
def isNone : Expr → Bool
  | .constant _ .none => true
  | _ => false

/-! ## SQL injection -/

/-- `SQL_OBJECT_NAMES`. -/
def sqlObjectNames : List String :=
  ["cursor", "curs", "cur", "conn", "con", "connection", "db", "database", "engine", "session",
    "handle"]

/-- `SQL_METHODS`. -/
def sqlMethods : List String := ["execute", "executemany", "executescript"]

/-- `SqlInjectionRule.match_sink`. -/
def sqlMatchSink (call : Expr) (file source : String) : Option SinkRef :=
  match call with
  | .call _ (.attribute _ value attr _) _ _ =>
      if sqlMethods.contains attr then
        let receiver := py.text value
        if receiver = "self" || sqlObjectNames.contains (lastPart '.' receiver) then
          some (sinkAt call file source "sql_execute")
        else none
      else none
  | _ => none

/-- `SqlInjectionRule.is_sanitized`. -/
def sqlIsSanitized (call : Expr) (_sink : SinkRef) : Bool :=
  (match argsOf call with
    | _ :: second :: _ => !isNone second
    | _ => false)
  || (keywordsOf call).any fun k =>
      (k.arg = some "parameters" || k.arg = some "params") && !isNone k.value

/-- `SqlInjectionRule`. -/
def sqlInjectionRule : ScanRule where
  vulnerabilityType := "sql_injection"
  severity := "high"
  isSource := fun e file source => requestSource file source e
  matchSink := sqlMatchSink py
  isSanitized := sqlIsSanitized
  confidence := taintConfidence

/-! ## Command injection -/

/-- `COMMAND_SINKS`, the recognized function names. -/
def commandSinks : List String :=
  ["os.system", "os.popen", "subprocess.run", "subprocess.call", "subprocess.Popen",
    "subprocess.check_call", "subprocess.check_output"]

/-- `isinstance(e, (ast.List, ast.Tuple))`. -/
def isListOrTuple : Expr → Bool
  | .list .. => true
  | .tuple .. => true
  | _ => false

/-- `CommandInjectionRule.match_sink`. -/
def commandMatchSink (call : Expr) (file source : String) : Option SinkRef :=
  match call with
  | .call _ func (arg :: _) _ =>
      if commandSinks.contains (py.text func) && !isListOrTuple arg then
        some (sinkAt call file source "command_exec")
      else none
  | _ => none

/-- `CommandInjectionRule`. -/
def commandInjectionRule : ScanRule where
  vulnerabilityType := "command_injection"
  severity := "high"
  isSource := fun e file source => requestSource file source e
  matchSink := commandMatchSink py
  confidence := taintConfidence

/-! ## SSRF -/

/-- `HTTP_REQUEST_FUNCS`. -/
def httpRequestFuncs : List String :=
  ["requests.get", "requests.post", "requests.put", "requests.delete", "requests.patch",
    "requests.head", "requests.options", "requests.request", "httpx.get", "httpx.post",
    "httpx.put", "httpx.delete", "httpx.patch", "httpx.request", "urllib.request.urlopen"]

/-- `SSRFRule.sink_expression`. -/
def ssrfSinkExpression : Expr → Option Expr
  | .call _ func args keywords =>
      match keywords.find? fun k => k.arg = some "url" with
      | some k => some k.value
      | none => if endswith ".request" (py.text func) then args[1]? else args[0]?
  | _ => none

/-- `SSRFRule.match_sink`. -/
def ssrfMatchSink (call : Expr) (file source : String) : Option SinkRef :=
  match call with
  | .call _ func _ _ =>
      if httpRequestFuncs.contains (py.text func) && (ssrfSinkExpression py call).isSome then
        some (sinkAt call file source "http_request")
      else none
  | _ => none

/-- `SSRFRule`. -/
def ssrfRule : ScanRule where
  vulnerabilityType := "ssrf"
  severity := "high"
  isSource := fun e file source => requestSource file source e
  matchSink := ssrfMatchSink py
  sinkExpression := ssrfSinkExpression py
  confidence := taintConfidence

/-! ## Deserialization -/

/-- `DESERIALIZATION_SINKS`: dotted name and sink kind. -/
def deserializationSinks : List (String × String) :=
  [("pickle.loads", "pickle_loads"), ("pickle.load", "pickle_load"),
    ("cPickle.loads", "pickle_loads"), ("cPickle.load", "pickle_load"),
    ("_pickle.loads", "pickle_loads"), ("_pickle.load", "pickle_load"),
    ("_cPickle.loads", "pickle_loads"), ("_cPickle.load", "pickle_load"),
    ("marshal.loads", "marshal_loads"), ("marshal.load", "marshal_load"),
    ("shelve.open", "shelve_open"), ("jsonpickle.decode", "jsonpickle_decode"),
    ("jsonpickle.loads", "jsonpickle_loads")]

/-- `YAML_LOAD_FUNCS`. -/
def yamlLoadFuncs : List String := ["yaml.load", "yaml.unsafe_load"]

/-- `DeserializationRule.match_sink`.  The explicitly safe YAML functions are in neither table, so
they match nothing. -/
def deserializationMatchSink (call : Expr) (file source : String) : Option SinkRef :=
  match call with
  | .call _ func args keywords =>
      match deserializationSinks.lookup (py.text func) with
      | some kind => if args.isEmpty then none else some (sinkAt call file source kind)
      | none =>
          if yamlLoadFuncs.contains (py.text func) then
            if args.isEmpty then none
            else if keywords.any fun k => k.arg = some "Loader"
                && (inStr "SafeLoader" (py.text k.value) || inStr "FullLoader" (py.text k.value))
            then none
            else some (sinkAt call file source "yaml_load")
          else none
  | _ => none

/-- `DeserializationRule.is_sanitized`. -/
def deserializationIsSanitized (call : Expr) (sink : SinkRef) : Bool :=
  sink.kind = "yaml_load" && (keywordsOf call).any fun k =>
    k.arg = some "Loader" && inStr "SafeLoader" (py.text k.value)

/-- `DeserializationRule`. -/
def deserializationRule : ScanRule where
  vulnerabilityType := "deserialization"
  severity := "critical"
  isSource := fun e file source => requestSource file source e
  matchSink := deserializationMatchSink py
  isSanitized := deserializationIsSanitized py
  confidence := taintConfidence

end Sast
