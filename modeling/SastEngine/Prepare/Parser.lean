import SastEngine.Prepare.Contracts
import SastEngine.Python.Text

/-!
# Parsing a file

`prepare/parser.py`: one pass over the tree collects functions, classes, imports, calls and
assignments in source order, and the tree itself is stored as a dictionary.  Where the tree is too
deep for the interpreter's stack, what has been collected so far stays and no tree is stored.
-/

namespace Sast.Prepare

/-! ## The interpreter -/

/-- What `ast.parse` raises: a `SyntaxError`, which the parser catches, or anything else. -/
inductive ParseFailure where
  | syntaxError (lineno offset : Option Nat) (msg : Option String) (text : String)
  | raised (message : String)

/-- The library functions the parser calls. -/
structure PyInterpreter where
  /-- `ast.parse(source)` -/
  parse : String → Except ParseFailure Node
  /-- `ast.unparse(node)` -/
  unparse : Node → String
  /-- `hashlib.sha256(text.encode("utf-8")).hexdigest()` -/
  sha256 : String → String
  /-- Where a traversal of the tree raises `RecursionError`: how many items the collector had
  collected by then. -/
  recursionError : Node → Option Nat

/-! ## Texts -/

/-- `_UNPARSE_CAP`. -/
def unparseCap : Nat := 200

/-- `_ARGS_CAP`. -/
def argsCap : Nat := 10

/-- `_truncate`. -/
def truncate (value : String) (limit : Nat) : String :=
  if value.length ≤ limit then value
  else String.ofList (value.toList.take (limit - 1)) ++ "…"

/-- `_value_kind`. -/
def valueKind : Option Node → ValueKind
  | none => .none
  | some value =>
      if value.cls = "Call" then .call
      else if value.cls = "Attribute" then .attribute_
      else if value.cls = "Name" then .name
      else if value.cls = "Constant" then .constant
      else if value.cls = "BinOp" then .binaryOp
      else if value.cls ∈ ["List", "Tuple", "Set", "Dict"] then .collection
      else if value.cls = "Subscript" then .subscript
      else if value.cls = "Lambda" then .lambda
      else if value.cls = "IfExp" then .ifexp
      else .other

/-! ## Collecting -/

/-- An entry of one of the collector's lists. -/
inductive Collected where
  | function (info : FunctionInfo)
  | class_ (info : ClassInfo)
  | import_ (info : ImportInfo)
  | call (info : CallInfo)
  | assignment (info : AssignmentInfo)

section Collector

variable (py : PyInterpreter) (path : String)

/-- `_truncate(ast.unparse(node), _UNPARSE_CAP)`. -/
def unparsed (node : Node) : String := truncate (py.unparse node) unparseCap

/-- The argument names of a function. -/
def argNames (node : Node) : List String :=
  match node.child? "args" with
  | none => []
  | some args =>
      let names := (args.children "posonlyargs" ++ args.children "args"
        ++ args.children "kwonlyargs").map fun arg => (arg.text? "arg").getD ""
      let vararg := ((args.child? "vararg").bind fun arg => arg.text? "arg").map ("*" ++ ·)
      let kwarg := ((args.child? "kwarg").bind fun arg => arg.text? "arg").map ("**" ++ ·)
      names ++ vararg.toList ++ kwarg.toList

/-- The name of a function, a class or an alias. -/
def nameOf (node : Node) : String := (node.text? "name").getD ""

/-- `_Collector._function`. -/
def functionInfo (node : Node) (classStack fnStack : List String) : FunctionInfo where
  name := nameOf node
  qualifiedName := String.intercalate "." (classStack ++ fnStack ++ [nameOf node])
  file := path
  line := node.lineno
  endLine := node.endLineno
  args := argNames node
  decorators := (node.children "decorator_list").map (unparsed py)
  isMethod := !classStack.isEmpty && fnStack.isEmpty
  isAsync := node.cls = "AsyncFunctionDef"

/-- `_Collector._class`. -/
def classInfo (node : Node) : ClassInfo where
  name := nameOf node
  file := path
  line := node.lineno
  endLine := node.endLineno
  bases := (node.children "bases").map (unparsed py)
  decorators := (node.children "decorator_list").map (unparsed py)
  methods := ((node.children "body").filter fun child =>
    child.cls = "FunctionDef" ∨ child.cls = "AsyncFunctionDef").map nameOf

/-- `_Collector._call`. -/
def callInfo (node : Node) : CallInfo where
  func := ((node.child? "func").map (unparsed py)).getD ""
  args := ((node.children "args").map (unparsed py)).take argsCap
  numArgs := (node.children "args").length + (node.children "keywords").length
  keywords := ((node.children "keywords").filterMap fun k => k.text? "arg").filter (· ≠ "")
  isMethodCall := match node.child? "func" with
    | some func => func.cls = "Attribute" ∧ (func.child? "value").all (·.cls ≠ "Name")
    | none => false
  file := path
  line := node.lineno

/-- `_Collector._assignment`. -/
def assignmentInfo (node : Node) : AssignmentInfo where
  targets :=
    if node.cls = "Assign" then (node.children "targets").map (unparsed py)
    else ((node.child? "target").map (unparsed py)).toList
  valueKind := valueKind (node.child? "value")
  valueExpr := ((node.child? "value").map (unparsed py)).getD ""
  file := path
  line := node.lineno

/-- The first of the dotted names. -/
def firstPart (name : String) : String := String.ofList (name.toList.takeWhile (· ≠ '.'))

/-- `_Collector._import`. -/
def importInfos (node : Node) : List ImportInfo :=
  (node.children "names").map fun item =>
    let asname := item.text? "asname"
    if node.cls = "Import" then
      { moduleName := nameOf item
        name := match asname with
          | some name => if name = "" then firstPart (nameOf item) else name
          | none => firstPart (nameOf item)
        aliasName := asname
        kind := .import_
        file := path
        line := node.lineno }
    else
      { moduleName := (node.text? "module").getD ""
        name := nameOf item
        aliasName := asname
        kind := if nameOf item = "*" then .importStar else .fromImport
        file := path
        line := node.lineno }

mutual

/-- `_Collector._visit`. -/
def visit (classStack fnStack : List String) : Node → List Collected
  | .mk cls lineno endLineno fields =>
      let node := Node.mk cls lineno endLineno fields
      if cls = "FunctionDef" ∨ cls = "AsyncFunctionDef" then
        .function (functionInfo py path node classStack fnStack)
          :: walkChildren classStack (fnStack ++ [nameOf node]) fields
      else if cls = "ClassDef" then
        .class_ (classInfo py path node) :: walkChildren (classStack ++ [nameOf node]) fnStack fields
      else if cls = "Call" then
        .call (callInfo py path node) :: walkChildren classStack fnStack fields
      else if cls = "Assign" ∨ cls = "AnnAssign" ∨ cls = "AugAssign" then
        .assignment (assignmentInfo py path node) :: walkChildren classStack fnStack fields
      else if cls = "Import" ∨ cls = "ImportFrom" then
        (importInfos path node).map .import_
      else walkChildren classStack fnStack fields

/-- `_Collector._walk_children`. -/
def walkChildren (classStack fnStack : List String) :
    List (String × FieldValue) → List Collected
  | [] => []
  | (_, value) :: rest => visitField classStack fnStack value ++ walkChildren classStack fnStack rest

/-- The nodes of a field, in order. -/
def visitField (classStack fnStack : List String) : FieldValue → List Collected
  | .node n => visit classStack fnStack n
  | .list items => visitItems classStack fnStack items
  | .constant _ => []

/-- The nodes of a list, in order. -/
def visitItems (classStack fnStack : List String) : List ListItem → List Collected
  | [] => []
  | .node n :: rest => visit classStack fnStack n ++ visitItems classStack fnStack rest
  | .constant _ :: rest => visitItems classStack fnStack rest

end

/-- `_Collector.run`, up to a `RecursionError`. -/
def collect : Node → List Collected
  | .mk cls lineno endLineno fields =>
      let collected := walkChildren py path [] [] fields
      match py.recursionError (.mk cls lineno endLineno fields) with
      | some count => collected.take count
      | none => collected

end Collector

/-! ## Parsing -/

/-- The file with its text, and nothing collected. -/
def unparsedFile (py : PyInterpreter) (path source : String) : SourceFile where
  path := path
  source := source
  sha256 := py.sha256 source
  lineCount := (splitlines source.toList).length
  ast := none
  functions := []
  classes := []
  imports := []
  calls := []
  assignments := []
  error := none

/-- `PythonASTParser.parse`. -/
def parseFile (py : PyInterpreter) (path source : String) : Except String SourceFile :=
  match py.parse source with
  | .error (.syntaxError lineno offset msg text) =>
      .ok { unparsedFile py path source with
        error := some
          { lineno := lineno.getD 0
            offset := offset.getD 0
            message := match msg with
              | some message => if message = "" then text else message
              | none => text } }
  | .error (.raised message) => .error message
  | .ok tree =>
      let collected := collect py path tree
      .ok { unparsedFile py path source with
        ast := if (py.recursionError tree).isSome then none else some (astToDict tree)
        functions := collected.filterMap fun
          | .function info => some info
          | _ => none
        classes := collected.filterMap fun
          | .class_ info => some info
          | _ => none
        imports := collected.filterMap fun
          | .import_ info => some info
          | _ => none
        calls := collected.filterMap fun
          | .call info => some info
          | _ => none
        assignments := collected.filterMap fun
          | .assignment info => some info
          | _ => none }

end Sast.Prepare
