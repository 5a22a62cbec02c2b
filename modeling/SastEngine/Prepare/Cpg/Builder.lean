import SastEngine.Prepare.Cpg.Graph
import SastEngine.Prepare.Parser

/-!
# Building the code property graph

`prepare/cpg/builder.py`.  The AST pass walks the stored dictionary of a file; the control-flow
pass and the data-flow pass parse the file again and look its functions up in the graph.  What the
AST pass appends to the graph does not depend on the graph.
-/

namespace Sast.Prepare

/-! ## The AST pass -/

/-- `_node_kind`. -/
def nodeKind (astType : String) : CpgNodeKind :=
  if astType = "Module" then .module_
  else if astType = "FunctionDef" ∨ astType = "AsyncFunctionDef" then .function
  else if astType = "ClassDef" then .class_
  else if astType = "Assign" ∨ astType = "AnnAssign" ∨ astType = "AugAssign" then .assignment
  else if astType = "Return" then .return_
  else if astType = "If" then .if_
  else if astType = "For" then .for_
  else if astType = "While" then .while_
  else if astType = "Try" then .try_
  else if astType = "With" then .with_
  else if astType = "Import" ∨ astType = "ImportFrom" then .import_
  else if astType = "Call" then .call
  else if astType = "Name" then .name
  else if astType = "Constant" then .constant
  else if astType = "Decorator" then .decorator
  else .expression

/-- `not value`. -/
def isFalsy : PyVal → Bool
  | .constant c =>
      match c with
      | .none => true
      | .bool b => !b
      | .int n => n = 0
      | .float (.finite repr) => repr = "0.0" || repr = "-0.0"
      | .str s => s = ""
      | .bytes b => b.isEmpty
      | .float .infinite | .complex _ | .ellipsis => false
  | .list xs => xs.isEmpty
  | .dict entries => entries.isEmpty

/-- `node.get("name") or node.get("id")`, where it is a text. -/
def nameOrId (entries : List (String × PyVal)) : Option String :=
  let value := match Dict.getEntry "name" entries with
    | some name => if isFalsy name then Dict.getEntry "id" entries else some name
    | none => Dict.getEntry "id" entries
  match value with
  | some (.constant (.str s)) => some s
  | _ => none

/-- `_label_for`. -/
def labelFor (astType : String) (entries : List (String × PyVal)) : String :=
  match nameOrId entries with
  | some name => if name = "" then astType else astType ++ ": " ++ name
  | none => astType

/-- The class and the line that a dictionary is shown with, if it is shown; an object in their
place raises. -/
def shownAs (entries : List (String × PyVal)) : Except String (Option (String × Int)) :=
  let nodeType := (Dict.getEntry "type" entries).getD (.constant (.str ""))
  let line := (Dict.getEntry "lineno" entries).getD (.constant (.int 0))
  if isFalsy nodeType then .ok none
  else match nodeType, line with
    | .constant (.str cls), .constant (.int n) =>
        if n = 0 then .ok (if cls = "Module" then some (cls, 1) else none)
        else .ok (some (cls, n))
    | .dict _, .constant (.int n) => if n = 0 then .ok none else .error "TypeError"
    | .list _, .constant (.int n) => if n = 0 then .ok none else .error "TypeError"
    | .constant _, .constant (.int n) => if n = 0 then .ok none else .error "ValidationError"
    | _, _ => .error "ValidationError"

/-- What the AST pass appends to the graph. -/
structure Walked where
  nodes : List CpgNode := []
  edges : List CpgEdge := []
  functionNodes : List String := []
  callNodes : List String := []

/-- First one, then the other. -/
def Walked.then (w w' : Walked) : Walked where
  nodes := w.nodes ++ w'.nodes
  edges := w.edges ++ w'.edges
  functionNodes := w.functionNodes ++ w'.functionNodes
  callNodes := w.callNodes ++ w'.callNodes

/-- The id of a node of the AST pass. -/
def astId (path astType : String) (line : Int) (depth : Nat) : String :=
  path ++ ":" ++ astType ++ ":" ++ toString line ++ ":" ++ toString depth

/-- A node with the edge from its parent. -/
def walkedNode (path astType : String) (line : Int) (depth : Nat) (parentId : String)
    (entries : List (String × PyVal)) : Walked :=
  let nodeId := astId path astType line depth
  { nodes := [{
      id := nodeId
      kind := nodeKind astType
      file := path
      line := line
      name := nameOrId entries
      label := some (labelFor astType entries)
      astType := some astType }]
    edges := [⟨parentId, nodeId, .astChild, []⟩]
    functionNodes := if nodeKind astType = .function then [nodeId] else []
    callNodes := if nodeKind astType = .call then [nodeId] else [] }

/-- The edge from a child that was shown. -/
def childEdge (wanted : Bool) (edgeType : CpgEdgeType) (nodeId : String) (child : Option String) :
    Walked :=
  match child with
  | none => {}
  | some childId => if wanted then { edges := [⟨childId, nodeId, edgeType, []⟩] } else {}

section Walk

variable (path : String)

mutual

/-- `_walk_ast`, on a value that may be a dictionary. -/
def walkAst (parentId : String) (depth : Nat) : PyVal → Except String (Walked × Option String)
  | .dict entries =>
      match shownAs entries with
      | .error e => .error e
      | .ok none => .ok ({}, none)
      | .ok (some (astType, line)) =>
          match walkEntries (astId path astType line depth) (nodeKind astType) depth entries with
          | .error e => .error e
          | .ok inner =>
              .ok ((walkedNode path astType line depth parentId entries).then inner,
                some (astId path astType line depth))
  | .list _ => .ok ({}, none)
  | .constant _ => .ok ({}, none)

/-- The loop over the entries of a dictionary. -/
def walkEntries (nodeId : String) (kind : CpgNodeKind) (depth : Nat) :
    List (String × PyVal) → Except String Walked
  | [] => .ok {}
  | (name, value) :: rest =>
      if name = "type" ∨ name = "lineno" ∨ name = "end_lineno" then
        walkEntries nodeId kind depth rest
      else
        match walkAst nodeId (depth + 1) value with
        | .error e => .error e
        | .ok (walked, child) =>
            match walkList nodeId (name = "args" && kind = .call) depth value with
            | .error e => .error e
            | .ok listed =>
                match walkEntries nodeId kind depth rest with
                | .error e => .error e
                | .ok more =>
                    .ok (((walked.then (childEdge (name = "value") .dfgAssignRhs nodeId
                      child)).then listed).then more)

/-- The items of a value that may be a list. -/
def walkList (nodeId : String) (asArgs : Bool) (depth : Nat) : PyVal → Except String Walked
  | .list items => walkItems nodeId asArgs depth items
  | .dict _ => .ok {}
  | .constant _ => .ok {}

/-- The loop over the items of a list. -/
def walkItems (nodeId : String) (asArgs : Bool) (depth : Nat) :
    List PyVal → Except String Walked
  | [] => .ok {}
  | item :: rest =>
      match walkAst nodeId (depth + 1) item with
      | .error e => .error e
      | .ok (walked, child) =>
          match walkItems nodeId asArgs depth rest with
          | .error e => .error e
          | .ok more =>
              .ok ((walked.then (childEdge asArgs .dfgCallArg nodeId child)).then more)

end

end Walk

/-- What the AST pass appends. -/
def CodePropertyGraph.append (g : CodePropertyGraph) (w : Walked) : CodePropertyGraph :=
  { g with
    nodes := g.nodes ++ w.nodes
    edges := g.edges ++ w.edges
    functionNodes := g.functionNodes ++ w.functionNodes
    callNodes := g.callNodes ++ w.callNodes }

/-! ## Finding a function -/

/-- `isinstance(node, (ast.FunctionDef, ast.AsyncFunctionDef))`. -/
def isFunctionDef (node : Node) : Bool := node.cls = "FunctionDef" || node.cls = "AsyncFunctionDef"

/-- The nodes that a field holds. -/
def valueNodes : FieldValue → List Node
  | .node n => [n]
  | .list items => items.filterMap fun
      | .node n => some n
      | .constant _ => none
  | .constant _ => []

/-- `ast.iter_child_nodes(node)`. -/
def iterChildNodes : Node → List Node
  | .mk _ _ _ fields => fields.flatMap fun f => valueNodes f.2

/-- The first of the ids whose node passes a test. -/
def findNode (p : CpgNode → Bool) :
    List String → CodePropertyGraph → CodePropertyGraph × Option String
  | [], g => (g, none)
  | nodeId :: rest, g =>
      let (g, node) := g.nodeById nodeId
      if node.any p then (g, some nodeId) else findNode p rest g

/-- The top-level function of a module with this name and line. -/
def topLevelFunction (tree : Node) (info : FunctionInfo) : Option Node :=
  (iterChildNodes tree).find? fun child =>
    isFunctionDef child && nameOf child = info.name && child.lineno = info.line

/-! ## The control-flow pass -/

section ControlFlow

variable (path : String)

/-- `_make_stmt_id`. -/
def stmtId (stmt : Node) : String :=
  path ++ ":" ++ stmt.cls ++ ":" ++ toString stmt.lineno ++ ":stmt"

/-- An edge from a statement to the first one of a block, if the block has one. -/
def edgeToFirst (stmt : Node) (edgeType : CpgEdgeType) (block : List Node) : List CpgEdge :=
  (block.head?.map fun first => ⟨stmtId path stmt, stmtId path first, edgeType, []⟩).toList

/-- The edges into the blocks of a statement. -/
def branchEdges (stmt : Node) : List CpgEdge :=
  if stmt.cls = "If" then
    edgeToFirst path stmt .cfgTrue (stmt.children "body")
      ++ edgeToFirst path stmt .cfgFalse (stmt.children "orelse")
  else if stmt.cls = "For" then edgeToFirst path stmt .cfgLoopBody (stmt.children "body")
  else if stmt.cls = "While" then edgeToFirst path stmt .cfgLoopBody (stmt.children "body")
  else if stmt.cls = "Try" then
    (stmt.children "handlers").flatMap
        (fun handler => edgeToFirst path stmt .cfgExcept (handler.children "body"))
      ++ edgeToFirst path stmt .cfgFinal (stmt.children "finalbody")
  else []

/-- The loop over the statements of a body, from the previous statement on. -/
def bodyEdges : Option Node → List Node → List CpgEdge
  | _, [] => []
  | previous, stmt :: rest =>
      (previous.map fun p => (⟨stmtId path p, stmtId path stmt, .cfgSeq, []⟩ : CpgEdge)).toList
        ++ branchEdges path stmt ++ bodyEdges (some stmt) rest

end ControlFlow

/-- `_build_cfg`. -/
def buildCfg (py : PyInterpreter) (file : SourceFile) (info : FunctionInfo)
    (g : CodePropertyGraph) : Except String CodePropertyGraph :=
  match py.parse file.source with
  | .error (.syntaxError _ _ _ _) => .ok g
  | .error (.raised message) => .error message
  | .ok tree =>
      match findNode (fun n => n.name = some info.name && n.file = file.path) g.functionNodes g with
      | (g, none) => .ok g
      | (g, some _) =>
          match topLevelFunction tree info with
          | none => .ok g
          | some function =>
              .ok { g with edges := g.edges ++ bodyEdges file.path none (function.children "body") }

/-! ## The data-flow pass -/

section DataFlow

variable (path : String)

/-- The graph and `scope_vars`. -/
abbrev DfgState : Type := CodePropertyGraph × List String

/-- Append a node of this id and name unless a lookup finds one. -/
def appendUnlessFound (nodeId name label : String) (line : Nat) (s : DfgState) : DfgState :=
  match s.1.nodeById nodeId with
  | (g, some _) => (g, s.2)
  | (g, none) =>
      ({ g with nodes := g.nodes ++ [{
          id := nodeId
          kind := .name
          file := path
          line := line
          name := some name
          label := some label
          astType := some "Name" }] }, s.2)

/-- The id of a definition node. -/
def defId (name : String) (line : Nat) : String :=
  path ++ ":Name:" ++ name ++ ":" ++ toString line ++ ":def"

/-- The id of a use node. -/
def useId (name : String) (line : Nat) : String :=
  path ++ ":Name:" ++ name ++ ":" ++ toString line ++ ":use"

/-- A name of an expression that is in scope. -/
def useName (s : DfgState) (node : Node) : DfgState :=
  match node.text? "id" with
  | some name =>
      if node.cls = "Name" ∧ name ∈ s.2 then
        appendUnlessFound path (useId path name node.lineno) name (name ++ " (used)") node.lineno s
      else s
  | none => s

/-- `_walk_dfg_expr`: the nodes of an expression, from the top. -/
def walkDfgExpr (s : DfgState) (expr : Node) : DfgState := expr.nodes.foldl (useName path) s

/-- A target of an assignment in this line. -/
def defineTarget (line : Nat) (s : DfgState) (target : Node) : DfgState :=
  match target.text? "id" with
  | some name =>
      if target.cls = "Name" then
        appendUnlessFound path (defId path name line) name (name ++ " (defined)") line
          (s.1, name :: s.2)
      else s
  | none => s

/-- The name that a `for` statement binds. -/
def bindTarget (s : DfgState) (stmt : Node) : DfgState :=
  match stmt.child? "target" with
  | some target =>
      match target.text? "id" with
      | some name => if target.cls = "Name" then (s.1, name :: s.2) else s
      | none => s
  | none => s

/-- The expression of a statement, if it has one. -/
def walkValue (s : DfgState) (stmt : Node) : DfgState :=
  match stmt.child? "value" with
  | some value => walkDfgExpr path s value
  | none => s

mutual

/-- One statement of `_walk_dfg_stmts`. -/
def walkDfgStmt (s : DfgState) : Node → DfgState
  | .mk cls lineno endLineno fields =>
      let stmt := Node.mk cls lineno endLineno fields
      if cls = "Assign" then
        (stmt.children "targets").foldl (defineTarget path stmt.lineno) (walkValue path s stmt)
      else if cls = "FunctionDef" ∨ cls = "AsyncFunctionDef" then s
      else if cls = "If" then
        walkDfgBlock "orelse" (walkDfgBlock "body" s fields) fields
      else if cls = "For" then walkDfgBlock "body" (bindTarget s stmt) fields
      else if cls = "While" then walkDfgBlock "body" s fields
      else if cls = "Return" ∨ cls = "Expr" then walkValue path s stmt
      else if cls = "Try" then
        walkDfgBlock "finalbody" (walkDfgBlock "orelse"
          (walkDfgHandlers (walkDfgBlock "body" s fields) fields) fields) fields
      else s

/-- The statements of the field with this name. -/
def walkDfgBlock (name : String) (s : DfgState) : List (String × FieldValue) → DfgState
  | [] => s
  | (field, value) :: rest =>
      if field = name then walkDfgStmts s value else walkDfgBlock name s rest

/-- `_walk_dfg_stmts`, on a field that may be a list. -/
def walkDfgStmts (s : DfgState) : FieldValue → DfgState
  | .list items => walkDfgItems s items
  | .node _ => s
  | .constant _ => s

/-- The loop over statements. -/
def walkDfgItems (s : DfgState) : List ListItem → DfgState
  | [] => s
  | .node stmt :: rest => walkDfgItems (walkDfgStmt s stmt) rest
  | .constant _ :: rest => walkDfgItems s rest

/-- The field with the handlers. -/
def walkDfgHandlers (s : DfgState) : List (String × FieldValue) → DfgState
  | [] => s
  | (field, value) :: rest =>
      if field = "handlers" then walkDfgHandlerValue s value else walkDfgHandlers s rest

/-- The handlers of a field that may be a list. -/
def walkDfgHandlerValue (s : DfgState) : FieldValue → DfgState
  | .list items => walkDfgHandlerItems s items
  | .node _ => s
  | .constant _ => s

/-- The loop over the handlers. -/
def walkDfgHandlerItems (s : DfgState) : List ListItem → DfgState
  | [] => s
  | .node handler :: rest => walkDfgHandlerItems (walkDfgHandler s handler) rest
  | .constant _ :: rest => walkDfgHandlerItems s rest

/-- The statements of a handler. -/
def walkDfgHandler (s : DfgState) : Node → DfgState
  | .mk _ _ _ fields => walkDfgBlock "body" s fields

end

end DataFlow

/-- `child.args.args + child.args.posonlyargs + child.args.kwonlyargs`, by name. -/
def paramNames (function : Node) : List String :=
  match function.child? "args" with
  | none => []
  | some args =>
      (args.children "args" ++ args.children "posonlyargs" ++ args.children "kwonlyargs").map
        fun arg => (arg.text? "arg").getD ""

/-- The edges from a function to its parameters. -/
def paramEdges (path functionId : String) (function : Node) : List CpgEdge :=
  (paramNames function).map fun name =>
    { src := functionId
      dst := path ++ ":param:" ++ name ++ ":" ++ toString function.lineno
      edgeType := .dfgParam
      metadata := [("param_name", name)] }

/-- `_build_dfg`. -/
def buildDfg (py : PyInterpreter) (file : SourceFile) (info : FunctionInfo)
    (g : CodePropertyGraph) : Except String CodePropertyGraph :=
  match py.parse file.source with
  | .error (.syntaxError _ _ _ _) => .ok g
  | .error (.raised message) => .error message
  | .ok tree =>
      match topLevelFunction tree info with
      | none => .ok g
      | some function =>
          match findNode (fun n => n.name = some info.name && n.file = file.path
              && n.line = info.line) g.functionNodes g with
          | (g, none) => .ok g
          | (g, some functionId) =>
              let g := { g with edges := g.edges ++ paramEdges file.path functionId function }
              .ok ((function.children "body").foldl (walkDfgStmt file.path) (g, info.args)).1

/-! ## The graph -/

/-- The file node. -/
def fileNode (file : SourceFile) : CpgNode where
  id := "file:" ++ file.path
  kind := .file
  file := file.path
  line := 1
  name := some file.path
  label := some file.path
  astType := some "File"

/-- `_build_file`. -/
def buildFile (py : PyInterpreter) (g : CodePropertyGraph) (file : SourceFile) :
    Except String CodePropertyGraph :=
  match file.ast with
  | none => .ok g
  | some tree => do
      let g := { g with
        nodes := g.nodes ++ [fileNode file]
        fileNodes := g.fileNodes ++ [(fileNode file).id] }
      let (walked, _) ← walkAst file.path (fileNode file).id 0 tree
      let g ← file.functions.foldlM (fun g info => buildCfg py file info g) (g.append walked)
      file.functions.foldlM (fun g info => buildDfg py file info g) g

/-- `CPGBuilder.build_graph`. -/
def buildGraph (py : PyInterpreter) (snapshot : ProjectSnapshot) :
    Except String CodePropertyGraph := do
  let g ← (snapshot.files.filter fun file => file.error.isNone).foldlM (buildFile py)
    (.empty snapshot.projectId)
  return { g with nodeCount := g.nodes.length, edgeCount := g.edges.length }

end Sast.Prepare
