import SastEngine.Lib.Dict

/-!
# Code property graphs

The records of `prepare/cpg/models.py`.  The index behind `node_by_id` is made at the first lookup
and stays as it is when nodes are added later.
-/

namespace Sast.Prepare

/-- `CPGNodeKind`. -/
inductive CpgNodeKind where
  | file
  | module_
  | class_
  | function
  | block
  | statement
  | expression
  | name
  | call
  | constant
  | assignment
  | return_
  | if_
  | for_
  | while_
  | try_
  | with_
  | import_
  | decorator
deriving DecidableEq

/-- `CPGEdgeType`. -/
inductive CpgEdgeType where
  | astChild
  | astFile
  | astClass
  | astFunction
  | astBody
  | cfgSeq
  | cfgTrue
  | cfgFalse
  | cfgLoopBody
  | cfgLoopNext
  | cfgExcept
  | cfgFinal
  | dfgDef
  | dfgUse
  | dfgParam
  | dfgReturn
  | dfgCallArg
  | dfgCallResult
  | dfgAssignRhs
deriving DecidableEq

/-- `CPGNode`; the builder leaves its end line and its metadata at their defaults. -/
structure CpgNode where
  id : String
  kind : CpgNodeKind
  file : String
  line : Int
  name : Option String
  label : Option String
  astType : Option String
deriving DecidableEq

/-- `CPGEdge`. -/
structure CpgEdge where
  src : String
  dst : String
  edgeType : CpgEdgeType
  metadata : List (String × String) := []
deriving DecidableEq

/-- `CodePropertyGraph`; `nodeIndex` is the attribute `_node_index`, once there is one. -/
structure CodePropertyGraph where
  projectId : String
  nodeCount : Nat
  edgeCount : Nat
  nodes : List CpgNode
  edges : List CpgEdge
  fileNodes : List String
  functionNodes : List String
  callNodes : List String
  nodeIndex : Option (Dict String CpgNode)

namespace CodePropertyGraph

/-- A graph without nodes. -/
def empty (projectId : String) : CodePropertyGraph where
  projectId := projectId
  nodeCount := 0
  edgeCount := 0
  nodes := []
  edges := []
  fileNodes := []
  functionNodes := []
  callNodes := []
  nodeIndex := none

variable (g : CodePropertyGraph)

/-- `{n.id: n for n in nodes}`. -/
def indexOf (nodes : List CpgNode) : Dict String CpgNode :=
  nodes.foldl (fun index n => index.set n.id n) .empty

/-- The graph after a lookup. -/
def indexed : CodePropertyGraph :=
  { g with nodeIndex := some (g.nodeIndex.getD (indexOf g.nodes)) }

/-- `node_by_id`. -/
def nodeById (nodeId : String) : CodePropertyGraph × Option CpgNode :=
  (g.indexed, (g.nodeIndex.getD (indexOf g.nodes)).get? nodeId)

end CodePropertyGraph

end Sast.Prepare
