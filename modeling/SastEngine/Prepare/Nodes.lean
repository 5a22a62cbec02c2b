import SastEngine.Lib.Dict

/-!
# Syntax trees as PREPARE stores them

The parser walks the nodes of the `ast` module by their `_fields` and copies every value that is
no node as it is.  A node is therefore its class, its position and its list of fields; the Python
objects in the fields and in the stored dictionaries are those the interpreter puts there.
-/

namespace Sast.Prepare

/-! ## Python objects -/

/-- The value of a float literal: its `repr`, or infinity for one that is too large. -/
inductive PyFloat where
  | finite (repr : String)
  | infinite
deriving DecidableEq

/-- The objects that stand in a field without being a node: identifiers, numbers of dots and
conversions, and the values of constants. -/
inductive PyConstant where
  | none
  | bool (b : Bool)
  | int (n : Int)
  | float (x : PyFloat)
  | complex (repr : String)
  | ellipsis
  | str (s : String)
  | bytes (b : List UInt8)
deriving DecidableEq

/-- The values of a stored tree; a dictionary keeps the order of its keys. -/
inductive PyVal where
  | constant (c : PyConstant)
  | list (xs : List PyVal)
  | dict (entries : List (String × PyVal))

/-! ## Nodes -/

mutual

/-- `ast.AST`: the class, `lineno` and `end_lineno` where the class has them, and the fields. -/
inductive Node where
  | mk (cls : String) (lineno endLineno : Option Nat) (fields : List (String × FieldValue))

/-- The value of a field. -/
inductive FieldValue where
  | node (n : Node)
  | list (items : List ListItem)
  | constant (c : PyConstant)

/-- An item of a field that is a list. -/
inductive ListItem where
  | node (n : Node)
  | constant (c : PyConstant)

end

namespace Node

/-- `type(node).__name__`. -/
def cls : Node → String
  | mk cls _ _ _ => cls

/-- `node.lineno`. -/
def lineno : Node → Nat
  | mk _ lineno _ _ => lineno.getD 0

/-- `getattr(node, "lineno", None)`. -/
def lineno? : Node → Option Nat
  | mk _ lineno _ _ => lineno

/-- `node.end_lineno or node.lineno`. -/
def endLineno : Node → Nat
  | mk _ lineno endLineno _ =>
      match endLineno with
      | some (n + 1) => n + 1
      | _ => lineno.getD 0

/-- `getattr(node, name, None)`. -/
def field : Node → String → FieldValue
  | mk _ _ _ fields, name => (Dict.getEntry name fields).getD (.constant .none)

/-- A field that is a name. -/
def text? (n : Node) (name : String) : Option String :=
  match n.field name with
  | .constant (.str s) => some s
  | _ => none

/-- A field that is a node. -/
def child? (n : Node) (name : String) : Option Node :=
  match n.field name with
  | .node child => some child
  | _ => none

/-- The nodes of a field that is a list. -/
def children (n : Node) (name : String) : List Node :=
  match n.field name with
  | .list items => items.filterMap fun
      | .node child => some child
      | .constant _ => none
  | _ => []

end Node

mutual

/-- The nodes of a tree: itself and those in its fields, at any depth. -/
def Node.nodes : Node → List Node
  | .mk cls lineno endLineno fields => .mk cls lineno endLineno fields :: fieldNodes fields

def fieldNodes : List (String × FieldValue) → List Node
  | [] => []
  | (_, value) :: rest => value.nodes ++ fieldNodes rest

def FieldValue.nodes : FieldValue → List Node
  | .node n => n.nodes
  | .list items => itemNodes items
  | .constant _ => []

def itemNodes : List ListItem → List Node
  | [] => []
  | .node n :: rest => n.nodes ++ itemNodes rest
  | .constant _ :: rest => itemNodes rest

end

/-! ## Serialization -/

mutual

/-- `_ast_to_dict`. -/
def astToDict : Node → PyVal
  | .mk cls lineno _ fields =>
      let out := match lineno with
        | some n => [("type", .constant (.str cls)), ("lineno", .constant (.int n))]
        | none => [("type", .constant (.str cls))]
      .dict (fieldsInto out fields)

/-- The loop over `ast.iter_fields(node)`. -/
def fieldsInto (out : List (String × PyVal)) : List (String × FieldValue) → List (String × PyVal)
  | [] => out
  | (name, value) :: rest => fieldsInto (Dict.setEntry name (fieldToVal value) out) rest

/-- The stored value of a field. -/
def fieldToVal : FieldValue → PyVal
  | .node n => astToDict n
  | .list items => .list (itemsToVals items)
  | .constant c => .constant c

/-- The stored values of the items of a list. -/
def itemsToVals : List ListItem → List PyVal
  | [] => []
  | .node n :: rest => astToDict n :: itemsToVals rest
  | .constant c :: rest => .constant c :: itemsToVals rest

end

/-! ## The constants of a tree -/

mutual

/-- The objects that the fields of a tree hold, at any depth. -/
def Node.constants : Node → List PyConstant
  | .mk _ _ _ fields => fieldConstants fields

def fieldConstants : List (String × FieldValue) → List PyConstant
  | [] => []
  | (_, value) :: rest => value.constants ++ fieldConstants rest

def FieldValue.constants : FieldValue → List PyConstant
  | .node n => n.constants
  | .list items => itemConstants items
  | .constant c => [c]

def itemConstants : List ListItem → List PyConstant
  | [] => []
  | .node n :: rest => n.constants ++ itemConstants rest
  | .constant c :: rest => c :: itemConstants rest

end

mutual

/-- No node of the tree has two fields of one name. -/
def Node.FieldsDistinct : Node → Prop
  | .mk _ _ _ fields => (fields.map Prod.fst).Nodup ∧ AllDistinct fields

def AllDistinct : List (String × FieldValue) → Prop
  | [] => True
  | (_, value) :: rest => value.FieldsDistinct ∧ AllDistinct rest

def FieldValue.FieldsDistinct : FieldValue → Prop
  | .node n => n.FieldsDistinct
  | .list items => ItemsDistinct items
  | .constant _ => True

def ItemsDistinct : List ListItem → Prop
  | [] => True
  | .node n :: rest => n.FieldsDistinct ∧ ItemsDistinct rest
  | .constant _ :: rest => ItemsDistinct rest

end

end Sast.Prepare
