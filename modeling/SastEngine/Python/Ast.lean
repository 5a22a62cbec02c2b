import Mathlib.Data.List.Basic
import Mathlib.Tactic.Lemma

/-!
# Python syntax trees

The node classes of the `ast` module, with the fields and the position attributes the parser
fills in.  Expressions, statements and patterns are separate types, so a statement cannot stand
where an expression is expected.  Fields the program never looks at (type comments, constant
kinds) are left out.
-/

namespace Sast

/-- The position attributes of a node: 1-based lines, 0-based UTF-8 column offsets. -/
structure Loc where
  lineno : Nat
  colOffset : Nat
  endLineno : Nat
  endColOffset : Nat
deriving DecidableEq, Inhabited

/-- The value of an `ast.Constant`.  Floats and complex numbers keep their text. -/
inductive Const where
  | none
  | bool (b : Bool)
  | ellipsis
  | int (n : Int)
  | num (text : String)
  | str (s : String)
  | bytes (b : List Nat)
deriving DecidableEq

/-- `expr_context`. -/
inductive ExprContext where
  | load
  | store
  | del
deriving DecidableEq

/-- `boolop`. -/
inductive BoolOperator where
  | and
  | or
deriving DecidableEq

/-- `operator`. -/
inductive Operator where
  | add | sub | mult | matMult | div | mod | pow
  | lShift | rShift | bitOr | bitXor | bitAnd | floorDiv
deriving DecidableEq

/-- `unaryop`. -/
inductive UnaryOperator where
  | invert | not | uAdd | uSub
deriving DecidableEq

/-- `cmpop`. -/
inductive CmpOperator where
  | eq | notEq | lt | ltE | gt | gtE | is | isNot | in_ | notIn
deriving DecidableEq

mutual

/-- `expr`. -/
inductive Expr where
  | boolOp (loc : Loc) (op : BoolOperator) (values : List Expr)
  | namedExpr (loc : Loc) (target value : Expr)
  | binOp (loc : Loc) (left : Expr) (op : Operator) (right : Expr)
  | unaryOp (loc : Loc) (op : UnaryOperator) (operand : Expr)
  | lambda (loc : Loc) (args : Arguments) (body : Expr)
  | ifExp (loc : Loc) (test body orelse : Expr)
  | dict (loc : Loc) (keys : List (Option Expr)) (values : List Expr)
  | set (loc : Loc) (elts : List Expr)
  | listComp (loc : Loc) (elt : Expr) (generators : List Comprehension)
  | setComp (loc : Loc) (elt : Expr) (generators : List Comprehension)
  | dictComp (loc : Loc) (key value : Expr) (generators : List Comprehension)
  | generatorExp (loc : Loc) (elt : Expr) (generators : List Comprehension)
  | await (loc : Loc) (value : Expr)
  | yield (loc : Loc) (value : Option Expr)
  | yieldFrom (loc : Loc) (value : Expr)
  | compare (loc : Loc) (left : Expr) (ops : List CmpOperator) (comparators : List Expr)
  | call (loc : Loc) (func : Expr) (args : List Expr) (keywords : List Keyword)
  | formattedValue (loc : Loc) (value : Expr) (conversion : Int) (formatSpec : Option Expr)
  | joinedStr (loc : Loc) (values : List Expr)
  | constant (loc : Loc) (value : Const)
  | attribute (loc : Loc) (value : Expr) (attr : String) (ctx : ExprContext)
  | subscript (loc : Loc) (value slice : Expr) (ctx : ExprContext)
  | starred (loc : Loc) (value : Expr) (ctx : ExprContext)
  | name (loc : Loc) (id : String) (ctx : ExprContext)
  | list (loc : Loc) (elts : List Expr) (ctx : ExprContext)
  | tuple (loc : Loc) (elts : List Expr) (ctx : ExprContext)
  | slice (loc : Loc) (lower upper step : Option Expr)

/-- `comprehension`. -/
inductive Comprehension where
  | mk (target iter : Expr) (ifs : List Expr) (isAsync : Bool)

/-- `keyword`; `arg` is `none` for `**kwargs`. -/
inductive Keyword where
  | mk (loc : Loc) (arg : Option String) (value : Expr)

/-- `arg`. -/
inductive Arg where
  | mk (loc : Loc) (arg : String) ( annotation : Option Expr)

/-- `arguments`. -/
inductive Arguments where
  | mk (posonlyargs args : List Arg) (vararg : Option Arg) (kwonlyargs : List Arg)
      (kwDefaults : List (Option Expr)) (kwarg : Option Arg) (defaults : List Expr)

end

/-- `pattern`. -/
inductive Pattern where
  | matchValue (loc : Loc) (value : Expr)
  | matchSingleton (loc : Loc) (value : Const)
  | matchSequence (loc : Loc) (patterns : List Pattern)
  | matchMapping (loc : Loc) (keys : List Expr) (patterns : List Pattern) (rest : Option String)
  | matchClass (loc : Loc) (cls : Expr) (patterns : List Pattern) (kwdAttrs : List String)
      (kwdPatterns : List Pattern)
  | matchStar (loc : Loc) (name : Option String)
  | matchAs (loc : Loc) (pattern : Option Pattern) (name : Option String)
  | matchOr (loc : Loc) (patterns : List Pattern)

/-- `withitem`. -/
structure WithItem where
  contextExpr : Expr
  optionalVars : Option Expr

/-- `alias`. -/
structure Alias where
  loc : Loc
  name : String
  asname : Option String

mutual

/-- `stmt`. -/
inductive Stmt where
  | functionDef (loc : Loc) (name : String) (args : Arguments) (body : List Stmt)
      (decoratorList : List Expr) (returns : Option Expr)
  | asyncFunctionDef (loc : Loc) (name : String) (args : Arguments) (body : List Stmt)
      (decoratorList : List Expr) (returns : Option Expr)
  | classDef (loc : Loc) (name : String) (bases : List Expr) (keywords : List Keyword)
      (body : List Stmt) (decoratorList : List Expr)
  | return_ (loc : Loc) (value : Option Expr)
  | delete (loc : Loc) (targets : List Expr)
  | assign (loc : Loc) (targets : List Expr) (value : Expr)
  | augAssign (loc : Loc) (target : Expr) (op : Operator) (value : Expr)
  | annAssign (loc : Loc) (target annotation : Expr) (value : Option Expr) (simple : Bool)
  | for_ (loc : Loc) (target iter : Expr) (body orelse : List Stmt)
  | asyncFor (loc : Loc) (target iter : Expr) (body orelse : List Stmt)
  | while_ (loc : Loc) (test : Expr) (body orelse : List Stmt)
  | if_ (loc : Loc) (test : Expr) (body orelse : List Stmt)
  | with_ (loc : Loc) (items : List WithItem) (body : List Stmt)
  | asyncWith (loc : Loc) (items : List WithItem) (body : List Stmt)
  | match_ (loc : Loc) (subject : Expr) (cases : List MatchCase)
  | raise (loc : Loc) (exc cause : Option Expr)
  | try_ (loc : Loc) (body : List Stmt) (handlers : List ExceptHandler)
      (orelse finalbody : List Stmt)
  | tryStar (loc : Loc) (body : List Stmt) (handlers : List ExceptHandler)
      (orelse finalbody : List Stmt)
  | assert (loc : Loc) (test : Expr) (msg : Option Expr)
  | import_ (loc : Loc) (names : List Alias)
  | importFrom (loc : Loc) (module : Option String) (names : List Alias) (level : Nat)
  | global (loc : Loc) (names : List String)
  | nonlocal (loc : Loc) (names : List String)
  | expr (loc : Loc) (value : Expr)
  | pass (loc : Loc)
  | break_ (loc : Loc)
  | continue_ (loc : Loc)

/-- `excepthandler`. -/
inductive ExceptHandler where
  | mk (loc : Loc) (type : Option Expr) (name : Option String) (body : List Stmt)

/-- `match_case`. -/
inductive MatchCase where
  | mk (pattern : Pattern) (guard : Option Expr) (body : List Stmt)

end

/-- `ast.Module`. -/
structure Module where
  body : List Stmt

/-! ## Positions -/

/-- The position of an expression. -/
def Expr.loc : Expr → Loc
  | .boolOp l _ _ | .namedExpr l _ _ | .binOp l _ _ _ | .unaryOp l _ _ | .lambda l _ _
  | .ifExp l _ _ _ | .dict l _ _ | .set l _ | .listComp l _ _ | .setComp l _ _
  | .dictComp l _ _ _ | .generatorExp l _ _ | .await l _ | .yield l _ | .yieldFrom l _
  | .compare l _ _ _ | .call l _ _ _ | .formattedValue l _ _ _ | .joinedStr l _
  | .constant l _ | .attribute l _ _ _ | .subscript l _ _ _ | .starred l _ _ | .name l _ _
  | .list l _ _ | .tuple l _ _ | .slice l _ _ _ => l

/-- The position of a statement. -/
def Stmt.loc : Stmt → Loc
  | .functionDef l _ _ _ _ _ | .asyncFunctionDef l _ _ _ _ _ | .classDef l _ _ _ _ _
  | .return_ l _ | .delete l _ | .assign l _ _ | .augAssign l _ _ _ | .annAssign l _ _ _ _
  | .for_ l _ _ _ _ | .asyncFor l _ _ _ _ | .while_ l _ _ _ | .if_ l _ _ _ | .with_ l _ _
  | .asyncWith l _ _ | .match_ l _ _ | .raise l _ _ | .try_ l _ _ _ _ | .tryStar l _ _ _ _
  | .assert l _ _ | .import_ l _ | .importFrom l _ _ _ | .global l _ | .nonlocal l _
  | .expr l _ | .pass l | .break_ l | .continue_ l => l

/-! ## Walking an expression

`e.walk skip` lists the nodes of `e` in the order of a depth-first walk over
`ast.iter_child_nodes`.  A child that `skip` selects is left out with everything below it; the
root is always entered.  Nodes that are not expressions (contexts, operators, keywords,
parameters) are listed as `none`, so the length of the list is the number of nodes that
`ast.walk` visits.
-/

/-- A child and what lies below it, unless the walk skips it. -/
def enter (skip : Expr → Bool) (e : Expr) (inner : List (Option Expr)) : List (Option Expr) :=
  if skip e then [] else some e :: inner

mutual

def Expr.inner (skip : Expr → Bool) : Expr → List (Option Expr)
  | .boolOp _ _ values => none :: innerList skip values
  | .namedExpr _ target value =>
      enter skip target (target.inner skip) ++ enter skip value (value.inner skip)
  | .binOp _ left _ right =>
      enter skip left (left.inner skip) ++ none :: enter skip right (right.inner skip)
  | .unaryOp _ _ operand => none :: enter skip operand (operand.inner skip)
  | .lambda _ args body => none :: args.inner skip ++ enter skip body (body.inner skip)
  | .ifExp _ test body orelse =>
      enter skip test (test.inner skip) ++ enter skip body (body.inner skip)
        ++ enter skip orelse (orelse.inner skip)
  | .dict _ keys values => innerOpts skip keys ++ innerList skip values
  | .set _ elts => innerList skip elts
  | .listComp _ elt generators =>
      enter skip elt (elt.inner skip) ++ innerGenerators skip generators
  | .setComp _ elt generators =>
      enter skip elt (elt.inner skip) ++ innerGenerators skip generators
  | .dictComp _ key value generators =>
      enter skip key (key.inner skip) ++ enter skip value (value.inner skip)
        ++ innerGenerators skip generators
  | .generatorExp _ elt generators =>
      enter skip elt (elt.inner skip) ++ innerGenerators skip generators
  | .await _ value => enter skip value (value.inner skip)
  | .yield _ value => innerOpt skip value
  | .yieldFrom _ value => enter skip value (value.inner skip)
  | .compare _ left ops comparators =>
      enter skip left (left.inner skip) ++ ops.map (fun _ => none) ++ innerList skip comparators
  | .call _ func args keywords =>
      enter skip func (func.inner skip) ++ innerList skip args ++ innerKeywords skip keywords
  | .formattedValue _ value _ formatSpec =>
      enter skip value (value.inner skip) ++ innerOpt skip formatSpec
  | .joinedStr _ values => innerList skip values
  | .constant _ _ => []
  | .attribute _ value _ _ => enter skip value (value.inner skip) ++ [none]
  | .subscript _ value slice _ =>
      enter skip value (value.inner skip) ++ enter skip slice (slice.inner skip) ++ [none]
  | .starred _ value _ => enter skip value (value.inner skip) ++ [none]
  | .name _ _ _ => [none]
  | .list _ elts _ => innerList skip elts ++ [none]
  | .tuple _ elts _ => innerList skip elts ++ [none]
  | .slice _ lower upper step =>
      innerOpt skip lower ++ innerOpt skip upper ++ innerOpt skip step

def innerList (skip : Expr → Bool) : List Expr → List (Option Expr)
  | [] => []
  | e :: es => enter skip e (e.inner skip) ++ innerList skip es

def innerOpt (skip : Expr → Bool) : Option Expr → List (Option Expr)
  | none => []
  | some e => enter skip e (e.inner skip)

def innerOpts (skip : Expr → Bool) : List (Option Expr) → List (Option Expr)
  | [] => []
  | e :: es => innerOpt skip e ++ innerOpts skip es

def Keyword.inner (skip : Expr → Bool) : Keyword → List (Option Expr)
  | .mk _ _ value => enter skip value (value.inner skip)

def innerKeywords (skip : Expr → Bool) : List Keyword → List (Option Expr)
  | [] => []
  | k :: ks => none :: k.inner skip ++ innerKeywords skip ks

def Comprehension.inner (skip : Expr → Bool) : Comprehension → List (Option Expr)
  | .mk target iter ifs _ =>
      enter skip target (target.inner skip) ++ enter skip iter (iter.inner skip)
        ++ innerList skip ifs

def innerGenerators (skip : Expr → Bool) : List Comprehension → List (Option Expr)
  | [] => []
  | g :: gs => none :: g.inner skip ++ innerGenerators skip gs

def Arg.inner (skip : Expr → Bool) : Arg → List (Option Expr)
  | .mk _ _ annotation => innerOpt skip annotation

def innerArgs (skip : Expr → Bool) : List Arg → List (Option Expr)
  | [] => []
  | a :: as => none :: a.inner skip ++ innerArgs skip as

def innerArg (skip : Expr → Bool) : Option Arg → List (Option Expr)
  | none => []
  | some a => none :: a.inner skip

def Arguments.inner (skip : Expr → Bool) : Arguments → List (Option Expr)
  | .mk posonlyargs args vararg kwonlyargs kwDefaults kwarg defaults =>
      innerArgs skip posonlyargs ++ innerArgs skip args ++ innerArg skip vararg
        ++ innerArgs skip kwonlyargs ++ innerOpts skip kwDefaults ++ innerArg skip kwarg
        ++ innerList skip defaults

end

/-- The nodes of `e`, depth first. -/
def Expr.walk (skip : Expr → Bool) (e : Expr) : List (Option Expr) :=
  some e :: e.inner skip

/-- `isinstance(e, ast.Call)`. -/
def Expr.isCall : Expr → Bool
  | .call .. => true
  | _ => false

/-- `isinstance(e, ast.Lambda)`. -/
def Expr.isLambda : Expr → Bool
  | .lambda .. => true
  | _ => false

/-- Nothing is skipped. -/
def skipNothing : Expr → Bool := fun _ => false

/-- `sum(1 for _ in ast.walk(e))`. -/
def Expr.nodeCount (e : Expr) : Nat := (e.walk skipNothing).length

/-- The calls among the nodes that a walk lists. -/
def callsOf (nodes : List (Option Expr)) : List Expr :=
  nodes.filterMap fun n => n.filter Expr.isCall

end Sast
