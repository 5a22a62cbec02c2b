import SastEngine.Python.Stdlib

/-!
# Tabulated interpreters

An interpreter that is known on finitely many texts: it parses the texts it is given together with
their trees, and prints the names, attributes, calls, strings and tuples these trees are made of
the way `ast.unparse` does.  On everything else it raises.
-/

namespace Sast

mutual

/-- `ast.unparse` on names, attributes, calls without keywords, plain strings and tuples. -/
def printExpr : Expr → Except String String
  | .name _ id _ => .ok id
  | .attribute _ value attr _ => do return (← printExpr value) ++ "." ++ attr
  | .call _ func args [] => do
      return (← printExpr func) ++ "(" ++ String.intercalate ", " (← printExprs args) ++ ")"
  | .constant _ (.str s) => .ok ("'" ++ s ++ "'")
  | .tuple _ elts _ => do
      match ← printExprs elts with
      | [text] => return "(" ++ text ++ ",)"
      | texts => return "(" ++ String.intercalate ", " texts ++ ")"
  | _ => .error "not tabulated"

def printExprs : List Expr → Except String (List String)
  | [] => .ok []
  | e :: es => do return (← printExpr e) :: (← printExprs es)

end

/-- `ast.unparse` on expression statements and assignments to one target. -/
def printStmt : Stmt → Except String String
  | .expr _ value => printExpr value
  | .assign _ [target] value => do return (← printExpr target) ++ " = " ++ (← printExpr value)
  | _ => .error "not tabulated"

/-! ## Nodes on one line -/

/-- The columns `first` to `last` of a line. -/
def spanOf (line first last : Nat) : Loc := ⟨line, first, line, last⟩

/-- The name `id` at a column. -/
def nameAt (line first : Nat) (id : String) : Expr :=
  .name (spanOf line first (first + id.length)) id .load

/-- The dotted name `base.attr` at a column. -/
def dottedAt (line first : Nat) (base attr : String) : Expr :=
  .attribute (spanOf line first (first + base.length + 1 + attr.length)) (nameAt line first base)
    attr .load

/-- The call `base.attr(arg)` at a column. -/
def callAt (line first : Nat) (base attr : String) (arg : Expr) : Expr :=
  .call (spanOf line first (arg.loc.endColOffset + 1)) (dottedAt line first base attr) [arg] []

/-- The import of one module. -/
def importAt (line : Nat) (name : String) : Stmt :=
  .import_ (spanOf line 0 (7 + name.length)) [⟨spanOf line 7 (7 + name.length), name, none⟩]

/-- A function `name(param)` with the given body. -/
def functionAt (line : Nat) (name param : String) (body : List Stmt) : Stmt :=
  let last := (body.getLast?.map Stmt.loc).getD default
  .functionDef ⟨line, 0, last.endLineno, last.endColOffset⟩ name
    (.mk [] [.mk (spanOf line (5 + name.length) (5 + name.length + param.length)) param none] none
      [] [] none []) body [] none

/-! ## Interpreters -/

/-- The entry of a text in a table. -/
def tabulated {α : Type} (table : List (String × α)) (text : String) : Except String α :=
  match table.lookup text with
  | some tree => .ok tree
  | none => .error "not tabulated"

/-- The interpreter with the given tables.  Its hash is the identity, which has no collisions. -/
def tabulatedPython (files : List (String × Module)) (exprs : List (String × Expr)) :
    Stdlib where
  parse := tabulated files
  parseExpr := tabulated exprs
  unparse := printExpr
  unparseStmt := printStmt
  sha256 := id

lemma parse_tabulatedPython (text : String) (tree : Module) (exprs : List (String × Expr)) :
    (tabulatedPython [(text, tree)] exprs).parse text = .ok tree := by
  show tabulated [(text, tree)] text = .ok tree
  simp [tabulated]

end Sast
