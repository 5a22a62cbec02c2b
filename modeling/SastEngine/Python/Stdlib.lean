import SastEngine.Python.Ast
import SastEngine.Python.Text

/-!
# What the program takes from Python's standard library

`ast.parse`, `ast.unparse` and `hashlib.sha256` are implemented by the interpreter, not by the
repository.  They are the fields of `Stdlib`, and every definition that calls one of them takes
the record as a parameter; what a result relies on is a hypothesis of that result.  Only
`ast.get_source_segment`, which is plain slicing, is a definition.
-/

namespace Sast

/-- The library functions the program calls.  A raised exception is `Except.error` with its
text. -/
structure Stdlib where
  /-- `ast.parse(source)` -/
  parse : String → Except String Module
  /-- `ast.parse(source, mode="eval").body` -/
  parseExpr : String → Except String Expr
  /-- `ast.unparse` of an expression -/
  unparse : Expr → Except String String
  /-- `ast.unparse` of a statement -/
  unparseStmt : Stmt → Except String String
  /-- `hashlib.sha256(text.encode()).hexdigest()` -/
  sha256 : String → String

/-- The text of an expression where a scan rule compares it with a known name.  Where
`ast.unparse` raises, the source gives up the whole scan; here the text is empty and no name
matches. -/
def Stdlib.text (py : Stdlib) (e : Expr) : String :=
  match py.unparse e with
  | .ok text => text
  | .error _ => ""

/-- `ast.get_source_segment(source, node)`. -/
def getSourceSegment (source : String) (loc : Loc) : String :=
  let lines := splitlinesNoFf source.toList
  let line := fun n : Nat => (lines[n - 1]?).getD []
  if loc.endLineno = loc.lineno then
    String.ofList (sliceBytes loc.colOffset (some loc.endColOffset) 0 (line loc.lineno))
  else
    let first := sliceBytes loc.colOffset none 0 (line loc.lineno)
    let last := sliceBytes 0 (some loc.endColOffset) 0 (line loc.endLineno)
    let middle := (lines.drop loc.lineno).take (loc.endLineno - loc.lineno - 1)
    String.ofList (first ++ middle.flatten ++ last)

end Sast
