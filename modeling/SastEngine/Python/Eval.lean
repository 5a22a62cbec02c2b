import SastEngine.Python.Ast

/-!
# Values of expressions

What an expression evaluates to at one moment of an execution, as far as strings are concerned:
string constants, names, `+` of strings, and f-strings.  The values of all other expressions
(calls, attributes, subscripts, formatted values, ...) are part of the moment.
-/

namespace Sast

/-- A value: a string, or an object of another type with its `str()`. -/
inductive Value where
  | str (s : String)
  | other (text : String)
deriving DecidableEq

/-- `str(value)`. -/
def Value.text : Value → String
  | .str s => s
  | .other text => text

/-- A moment of an execution: the values of the names in scope, and of the expressions that are
not computed here.  An expression without a value raises. -/
structure Frame where
  names : String → Option Value
  others : Expr → Option Value

mutual

/-- The value of an expression. -/
def Frame.eval (frame : Frame) : Expr → Option Value
  | .constant _ (.str s) => some (.str s)
  | .name _ id _ => frame.names id
  | .joinedStr _ values => (frame.join values).map .str
  | .binOp loc left op right =>
      match op, frame.eval left, frame.eval right with
      | .add, some (.str a), some (.str b) => some (.str (a ++ b))
      | _, some _, some _ => frame.others (.binOp loc left op right)
      | _, _, _ => none
  | e => frame.others e

/-- The text of an f-string.  An interpolated value without conversion and format specification
contributes its `str()`. -/
def Frame.join (frame : Frame) : List Expr → Option String
  | [] => some ""
  | .constant _ (.str s) :: values => (frame.join values).map (s ++ ·)
  | .formattedValue loc value conversion spec :: values =>
      let part := if conversion = -1 ∧ spec.isNone then frame.eval value
        else frame.others (.formattedValue loc value conversion spec)
      match part, frame.join values with
      | some v, some rest => some (v.text ++ rest)
      | _, _ => none
  | _ :: _ => none

end

/-- `str()` of the value of an expression. -/
def Frame.text (frame : Frame) (e : Expr) : Option String := (frame.eval e).map Value.text

end Sast
