import SastEngine.Python.Ast

/-!
# Replacing calls in a tree

A `NodeTransformer` that overrides `visit_Call`: the calls that `f` maps to a replacement are
replaced, and nothing below them is visited; all other nodes are rebuilt from their visited
children.
-/

namespace Sast

variable (f : Expr → Option Expr)

mutual

def Expr.replace : Expr → Expr
  | .boolOp l op values => .boolOp l op (replaceList values)
  | .namedExpr l target value => .namedExpr l target.replace value.replace
  | .binOp l left op right => .binOp l left.replace op right.replace
  | .unaryOp l op operand => .unaryOp l op operand.replace
  | .lambda l args body => .lambda l args.replace body.replace
  | .ifExp l test body orelse => .ifExp l test.replace body.replace orelse.replace
  | .dict l keys values => .dict l (replaceOpts keys) (replaceList values)
  | .set l elts => .set l (replaceList elts)
  | .listComp l elt gens => .listComp l elt.replace (replaceGenerators gens)
  | .setComp l elt gens => .setComp l elt.replace (replaceGenerators gens)
  | .dictComp l key value gens => .dictComp l key.replace value.replace (replaceGenerators gens)
  | .generatorExp l elt gens => .generatorExp l elt.replace (replaceGenerators gens)
  | .await l value => .await l value.replace
  | .yield l value => .yield l (replaceOpt value)
  | .yieldFrom l value => .yieldFrom l value.replace
  | .compare l left ops comparators => .compare l left.replace ops (replaceList comparators)
  | .call l func args keywords =>
      match f (.call l func args keywords) with
      | some new => new
      | none => .call l func.replace (replaceList args) (replaceKeywords keywords)
  | .formattedValue l value conversion spec =>
      .formattedValue l value.replace conversion (replaceOpt spec)
  | .joinedStr l values => .joinedStr l (replaceList values)
  | .constant l value => .constant l value
  | .attribute l value attr ctx => .attribute l value.replace attr ctx
  | .subscript l value slice ctx => .subscript l value.replace slice.replace ctx
  | .starred l value ctx => .starred l value.replace ctx
  | .name l id ctx => .name l id ctx
  | .list l elts ctx => .list l (replaceList elts) ctx
  | .tuple l elts ctx => .tuple l (replaceList elts) ctx
  | .slice l lower upper step =>
      .slice l (replaceOpt lower) (replaceOpt upper) (replaceOpt step)

def replaceList : List Expr → List Expr
  | [] => []
  | e :: es => e.replace :: replaceList es

def replaceOpt : Option Expr → Option Expr
  | none => none
  | some e => some e.replace

def replaceOpts : List (Option Expr) → List (Option Expr)
  | [] => []
  | e :: es => replaceOpt e :: replaceOpts es

def Keyword.replace : Keyword → Keyword
  | .mk l arg value => .mk l arg value.replace

def replaceKeywords : List Keyword → List Keyword
  | [] => []
  | k :: ks => k.replace :: replaceKeywords ks

def Comprehension.replace : Comprehension → Comprehension
  | .mk target iter ifs isAsync => .mk target.replace iter.replace (replaceList ifs) isAsync

def replaceGenerators : List Comprehension → List Comprehension
  | [] => []
  | g :: gs => g.replace :: replaceGenerators gs

def Arg.replace : Arg → Arg
  | .mk l arg annotation => .mk l arg (replaceOpt annotation)

def replaceArgs : List Arg → List Arg
  | [] => []
  | a :: as => a.replace :: replaceArgs as

def replaceArg : Option Arg → Option Arg
  | none => none
  | some a => some a.replace

def Arguments.replace : Arguments → Arguments
  | .mk posonlyargs args vararg kwonlyargs kwDefaults kwarg defaults =>
      .mk (replaceArgs posonlyargs) (replaceArgs args) (replaceArg vararg)
        (replaceArgs kwonlyargs) (replaceOpts kwDefaults) (replaceArg kwarg)
        (replaceList defaults)

end

mutual

def Pattern.replace : Pattern → Pattern
  | .matchValue l value => .matchValue l (value.replace f)
  | .matchSingleton l value => .matchSingleton l value
  | .matchSequence l patterns => .matchSequence l (replacePatterns patterns)
  | .matchMapping l keys patterns rest =>
      .matchMapping l (replaceList f keys) (replacePatterns patterns) rest
  | .matchClass l cls patterns kwdAttrs kwdPatterns =>
      .matchClass l (cls.replace f) (replacePatterns patterns) kwdAttrs
        (replacePatterns kwdPatterns)
  | .matchStar l name => .matchStar l name
  | .matchAs l pattern name => .matchAs l (replacePattern pattern) name
  | .matchOr l patterns => .matchOr l (replacePatterns patterns)

def replacePattern : Option Pattern → Option Pattern
  | none => none
  | some p => some p.replace

def replacePatterns : List Pattern → List Pattern
  | [] => []
  | p :: ps => p.replace :: replacePatterns ps

end

/-- The items of a `with` statement. -/
def replaceItems (items : List WithItem) : List WithItem :=
  items.map fun item =>
    { contextExpr := item.contextExpr.replace f, optionalVars := replaceOpt f item.optionalVars }

mutual

def Stmt.replace : Stmt → Stmt
  | .functionDef l name args body decorators returns =>
      .functionDef l name (args.replace f) (replaceBlock body) (replaceList f decorators)
        (replaceOpt f returns)
  | .asyncFunctionDef l name args body decorators returns =>
      .asyncFunctionDef l name (args.replace f) (replaceBlock body) (replaceList f decorators)
        (replaceOpt f returns)
  | .classDef l name bases keywords body decorators =>
      .classDef l name (replaceList f bases) (replaceKeywords f keywords) (replaceBlock body)
        (replaceList f decorators)
  | .return_ l value => .return_ l (replaceOpt f value)
  | .delete l targets => .delete l (replaceList f targets)
  | .assign l targets value => .assign l (replaceList f targets) (value.replace f)
  | .augAssign l target op value => .augAssign l (target.replace f) op (value.replace f)
  | .annAssign l target annotation value simple =>
      .annAssign l (target.replace f) ( annotation.replace f) (replaceOpt f value) simple
  | .for_ l target iter body orelse =>
      .for_ l (target.replace f) (iter.replace f) (replaceBlock body) (replaceBlock orelse)
  | .asyncFor l target iter body orelse =>
      .asyncFor l (target.replace f) (iter.replace f) (replaceBlock body) (replaceBlock orelse)
  | .while_ l test body orelse =>
      .while_ l (test.replace f) (replaceBlock body) (replaceBlock orelse)
  | .if_ l test body orelse => .if_ l (test.replace f) (replaceBlock body) (replaceBlock orelse)
  | .with_ l items body => .with_ l (replaceItems f items) (replaceBlock body)
  | .asyncWith l items body => .asyncWith l (replaceItems f items) (replaceBlock body)
  | .match_ l subject cases => .match_ l (subject.replace f) (replaceCases cases)
  | .raise l exc cause => .raise l (replaceOpt f exc) (replaceOpt f cause)
  | .try_ l body handlers orelse finalbody =>
      .try_ l (replaceBlock body) (replaceHandlers handlers) (replaceBlock orelse)
        (replaceBlock finalbody)
  | .tryStar l body handlers orelse finalbody =>
      .tryStar l (replaceBlock body) (replaceHandlers handlers) (replaceBlock orelse)
        (replaceBlock finalbody)
  | .assert l test msg => .assert l (test.replace f) (replaceOpt f msg)
  | .import_ l names => .import_ l names
  | .importFrom l module names level => .importFrom l module names level
  | .global l names => .global l names
  | .nonlocal l names => .nonlocal l names
  | .expr l value => .expr l (value.replace f)
  | .pass l => .pass l
  | .break_ l => .break_ l
  | .continue_ l => .continue_ l

def replaceBlock : List Stmt → List Stmt
  | [] => []
  | s :: ss => s.replace :: replaceBlock ss

def replaceHandlers : List ExceptHandler → List ExceptHandler
  | [] => []
  | .mk l type name body :: hs =>
      .mk l (replaceOpt f type) name (replaceBlock body) :: replaceHandlers hs

def replaceCases : List MatchCase → List MatchCase
  | [] => []
  | .mk pattern guard body :: cs =>
      .mk (pattern.replace f) (replaceOpt f guard) (replaceBlock body) :: replaceCases cs

end

end Sast
