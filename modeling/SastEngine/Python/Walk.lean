import SastEngine.Python.Ast

/-!
# Walking a module

Depth-first and breadth-first enumerations of the statements and calls of a parsed file.  A
depth-first walk visits the fields of a node in the order of its `_fields`; `ast.walk` is
breadth first, and enumerates the statements of one depth from left to right before those of the
next.
-/

namespace Sast

/-! ## Calls, depth first -/

/-- The calls of an expression. -/
def callsIn (e : Expr) : List Expr := callsOf (e.walk skipNothing)

/-- The calls of an optional expression. -/
def callsInOpt (e : Option Expr) : List Expr := (e.map callsIn).getD []

/-- The calls of a parameter list. -/
def Arguments.calls (args : Arguments) : List Expr := callsOf (args.inner skipNothing)

/-- The calls of the keyword arguments of a class. -/
def callsInKeywords (keywords : List Keyword) : List Expr :=
  callsOf (innerKeywords skipNothing keywords)

mutual

/-- The calls of a pattern. -/
def Pattern.calls : Pattern → List Expr
  | .matchValue _ value => callsIn value
  | .matchSingleton _ _ => []
  | .matchSequence _ patterns => callsInPatterns patterns
  | .matchMapping _ keys patterns _ => keys.flatMap callsIn ++ callsInPatterns patterns
  | .matchClass _ cls patterns _ kwdPatterns =>
      callsIn cls ++ callsInPatterns patterns ++ callsInPatterns kwdPatterns
  | .matchStar _ _ => []
  | .matchAs _ pattern _ => callsInPattern pattern
  | .matchOr _ patterns => callsInPatterns patterns

def callsInPattern : Option Pattern → List Expr
  | none => []
  | some p => p.calls

def callsInPatterns : List Pattern → List Expr
  | [] => []
  | p :: ps => p.calls ++ callsInPatterns ps

end

/-- The calls of the items of a `with` statement. -/
def callsInItems (items : List WithItem) : List Expr :=
  items.flatMap fun item => callsIn item.contextExpr ++ callsInOpt item.optionalVars

mutual

/-- The calls of a statement. -/
def Stmt.calls : Stmt → List Expr
  | .functionDef _ _ args body decorators returns
  | .asyncFunctionDef _ _ args body decorators returns =>
      args.calls ++ callsInBlock body ++ decorators.flatMap callsIn ++ callsInOpt returns
  | .classDef _ _ bases keywords body decorators =>
      bases.flatMap callsIn ++ callsInKeywords keywords ++ callsInBlock body
        ++ decorators.flatMap callsIn
  | .return_ _ value => callsInOpt value
  | .delete _ targets => targets.flatMap callsIn
  | .assign _ targets value => targets.flatMap callsIn ++ callsIn value
  | .augAssign _ target _ value => callsIn target ++ callsIn value
  | .annAssign _ target annotation value _ =>
      callsIn target ++ callsIn annotation ++ callsInOpt value
  | .for_ _ target iter body orelse | .asyncFor _ target iter body orelse =>
      callsIn target ++ callsIn iter ++ callsInBlock body ++ callsInBlock orelse
  | .while_ _ test body orelse | .if_ _ test body orelse =>
      callsIn test ++ callsInBlock body ++ callsInBlock orelse
  | .with_ _ items body | .asyncWith _ items body => callsInItems items ++ callsInBlock body
  | .match_ _ subject cases => callsIn subject ++ callsInCases cases
  | .raise _ exc cause => callsInOpt exc ++ callsInOpt cause
  | .try_ _ body handlers orelse finalbody | .tryStar _ body handlers orelse finalbody =>
      callsInBlock body ++ callsInHandlers handlers ++ callsInBlock orelse
        ++ callsInBlock finalbody
  | .assert _ test msg => callsIn test ++ callsInOpt msg
  | .expr _ value => callsIn value
  | .import_ .. | .importFrom .. | .global .. | .nonlocal .. | .pass _ | .break_ _
  | .continue_ _ => []

/-- The calls of a block. -/
def callsInBlock : List Stmt → List Expr
  | [] => []
  | s :: ss => s.calls ++ callsInBlock ss

def callsInHandlers : List ExceptHandler → List Expr
  | [] => []
  | .mk _ type _ body :: hs => callsInOpt type ++ callsInBlock body ++ callsInHandlers hs

def callsInCases : List MatchCase → List Expr
  | [] => []
  | .mk pattern guard body :: cs =>
      pattern.calls ++ callsInOpt guard ++ callsInBlock body ++ callsInCases cs

end

/-! ## Walks that skip -/

variable {skip : Expr → Bool}

lemma enter_sublist {e : Expr} {inner others : List (Option Expr)} (h : inner.Sublist others) :
    (enter skip e inner).Sublist (enter skipNothing e others) := by
  unfold enter
  split_ifs
  · exact List.nil_sublist _
  · exact List.nil_sublist _
  · contradiction
  · exact h.cons_cons _

mutual

/-- **A walk that skips** lists nothing that the full walk does not list. -/
lemma inner_sublist : ∀ e : Expr, (e.inner skip).Sublist (e.inner skipNothing)
  | .boolOp _ _ values => (innerList_sublist values).cons_cons _
  | .namedExpr _ target value =>
      (enter_sublist (inner_sublist target)).append (enter_sublist (inner_sublist value))
  | .binOp _ left _ right =>
      (enter_sublist (inner_sublist left)).append
        ((enter_sublist (inner_sublist right)).cons_cons _)
  | .unaryOp _ _ operand => (enter_sublist (inner_sublist operand)).cons_cons _
  | .lambda _ args body =>
      ((arguments_sublist args).append (enter_sublist (inner_sublist body))).cons_cons _
  | .ifExp _ test body orelse =>
      ((enter_sublist (inner_sublist test)).append (enter_sublist (inner_sublist body))).append
        (enter_sublist (inner_sublist orelse))
  | .dict _ keys values => (innerOpts_sublist keys).append (innerList_sublist values)
  | .set _ elts => innerList_sublist elts
  | .listComp _ elt generators | .setComp _ elt generators | .generatorExp _ elt generators =>
      (enter_sublist (inner_sublist elt)).append (innerGenerators_sublist generators)
  | .dictComp _ key value generators =>
      ((enter_sublist (inner_sublist key)).append (enter_sublist (inner_sublist value))).append
        (innerGenerators_sublist generators)
  | .await _ value | .yieldFrom _ value => enter_sublist (inner_sublist value)
  | .yield _ value => innerOpt_sublist value
  | .compare _ left _ comparators =>
      ((enter_sublist (inner_sublist left)).append (List.Sublist.refl _)).append
        (innerList_sublist comparators)
  | .call _ func args keywords =>
      ((enter_sublist (inner_sublist func)).append (innerList_sublist args)).append
        (innerKeywords_sublist keywords)
  | .formattedValue _ value _ formatSpec =>
      (enter_sublist (inner_sublist value)).append (innerOpt_sublist formatSpec)
  | .joinedStr _ values => innerList_sublist values
  | .constant _ _ | .name _ _ _ => List.Sublist.refl _
  | .attribute _ value _ _ | .starred _ value _ =>
      (enter_sublist (inner_sublist value)).append (List.Sublist.refl _)
  | .subscript _ value slice _ =>
      ((enter_sublist (inner_sublist value)).append (enter_sublist (inner_sublist slice))).append
        (List.Sublist.refl _)
  | .list _ elts _ | .tuple _ elts _ => (innerList_sublist elts).append (List.Sublist.refl _)
  | .slice _ lower upper step =>
      ((innerOpt_sublist lower).append (innerOpt_sublist upper)).append (innerOpt_sublist step)

lemma innerList_sublist : ∀ es : List Expr, (innerList skip es).Sublist (innerList skipNothing es)
  | [] => List.Sublist.refl _
  | e :: es => (enter_sublist (inner_sublist e)).append (innerList_sublist es)

lemma innerOpt_sublist : ∀ e : Option Expr, (innerOpt skip e).Sublist (innerOpt skipNothing e)
  | none => List.Sublist.refl _
  | some e => enter_sublist (inner_sublist e)

lemma innerOpts_sublist :
    ∀ es : List (Option Expr), (innerOpts skip es).Sublist (innerOpts skipNothing es)
  | [] => List.Sublist.refl _
  | e :: es => (innerOpt_sublist e).append (innerOpts_sublist es)

lemma keyword_sublist : ∀ k : Keyword, (k.inner skip).Sublist (k.inner skipNothing)
  | .mk _ _ value => enter_sublist (inner_sublist value)

lemma innerKeywords_sublist :
    ∀ ks : List Keyword, (innerKeywords skip ks).Sublist (innerKeywords skipNothing ks)
  | [] => List.Sublist.refl _
  | k :: ks => ((keyword_sublist k).append (innerKeywords_sublist ks)).cons_cons _

lemma comprehension_sublist : ∀ g : Comprehension, (g.inner skip).Sublist (g.inner skipNothing)
  | .mk target iter ifs _ =>
      ((enter_sublist (inner_sublist target)).append (enter_sublist (inner_sublist iter))).append
        (innerList_sublist ifs)

lemma innerGenerators_sublist :
    ∀ gs : List Comprehension, (innerGenerators skip gs).Sublist (innerGenerators skipNothing gs)
  | [] => List.Sublist.refl _
  | g :: gs => ((comprehension_sublist g).append (innerGenerators_sublist gs)).cons_cons _

lemma arg_sublist : ∀ a : Arg, (a.inner skip).Sublist (a.inner skipNothing)
  | .mk _ _ annotation => innerOpt_sublist annotation

lemma innerArgs_sublist : ∀ as : List Arg, (innerArgs skip as).Sublist (innerArgs skipNothing as)
  | [] => List.Sublist.refl _
  | a :: as => ((arg_sublist a).append (innerArgs_sublist as)).cons_cons _

lemma innerArg_sublist : ∀ a : Option Arg, (innerArg skip a).Sublist (innerArg skipNothing a)
  | none => List.Sublist.refl _
  | some a => (arg_sublist a).cons_cons _

lemma arguments_sublist : ∀ a : Arguments, (a.inner skip).Sublist (a.inner skipNothing)
  | .mk posonlyargs args vararg kwonlyargs kwDefaults kwarg defaults =>
      ((((((innerArgs_sublist posonlyargs).append (innerArgs_sublist args)).append
        (innerArg_sublist vararg)).append (innerArgs_sublist kwonlyargs)).append
        (innerOpts_sublist kwDefaults)).append (innerArg_sublist kwarg)).append
        (innerList_sublist defaults)

end

/-- The calls that a skipping walk lists are calls of the expression. -/
lemma mem_callsIn {e call : Expr} (h : call ∈ callsOf (e.walk skip)) : call ∈ callsIn e := by
  have hwalk : (e.walk skip).Sublist (e.walk skipNothing) := (inner_sublist e).cons_cons _
  exact (hwalk.filterMap _).subset h

/-! ## Statements with their depth -/

mutual

/-- The statements below a statement of depth `d`, depth first.  A handler or a case is a node of
its own, so its statements are two levels down. -/
def Stmt.under (d : Nat) : Stmt → List (Nat × Stmt)
  | .functionDef _ _ _ body _ _ | .asyncFunctionDef _ _ _ body _ _ | .classDef _ _ _ _ body _
  | .with_ _ _ body | .asyncWith _ _ body => blockUnder (d + 1) body
  | .for_ _ _ _ body orelse | .asyncFor _ _ _ body orelse | .while_ _ _ body orelse
  | .if_ _ _ body orelse => blockUnder (d + 1) body ++ blockUnder (d + 1) orelse
  | .match_ _ _ cases => casesUnder (d + 2) cases
  | .try_ _ body handlers orelse finalbody | .tryStar _ body handlers orelse finalbody =>
      blockUnder (d + 1) body ++ handlersUnder (d + 2) handlers ++ blockUnder (d + 1) orelse
        ++ blockUnder (d + 1) finalbody
  | .return_ .. | .delete .. | .assign .. | .augAssign .. | .annAssign .. | .raise ..
  | .assert .. | .import_ .. | .importFrom .. | .global .. | .nonlocal .. | .expr .. | .pass _
  | .break_ _ | .continue_ _ => []

/-- The statements of a block at depth `d`, each followed by those below it. -/
def blockUnder (d : Nat) : List Stmt → List (Nat × Stmt)
  | [] => []
  | s :: ss => (d, s) :: s.under d ++ blockUnder d ss

def handlersUnder (d : Nat) : List ExceptHandler → List (Nat × Stmt)
  | [] => []
  | .mk _ _ _ body :: hs => blockUnder d body ++ handlersUnder d hs

def casesUnder (d : Nat) : List MatchCase → List (Nat × Stmt)
  | [] => []
  | .mk _ _ body :: cs => blockUnder d body ++ casesUnder d cs

end

/-- All statements of a module, depth first. -/
def Module.stmts (tree : Module) : List Stmt := (blockUnder 1 tree.body).map Prod.snd

/-- All statements of a module in the order of `ast.walk`. -/
def Module.stmtsBfs (tree : Module) : List Stmt :=
  let nodes := blockUnder 1 tree.body
  let height := (nodes.map Prod.fst).foldl max 0
  (List.range (height + 1)).flatMap fun d =>
    (nodes.filter fun n => n.1 = d).map Prod.snd

/-- All calls of a module, depth first. -/
def Module.calls (tree : Module) : List Expr := callsInBlock tree.body

end Sast
