import SastEngine.Scan.TaintEngine

/-!
# Statement sites

Where expressions are evaluated, and which of them the engine scans.  A scope is the module, a
class body or a function body; a site is a statement of a scope together with the operands it
evaluates, those the engine hands to `_check_sinks`, and the taint map the engine holds there.
The engine falls through on some statements (`assert`, `match`, `async for`, ...) without looking
at their operands or blocks: below such a statement its map stays as it is, and nothing is
scanned.

A flow is a tainted, unsanitized sink call in a scanned operand, with the taint that reaches it.
The main results are `findings_analyzeTree`, one finding is emitted for each flow, and
`hasSink_analyzeTree`: the sinks of the findings are those of the flows.
-/

namespace Sast

variable (ctx : FileContext)

/-- A statement occurrence: the operands it evaluates, the ones that are scanned for sinks, and
the taint map there. -/
structure Site where
  operands : List Expr
  scanned : List Expr
  taints : Taints

/-- A site whose scanned operands count only if the engine visits the statement. -/
def siteAt (seen : Bool) (operands scanned : List Expr) (tainted : Taints) : Site where
  operands := operands
  scanned := if seen then scanned else []
  taints := tainted

/-- The map after a statement the engine visits; it does not depend on the enclosing names. -/
def taintsAfter (seen : Bool) (stmt : Stmt) (tainted : Taints) : Taints :=
  if seen then (applyStmt ctx [] [] stmt tainted).2 else tainted

/-- The map after a block the engine visits. -/
def blockAfter (seen : Bool) (stmts : List Stmt) (tainted : Taints) : Taints :=
  if seen then (analyzeBlock ctx [] [] stmts tainted).2 else tainted

/-- The map after the binding of the loop variables, if the engine visits the loop. -/
def boundTaints (seen : Bool) (loc : Loc) (target iter : Expr) (tainted : Taints) : Taints :=
  if seen then forTaints ctx loc target iter tainted else tainted

mutual

/-- The sites of a statement within its scope: nested functions and classes have scopes of their
own. -/
def stmtSites (seen : Bool) : Stmt → Taints → List Site
  | .assign _ targets value, t => [siteAt seen (targets ++ [value]) [value] t]
  | .annAssign _ target _ value _, t =>
      [siteAt seen (target :: value.toList) value.toList t]
  | .augAssign _ target _ value, t => [siteAt seen [target, value] [value] t]
  | .expr _ value, t => [siteAt seen [value] [value] t]
  | .return_ _ value, t => [siteAt seen value.toList value.toList t]
  | .if_ _ test body orelse, t | .while_ _ test body orelse, t =>
      siteAt seen [test] [test] t :: (blockSites seen body t ++ blockSites seen orelse t)
  | .for_ loc target iter body orelse, t =>
      siteAt seen [target, iter] [iter] t
        :: (blockSites seen body (boundTaints ctx seen loc target iter t)
          ++ blockSites seen orelse (boundTaints ctx seen loc target iter t))
  | .try_ _ body handlers orelse finalbody, t =>
      let t1 := t.update (blockAfter ctx seen body t)
      let t2 := t1.update (blockAfter ctx seen orelse t1)
      let t3 := t2.update (blockAfter ctx seen finalbody t2)
      blockSites seen body t ++ blockSites seen orelse t1 ++ blockSites seen finalbody t2
        ++ handlerSites seen handlers t3
  | .with_ _ items body, t =>
      siteAt seen (items.flatMap itemOperands) [] t :: blockSites seen body t
  | .asyncWith _ items body, t =>
      siteAt false (items.flatMap itemOperands) [] t :: blockSites false body t
  | .asyncFor _ target iter body orelse, t =>
      siteAt false [target, iter] [] t :: (blockSites false body t ++ blockSites false orelse t)
  | .tryStar _ body handlers orelse finalbody, t =>
      blockSites false body t ++ blockSites false orelse t ++ blockSites false finalbody t
        ++ handlerSites false handlers t
  | .match_ _ subject cases, t => siteAt false [subject] [] t :: caseSites cases t
  | .delete _ targets, t => [siteAt false targets [] t]
  | .raise _ exc cause, t => [siteAt false (exc.toList ++ cause.toList) [] t]
  | .assert _ test msg, t => [siteAt false (test :: msg.toList) [] t]
  | .functionDef .., _ | .asyncFunctionDef .., _ | .classDef .., _ | .import_ .., _
  | .importFrom .., _ | .global .., _ | .nonlocal .., _ | .pass _, _ | .break_ _, _
  | .continue_ _, _ => []
where
  itemOperands (item : WithItem) : List Expr := item.contextExpr :: item.optionalVars.toList

/-- The sites of a block. -/
def blockSites (seen : Bool) : List Stmt → Taints → List Site
  | [], _ => []
  | s :: ss, t => stmtSites seen s t ++ blockSites seen ss (taintsAfter ctx seen s t)

/-- The sites of the handlers of a `try`, each with the type expression it evaluates. -/
def handlerSites (seen : Bool) : List ExceptHandler → Taints → List Site
  | [], _ => []
  | .mk _ type _ body :: hs, t =>
      siteAt false type.toList [] t :: (blockSites seen body t
        ++ handlerSites seen hs (t.update (blockAfter ctx seen body t)))

/-- The sites of the cases of a `match`, which the engine never visits. -/
def caseSites : List MatchCase → Taints → List Site
  | [], _ => []
  | .mk _ guard body :: cs, t =>
      siteAt false guard.toList [] t :: (blockSites false body t ++ caseSites cs t)

end

/-- The module, a class body or a function body, with the taint map at its entry, and whether the
engine visits it. -/
structure Scope where
  entry : Taints
  body : List Stmt
  isFunction : Bool
  seen : Bool

mutual

/-- The scopes that begin below a statement. -/
def stmtScopes (seen : Bool) : Stmt → List Scope
  | .functionDef loc _ args body _ _ | .asyncFunctionDef loc _ args body _ _ =>
      ⟨entryTaints ctx loc args, body, true, seen⟩ :: blockScopes seen body
  | .classDef _ _ _ _ body _ => ⟨Dict.empty, body, false, seen⟩ :: blockScopes seen body
  | .if_ _ _ body orelse | .while_ _ _ body orelse | .for_ _ _ _ body orelse =>
      blockScopes seen body ++ blockScopes seen orelse
  | .try_ _ body handlers orelse finalbody =>
      blockScopes seen body ++ blockScopes seen orelse ++ blockScopes seen finalbody
        ++ handlerScopes seen handlers
  | .with_ _ _ body => blockScopes seen body
  | .asyncWith _ _ body => blockScopes false body
  | .asyncFor _ _ _ body orelse => blockScopes false body ++ blockScopes false orelse
  | .tryStar _ body handlers orelse finalbody =>
      blockScopes false body ++ blockScopes false orelse ++ blockScopes false finalbody
        ++ handlerScopes false handlers
  | .match_ _ _ cases => caseScopes cases
  | .assign .. | .annAssign .. | .augAssign .. | .expr .. | .return_ .. | .delete .. | .raise ..
  | .assert .. | .import_ .. | .importFrom .. | .global .. | .nonlocal .. | .pass _ | .break_ _
  | .continue_ _ => []

def blockScopes (seen : Bool) : List Stmt → List Scope
  | [] => []
  | s :: ss => stmtScopes seen s ++ blockScopes seen ss

def handlerScopes (seen : Bool) : List ExceptHandler → List Scope
  | [] => []
  | .mk _ _ _ body :: hs => blockScopes seen body ++ handlerScopes seen hs

def caseScopes : List MatchCase → List Scope
  | [] => []
  | .mk _ _ body :: cs => blockScopes false body ++ caseScopes cs

end

/-- The sites of a scope. -/
def Scope.sites (scope : Scope) : List Site := blockSites ctx scope.seen scope.body scope.entry

/-- All scopes of a file: the module and everything below it. -/
def treeScopes (tree : Module) : List Scope :=
  ⟨Dict.empty, tree.body, false, true⟩ :: blockScopes ctx true tree.body

/-- The engine finds the sink at the site: a scanned operand has an unsanitized sink call with a
tainted argument. -/
def Site.hits (site : Site) (sink : SinkRef) : Prop :=
  ∃ e ∈ site.scanned, ∃ call ∈ collectCalls e, ∃ taint,
    taintedSink ctx site.taints call = some (sink, taint)

/-- A finding with the sink is among the findings. -/
def HasSink (findings : List CandidateFinding) (sink : SinkRef) : Prop :=
  ∃ f ∈ findings, f.sink = sink

/-- A flow into the sink of a call: the call, the sink it matches, and the taint of its sink
expression. -/
structure SinkFlow where
  call : Expr
  sink : SinkRef
  taint : Taint

/-- The finding that is emitted for a flow. -/
def SinkFlow.finding (flow : SinkFlow) : CandidateFinding := emitFinding ctx flow.sink flow.taint

/-- The flows into the calls of an expression. -/
def exprFlows (tainted : Taints) (e : Expr) : List SinkFlow :=
  (collectCalls e).filterMap fun call =>
    (taintedSink ctx tainted call).map fun hit => ⟨call, hit.1, hit.2⟩

/-- The flows at a site: those into the calls of its scanned operands. -/
def Site.flows (site : Site) : List SinkFlow := site.scanned.flatMap (exprFlows ctx site.taints)

/-- The flows in a scope. -/
def Scope.flows (scope : Scope) : List SinkFlow := (scope.sites ctx).flatMap (Site.flows ctx)

/-- The flows in a file. -/
def treeFlows (tree : Module) : List SinkFlow := (treeScopes ctx tree).flatMap (Scope.flows ctx)

/-! ## Findings and sites -/

variable {ctx}

lemma mem_exprFlows {t : Taints} {e : Expr} {flow : SinkFlow} :
    flow ∈ exprFlows ctx t e
      ↔ flow.call ∈ collectCalls e ∧ taintedSink ctx t flow.call = some (flow.sink, flow.taint) := by
  simp only [exprFlows, List.mem_filterMap, Option.map_eq_some_iff]
  constructor
  · rintro ⟨call, hcall, ⟨sink, taint⟩, hhit, rfl⟩
    exact ⟨hcall, hhit⟩
  · rintro ⟨hcall, hhit⟩
    exact ⟨flow.call, hcall, _, hhit, rfl⟩

/-- `_check_sinks` emits one finding for each flow of the expression. -/
lemma checkSinks_findings (e : Expr) (t : Taints) :
    (checkSinks ctx e t).findings = (exprFlows ctx t e).map (SinkFlow.finding ctx) := by
  simp only [checkSinks, exprFlows, List.map_filterMap, Option.map_map]
  rfl

/-- A site is hit by its flows. -/
lemma hits_iff {site : Site} {sink : SinkRef} :
    site.hits ctx sink ↔ ∃ flow ∈ site.flows ctx, flow.sink = sink := by
  simp only [Site.flows, List.mem_flatMap, mem_exprFlows]
  constructor
  · rintro ⟨e, he, call, hcall, taint, hhit⟩
    exact ⟨⟨call, sink, taint⟩, ⟨e, he, hcall, hhit⟩, rfl⟩
  · rintro ⟨flow, ⟨e, he, hcall, hhit⟩, rfl⟩
    exact ⟨e, he, flow.call, hcall, flow.taint, hhit⟩

/-- The engine finds the sink at one of the sites. -/
def HitsAny (ctx : FileContext) (sites : List Site) (sink : SinkRef) : Prop :=
  ∃ site ∈ sites, site.hits ctx sink

/-- The engine finds the sink in one of the scopes. -/
def HitsScope (ctx : FileContext) (scopes : List Scope) (sink : SinkRef) : Prop :=
  ∃ scope ∈ scopes, HitsAny ctx (scope.sites ctx) sink

lemma hitsAny_append {xs ys : List Site} {sink : SinkRef} :
    HitsAny ctx (xs ++ ys) sink ↔ HitsAny ctx xs sink ∨ HitsAny ctx ys sink := by
  simp only [HitsAny, List.mem_append, or_and_right, exists_or]

lemma hitsAny_cons {x : Site} {xs : List Site} {sink : SinkRef} :
    HitsAny ctx (x :: xs) sink ↔ x.hits ctx sink ∨ HitsAny ctx xs sink := by
  simp [HitsAny]

@[simp] lemma not_hitsAny_nil {sink : SinkRef} : ¬ HitsAny ctx [] sink := by
  simp [HitsAny]

/-- Sites are hit by their flows. -/
lemma hitsAny_iff {sites : List Site} {sink : SinkRef} :
    HitsAny ctx sites sink ↔ ∃ flow ∈ sites.flatMap (Site.flows ctx), flow.sink = sink := by
  simp only [HitsAny, hits_iff, List.mem_flatMap]
  constructor
  · rintro ⟨site, hsite, flow, hflow, hsink⟩
    exact ⟨flow, ⟨site, hsite, hflow⟩, hsink⟩
  · rintro ⟨flow, ⟨site, hsite, hflow⟩, hsink⟩
    exact ⟨site, hsite, flow, hflow, hsink⟩

/-- Scopes are hit by their flows. -/
lemma hitsScope_iff {scopes : List Scope} {sink : SinkRef} :
    HitsScope ctx scopes sink ↔ ∃ flow ∈ scopes.flatMap (Scope.flows ctx), flow.sink = sink := by
  simp only [HitsScope, hitsAny_iff, List.mem_flatMap (f := Scope.flows ctx)]
  constructor
  · rintro ⟨scope, hscope, flow, hflow, hsink⟩
    exact ⟨flow, ⟨scope, hscope, hflow⟩, hsink⟩
  · rintro ⟨flow, ⟨scope, hscope, hflow⟩, hsink⟩
    exact ⟨scope, hscope, flow, hflow, hsink⟩

@[simp] lemma not_hits_nil {seen : Bool} {operands : List Expr} {t : Taints} {sink : SinkRef} :
    ¬ (siteAt seen operands [] t).hits ctx sink := by
  simp [siteAt, Site.hits]

/-! ## What the engine does not visit -/

/-- Nothing flows at a site without scanned operands. -/
@[simp] lemma flows_siteAt_nil (seen : Bool) (operands : List Expr) (t : Taints) :
    (siteAt seen operands [] t).flows ctx = [] := by
  simp [Site.flows, siteAt]

@[simp] lemma flows_siteAt_false (operands scanned : List Expr) (t : Taints) :
    (siteAt false operands scanned t).flows ctx = [] := by
  simp [Site.flows, siteAt]

/-- At a visited site with one scanned operand, the flows are those of the operand. -/
@[simp] lemma flows_siteAt_one (operands : List Expr) (e : Expr) (t : Taints) :
    (siteAt true operands [e] t).flows ctx = exprFlows ctx t e := by
  simp [Site.flows, siteAt]

mutual

/-- Below a statement the engine falls through on, nothing flows. -/
lemma flows_stmtSites_unseen :
    ∀ (s : Stmt) (t : Taints), (stmtSites ctx false s t).flatMap (Site.flows ctx) = []
  | .assign .., t | .annAssign .., t | .augAssign .., t | .expr .., t | .return_ .., t
  | .delete .., t | .raise .., t | .assert .., t => by simp [stmtSites]
  | .if_ _ _ body orelse, t | .while_ _ _ body orelse, t | .for_ _ _ _ body orelse, t
  | .asyncFor _ _ _ body orelse, t => by
      simp [stmtSites, flows_blockSites_unseen body, flows_blockSites_unseen orelse]
  | .try_ _ body handlers orelse finalbody, t | .tryStar _ body handlers orelse finalbody, t => by
      simp [stmtSites, flows_blockSites_unseen body, flows_blockSites_unseen orelse,
        flows_blockSites_unseen finalbody, flows_handlerSites_unseen handlers]
  | .with_ _ _ body, t | .asyncWith _ _ body, t => by
      simp [stmtSites, flows_blockSites_unseen body]
  | .match_ _ _ cases, t => by simp [stmtSites, flows_caseSites cases]
  | .functionDef .., t | .asyncFunctionDef .., t | .classDef .., t | .import_ .., t
  | .importFrom .., t | .global .., t | .nonlocal .., t | .pass _, t | .break_ _, t
  | .continue_ _, t => by simp [stmtSites]

lemma flows_blockSites_unseen :
    ∀ (ss : List Stmt) (t : Taints), (blockSites ctx false ss t).flatMap (Site.flows ctx) = []
  | [], t => by simp [blockSites]
  | s :: ss, t => by simp [blockSites, flows_stmtSites_unseen s, flows_blockSites_unseen ss]

lemma flows_handlerSites_unseen :
    ∀ (hs : List ExceptHandler) (t : Taints),
      (handlerSites ctx false hs t).flatMap (Site.flows ctx) = []
  | [], t => by simp [handlerSites]
  | .mk _ _ _ body :: hs, t => by
      simp [handlerSites, flows_blockSites_unseen body, flows_handlerSites_unseen hs]

lemma flows_caseSites :
    ∀ (cs : List MatchCase) (t : Taints), (caseSites ctx cs t).flatMap (Site.flows ctx) = []
  | [], t => by simp [caseSites]
  | .mk _ _ body :: cs, t => by
      simp [caseSites, flows_blockSites_unseen body, flows_caseSites cs]

end

lemma not_hits_stmtSites_unseen (sink : SinkRef) (s : Stmt) (t : Taints) :
    ¬ HitsAny ctx (stmtSites ctx false s t) sink := by
  rw [hitsAny_iff, flows_stmtSites_unseen]
  simp

/-- A scope the engine does not visit has no flows. -/
lemma flows_unseen_scope {scope : Scope} (h : scope.seen = false) : scope.flows ctx = [] := by
  rw [Scope.flows, Scope.sites, h]
  exact flows_blockSites_unseen scope.body scope.entry

/-- A scope the engine does not visit has no hits. -/
lemma not_hits_unseen_scope {scope : Scope} (h : scope.seen = false) (sink : SinkRef) :
    ¬ HitsAny ctx (scope.sites ctx) sink := by
  rw [hitsAny_iff, ← Scope.flows, flows_unseen_scope h]
  simp

mutual

lemma seen_of_mem_stmtScopes {scope : Scope} :
    ∀ (s : Stmt), scope ∈ stmtScopes ctx false s → scope.seen = false
  | .functionDef _ _ _ body _ _, h | .asyncFunctionDef _ _ _ body _ _, h
  | .classDef _ _ _ _ body _, h => by
      rcases List.mem_cons.1 h with rfl | h
      · rfl
      · exact seen_of_mem_blockScopes body h
  | .if_ _ _ body orelse, h | .while_ _ _ body orelse, h | .for_ _ _ _ body orelse, h
  | .asyncFor _ _ _ body orelse, h => by
      rcases List.mem_append.1 h with h | h
      · exact seen_of_mem_blockScopes body h
      · exact seen_of_mem_blockScopes orelse h
  | .try_ _ body handlers orelse finalbody, h | .tryStar _ body handlers orelse finalbody, h => by
      simp only [stmtScopes, List.mem_append] at h
      rcases h with ((h | h) | h) | h
      · exact seen_of_mem_blockScopes body h
      · exact seen_of_mem_blockScopes orelse h
      · exact seen_of_mem_blockScopes finalbody h
      · exact seen_of_mem_handlerScopes handlers h
  | .with_ _ _ body, h | .asyncWith _ _ body, h => seen_of_mem_blockScopes body h
  | .match_ _ _ cases, h => seen_of_mem_caseScopes cases h
  | .assign .., h | .annAssign .., h | .augAssign .., h | .expr .., h | .return_ .., h
  | .delete .., h | .raise .., h | .assert .., h | .import_ .., h | .importFrom .., h
  | .global .., h | .nonlocal .., h | .pass _, h | .break_ _, h | .continue_ _, h => by
      simp [stmtScopes] at h

lemma seen_of_mem_blockScopes {scope : Scope} :
    ∀ (ss : List Stmt), scope ∈ blockScopes ctx false ss → scope.seen = false
  | [], h => by simp [blockScopes] at h
  | s :: ss, h => by
      rcases List.mem_append.1 h with h | h
      · exact seen_of_mem_stmtScopes s h
      · exact seen_of_mem_blockScopes ss h

lemma seen_of_mem_handlerScopes {scope : Scope} :
    ∀ (hs : List ExceptHandler), scope ∈ handlerScopes ctx false hs → scope.seen = false
  | [], h => by simp [handlerScopes] at h
  | .mk _ _ _ body :: hs, h => by
      rcases List.mem_append.1 h with h | h
      · exact seen_of_mem_blockScopes body h
      · exact seen_of_mem_handlerScopes hs h

lemma seen_of_mem_caseScopes {scope : Scope} :
    ∀ (cs : List MatchCase), scope ∈ caseScopes ctx cs → scope.seen = false
  | [], h => by simp [caseScopes] at h
  | .mk _ _ body :: cs, h => by
      rcases List.mem_append.1 h with h | h
      · exact seen_of_mem_blockScopes body h
      · exact seen_of_mem_caseScopes cs h

end

lemma flows_unseen_scopes {scopes : List Scope} (h : ∀ scope ∈ scopes, scope.seen = false) :
    scopes.flatMap (Scope.flows ctx) = [] := by
  rw [List.flatMap_eq_nil_iff]
  intro scope hmem
  exact flows_unseen_scope (h scope hmem)

/-! ## The map does not depend on the enclosing names -/

mutual

lemma applyStmt_snd (cs fs : List String) :
    ∀ (s : Stmt) (t : Taints), (applyStmt ctx cs fs s t).2 = (applyStmt ctx [] [] s t).2
  | .if_ _ _ body orelse, t | .while_ _ _ body orelse, t | .for_ _ _ _ body orelse, t => by
      simp only [applyStmt, analyzeBlock_snd cs fs body, analyzeBlock_snd cs fs orelse]
  | .try_ _ body handlers orelse finalbody, t => by
      simp only [applyStmt, analyzeBlock_snd cs fs body, analyzeBlock_snd cs fs orelse,
        analyzeBlock_snd cs fs finalbody, analyzeHandlers_snd cs fs handlers]
  | .with_ _ _ body, t => by simp only [applyStmt, analyzeBlock_snd cs fs body]
  | .return_ _ (some _), t | .return_ _ none, t | .annAssign _ _ _ (some _) _, t
  | .annAssign _ _ _ none _, t | .assign .., t | .augAssign .., t | .expr .., t | .delete .., t
  | .raise .., t | .assert .., t | .functionDef .., t | .asyncFunctionDef .., t | .classDef .., t
  | .import_ .., t | .importFrom .., t | .global .., t | .nonlocal .., t | .pass _, t
  | .break_ _, t | .continue_ _, t | .asyncFor .., t | .asyncWith .., t | .match_ .., t
  | .tryStar .., t => by simp only [applyStmt]

lemma analyzeBlock_snd (cs fs : List String) :
    ∀ (ss : List Stmt) (t : Taints),
      (analyzeBlock ctx cs fs ss t).2 = (analyzeBlock ctx [] [] ss t).2
  | [], t => rfl
  | s :: ss, t => by
      simp only [analyzeBlock, applyStmt_snd cs fs s]
      rw [analyzeBlock_snd cs fs ss]

lemma analyzeHandlers_snd (cs fs : List String) :
    ∀ (hs : List ExceptHandler) (t : Taints),
      (analyzeHandlers ctx cs fs hs t).2 = (analyzeHandlers ctx [] [] hs t).2
  | [], t => rfl
  | .mk _ _ _ body :: hs, t => by
      simp only [analyzeHandlers, analyzeBlock_snd cs fs body]
      rw [analyzeHandlers_snd cs fs hs]

end

/-! ## Findings are flows -/

/-- What a piece of code contributes: hits in its own sites, and hits in the scopes that begin
below it. -/
def Contributes (ctx : FileContext) (findings : List CandidateFinding) (sites : List Site)
    (scopes : List Scope) (sink : SinkRef) : Prop :=
  HasSink findings sink ↔ HitsAny ctx sites sink ∨ HitsScope ctx scopes sink

/-- What a piece of code emits: up to the order, one finding for each flow in its own sites and in
the scopes that begin below it. -/
def Emits (ctx : FileContext) (findings : List CandidateFinding) (sites : List Site)
    (scopes : List Scope) : Prop :=
  findings.Perm ((sites.flatMap (Site.flows ctx) ++ scopes.flatMap (Scope.flows ctx)).map
    (SinkFlow.finding ctx))

/-- What is emitted is what is contributed. -/
lemma Emits.contributes {findings : List CandidateFinding} {sites : List Site}
    {scopes : List Scope} (h : Emits ctx findings sites scopes) (sink : SinkRef) :
    Contributes ctx findings sites scopes sink := by
  have hsink : ∀ flow : SinkFlow, (flow.finding ctx).sink = flow.sink := fun flow => rfl
  rw [Contributes, hitsAny_iff, hitsScope_iff, HasSink]
  simp only [List.Perm.mem_iff h, List.mem_map, List.mem_append]
  constructor
  · rintro ⟨f, ⟨flow, hflow | hflow, rfl⟩, hf⟩
    · exact Or.inl ⟨flow, hflow, hf⟩
    · exact Or.inr ⟨flow, hflow, hf⟩
  · rintro (⟨flow, hflow, hf⟩ | ⟨flow, hflow, hf⟩)
    · exact ⟨_, ⟨flow, Or.inl hflow, rfl⟩, (hsink flow).trans hf⟩
    · exact ⟨_, ⟨flow, Or.inr hflow, rfl⟩, (hsink flow).trans hf⟩

/-- Emissions add up. -/
lemma Emits.append {fs gs : List CandidateFinding} {xs ys : List Site} {ss ts : List Scope}
    (hf : Emits ctx fs xs ss) (hg : Emits ctx gs ys ts) :
    Emits ctx (fs ++ gs) (xs ++ ys) (ss ++ ts) := by
  unfold Emits at *
  refine (List.Perm.append hf hg).trans ?_
  rw [← List.map_append, List.flatMap_append, List.flatMap_append]
  refine List.Perm.map _ ?_
  -- the scopes below the first part move behind the sites of the second
  rw [List.append_assoc, List.append_assoc]
  refine List.Perm.append_left _ ?_
  rw [← List.append_assoc, ← List.append_assoc]
  exact List.Perm.append_right _ List.perm_append_comm

/-- A scanned expression in front. -/
lemma Emits.scan {operands : List Expr} {e : Expr} {t : Taints} {gs : List CandidateFinding}
    {ys : List Site} {ts : List Scope} (hg : Emits ctx gs ys ts) :
    Emits ctx ((checkSinks ctx e t).findings ++ gs) (siteAt true operands [e] t :: ys) ts := by
  unfold Emits at *
  rw [List.flatMap_cons, flows_siteAt_one, List.append_assoc, List.map_append, checkSinks_findings]
  exact List.Perm.append_left _ hg

/-- A site without scanned operands in front. -/
lemma Emits.skip {seen : Bool} {operands : List Expr} {t : Taints} {gs : List CandidateFinding}
    {ys : List Site} {ts : List Scope} (hg : Emits ctx gs ys ts) :
    Emits ctx gs (siteAt seen operands [] t :: ys) ts := by
  unfold Emits at *
  rw [List.flatMap_cons, flows_siteAt_nil, List.nil_append]
  exact hg

/-- Code without findings and flows. -/
lemma emits_none {sites : List Site} {scopes : List Scope}
    (hsites : sites.flatMap (Site.flows ctx) = []) (hscopes : scopes.flatMap (Scope.flows ctx) = []) :
    Emits ctx [] sites scopes := by
  rw [Emits, hsites, hscopes]
  exact List.Perm.refl _

/-- A single scanned expression. -/
lemma emits_one {operands : List Expr} {e : Expr} {t : Taints} :
    Emits ctx (checkSinks ctx e t).findings [siteAt true operands [e] t] [] := by
  have hnone : Emits ctx [] [] [] := emits_none rfl rfl
  have h : Emits ctx ((checkSinks ctx e t).findings ++ []) [siteAt true operands [e] t] [] :=
    hnone.scan
  rwa [List.append_nil] at h

/-- Code that the engine falls through on. -/
lemma emits_unseen (s : Stmt) (t : Taints) :
    Emits ctx [] (stmtSites ctx false s t) (stmtScopes ctx false s) :=
  emits_none (flows_stmtSites_unseen s t)
    (flows_unseen_scopes fun _ hscope => seen_of_mem_stmtScopes s hscope)

/-- A nested scope: what its body emits, it emits as a scope. -/
lemma Emits.nested {gs : List CandidateFinding} {scope : Scope} {ts : List Scope}
    (hg : Emits ctx gs (scope.sites ctx) ts) : Emits ctx gs [] (scope :: ts) := by
  unfold Emits at *
  rw [List.flatMap_nil, List.nil_append, List.flatMap_cons]
  exact hg

mutual

lemma emits_stmt (cs fs : List String) :
    ∀ (s : Stmt) (t : Taints), Emits ctx (applyStmt ctx cs fs s t).1.findings
      (stmtSites ctx true s t) (stmtScopes ctx true s)
  | .assign _ _ value, t | .augAssign _ _ _ value, t | .annAssign _ _ _ (some value) _, t
  | .expr _ value, t | .return_ _ (some value), t => by
      simp only [applyStmt, stmtSites, stmtScopes, Option.toList]
      exact emits_one
  | .if_ _ test body orelse, t | .while_ _ test body orelse, t => by
      simp only [applyStmt, stmtSites, stmtScopes, Effect.append_findings, List.append_assoc]
      exact ((emits_block cs fs body t).append (emits_block cs fs orelse t)).scan
  | .for_ loc target iter body orelse, t => by
      simp only [applyStmt, stmtSites, stmtScopes, Effect.append_findings, List.append_assoc]
      exact ((emits_block cs fs body _).append (emits_block cs fs orelse _)).scan
  | .try_ _ body handlers orelse finalbody, t => by
      simp only [applyStmt, stmtSites, stmtScopes, Effect.append_findings, blockAfter, if_true,
        analyzeBlock_snd cs fs]
      exact (((emits_block cs fs body _).append (emits_block cs fs orelse _)).append
        (emits_block cs fs finalbody _)).append (emits_handlers cs fs handlers _)
  | .with_ _ items body, t => by
      simp only [applyStmt, stmtSites, stmtScopes]
      exact (emits_block cs fs body t).skip
  | .functionDef loc name args body _ _, t | .asyncFunctionDef loc name args body _ _, t => by
      simp only [applyStmt, stmtSites, stmtScopes]
      exact (emits_block cs (fs ++ [name]) body (entryTaints ctx loc args)).nested
  | .classDef _ name _ _ body _, t => by
      simp only [applyStmt, stmtSites, stmtScopes]
      exact (emits_block (cs ++ [name]) fs body Dict.empty).nested
  | .asyncFor l tg it body orelse, t => emits_unseen (.asyncFor l tg it body orelse) t
  | .asyncWith l items body, t => emits_unseen (.asyncWith l items body) t
  | .tryStar l body handlers orelse finalbody, t =>
      emits_unseen (.tryStar l body handlers orelse finalbody) t
  | .match_ l subject cases, t => emits_unseen (.match_ l subject cases) t
  | .annAssign _ _ _ none _, t | .return_ _ none, t | .delete .., t | .raise .., t
  | .assert .., t | .import_ .., t | .importFrom .., t | .global .., t | .nonlocal .., t
  | .pass _, t | .break_ _, t | .continue_ _, t => by
      simp only [applyStmt, stmtSites, stmtScopes, Option.toList]
      exact emits_none (by simp) rfl

lemma emits_block (cs fs : List String) :
    ∀ (ss : List Stmt) (t : Taints), Emits ctx (analyzeBlock ctx cs fs ss t).1.findings
      (blockSites ctx true ss t) (blockScopes ctx true ss)
  | [], t => emits_none (by simp [blockSites]) (by simp [blockScopes])
  | s :: ss, t => by
      simp only [analyzeBlock, blockSites, blockScopes, Effect.append_findings, taintsAfter,
        if_true, applyStmt_snd cs fs]
      exact (emits_stmt cs fs s t).append (emits_block cs fs ss _)

lemma emits_handlers (cs fs : List String) :
    ∀ (hs : List ExceptHandler) (t : Taints),
      Emits ctx (analyzeHandlers ctx cs fs hs t).1.findings (handlerSites ctx true hs t)
        (handlerScopes ctx true hs)
  | [], t => emits_none (by simp [handlerSites]) (by simp [handlerScopes])
  | .mk _ type _ body :: hs, t => by
      simp only [analyzeHandlers, handlerSites, handlerScopes, Effect.append_findings, blockAfter,
        if_true, analyzeBlock_snd cs fs]
      exact ((emits_block cs fs body t).append (emits_handlers cs fs hs _)).skip

end

lemma emits_analyzeTree (tree : Module) :
    Emits ctx (analyzeTree ctx tree).findings [] (treeScopes ctx tree) :=
  (emits_block [] [] tree.body Dict.empty).nested

/-- **The findings of a file are its flows**: the walk emits one finding for each flow in the
scopes of the file, in some order. -/
theorem findings_analyzeTree (ctx : FileContext) (tree : Module) :
    (analyzeTree ctx tree).findings.Perm ((treeFlows ctx tree).map (SinkFlow.finding ctx)) :=
  emits_analyzeTree tree

/-- **The findings of a file are the hits in its scopes**: the walk reports a sink iff some scanned
operand, of some statement it visits, has an unsanitized call of that sink whose argument is
tainted under the map it holds there. -/
theorem hasSink_analyzeTree (ctx : FileContext) (tree : Module) (sink : SinkRef) :
    HasSink (analyzeTree ctx tree).findings sink ↔ HitsScope ctx (treeScopes ctx tree) sink := by
  have h : Contributes ctx (analyzeTree ctx tree).findings [] (treeScopes ctx tree) sink :=
    (emits_analyzeTree tree).contributes sink
  rw [Contributes] at h
  simpa [HitsAny] using h

end Sast
