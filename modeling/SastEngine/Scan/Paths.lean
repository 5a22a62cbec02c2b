import SastEngine.Lib.Flow
import SastEngine.Scan.Coverage
import SastEngine.Scan.Tokens

/-!
# Control-flow paths of a function body

A block of statements as a command over events: scanning points, at which expressions are
evaluated, and the engine's transfers for assignments and for loop variables.  The paths of the
command are the control-flow paths of the block; its sweeps are what the statement-order walk of
the engine follows (`keySet_blockAfter`, `hitsAny_blockSites`).
-/

namespace Sast

variable (ctx : FileContext)

/-- What happens along a path. -/
inductive Event where
  | eval (operands scanned : List Expr)
  | assign (loc : Loc) (targets : List Expr) (value : Expr)
  | augAssign (loc : Loc) (target value : Expr)
  | bind (loc : Loc) (target iter : Expr)

/-- The engine's transfer for an event. -/
def Event.apply : Event → Taints → Taints
  | .eval _ _, t => t
  | .assign loc targets value, t => assignTaints ctx loc targets value t
  | .augAssign loc target value, t => augAssignTaints ctx loc target value t
  | .bind loc target iter, t => forTaints ctx loc target iter t

/-- The plain names among the targets of an assignment. -/
def targetNames (targets : List Expr) : List String :=
  targets.filterMap fun target => match target with | .name _ id _ => some id | _ => none

/-- The effect of an event on the set of tainted names. -/
def Event.taintedNames : Event → Set String → Set String
  | .eval _ _, names => names
  | .assign _ targets value, names =>
      names ∪ {x | x ∈ targetNames targets ∧ AnyTainted names (tokens ctx value)}
  | .augAssign _ target value, names =>
      names ∪ {x | x ∈ targetNames [target]
        ∧ AnyTainted names (some x :: tokens ctx value)}
  | .bind _ target iter, names =>
      names ∪ {x | x ∈ targetNames (forTargets target) ∧ AnyTainted names (tokens ctx iter)}

/-- The operands an event evaluates. -/
def Event.operands : Event → List Expr
  | .eval operands _ => operands
  | _ => []

/-- The operands that the engine scans there. -/
def Event.scanned : Event → List Expr
  | .eval _ scanned => scanned
  | _ => []

/-- The call is an unsanitized sink call whose argument is tainted by the names. -/
def SinkIn (names : Set String) (call : Expr) (sink : SinkRef) : Prop :=
  ctx.rule.matchSink call ctx.file ctx.source = some sink ∧ ctx.rule.isSanitized call sink = false
    ∧ ∃ target, ctx.rule.sinkExpression call = some target ∧ AnyTainted names (tokens ctx target)

/-- A call that runs with the event exposes the sink. -/
def Event.exposes (event : Event) (sink : SinkRef) (names : Set String) : Prop :=
  ∃ e ∈ event.operands, ∃ call ∈ executableCalls e, SinkIn ctx names call sink

/-- A call in a scanned operand exposes the sink. -/
def Event.hits (event : Event) (sink : SinkRef) (names : Set String) : Prop :=
  ∃ e ∈ event.scanned, ∃ call ∈ collectCalls e, SinkIn ctx names call sink

/-! ## Statements as commands -/

/-- A scanning point. -/
def evalCmd (operands scanned : List Expr) : Cmd Event := .event (.eval operands scanned)

mutual

/-- The control flow of a statement.  A statement form the engine has no branch for does
nothing. -/
def stmtCmd : Stmt → Cmd Event
  | .assign loc targets value =>
      .seq (evalCmd (targets ++ [value]) [value]) (.event (.assign loc targets value))
  | .annAssign loc target _ (some value) _ =>
      .seq (evalCmd [target, value] [value]) (.event (.assign loc [target] value))
  | .annAssign _ target _ none _ => evalCmd [target] []
  | .augAssign loc target _ value =>
      .seq (evalCmd [target, value] [value]) (.event (.augAssign loc target value))
  | .expr _ value => evalCmd [value] [value]
  | .return_ _ value => .seq (evalCmd value.toList value.toList) .exit
  | .if_ _ test body orelse =>
      .seq (evalCmd [test] [test]) (.choice (blockCmd body) (blockCmd orelse))
  | .while_ _ test body orelse => .loop (evalCmd [test] [test]) (blockCmd body) (blockCmd orelse)
  | .for_ loc target iter body orelse =>
      .seq (evalCmd [iter] [iter]) (.each (evalCmd [target] []) (.event (.bind loc target iter))
        (blockCmd body) (blockCmd orelse))
  | .try_ _ body handlers orelse finalbody =>
      .tryCatch (blockCmd body) (blockCmd orelse) (blockCmd finalbody) (handlersCmd handlers)
  | .with_ _ items body =>
      .seq (evalCmd (items.flatMap stmtSites.itemOperands) []) (.guard (blockCmd body))
  | _ => .skip

def blockCmd : List Stmt → Cmd Event
  | [] => .skip
  | s :: ss => .seq (stmtCmd s) (blockCmd ss)

def handlersCmd : List ExceptHandler → Cmd Event
  | [] => .unhandled
  | .mk _ type _ body :: hs =>
      .handle (.seq (evalCmd type.toList []) (blockCmd body)) (handlersCmd hs)

end

/-! ## Transfers on names -/

variable {ctx}

lemma keySet_bindNames (targets : List Expr) (taint : Taint) :
    ∀ t : Taints, keySet (bindNames targets taint t)
      = keySet t ∪ {x | x ∈ targetNames targets} := by
  induction targets with
  | nil =>
      intro t
      simp [bindNames, targetNames]
  | cons target targets ih =>
      intro t
      rw [bindNames, List.foldl_cons, ← bindNames, ih]
      ext x
      cases target <;> simp [targetNames, keySet_set, or_left_comm, or_assoc]

/-- **The transfers act on the tainted names alone.** -/
theorem keySet_apply (event : Event) (t : Taints) :
    keySet (event.apply ctx t) = event.taintedNames ctx (keySet t) := by
  have hvalue : ∀ e : Expr, (taintOf ctx t e).isSome ↔ AnyTainted (keySet t) (tokens ctx e) :=
    isSome_taintOf t
  cases event with
  | eval operands scanned => rfl
  | assign loc targets value =>
      simp only [Event.apply, Event.taintedNames, ← hvalue, assignTaints]
      cases taintOf ctx t value with
      | none => simp
      | some taint => simp [keySet_bindNames]
  | augAssign loc target value =>
      simp only [Event.apply, Event.taintedNames, augAssignTaints]
      cases target with
      | name nloc id nctx =>
          have hbase : ((t.get? id).or (taintOf ctx t value)).isSome
              ↔ AnyTainted (keySet t) (some id :: tokens ctx value) := by
            rw [isSome_or, hvalue, ← mem_keySet, ← List.singleton_append, anyTainted_append,
              anyTainted_name]
          cases hor : (t.get? id).or (taintOf ctx t value) with
          | none =>
              rw [hor] at hbase
              ext x
              simp only [hor, targetNames, List.filterMap_cons, List.filterMap_nil, Set.mem_union,
                Set.mem_ofPred_eq, List.mem_singleton]
              constructor
              · exact Or.inl
              · rintro (hx | ⟨rfl, hx⟩)
                · exact hx
                · exact absurd (hbase.2 hx) (by simp)
          | some base =>
              rw [hor] at hbase
              ext x
              simp only [hor, targetNames, List.filterMap_cons, List.filterMap_nil, Set.mem_union,
                Set.mem_ofPred_eq, List.mem_singleton, keySet_set, Set.mem_insert_iff]
              constructor
              · rintro (rfl | hx)
                · exact Or.inr ⟨rfl, hbase.1 rfl⟩
                · exact Or.inl hx
              · rintro (hx | ⟨rfl, -⟩)
                · exact Or.inr hx
                · exact Or.inl rfl
      | _ => simp [targetNames]
  | bind loc target iter =>
      simp only [Event.apply, Event.taintedNames, ← hvalue, forTaints]
      cases taintOf ctx t iter with
      | none => simp
      | some taint => simp [keySet_bindNames]

lemma subset_taintedNames (event : Event) (names : Set String) :
    names ⊆ event.taintedNames ctx names := by
  cases event with
  | eval operands scanned => exact subset_rfl
  | assign loc targets value => exact Set.subset_union_left
  | augAssign loc target value => exact Set.subset_union_left
  | bind loc target iter => exact Set.subset_union_left

/-- Names spread one at a time. -/
lemma additive_taintedNames : Additive (Event.taintedNames ctx) := by
  intro event F x hF
  cases event with
  | eval operands scanned => rfl
  | assign loc targets value =>
      simp only [Event.taintedNames, Set.mem_union, Set.mem_sUnion, Set.mem_ofPred_eq,
        anyTainted_sUnion _ F hF]
      grind
  | augAssign loc target value =>
      simp only [Event.taintedNames, Set.mem_union, Set.mem_sUnion, Set.mem_ofPred_eq,
        anyTainted_sUnion _ F hF]
      grind
  | bind loc target iter =>
      simp only [Event.taintedNames, Set.mem_union, Set.mem_sUnion, Set.mem_ofPred_eq,
        anyTainted_sUnion _ F hF]
      grind

lemma additive_hits (event : Event) (sink : SinkRef) : AdditivePred (event.hits ctx sink) := by
  intro F hF
  simp only [Event.hits, SinkIn, anyTainted_sUnion _ F hF]
  grind

/-! ## The walk of the engine -/

/-- The tainted names after a command, for the engine. -/
abbrev namesAfter (ctx : FileContext) (c : Cmd Event) (names : Set String) : Set String :=
  after (Event.taintedNames ctx) c names

lemma subset_namesAfter (c : Cmd Event) (names : Set String) : names ⊆ namesAfter ctx c names :=
  subset_after subset_taintedNames c names

mutual

lemma keySet_applyStmt :
    ∀ (s : Stmt) (t : Taints),
      keySet (applyStmt ctx [] [] s t).2 = namesAfter ctx (stmtCmd s) (keySet t)
  | .assign loc targets value, t => keySet_apply (.assign loc targets value) t
  | .annAssign loc target _ (some value) _, t => keySet_apply (.assign loc [target] value) t
  | .augAssign loc target _ value, t => keySet_apply (.augAssign loc target value) t
  | .if_ _ test body orelse, t | .while_ _ test body orelse, t => by
      have hbody : keySet t ⊆ namesAfter ctx (blockCmd body) (keySet t) :=
        subset_namesAfter (blockCmd body) (keySet t)
      simp only [applyStmt, keySet_update, keySet_analyzeBlock body t,
        keySet_analyzeBlock orelse t]
      exact Set.union_eq_self_of_subset_left (hbody.trans Set.subset_union_left)
  | .for_ loc target iter body orelse, t => by
      have hbind := @keySet_apply ctx (.bind loc target iter) t
      have hbody : keySet (forTaints ctx loc target iter t)
          ⊆ namesAfter ctx (blockCmd body) (keySet (forTaints ctx loc target iter t)) :=
        subset_namesAfter (blockCmd body) _
      simp only [applyStmt, keySet_update, keySet_analyzeBlock body _,
        keySet_analyzeBlock orelse _]
      rw [Set.union_eq_self_of_subset_left (hbody.trans Set.subset_union_left)]
      rw [Event.apply] at hbind
      rw [hbind]
      rfl
  | .try_ _ body handlers orelse finalbody, t => by
      simp only [applyStmt, keySet_update, keySet_analyzeBlock body _,
        keySet_analyzeBlock orelse _, keySet_analyzeBlock finalbody _,
        keySet_analyzeHandlers handlers _, Set.union_eq_self_of_subset_left (subset_namesAfter _ _)]
      rfl
  | .with_ _ items body, t => by
      simp only [applyStmt, keySet_update, keySet_analyzeBlock body _]
      exact Set.union_eq_self_of_subset_left (subset_namesAfter _ _)
  | .return_ _ (some _), t | .return_ _ none, t | .annAssign _ _ _ none _, t | .expr .., t
  | .delete .., t | .raise .., t | .assert .., t | .functionDef .., t | .asyncFunctionDef .., t
  | .classDef .., t | .import_ .., t | .importFrom .., t | .global .., t | .nonlocal .., t
  | .pass _, t | .break_ _, t | .continue_ _, t | .asyncFor .., t | .asyncWith .., t
  | .match_ .., t | .tryStar .., t => rfl

/-- **The map after a block** holds the names that the pass over its command yields. -/
theorem keySet_analyzeBlock :
    ∀ (ss : List Stmt) (t : Taints),
      keySet (analyzeBlock ctx [] [] ss t).2 = namesAfter ctx (blockCmd ss) (keySet t)
  | [], t => rfl
  | s :: ss, t => by
      simp only [analyzeBlock]
      rw [keySet_analyzeBlock ss _, keySet_applyStmt s t]
      rfl

lemma keySet_analyzeHandlers :
    ∀ (hs : List ExceptHandler) (t : Taints),
      keySet (analyzeHandlers ctx [] [] hs t).2 = namesAfter ctx (handlersCmd hs) (keySet t)
  | [], t => rfl
  | .mk _ type _ body :: hs, t => by
      simp only [analyzeHandlers]
      rw [keySet_analyzeHandlers hs _, keySet_update, keySet_analyzeBlock body t,
        Set.union_eq_self_of_subset_left (subset_namesAfter _ _)]
      rfl

end

/-- The pass over the command comes to a scanned operand that exposes the sink. -/
def VisitsSink (ctx : FileContext) (c : Cmd Event) (names : Set String) (sink : SinkRef) : Prop :=
  ∃ event, VisitsWith (Event.taintedNames ctx) (event.hits ctx sink) c names event

section VisitsSink

variable {names : Set String} {sink : SinkRef}

lemma visitsSink_seq {a b : Cmd Event} : VisitsSink ctx (.seq a b) names sink
    ↔ VisitsSink ctx a names sink ∨ VisitsSink ctx b (namesAfter ctx a names) sink := by
  simp only [VisitsSink, visitsWith_seq, exists_or]

lemma visitsSink_choice {a b : Cmd Event} : VisitsSink ctx (.choice a b) names sink
    ↔ VisitsSink ctx a names sink ∨ VisitsSink ctx b names sink := by
  simp only [VisitsSink, visitsWith_choice, exists_or]

lemma visitsSink_loop {h b o : Cmd Event} : VisitsSink ctx (.loop h b o) names sink
    ↔ VisitsSink ctx h names sink ∨ VisitsSink ctx b (namesAfter ctx h names) sink
      ∨ VisitsSink ctx o (namesAfter ctx h names) sink := by
  simp only [VisitsSink, visitsWith_loop, exists_or]

lemma visitsSink_each {i n b o : Cmd Event} : VisitsSink ctx (.each i n b o) names sink
    ↔ (VisitsSink ctx i names sink ∨ VisitsSink ctx n (namesAfter ctx i names) sink)
      ∨ VisitsSink ctx b (namesAfter ctx n (namesAfter ctx i names)) sink
      ∨ VisitsSink ctx o (namesAfter ctx n (namesAfter ctx i names)) sink := by
  simp only [VisitsSink, visitsWith_each, exists_or]

lemma visitsSink_tryCatch {b o f h : Cmd Event} : VisitsSink ctx (.tryCatch b o f h) names sink
    ↔ VisitsSink ctx b names sink ∨ VisitsSink ctx o (namesAfter ctx b names) sink
      ∨ VisitsSink ctx f (namesAfter ctx o (namesAfter ctx b names)) sink
      ∨ VisitsSink ctx h (namesAfter ctx f (namesAfter ctx o (namesAfter ctx b names))) sink := by
  simp only [VisitsSink, visitsWith_tryCatch, exists_or]

lemma visitsSink_handle {h r : Cmd Event} : VisitsSink ctx (.handle h r) names sink
    ↔ VisitsSink ctx h names sink ∨ VisitsSink ctx r (namesAfter ctx h names) sink := by
  simp only [VisitsSink, visitsWith_handle, exists_or]

lemma visitsSink_guard {b : Cmd Event} :
    VisitsSink ctx (.guard b) names sink ↔ VisitsSink ctx b names sink := Iff.rfl

lemma visitsSink_event {event : Event} :
    VisitsSink ctx (.event event) names sink ↔ event.hits ctx sink names := by
  constructor
  · rintro ⟨event', m, ⟨rfl, rfl⟩, h⟩
    exact h
  · intro h
    exact ⟨event, names, ⟨rfl, rfl⟩, h⟩

@[simp] lemma not_visitsSink_skip : ¬ VisitsSink ctx .skip names sink := by
  simp [VisitsSink, VisitsWith, Visits]

@[simp] lemma not_visitsSink_exit : ¬ VisitsSink ctx .exit names sink := by
  simp [VisitsSink, VisitsWith, Visits]

@[simp] lemma not_visitsSink_unhandled : ¬ VisitsSink ctx .unhandled names sink := by
  simp [VisitsSink, VisitsWith, Visits]

end VisitsSink

/-- A call is a hit under a map iff it is a sink under the tainted names. -/
lemma exists_taintedSink {t : Taints} {call : Expr} {sink : SinkRef} :
    (∃ taint, taintedSink ctx t call = some (sink, taint)) ↔ SinkIn ctx (keySet t) call sink := by
  unfold SinkIn taintedSink
  simp only [← isSome_taintOf]
  cases ctx.rule.matchSink call ctx.file ctx.source with
  | none => simp
  | some found =>
      by_cases hs : ctx.rule.isSanitized call found = true
      · simp only [hs, if_true, Option.some.injEq]
        constructor
        · rintro ⟨taint, h⟩
          simp at h
        · rintro ⟨rfl, hfalse, -⟩
          simp [hs] at hfalse
      · cases ctx.rule.sinkExpression call with
        | none => simp
        | some target =>
            simp only [hs]
            constructor
            · rintro ⟨taint, h⟩
              obtain ⟨taint', htaint, heq⟩ := Option.map_eq_some_iff.1 h
              obtain ⟨rfl, rfl⟩ := Prod.mk.inj heq
              exact ⟨rfl, Bool.eq_false_iff.2 hs, target, rfl, by simp [htaint]⟩
            · rintro ⟨hfound, -, target', htarget, htaint⟩
              obtain rfl := Option.some.inj hfound
              obtain rfl := Option.some.inj htarget
              obtain ⟨taint, htaint⟩ := Option.isSome_iff_exists.1 htaint
              exact ⟨taint, by simp [htaint]⟩

/-- A visited site is a scanning point. -/
lemma hits_siteAt {operands scanned : List Expr} {t : Taints} {sink : SinkRef} :
    (siteAt true operands scanned t).hits ctx sink
      ↔ VisitsSink ctx (evalCmd operands scanned) (keySet t) sink := by
  rw [evalCmd, visitsSink_event]
  simp only [Site.hits, siteAt, if_true, Event.hits, Event.scanned, exists_taintedSink]

lemma visitsSink_unscanned {operands : List Expr} {names : Set String} {sink : SinkRef} :
    ¬ VisitsSink ctx (evalCmd operands []) names sink := by
  rw [evalCmd, visitsSink_event]
  simp [Event.hits, Event.scanned]

mutual

lemma hitsAny_stmtSites (sink : SinkRef) :
    ∀ (s : Stmt) (t : Taints), HitsAny ctx (stmtSites ctx true s t) sink
      ↔ VisitsSink ctx (stmtCmd s) (keySet t) sink
  | .assign loc targets value, t => by
      rw [stmtSites, stmtCmd, hitsAny_cons, visitsSink_seq, hits_siteAt, visitsSink_event]
      simp [Event.hits, Event.scanned]
  | .annAssign loc target _ (some value) _, t => by
      rw [stmtSites, stmtCmd, hitsAny_cons, visitsSink_seq, hits_siteAt, visitsSink_event]
      simp [Event.hits, Event.scanned]
  | .annAssign _ target _ none _, t => by
      rw [stmtSites, stmtCmd, hitsAny_cons, hits_siteAt]
      simp
  | .augAssign loc target _ value, t => by
      rw [stmtSites, stmtCmd, hitsAny_cons, visitsSink_seq, hits_siteAt, visitsSink_event]
      simp [Event.hits, Event.scanned]
  | .expr _ value, t => by
      rw [stmtSites, stmtCmd, hitsAny_cons, hits_siteAt]
      simp
  | .return_ _ value, t => by
      rw [stmtSites, stmtCmd, hitsAny_cons, hits_siteAt, visitsSink_seq]
      simp
  | .if_ _ test body orelse, t => by
      rw [stmtSites, stmtCmd, hitsAny_cons, hits_siteAt, hitsAny_append, visitsSink_seq,
        visitsSink_choice, hitsAny_blockSites sink body t, hitsAny_blockSites sink orelse t]
      rfl
  | .while_ _ test body orelse, t => by
      rw [stmtSites, stmtCmd, hitsAny_cons, hits_siteAt, hitsAny_append, visitsSink_loop,
        hitsAny_blockSites sink body t, hitsAny_blockSites sink orelse t]
      rfl
  | .for_ loc target iter body orelse, t => by
      have hbind : keySet (boundTaints ctx true loc target iter t)
          = namesAfter ctx (.event (.bind loc target iter)) (keySet t) :=
        keySet_apply (.bind loc target iter) t
      have hnobind : ¬ VisitsSink ctx (.event (.bind loc target iter)) (keySet t) sink := by
        rw [visitsSink_event]
        simp [Event.hits, Event.scanned]
      have hscan : (siteAt true [target, iter] [iter] t).hits ctx sink
          ↔ VisitsSink ctx (evalCmd [iter] [iter]) (keySet t) sink := by
        rw [← hits_siteAt]
        rfl
      rw [stmtSites, stmtCmd, hitsAny_cons, hscan, hitsAny_append, visitsSink_seq,
        visitsSink_each, hitsAny_blockSites sink body _, hitsAny_blockSites sink orelse _, hbind]
      refine or_congr_right ((or_iff_right ?_).symm)
      rintro (h | h)
      · exact visitsSink_unscanned h
      · exact hnobind h
  | .try_ _ body handlers orelse finalbody, t => by
      rw [stmtSites, stmtCmd, hitsAny_append, hitsAny_append, hitsAny_append,
        visitsSink_tryCatch, hitsAny_blockSites sink body _, hitsAny_blockSites sink orelse _,
        hitsAny_blockSites sink finalbody _, hitsAny_handlerSites sink handlers _]
      simp only [blockAfter, if_true, keySet_update, keySet_analyzeBlock,
        Set.union_eq_self_of_subset_left (subset_namesAfter _ _), or_assoc]
  | .with_ _ items body, t => by
      rw [stmtSites, stmtCmd, hitsAny_cons, visitsSink_seq, visitsSink_guard,
        hitsAny_blockSites sink body t]
      refine or_congr ?_ Iff.rfl
      exact iff_of_false not_hits_nil visitsSink_unscanned
  | .asyncFor l tg it body orelse, t =>
      iff_of_false (not_hits_stmtSites_unseen sink (.asyncFor l tg it body orelse) t)
        not_visitsSink_skip
  | .asyncWith l items body, t =>
      iff_of_false (not_hits_stmtSites_unseen sink (.asyncWith l items body) t)
        not_visitsSink_skip
  | .tryStar l body handlers orelse finalbody, t =>
      iff_of_false (not_hits_stmtSites_unseen sink (.tryStar l body handlers orelse finalbody) t)
        not_visitsSink_skip
  | .match_ l subject cases, t =>
      iff_of_false (not_hits_stmtSites_unseen sink (.match_ l subject cases) t)
        not_visitsSink_skip
  | .delete .., t | .raise .., t | .assert .., t | .functionDef .., t | .asyncFunctionDef .., t
  | .classDef .., t | .import_ .., t | .importFrom .., t | .global .., t | .nonlocal .., t
  | .pass _, t | .break_ _, t | .continue_ _, t => by
      simp [stmtSites, stmtCmd, hitsAny_cons]

/-- **The sites of a visited block** are what the pass over its command comes to. -/
theorem hitsAny_blockSites (sink : SinkRef) :
    ∀ (ss : List Stmt) (t : Taints), HitsAny ctx (blockSites ctx true ss t) sink
      ↔ VisitsSink ctx (blockCmd ss) (keySet t) sink
  | [], t => by simp [blockSites, blockCmd]
  | s :: ss, t => by
      rw [blockSites, blockCmd, hitsAny_append, visitsSink_seq, hitsAny_stmtSites sink s t,
        hitsAny_blockSites sink ss _, taintsAfter, if_pos rfl, keySet_applyStmt]

lemma hitsAny_handlerSites (sink : SinkRef) :
    ∀ (hs : List ExceptHandler) (t : Taints), HitsAny ctx (handlerSites ctx true hs t) sink
      ↔ VisitsSink ctx (handlersCmd hs) (keySet t) sink
  | [], t => by simp [handlerSites, handlersCmd]
  | .mk _ type _ body :: hs, t => by
      have hafter : namesAfter ctx (.seq (evalCmd type.toList []) (blockCmd body)) (keySet t)
          = keySet (t.update (blockAfter ctx true body t)) := by
        rw [blockAfter, if_pos rfl, keySet_update, keySet_analyzeBlock,
          Set.union_eq_self_of_subset_left (subset_namesAfter _ _)]
        rfl
      rw [handlerSites, handlersCmd, hitsAny_cons, hitsAny_append, visitsSink_handle,
        visitsSink_seq, hitsAny_blockSites sink body t, hitsAny_handlerSites sink hs _, hafter,
        or_assoc]
      exact or_congr (iff_of_false not_hits_nil visitsSink_unscanned) Iff.rfl

end

/-- **The walk finds what its sweeps reach**: a sink is hit in a visited block iff some sweep of
the block, with the engine's own transfers, comes to a scanned operand that exposes it. -/
theorem hitsAny_iff_sweep (body : List Stmt) (entry : Taints) (sink : SinkRef) :
    HitsAny ctx (blockSites ctx true body entry) sink
      ↔ ∃ event t, SweepReach (Event.apply ctx) (blockCmd body) entry event t
        ∧ event.hits ctx sink (keySet t) := by
  rw [hitsAny_blockSites]
  refine exists_congr fun event => ?_
  rw [visitsWith_iff additive_taintedNames (additive_hits event sink)]
  exact sweepReach_image keySet_apply (blockCmd body) entry event (event.hits ctx sink)

end Sast
