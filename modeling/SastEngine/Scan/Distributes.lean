import SastEngine.Scan.Soundness

/-!
# Unions of taint maps

The walk over a block acts on each tainted variable by itself: from a map that holds the variables
of two others it ends with the variables the two end with, and it reports the sink calls that the
two report.  The main result is `analyzeBlock_union`.
-/

namespace Sast

variable {ctx : FileContext}

/-! ## Transfers -/

lemma anyTainted_union {names others : Set String} {ts : List (Option String)} :
    AnyTainted (names ∪ others) ts ↔ AnyTainted names ts ∨ AnyTainted others ts := by
  rw [← Set.sUnion_pair, anyTainted_sUnion ts _ (Set.insert_nonempty _ _)]
  simp

lemma namesAfter_union (c : Cmd Event) (names others : Set String) :
    namesAfter ctx c (names ∪ others) = namesAfter ctx c names ∪ namesAfter ctx c others := by
  ext x
  rw [← Set.sUnion_pair, namesAfter, mem_after_sUnion additive_taintedNames c _ x
    (Set.insert_nonempty _ _)]
  simp

lemma sinkIn_union {names others : Set String} {call : Expr} {sink : SinkRef} :
    SinkIn ctx (names ∪ others) call sink
      ↔ SinkIn ctx names call sink ∨ SinkIn ctx others call sink := by
  simp only [SinkIn, anyTainted_union]
  grind

/-! ## Maps -/

/-- The variables of the first map are those of the other two. -/
def Unites (t t1 t2 : Taints) : Prop := keySet t = keySet t1 ∪ keySet t2

lemma unites_update (t1 t2 : Taints) : Unites (t1.update t2) t1 t2 := keySet_update t1 t2

lemma Unites.update {t t1 t2 u u1 u2 : Taints} (ht : Unites t t1 t2) (hu : Unites u u1 u2) :
    Unites (t.update u) (t1.update u1) (t2.update u2) := by
  unfold Unites at *
  rw [keySet_update, keySet_update, keySet_update, ht, hu]
  exact Set.union_union_union_comm _ _ _ _

/-- What acts on the variables as a command does keeps unions. -/
lemma Unites.of_cmd {f : Taints → Taints} (c : Cmd Event)
    (hf : ∀ t, keySet (f t) = namesAfter ctx c (keySet t)) {t t1 t2 : Taints}
    (h : Unites t t1 t2) : Unites (f t) (f t1) (f t2) := by
  unfold Unites at *
  rw [hf, hf, hf, h]
  exact namesAfter_union c _ _

lemma Unites.applyStmt (ctx : FileContext) {t t1 t2 : Taints} (h : Unites t t1 t2) (s : Stmt) :
    Unites (taintsAfter ctx true s t) (taintsAfter ctx true s t1) (taintsAfter ctx true s t2) :=
  h.of_cmd (stmtCmd s) (keySet_applyStmt s)

lemma Unites.analyzeBlock (ctx : FileContext) {t t1 t2 : Taints} (h : Unites t t1 t2)
    (ss : List Stmt) :
    Unites (blockAfter ctx true ss t) (blockAfter ctx true ss t1) (blockAfter ctx true ss t2) :=
  h.of_cmd (blockCmd ss) (keySet_analyzeBlock ss)

lemma Unites.forTaints (ctx : FileContext) {t t1 t2 : Taints} (h : Unites t t1 t2) (loc : Loc)
    (target iter : Expr) :
    Unites (boundTaints ctx true loc target iter t) (boundTaints ctx true loc target iter t1)
      (boundTaints ctx true loc target iter t2) :=
  h.of_cmd (.event (.bind loc target iter)) (keySet_apply (.bind loc target iter))

/-! ## Reported calls -/

/-- The sink calls that flow at the sites, each with the sink it matches. -/
def callsAt (ctx : FileContext) (sites : List Site) : Set (Expr × SinkRef) :=
  {c | ∃ flow ∈ sites.flatMap (Site.flows ctx), (flow.call, flow.sink) = c}

/-- The sink calls that the walk over a block reports from a taint map: those of its own
statements, and those of the functions and classes defined in it. -/
def reportedCalls (ctx : FileContext) (stmts : List Stmt) (tainted : Taints) :
    Set (Expr × SinkRef) :=
  {c | ∃ flow ∈ (blockSites ctx true stmts tainted).flatMap (Site.flows ctx)
      ++ (blockScopes ctx true stmts).flatMap (Scope.flows ctx), (flow.call, flow.sink) = c}

/-- The sinks of the findings that the walk over a block emits. -/
def reportedSinks (ctx : FileContext) (classStack fnStack : List String) (stmts : List Stmt)
    (tainted : Taints) : Set SinkRef :=
  {sink | HasSink (analyzeBlock ctx classStack fnStack stmts tainted).1.findings sink}

lemma callsAt_append (xs ys : List Site) :
    callsAt ctx (xs ++ ys) = callsAt ctx xs ∪ callsAt ctx ys := by
  ext c
  simp only [callsAt, List.flatMap_append, List.mem_append, or_and_right, exists_or,
    Set.mem_union, Set.mem_ofPred_eq]

lemma callsAt_eq_empty {sites : List Site} (h : sites.flatMap (Site.flows ctx) = []) :
    callsAt ctx sites = ∅ := by
  simp [callsAt, h]

/-- A call flows at a site iff it is a sink under the variables there. -/
lemma mem_callsAt_single {seen : Bool} {operands scanned : List Expr} {t : Taints} {call : Expr}
    {sink : SinkRef} : (call, sink) ∈ callsAt ctx [siteAt seen operands scanned t]
      ↔ (∃ e ∈ (siteAt seen operands scanned t).scanned, call ∈ collectCalls e)
        ∧ SinkIn ctx (keySet t) call sink := by
  simp only [callsAt, Site.flows, List.flatMap_cons, List.flatMap_nil, List.append_nil,
    List.mem_flatMap, Set.mem_ofPred_eq, ← exists_taintedSink]
  constructor
  · rintro ⟨flow, ⟨e, he, hflow⟩, hcall⟩
    obtain ⟨rfl, rfl⟩ := Prod.mk.inj hcall
    obtain ⟨hmem, hsink⟩ := mem_exprFlows.1 hflow
    exact ⟨⟨e, he, hmem⟩, flow.taint, hsink⟩
  · rintro ⟨⟨e, he, hmem⟩, taint, hsink⟩
    exact ⟨⟨call, sink, taint⟩, ⟨e, he, mem_exprFlows.2 ⟨hmem, hsink⟩⟩, rfl⟩

/-- The findings of a block have the sinks of its reported calls. -/
lemma reportedSinks_eq (cs fs : List String) (ss : List Stmt) (t : Taints) :
    reportedSinks ctx cs fs ss t = Prod.snd '' reportedCalls ctx ss t := by
  have hemits := @emits_block ctx cs fs ss t
  ext sink
  simp only [reportedSinks, reportedCalls, HasSink, Set.mem_image, Set.mem_ofPred_eq,
    List.Perm.mem_iff hemits, List.mem_map]
  constructor
  · rintro ⟨f, ⟨flow, hflow, rfl⟩, rfl⟩
    exact ⟨(flow.call, flow.sink), ⟨flow, hflow, rfl⟩, rfl⟩
  · rintro ⟨c, ⟨flow, hflow, rfl⟩, rfl⟩
    exact ⟨flow.finding ctx, ⟨flow, hflow, rfl⟩, rfl⟩

/-! ## Sites -/

/-- What flows at the first sites is what flows at the other two. -/
def SitesUnite (ctx : FileContext) (xs ys zs : List Site) : Prop :=
  callsAt ctx xs = callsAt ctx ys ∪ callsAt ctx zs

namespace SitesUnite

lemma single (seen : Bool) (operands scanned : List Expr) {t t1 t2 : Taints}
    (h : Unites t t1 t2) : SitesUnite ctx [siteAt seen operands scanned t]
      [siteAt seen operands scanned t1] [siteAt seen operands scanned t2] := by
  ext ⟨call, sink⟩
  rw [Set.mem_union, mem_callsAt_single, mem_callsAt_single, mem_callsAt_single, h, sinkIn_union,
    and_or_left]
  rfl

lemma append {xs ys zs us vs ws : List Site} (h : SitesUnite ctx xs ys zs)
    (hu : SitesUnite ctx us vs ws) : SitesUnite ctx (xs ++ us) (ys ++ vs) (zs ++ ws) := by
  unfold SitesUnite at *
  rw [callsAt_append, callsAt_append, callsAt_append, h, hu]
  exact Set.union_union_union_comm _ _ _ _

lemma cons (seen : Bool) (operands scanned : List Expr) {t t1 t2 : Taints} {xs ys zs : List Site}
    (ht : Unites t t1 t2) (h : SitesUnite ctx xs ys zs) :
    SitesUnite ctx (siteAt seen operands scanned t :: xs) (siteAt seen operands scanned t1 :: ys)
      (siteAt seen operands scanned t2 :: zs) :=
  (single seen operands scanned ht).append h

lemma nil : SitesUnite ctx [] [] [] := by
  simp [SitesUnite, callsAt]

/-- Nothing flows below a statement the walk falls through on. -/
lemma unseen (s : Stmt) (t t1 t2 : Taints) : SitesUnite ctx (stmtSites ctx false s t)
    (stmtSites ctx false s t1) (stmtSites ctx false s t2) := by
  simp [SitesUnite, callsAt, flows_stmtSites_unseen]

end SitesUnite

mutual

lemma sitesUnite_stmt :
    ∀ (s : Stmt) {t t1 t2 : Taints}, Unites t t1 t2 → SitesUnite ctx (stmtSites ctx true s t)
      (stmtSites ctx true s t1) (stmtSites ctx true s t2)
  | .assign .., _, _, _, h | .annAssign .., _, _, _, h | .augAssign .., _, _, _, h
  | .expr .., _, _, _, h | .return_ .., _, _, _, h | .delete .., _, _, _, h
  | .raise .., _, _, _, h | .assert .., _, _, _, h => .single _ _ _ h
  | .if_ _ test body orelse, _, _, _, h | .while_ _ test body orelse, _, _, _, h =>
      .cons _ _ _ h ((sitesUnite_block body h).append (sitesUnite_block orelse h))
  | .for_ loc target iter body orelse, _, _, _, h => by
      have hbound := h.forTaints ctx loc target iter
      exact .cons _ _ _ h ((sitesUnite_block body hbound).append (sitesUnite_block orelse hbound))
  | .try_ _ body handlers orelse finalbody, _, _, _, h => by
      have h1 := h.update (h.analyzeBlock ctx body)
      have h2 := h1.update (h1.analyzeBlock ctx orelse)
      have h3 := h2.update (h2.analyzeBlock ctx finalbody)
      exact (((sitesUnite_block body h).append (sitesUnite_block orelse h1)).append
        (sitesUnite_block finalbody h2)).append (sitesUnite_handlers handlers h3)
  | .with_ _ _ body, _, _, _, h => .cons _ _ _ h (sitesUnite_block body h)
  | .asyncFor l tg it body orelse, t, t1, t2, _ => .unseen (.asyncFor l tg it body orelse) t t1 t2
  | .asyncWith l items body, t, t1, t2, _ => .unseen (.asyncWith l items body) t t1 t2
  | .tryStar l body handlers orelse finalbody, t, t1, t2, _ =>
      .unseen (.tryStar l body handlers orelse finalbody) t t1 t2
  | .match_ l subject cases, t, t1, t2, _ => .unseen (.match_ l subject cases) t t1 t2
  | .functionDef .., _, _, _, _ | .asyncFunctionDef .., _, _, _, _ | .classDef .., _, _, _, _
  | .import_ .., _, _, _, _ | .importFrom .., _, _, _, _ | .global .., _, _, _, _
  | .nonlocal .., _, _, _, _ | .pass _, _, _, _, _ | .break_ _, _, _, _, _
  | .continue_ _, _, _, _, _ => .nil

lemma sitesUnite_block :
    ∀ (ss : List Stmt) {t t1 t2 : Taints}, Unites t t1 t2 → SitesUnite ctx
      (blockSites ctx true ss t) (blockSites ctx true ss t1) (blockSites ctx true ss t2)
  | [], _, _, _, _ => .nil
  | s :: ss, _, _, _, h => (sitesUnite_stmt s h).append (sitesUnite_block ss (h.applyStmt ctx s))

lemma sitesUnite_handlers :
    ∀ (hs : List ExceptHandler) {t t1 t2 : Taints}, Unites t t1 t2 → SitesUnite ctx
      (handlerSites ctx true hs t) (handlerSites ctx true hs t1) (handlerSites ctx true hs t2)
  | [], _, _, _, _ => .nil
  | .mk _ _ _ body :: hs, _, _, _, h => by
      have hnext := h.update (h.analyzeBlock ctx body)
      exact .cons _ _ _ h ((sitesUnite_block body h).append (sitesUnite_handlers hs hnext))

end

/-! ## Blocks -/

lemma keySet_analyzeBlock_stacks (cs fs : List String) (ss : List Stmt) (t : Taints) :
    keySet (analyzeBlock ctx cs fs ss t).2 = namesAfter ctx (blockCmd ss) (keySet t) := by
  rw [analyzeBlock_snd, keySet_analyzeBlock]

lemma reportedCalls_union {t t1 t2 : Taints} (h : Unites t t1 t2) (ss : List Stmt) :
    reportedCalls ctx ss t = reportedCalls ctx ss t1 ∪ reportedCalls ctx ss t2 := by
  have hsites : SitesUnite ctx _ _ _ := sitesUnite_block ss h
  have hsplit : ∀ u : Taints, reportedCalls ctx ss u = callsAt ctx (blockSites ctx true ss u)
      ∪ {c | ∃ flow ∈ (blockScopes ctx true ss).flatMap (Scope.flows ctx),
          (flow.call, flow.sink) = c} := by
    intro u
    ext c
    simp only [reportedCalls, callsAt, List.mem_append, or_and_right, exists_or, Set.mem_union,
      Set.mem_ofPred_eq]
  rw [hsplit, hsplit, hsplit, hsites]
  exact Set.union_union_distrib_right _ _ _

lemma reportedSinks_union {t t1 t2 : Taints} (h : Unites t t1 t2) (cs fs : List String)
    (ss : List Stmt) : reportedSinks ctx cs fs ss t
      = reportedSinks ctx cs fs ss t1 ∪ reportedSinks ctx cs fs ss t2 := by
  rw [reportedSinks_eq, reportedSinks_eq, reportedSinks_eq, reportedCalls_union h,
    Set.image_union]

/-- A map with more variables is the union of itself with one that has fewer. -/
lemma unites_of_subset {t1 t2 : Taints} (h : keySet t1 ⊆ keySet t2) : Unites t2 t1 t2 :=
  (Set.union_eq_self_of_subset_left h).symm

/-- **The walk over a block is monotone and distributes over unions of taint maps.**  From a map
with the variables of two others, it ends with the variables that the two end with, it keeps every
variable that was tainted before, and the sink calls it reports, and so the sinks of its findings,
are those reported from the two. -/
theorem analyzeBlock_union (ctx : FileContext) (cs fs : List String) (ss : List Stmt) :
    (∀ t t1 t2 : Taints, keySet t = keySet t1 ∪ keySet t2 →
      keySet (analyzeBlock ctx cs fs ss t).2
          = keySet (analyzeBlock ctx cs fs ss t1).2 ∪ keySet (analyzeBlock ctx cs fs ss t2).2
        ∧ reportedCalls ctx ss t = reportedCalls ctx ss t1 ∪ reportedCalls ctx ss t2
        ∧ reportedSinks ctx cs fs ss t
          = reportedSinks ctx cs fs ss t1 ∪ reportedSinks ctx cs fs ss t2)
    ∧ (∀ t : Taints, keySet t ⊆ keySet (analyzeBlock ctx cs fs ss t).2)
    ∧ (∀ t1 t2 : Taints, keySet t1 ⊆ keySet t2 →
      keySet (analyzeBlock ctx cs fs ss t1).2 ⊆ keySet (analyzeBlock ctx cs fs ss t2).2
        ∧ reportedCalls ctx ss t1 ⊆ reportedCalls ctx ss t2
        ∧ reportedSinks ctx cs fs ss t1 ⊆ reportedSinks ctx cs fs ss t2) := by
  have hafter : ∀ t t1 t2 : Taints, Unites t t1 t2 → Unites (analyzeBlock ctx cs fs ss t).2
      (analyzeBlock ctx cs fs ss t1).2 (analyzeBlock ctx cs fs ss t2).2 := by
    intro t t1 t2 h
    exact h.of_cmd (blockCmd ss) (keySet_analyzeBlock_stacks cs fs ss)
  refine ⟨?_, ?_, ?_⟩
  · intro t t1 t2 h
    exact ⟨hafter t t1 t2 h, reportedCalls_union h ss, reportedSinks_union h cs fs ss⟩
  · intro t
    rw [keySet_analyzeBlock_stacks]
    exact subset_namesAfter _ _
  · intro t1 t2 h
    have hunites := unites_of_subset h
    have hkeys := hafter t2 t1 t2 hunites
    have hcalls : reportedCalls ctx ss t2 = _ := reportedCalls_union hunites ss
    have hsinks : reportedSinks ctx cs fs ss t2 = _ := reportedSinks_union hunites cs fs ss
    refine ⟨?_, ?_, ?_⟩
    · rw [hkeys]
      exact Set.subset_union_left
    · rw [hcalls]
      exact Set.subset_union_left
    · rw [hsinks]
      exact Set.subset_union_left

/-- The loop from `cmd` and `x`: what it reports from `x` alone, it reports from both. -/
theorem analyzeBlock_union_loop :
    let ctx := contextOf loopPython (commandInjectionRule loopPython) "p" loopFile
    let cmd : Taints := Dict.empty.set "cmd" ⟨[], "function_param"⟩
    let x : Taints := Dict.empty.set "x" ⟨[], "request_param"⟩
    keySet (analyzeBlock ctx [] ["run"] loopBody (cmd.update x)).2
        = keySet (analyzeBlock ctx [] ["run"] loopBody cmd).2
          ∪ keySet (analyzeBlock ctx [] ["run"] loopBody x).2
      ∧ reportedSinks ctx [] ["run"] loopBody (cmd.update x)
        = reportedSinks ctx [] ["run"] loopBody cmd ∪ reportedSinks ctx [] ["run"] loopBody x
      ∧ loopedSink ∈ reportedSinks ctx [] ["run"] loopBody (cmd.update x)
      ∧ keySet (analyzeBlock ctx [] ["run"] loopBody x).2
        ⊆ keySet (analyzeBlock ctx [] ["run"] loopBody (cmd.update x)).2 := by
  intro ctx cmd x
  have hupdate : keySet (cmd.update x) = keySet cmd ∪ keySet x := keySet_update cmd x
  obtain ⟨hkeys, -, hsinks⟩ := (analyzeBlock_union ctx [] ["run"] loopBody).1 _ cmd x hupdate
  have hreported : loopedSink ∈ reportedSinks ctx [] ["run"] loopBody x := by
    show ∃ f ∈ (analyzeBlock ctx [] ["run"] loopBody x).1.findings, f.sink = loopedSink
    decide +kernel
  refine ⟨hkeys, hsinks, hsinks ▸ Or.inr hreported, ?_⟩
  refine ((analyzeBlock_union ctx [] ["run"] loopBody).2.2 x (cmd.update x) ?_).1
  rw [hupdate]
  exact Set.subset_union_right

end Sast
