import SastEngine.Prepare.Cpg.Loop

/-!
# The names that the data-flow pass adds

The index knows no id of the data-flow pass, so that every definition, and every use of a name in
scope, becomes a node.  Which ones these are can be read off the statements.
-/

namespace Sast.Prepare

/-- What the pass meets in a body: a name that is read, assigned or bound by a loop. -/
inductive NameEvent where
  | use (name : String) (line : Nat)
  | define (name : String) (line : Nat)
  | bind (name : String)
deriving DecidableEq

/-! ## In the order of the pass -/

/-- The name that a node of an expression reads. -/
def useEvents (node : Node) : List NameEvent :=
  match node.text? "id" with
  | some name => if node.cls = "Name" then [.use name node.lineno] else []
  | none => []

/-- The name that a target in this line gets. -/
def defineEvents (line : Nat) (target : Node) : List NameEvent :=
  match target.text? "id" with
  | some name => if target.cls = "Name" then [.define name line] else []
  | none => []

/-- The name that a loop binds. -/
def bindEvents (stmt : Node) : List NameEvent :=
  match stmt.child? "target" with
  | some target =>
      match target.text? "id" with
      | some name => if target.cls = "Name" then [.bind name] else []
      | none => []
  | none => []

/-- The names that the expression of a statement reads. -/
def valueEvents (stmt : Node) : List NameEvent :=
  match stmt.child? "value" with
  | some value => value.nodes.flatMap useEvents
  | none => []

mutual

/-- The names of a statement. -/
def stmtEvents : Node → List NameEvent
  | .mk cls lineno endLineno fields =>
      let stmt := Node.mk cls lineno endLineno fields
      if cls = "Assign" then
        valueEvents stmt ++ (stmt.children "targets").flatMap (defineEvents stmt.lineno)
      else if cls = "FunctionDef" ∨ cls = "AsyncFunctionDef" then []
      else if cls = "If" then blockEvents "body" fields ++ blockEvents "orelse" fields
      else if cls = "For" then bindEvents stmt ++ blockEvents "body" fields
      else if cls = "While" then blockEvents "body" fields
      else if cls = "Return" ∨ cls = "Expr" then valueEvents stmt
      else if cls = "Try" then
        blockEvents "body" fields ++ (handlersEvents fields
          ++ (blockEvents "orelse" fields ++ blockEvents "finalbody" fields))
      else []

/-- The names of the field with this name. -/
def blockEvents (name : String) : List (String × FieldValue) → List NameEvent
  | [] => []
  | (field, value) :: rest =>
      if field = name then stmtsEvents value else blockEvents name rest

/-- The names of a field that may be a list. -/
def stmtsEvents : FieldValue → List NameEvent
  | .list items => itemsEvents items
  | .node _ => []
  | .constant _ => []

/-- The names of statements. -/
def itemsEvents : List ListItem → List NameEvent
  | [] => []
  | .node stmt :: rest => stmtEvents stmt ++ itemsEvents rest
  | .constant _ :: rest => itemsEvents rest

/-- The names of the field with the handlers. -/
def handlersEvents : List (String × FieldValue) → List NameEvent
  | [] => []
  | (field, value) :: rest =>
      if field = "handlers" then handlerValueEvents value else handlersEvents rest

/-- The names of handlers that may be a list. -/
def handlerValueEvents : FieldValue → List NameEvent
  | .list items => handlerItemsEvents items
  | .node _ => []
  | .constant _ => []

/-- The names of handlers. -/
def handlerItemsEvents : List ListItem → List NameEvent
  | [] => []
  | .node handler :: rest => handlerEvents handler ++ handlerItemsEvents rest
  | .constant _ :: rest => handlerItemsEvents rest

/-- The names of a handler. -/
def handlerEvents : Node → List NameEvent
  | .mk _ _ _ fields => blockEvents "body" fields

end

/-! ## The ids -/

/-- The names in scope after an event. -/
def scopeAfter (scope : List String) : NameEvent → List String
  | .use _ _ => scope
  | .define name _ => name :: scope
  | .bind name => name :: scope

section Ids

variable (path : String)

/-- The ids that an event calls for. -/
def eventIds (scope : List String) : NameEvent → List String
  | .use name line => if name ∈ scope then [useId path name line] else []
  | .define name line => [defId path name line]
  | .bind _ => []

/-- The ids that a list of events calls for, one after the other. -/
def emittedIds : List String → List NameEvent → List String
  | _, [] => []
  | scope, event :: rest => eventIds path scope event ++ emittedIds (scopeAfter scope event) rest

/-- The ids that the body of an entry calls for. -/
def entryIds (tree : Node) (info : FunctionInfo) : List String :=
  match topLevelFunction tree info with
  | none => []
  | some function => emittedIds path info.args ((function.children "body").flatMap stmtEvents)

end Ids

lemma emittedIds_append (path : String) (scope : List String) (events events' : List NameEvent) :
    emittedIds path scope (events ++ events')
      = emittedIds path scope events
        ++ emittedIds path (events.foldl scopeAfter scope) events' := by
  induction events generalizing scope with
  | nil => rfl
  | cons event rest ih =>
      rw [List.cons_append, emittedIds, emittedIds, ih, List.append_assoc]
      rfl

/-! ## What the pass adds -/

/-- The index does not know the ids of the data-flow pass. -/
def NoNames (path : String) (g : CodePropertyGraph) : Prop :=
  ∃ index, g.nodeIndex = some index ∧ ∀ i, FlowId path i → index.get? i = none

lemma NoNames.of_appends {path : String} {g g' : CodePropertyGraph} (h : NoNames path g)
    (happends : AppendsNames path g g') : NoNames path g' := by
  obtain ⟨index, hindex, hnone⟩ := h
  exact ⟨index, happends.index index hindex, hnone⟩

section Pass

variable {path : String} {events events' : List NameEvent} {s s' s'' : DfgState}

/-- From the one state to the other, all that the events call for is added. -/
structure AddsNames (path : String) (events : List NameEvent) (s s' : DfgState) : Prop where
  ids : s'.1.ids = s.1.ids ++ emittedIds path s.2 events
  scope : s'.2 = events.foldl scopeAfter s.2
  index : s'.1.nodeIndex = s.1.nodeIndex

lemma AddsNames.refl (path : String) (s : DfgState) : AddsNames path [] s s where
  ids := (List.append_nil _).symm
  scope := rfl
  index := rfl

lemma AddsNames.trans (h : AddsNames path events s s') (h' : AddsNames path events' s' s'') :
    AddsNames path (events ++ events') s s'' where
  ids := by rw [h'.ids, h.ids, h.scope, emittedIds_append, List.append_assoc]
  scope := by rw [h'.scope, h.scope, List.foldl_append]
  index := h'.index.trans h.index

lemma AddsNames.noNames (h : AddsNames path events s s') (hs : NoNames path s.1) :
    NoNames path s'.1 := by
  obtain ⟨index, hindex, hnone⟩ := hs
  exact ⟨index, h.index.trans hindex, hnone⟩

/-- A node is added, as the index does not know its id. -/
lemma appendUnlessFound_new {nodeId : String} (hid : FlowId path nodeId) (name label : String)
    (line : Nat) (h : NoNames path s.1) :
    (appendUnlessFound path nodeId name label line s).1.ids = s.1.ids ++ [nodeId]
      ∧ (appendUnlessFound path nodeId name label line s).2 = s.2
      ∧ (appendUnlessFound path nodeId name label line s).1.nodeIndex = s.1.nodeIndex := by
  obtain ⟨index, hindex, hnone⟩ := h
  have hget : s.1.found nodeId = none := by
    rw [CodePropertyGraph.found, hindex]
    exact hnone _ hid
  have hnode : s.1.nodeById nodeId = (s.1, none) := by
    rw [CodePropertyGraph.nodeById, indexed_of_some hindex]
    exact congrArg (Prod.mk s.1) hget
  simp only [appendUnlessFound, hnode, CodePropertyGraph.ids, List.map_append, List.map_cons,
    List.map_nil, and_self]

lemma useName_adds (h : NoNames path s.1) (node : Node) :
    AddsNames path (useEvents node) s (useName path s node) := by
  rw [useName, useEvents]
  cases node.text? "id" with
  | none => exact .refl path s
  | some name =>
      by_cases hcls : node.cls = "Name"
      · by_cases hscope : name ∈ s.2
        · obtain ⟨hids, hsame, hindex⟩ := appendUnlessFound_new ⟨name, node.lineno, Or.inr rfl⟩
            name (name ++ " (used)") node.lineno h
          simp only [hcls, hscope, and_self, if_true]
          exact ⟨by simp [hids, emittedIds, eventIds, hscope], hsame, hindex⟩
        · simp only [hcls, hscope, and_false, if_true, if_false]
          exact ⟨by simp [emittedIds, eventIds, hscope], rfl, rfl⟩
      · simp only [hcls, false_and, if_false]
        exact .refl path s

lemma defineTarget_adds (h : NoNames path s.1) (line : Nat) (target : Node) :
    AddsNames path (defineEvents line target) s (defineTarget path line s target) := by
  rw [defineTarget, defineEvents]
  cases target.text? "id" with
  | none => exact .refl path s
  | some name =>
      by_cases hcls : target.cls = "Name"
      · obtain ⟨hids, hsame, hindex⟩ := @appendUnlessFound_new path (s.1, name :: s.2) _
          ⟨name, line, Or.inl rfl⟩ name (name ++ " (defined)") line h
        simp only [hcls, if_true]
        exact ⟨by simp [hids, emittedIds, eventIds], hsame, hindex⟩
      · simp only [hcls, if_false]
        exact .refl path s

lemma bindTarget_adds (s : DfgState) (stmt : Node) :
    AddsNames path (bindEvents stmt) s (bindTarget s stmt) := by
  rw [bindTarget, bindEvents]
  cases stmt.child? "target" with
  | none => exact .refl path s
  | some target =>
      dsimp only
      cases target.text? "id" with
      | none => exact .refl path s
      | some name =>
          by_cases hcls : target.cls = "Name"
          · simp only [hcls, if_true]
            exact ⟨by simp [emittedIds, eventIds], rfl, rfl⟩
          · simp only [hcls, if_false]
            exact .refl path s

/-- A loop over nodes adds what each round adds. -/
lemma foldl_adds {walk : DfgState → Node → DfgState} {eventsOf : Node → List NameEvent}
    (hwalk : ∀ s n, NoNames path s.1 → AddsNames path (eventsOf n) s (walk s n))
    (h : NoNames path s.1) (nodes : List Node) :
    AddsNames path (nodes.flatMap eventsOf) s (nodes.foldl walk s) := by
  induction nodes generalizing s with
  | nil => exact .refl path s
  | cons n rest ih =>
      have hfirst := hwalk s n h
      exact hfirst.trans (ih (hfirst.noNames h))

lemma walkValue_adds (h : NoNames path s.1) (stmt : Node) :
    AddsNames path (valueEvents stmt) s (walkValue path s stmt) := by
  rw [walkValue, valueEvents]
  cases stmt.child? "value" with
  | none => exact .refl path s
  | some value => exact foldl_adds (fun _ node hs => useName_adds hs node) h value.nodes

mutual

theorem walkDfgStmt_adds {s : DfgState} (h : NoNames path s.1) (stmt : Node) :
    AddsNames path (stmtEvents stmt) s (walkDfgStmt path s stmt) := by
  match stmt with
  | .mk cls lineno endLineno fields =>
    rw [walkDfgStmt, stmtEvents]
    split
    · have hvalue := walkValue_adds h (.mk cls lineno endLineno fields)
      exact hvalue.trans (foldl_adds (fun _ target hs => defineTarget_adds hs _ target)
        (hvalue.noNames h) _)
    split
    · exact .refl path s
    split
    · have hbody := walkDfgBlock_adds "body" h fields
      exact hbody.trans (walkDfgBlock_adds "orelse" (hbody.noNames h) fields)
    split
    · have hbind := @bindTarget_adds path s (.mk cls lineno endLineno fields)
      exact hbind.trans (walkDfgBlock_adds "body" (hbind.noNames h) fields)
    split
    · exact walkDfgBlock_adds "body" h fields
    split
    · exact walkValue_adds h _
    split
    · have hbody := walkDfgBlock_adds "body" h fields
      have hs₁ := hbody.noNames h
      have hhandlers := walkDfgHandlers_adds hs₁ fields
      have hs₂ := hhandlers.noNames hs₁
      have horelse := walkDfgBlock_adds "orelse" hs₂ fields
      exact hbody.trans (hhandlers.trans (horelse.trans
        (walkDfgBlock_adds "finalbody" (horelse.noNames hs₂) fields)))
    · exact .refl path s

theorem walkDfgBlock_adds (name : String) {s : DfgState} (h : NoNames path s.1)
    (fields : List (String × FieldValue)) :
    AddsNames path (blockEvents name fields) s (walkDfgBlock path name s fields) := by
  match fields with
  | [] => exact .refl path s
  | (field, value) :: rest =>
    rw [walkDfgBlock, blockEvents]
    split
    · exact walkDfgStmts_adds h value
    · exact walkDfgBlock_adds name h rest

theorem walkDfgStmts_adds {s : DfgState} (h : NoNames path s.1) (value : FieldValue) :
    AddsNames path (stmtsEvents value) s (walkDfgStmts path s value) := by
  match value with
  | .list items => exact walkDfgItems_adds h items
  | .node n => exact .refl path s
  | .constant c => exact .refl path s

theorem walkDfgItems_adds {s : DfgState} (h : NoNames path s.1) (items : List ListItem) :
    AddsNames path (itemsEvents items) s (walkDfgItems path s items) := by
  match items with
  | [] => exact .refl path s
  | .node stmt :: rest =>
    have hstmt := walkDfgStmt_adds h stmt
    exact hstmt.trans (walkDfgItems_adds (hstmt.noNames h) rest)
  | .constant c :: rest => exact walkDfgItems_adds h rest

theorem walkDfgHandlers_adds {s : DfgState} (h : NoNames path s.1)
    (fields : List (String × FieldValue)) :
    AddsNames path (handlersEvents fields) s (walkDfgHandlers path s fields) := by
  match fields with
  | [] => exact .refl path s
  | (field, value) :: rest =>
    rw [walkDfgHandlers, handlersEvents]
    split
    · exact walkDfgHandlerValue_adds h value
    · exact walkDfgHandlers_adds h rest

theorem walkDfgHandlerValue_adds {s : DfgState} (h : NoNames path s.1) (value : FieldValue) :
    AddsNames path (handlerValueEvents value) s (walkDfgHandlerValue path s value) := by
  match value with
  | .list items => exact walkDfgHandlerItems_adds h items
  | .node n => exact .refl path s
  | .constant c => exact .refl path s

theorem walkDfgHandlerItems_adds {s : DfgState} (h : NoNames path s.1) (items : List ListItem) :
    AddsNames path (handlerItemsEvents items) s (walkDfgHandlerItems path s items) := by
  match items with
  | [] => exact .refl path s
  | .node handler :: rest =>
    have hhandler := walkDfgHandler_adds h handler
    exact hhandler.trans (walkDfgHandlerItems_adds (hhandler.noNames h) rest)
  | .constant c :: rest => exact walkDfgHandlerItems_adds h rest

theorem walkDfgHandler_adds {s : DfgState} (h : NoNames path s.1) (handler : Node) :
    AddsNames path (handlerEvents handler) s (walkDfgHandler path s handler) := by
  match handler with
  | .mk cls lineno endLineno fields => exact walkDfgBlock_adds "body" h fields

end

end Pass

/-! ## The pass over a file -/

section File

variable {py : PyInterpreter} {file : SourceFile} {tree : Node} {g g' : CodePropertyGraph}

lemma bodyWalked_adds (path : String) (info : FunctionInfo) (h : NoNames path g) :
    (bodyWalked path tree info g).ids = g.ids ++ entryIds path tree info := by
  rw [bodyWalked, entryIds]
  cases topLevelFunction tree info with
  | none => exact (List.append_nil _).symm
  | some function =>
      have hstart : NoNames path ((g, info.args) : DfgState).1 := h
      exact (foldl_adds (fun _ stmt hs => walkDfgStmt_adds hs stmt) hstart _).ids

/-- The data-flow pass over the entries of a file whose functions are found. -/
lemma foldlM_buildDfg_adds (hparse : py.parse file.source = .ok tree)
    {infos : List FunctionInfo} (h : NoNames file.path g) (hreach : Reaches g file.path tree)
    (hpass : infos.foldlM (fun g info => buildDfg py file info g) g = .ok g') :
    g'.ids = g.ids ++ infos.flatMap (entryIds file.path tree) := by
  induction infos generalizing g with
  | nil =>
      obtain rfl := Except.ok.inj hpass
      simp
  | cons info rest ih =>
      obtain ⟨index, hindex, hnone⟩ := h
      rw [List.foldlM_cons, hreach.buildDfg hindex hparse info] at hpass
      have hstart : NoNames file.path
          (g.withEdges (paramsOf index g.functionNodes file.path tree info)) :=
        ⟨index, hindex, hnone⟩
      have happends := bodyWalked_appends file.path tree info
        (g.withEdges (paramsOf index g.functionNodes file.path tree info))
      rw [ih (hstart.of_appends happends) (hreach.of_appends hindex happends) hpass,
        bodyWalked_adds file.path info hstart, List.flatMap_cons, List.append_assoc]
      rfl

/-- The ids that the data-flow pass adds. -/
lemma FlowPasses.names_eq_entryIds {params : List CpgEdge} {names : List String}
    {index : Dict String CpgNode} (h : FlowPasses py file tree params names g g' index)
    (hsome : storedTree py file = some tree) :
    names = file.functions.flatMap (entryIds file.path tree) := by
  obtain ⟨extra, hnodes, rfl, -⟩ := h.names_eq
  have hids := foldlM_buildDfg_adds (storedTree_eq_some.1 hsome).1
    ⟨index, h.index_eq, h.noNames⟩ h.reaches h.pass
  rw [CodePropertyGraph.ids, hnodes, List.map_append] at hids
  exact List.append_cancel_left hids

end File

end Sast.Prepare
