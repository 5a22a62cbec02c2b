import SastEngine.Lib.Except
import SastEngine.Prepare.Cpg.Ids

/-!
# What the passes do to the graph

The control-flow pass appends edges and the data-flow pass appends edges and nodes; a lookup makes
the index and leaves one that is there.
-/

namespace Sast.Prepare

/-! ## Lookups -/

@[simp] lemma indexed_nodes (g : CodePropertyGraph) : g.indexed.nodes = g.nodes := rfl
@[simp] lemma indexed_edges (g : CodePropertyGraph) : g.indexed.edges = g.edges := rfl
@[simp] lemma indexed_indexed (g : CodePropertyGraph) : g.indexed.indexed = g.indexed := rfl

lemma indexed_of_some {g : CodePropertyGraph} {index : Dict String CpgNode}
    (h : g.nodeIndex = some index) : g.indexed = g := by
  cases g
  cases h
  rfl

/-- The node that a lookup finds. -/
def CodePropertyGraph.found (g : CodePropertyGraph) (nodeId : String) : Option CpgNode :=
  (g.nodeIndex.getD (CodePropertyGraph.indexOf g.nodes)).get? nodeId

@[simp] lemma indexed_found (g : CodePropertyGraph) (nodeId : String) :
    g.indexed.found nodeId = g.found nodeId := rfl

lemma findNode_cons (p : CpgNode → Bool) (nodeId : String) (rest : List String)
    (g : CodePropertyGraph) :
    findNode p (nodeId :: rest) g
      = if (g.found nodeId).any p then (g.indexed, some nodeId) else findNode p rest g.indexed :=
  rfl

/-- A search makes the index, unless there is nothing to look up; it finds the first id whose node
passes the test. -/
lemma findNode_eq (p : CpgNode → Bool) (ids : List String) (g : CodePropertyGraph) :
    findNode p ids g = (if ids = [] then g else g.indexed,
      ids.find? fun nodeId => (g.found nodeId).any p) := by
  induction ids generalizing g with
  | nil => rfl
  | cons nodeId rest ih =>
      rw [findNode_cons, List.find?_cons]
      by_cases hany : (g.found nodeId).any p
      · rw [if_pos hany, hany]
        rfl
      · rw [if_neg hany, Bool.eq_false_iff.2 hany, ih]
        simp

/-! ## The data-flow pass -/

/-- The second graph is the first one with nodes of the data-flow pass. -/
structure AppendsNames (path : String) (g g' : CodePropertyGraph) : Prop where
  nodes : ∃ extra, g'.nodes = g.nodes ++ extra ∧ ∀ n ∈ extra, FlowId path n.id
  edges : g'.edges = g.edges
  fileNodes : g'.fileNodes = g.fileNodes
  functionNodes : g'.functionNodes = g.functionNodes
  callNodes : g'.callNodes = g.callNodes
  index : ∀ index, g.nodeIndex = some index → g'.nodeIndex = some index

namespace AppendsNames

variable {path : String} {g g' g'' : CodePropertyGraph}

lemma refl (path : String) (g : CodePropertyGraph) : AppendsNames path g g where
  nodes := ⟨[], by simp⟩
  edges := rfl
  fileNodes := rfl
  functionNodes := rfl
  callNodes := rfl
  index _ h := h

lemma trans (h : AppendsNames path g g') (h' : AppendsNames path g' g'') :
    AppendsNames path g g'' where
  nodes := by
    obtain ⟨extra, hnodes, hextra⟩ := h.nodes
    obtain ⟨extra', hnodes', hextra'⟩ := h'.nodes
    refine ⟨extra ++ extra', ?_, ?_⟩
    · rw [hnodes', hnodes, List.append_assoc]
    · exact List.forall_mem_append.2 ⟨hextra, hextra'⟩
  edges := h'.edges.trans h.edges
  fileNodes := h'.fileNodes.trans h.fileNodes
  functionNodes := h'.functionNodes.trans h.functionNodes
  callNodes := h'.callNodes.trans h.callNodes
  index index hindex := h'.index index (h.index index hindex)

end AppendsNames

section DataFlow

variable {path : String}

lemma appendUnlessFound_appends {nodeId : String} (hid : FlowId path nodeId) (name label : String)
    (line : Nat) (s : DfgState) :
    AppendsNames path s.1 (appendUnlessFound path nodeId name label line s).1 := by
  rw [appendUnlessFound]
  split
  · rename_i g node hfound
    obtain ⟨rfl, -⟩ := Prod.mk.inj hfound
    exact
      { nodes := ⟨[], by simp⟩, edges := rfl, fileNodes := rfl, functionNodes := rfl
        callNodes := rfl
        index := fun index h => by rw [indexed_of_some h, h] }
  · rename_i g hfound
    obtain ⟨rfl, -⟩ := Prod.mk.inj hfound
    exact
      { nodes := ⟨_, rfl, by simpa using hid⟩, edges := rfl, fileNodes := rfl
        functionNodes := rfl, callNodes := rfl
        index := fun index h => by
          show s.1.indexed.nodeIndex = some index
          rw [indexed_of_some h, h] }

lemma useName_appends (s : DfgState) (node : Node) :
    AppendsNames path s.1 (useName path s node).1 := by
  rw [useName]
  split
  · rename_i name _
    split
    · exact appendUnlessFound_appends ⟨name, node.lineno, Or.inr rfl⟩ _ _ _ s
    · exact .refl path _
  · exact .refl path _

lemma walkDfgExpr_appends (s : DfgState) (expr : Node) :
    AppendsNames path s.1 (walkDfgExpr path s expr).1 :=
  List.foldlRecOn (motive := fun t : DfgState => AppendsNames path s.1 t.1) expr.nodes
    (useName path) (.refl path _) fun t h node _ => h.trans (useName_appends t node)

lemma defineTarget_appends (line : Nat) (s : DfgState) (target : Node) :
    AppendsNames path s.1 (defineTarget path line s target).1 := by
  rw [defineTarget]
  split
  · rename_i name _
    split
    · exact appendUnlessFound_appends ⟨name, line, Or.inl rfl⟩ _ _ _ (s.1, name :: s.2)
    · exact .refl path _
  · exact .refl path _

lemma defineTargets_appends (line : Nat) (s : DfgState) (targets : List Node) :
    AppendsNames path s.1 (targets.foldl (defineTarget path line) s).1 :=
  List.foldlRecOn (motive := fun t : DfgState => AppendsNames path s.1 t.1) targets
    (defineTarget path line) (.refl path _) fun t h target _ =>
      h.trans (defineTarget_appends line t target)

lemma walkValue_appends (s : DfgState) (stmt : Node) :
    AppendsNames path s.1 (walkValue path s stmt).1 := by
  rw [walkValue]
  split
  · exact walkDfgExpr_appends s _
  · exact .refl path _

/-- Binding a name leaves the graph. -/
lemma bindTarget_fst (s : DfgState) (stmt : Node) : (bindTarget s stmt).1 = s.1 := by
  rw [bindTarget]
  repeat' split
  all_goals rfl

mutual

theorem walkDfgStmt_appends (s : DfgState) (stmt : Node) :
    AppendsNames path s.1 (walkDfgStmt path s stmt).1 := by
  match stmt with
  | .mk cls lineno endLineno fields =>
    rw [walkDfgStmt]
    split
    · exact (walkValue_appends s _).trans (defineTargets_appends _ _ _)
    split
    · exact .refl path _
    split
    · exact (walkDfgBlock_appends "body" s fields).trans (walkDfgBlock_appends "orelse" _ fields)
    split
    · have hbind := bindTarget_fst s (.mk cls lineno endLineno fields)
      have hbody := walkDfgBlock_appends "body"
        (bindTarget s (.mk cls lineno endLineno fields)) fields
      rwa [hbind] at hbody
    split
    · exact walkDfgBlock_appends "body" s fields
    split
    · exact walkValue_appends s _
    split
    · exact (walkDfgBlock_appends "body" s fields).trans
        ((walkDfgHandlers_appends _ fields).trans
          ((walkDfgBlock_appends "orelse" _ fields).trans
            (walkDfgBlock_appends "finalbody" _ fields)))
    · exact .refl path _

theorem walkDfgBlock_appends (name : String) (s : DfgState) (fields : List (String × FieldValue)) :
    AppendsNames path s.1 (walkDfgBlock path name s fields).1 := by
  match fields with
  | [] => exact .refl path _
  | (field, value) :: rest =>
    rw [walkDfgBlock]
    split
    · exact walkDfgStmts_appends s value
    · exact walkDfgBlock_appends name s rest

theorem walkDfgStmts_appends (s : DfgState) (value : FieldValue) :
    AppendsNames path s.1 (walkDfgStmts path s value).1 := by
  match value with
  | .list items => exact walkDfgItems_appends s items
  | .node n => exact .refl path _
  | .constant c => exact .refl path _

theorem walkDfgItems_appends (s : DfgState) (items : List ListItem) :
    AppendsNames path s.1 (walkDfgItems path s items).1 := by
  match items with
  | [] => exact .refl path _
  | .node stmt :: rest =>
    exact (walkDfgStmt_appends s stmt).trans (walkDfgItems_appends _ rest)
  | .constant c :: rest => exact walkDfgItems_appends s rest

theorem walkDfgHandlers_appends (s : DfgState) (fields : List (String × FieldValue)) :
    AppendsNames path s.1 (walkDfgHandlers path s fields).1 := by
  match fields with
  | [] => exact .refl path _
  | (field, value) :: rest =>
    rw [walkDfgHandlers]
    split
    · exact walkDfgHandlerValue_appends s value
    · exact walkDfgHandlers_appends s rest

theorem walkDfgHandlerValue_appends (s : DfgState) (value : FieldValue) :
    AppendsNames path s.1 (walkDfgHandlerValue path s value).1 := by
  match value with
  | .list items => exact walkDfgHandlerItems_appends s items
  | .node n => exact .refl path _
  | .constant c => exact .refl path _

theorem walkDfgHandlerItems_appends (s : DfgState) (items : List ListItem) :
    AppendsNames path s.1 (walkDfgHandlerItems path s items).1 := by
  match items with
  | [] => exact .refl path _
  | .node handler :: rest =>
    exact (walkDfgHandler_appends s handler).trans (walkDfgHandlerItems_appends _ rest)
  | .constant c :: rest => exact walkDfgHandlerItems_appends s rest

theorem walkDfgHandler_appends (s : DfgState) (handler : Node) :
    AppendsNames path s.1 (walkDfgHandler path s handler).1 := by
  match handler with
  | .mk cls lineno endLineno fields => exact walkDfgBlock_appends "body" s fields

end

lemma walkDfgBody_appends (s : DfgState) (stmts : List Node) :
    AppendsNames path s.1 (stmts.foldl (walkDfgStmt path) s).1 :=
  List.foldlRecOn (motive := fun t : DfgState => AppendsNames path s.1 t.1) stmts
    (walkDfgStmt path) (.refl path _) fun t h stmt _ => h.trans (walkDfgStmt_appends t stmt)

end DataFlow

/-! ## Both passes of a file -/

/-- The second graph is the first one with edges, and with nodes of the data-flow pass. -/
structure AppendsFlow (path : String) (g g' : CodePropertyGraph) : Prop where
  nodes : ∃ extra, g'.nodes = g.nodes ++ extra ∧ ∀ n ∈ extra, FlowId path n.id
  edges : ∃ extra, g'.edges = g.edges ++ extra
  fileNodes : g'.fileNodes = g.fileNodes
  functionNodes : g'.functionNodes = g.functionNodes
  callNodes : g'.callNodes = g.callNodes

namespace AppendsFlow

variable {path : String} {g g' g'' : CodePropertyGraph}

lemma refl (path : String) (g : CodePropertyGraph) : AppendsFlow path g g where
  nodes := ⟨[], by simp⟩
  edges := ⟨[], by simp⟩
  fileNodes := rfl
  functionNodes := rfl
  callNodes := rfl

lemma trans (h : AppendsFlow path g g') (h' : AppendsFlow path g' g'') :
    AppendsFlow path g g'' where
  nodes := by
    obtain ⟨extra, hnodes, hextra⟩ := h.nodes
    obtain ⟨extra', hnodes', hextra'⟩ := h'.nodes
    refine ⟨extra ++ extra', ?_, ?_⟩
    · rw [hnodes', hnodes, List.append_assoc]
    · exact List.forall_mem_append.2 ⟨hextra, hextra'⟩
  edges := by
    obtain ⟨extra, hedges⟩ := h.edges
    obtain ⟨extra', hedges'⟩ := h'.edges
    exact ⟨extra ++ extra', by rw [hedges', hedges, List.append_assoc]⟩
  fileNodes := h'.fileNodes.trans h.fileNodes
  functionNodes := h'.functionNodes.trans h.functionNodes
  callNodes := h'.callNodes.trans h.callNodes

end AppendsFlow

lemma indexed_appendsFlow (path : String) (g : CodePropertyGraph) :
    AppendsFlow path g g.indexed where
  nodes := ⟨[], by simp⟩
  edges := ⟨[], by simp⟩
  fileNodes := rfl
  functionNodes := rfl
  callNodes := rfl

lemma findNode_appendsFlow (path : String) (p : CpgNode → Bool) (ids : List String)
    (g : CodePropertyGraph) : AppendsFlow path g (findNode p ids g).1 := by
  rw [findNode_eq]
  dsimp only
  split
  · exact .refl path g
  · exact indexed_appendsFlow path g

lemma withEdges_appendsFlow (path : String) (g : CodePropertyGraph) (extra : List CpgEdge) :
    AppendsFlow path g { g with edges := g.edges ++ extra } where
  nodes := ⟨[], by simp⟩
  edges := ⟨extra, rfl⟩
  fileNodes := rfl
  functionNodes := rfl
  callNodes := rfl

lemma AppendsNames.appendsFlow {path : String} {g g' : CodePropertyGraph}
    (h : AppendsNames path g g') : AppendsFlow path g g' where
  nodes := h.nodes
  edges := ⟨[], by rw [h.edges, List.append_nil]⟩
  fileNodes := h.fileNodes
  functionNodes := h.functionNodes
  callNodes := h.callNodes

section Flow

variable {py : PyInterpreter} {file : SourceFile} {tree : Node}

lemma buildCfg_appends (hparse : py.parse file.source = .ok tree) (info : FunctionInfo)
    (g : CodePropertyGraph) :
    ∃ g', buildCfg py file info g = .ok g' ∧ AppendsFlow file.path g g' := by
  have hfind := findNode_appendsFlow file.path
    (fun n => n.name = some info.name && n.file = file.path) g.functionNodes g
  rw [buildCfg, hparse]
  dsimp only
  split
  · rename_i g' hfound
    exact ⟨g', rfl, by rwa [hfound] at hfind⟩
  · rename_i g' functionId hfound
    rw [hfound] at hfind
    split
    · exact ⟨g', rfl, hfind⟩
    · exact ⟨_, rfl, hfind.trans (withEdges_appendsFlow _ _ _)⟩

lemma buildDfg_appends (hparse : py.parse file.source = .ok tree) (info : FunctionInfo)
    (g : CodePropertyGraph) :
    ∃ g', buildDfg py file info g = .ok g' ∧ AppendsFlow file.path g g' := by
  have hfind := findNode_appendsFlow file.path
    (fun n => n.name = some info.name && n.file = file.path && n.line = info.line)
    g.functionNodes g
  rw [buildDfg, hparse]
  dsimp only
  split
  · exact ⟨g, rfl, .refl _ _⟩
  · split
    · rename_i g' hfound
      exact ⟨g', rfl, by rwa [hfound] at hfind⟩
    · rename_i function _ _ g' functionId hfound
      rw [hfound] at hfind
      have hedges := withEdges_appendsFlow file.path g' (paramEdges file.path functionId function)
      have hbody := (@walkDfgBody_appends file.path
        ({ g' with edges := g'.edges ++ paramEdges file.path functionId function }, info.args)
        (function.children "body")).appendsFlow
      exact ⟨_, rfl, hfind.trans (hedges.trans hbody)⟩

/-- A pass over the functions of a file. -/
lemma foldlM_appends {pass : CodePropertyGraph → FunctionInfo → Except String CodePropertyGraph}
    {path : String} (hpass : ∀ info g, ∃ g', pass g info = .ok g' ∧ AppendsFlow path g g')
    (infos : List FunctionInfo) (g : CodePropertyGraph) :
    ∃ g', infos.foldlM pass g = .ok g' ∧ AppendsFlow path g g' := by
  induction infos generalizing g with
  | nil => exact ⟨g, rfl, .refl path g⟩
  | cons info rest ih =>
      obtain ⟨g', hfirst, happends⟩ := hpass info g
      obtain ⟨g'', hrest, happends'⟩ := ih g'
      exact ⟨g'', by rw [List.foldlM_cons, hfirst]; exact hrest, happends.trans happends'⟩

/-- Both passes together. -/
lemma flow_appends (hparse : py.parse file.source = .ok tree) (g : CodePropertyGraph) :
    ∃ g', (do
        let g ← file.functions.foldlM (fun g info => buildCfg py file info g) g
        file.functions.foldlM (fun g info => buildDfg py file info g) g) = .ok g'
      ∧ AppendsFlow file.path g g' := by
  obtain ⟨g', hcfg, happends⟩ := foldlM_appends (buildCfg_appends hparse) file.functions g
  obtain ⟨g'', hdfg, happends'⟩ := foldlM_appends (buildDfg_appends hparse) file.functions g'
  exact ⟨g'', by rw [hcfg]; exact hdfg, happends.trans happends'⟩

end Flow

end Sast.Prepare
