import SastEngine.Prepare.Cpg.Closed
import SastEngine.Prepare.Cpg.Layout

/-!
# Only one file gets its flow

The index behind `node_by_id` is made when the flow passes first look up a function, in the first
file that shows one.  It is never made again, so that the functions of later files are not found,
and before there are no functions to find.  All edges of the flow passes come from that file.
-/

namespace Sast.Prepare

/-- The tree of a file shows a function. -/
def showsFunction (py : PyInterpreter) (file : SourceFile) : Bool :=
  match storedTree py file with
  | none => false
  | some tree => (tree.shown 0).any fun p => isFunctionDef p.1

/-- The control-flow edges for an entry of the file. -/
def flowOf (path : String) (tree : Node) (info : FunctionInfo) : List CpgEdge :=
  match topLevelFunction tree info with
  | none => []
  | some function => bodyEdges path none (function.children "body")

/-! ## Where nothing is found -/

section Pass

variable {py : PyInterpreter} {file : SourceFile} {tree : Node}

/-- No function of the file can be looked up, and a lookup changes nothing. -/
structure Idle (g : CodePropertyGraph) (path : String) : Prop where
  indexed : g.functionNodes = [] ∨ ∃ index, g.nodeIndex = some index
  notFound : ∀ i ∈ g.functionNodes, ∀ n, g.found i = some n → n.file ≠ path

lemma Idle.findNode_eq {g : CodePropertyGraph} {path : String} (h : Idle g path)
    {p : CpgNode → Bool} (hp : ∀ n, p n = true → n.file = path) :
    findNode p g.functionNodes g = (g, none) := by
  have hnone : (g.functionNodes.find? fun i => (g.found i).any p) = none := by
    refine List.find?_eq_none.2 fun i hi hany => ?_
    cases hfound : g.found i with
    | none =>
        rw [hfound] at hany
        cases hany
    | some n =>
        rw [hfound] at hany
        exact h.notFound i hi n hfound (hp n hany)
  rw [Prepare.findNode_eq, hnone]
  rcases h.indexed with hnil | ⟨index, hindex⟩
  · rw [if_pos hnil]
  · rw [indexed_of_some hindex, ite_self]

lemma Idle.buildCfg {g : CodePropertyGraph} (h : Idle g file.path)
    (hparse : py.parse file.source = .ok tree) (info : FunctionInfo) :
    buildCfg py file info g = .ok g := by
  rw [Prepare.buildCfg, hparse]
  simp only
  rw [h.findNode_eq fun n hn => (by simpa using hn : _ ∧ _).2]

lemma Idle.buildDfg {g : CodePropertyGraph} (h : Idle g file.path)
    (hparse : py.parse file.source = .ok tree) (info : FunctionInfo) :
    buildDfg py file info g = .ok g := by
  rw [Prepare.buildDfg, hparse]
  simp only
  split
  · rfl
  · rw [h.findNode_eq fun n hn => by
      simp only [Bool.and_eq_true, decide_eq_true_eq] at hn
      exact hn.1.2]

lemma foldlM_const {α β : Type} {f : β → α → Except String β} {b : β} {as : List α}
    (h : ∀ a, f b a = .ok b) : as.foldlM f b = .ok b := by
  induction as with
  | nil => rfl
  | cons a as ih =>
      rw [List.foldlM_cons, h a]
      exact ih

/-- A file that is passed over adds its node and the nodes of its tree. -/
lemma buildFile_idle (hfile : parseFile py file.path file.source = .ok file)
    (hsome : storedTree py file = some tree) {g : CodePropertyGraph} {w : Walked}
    {child : Option String}
    (hw : walkAst file.path (fileNode file).id 0 (astToDict tree) = .ok (w, child))
    (h : Idle ((g.withFile file).append w) file.path) :
    buildFile py g file = .ok ((g.withFile file).append w) := by
  have hparse := (storedTree_eq_some.1 hsome).1
  rw [buildFile_some hfile hsome, hw]
  have hcfg := @foldlM_const _ _ (fun g info => Prepare.buildCfg py file info g)
    ((g.withFile file).append w) file.functions fun info => h.buildCfg hparse info
  have hdfg := @foldlM_const _ _ (fun g info => Prepare.buildDfg py file info g)
    ((g.withFile file).append w) file.functions fun info => h.buildDfg hparse info
  show (do
    let g' ← file.functions.foldlM (fun g info => Prepare.buildCfg py file info g)
      ((g.withFile file).append w)
    file.functions.foldlM (fun g info => Prepare.buildDfg py file info g) g') = _
  rw [hcfg]
  exact hdfg

/-! ## Where the functions are found -/

/-- Every top-level function can be looked up. -/
def Reaches (g : CodePropertyGraph) (path : String) (tree : Node) : Prop :=
  ∀ function ∈ topLevelFunctions tree, ∃ i ∈ g.functionNodes, ∃ n, g.found i = some n
    ∧ n.name = some (nameOf function) ∧ n.file = path ∧ n.line = function.lineno

/-- The graph with more edges. -/
def CodePropertyGraph.withEdges (g : CodePropertyGraph) (extra : List CpgEdge) :
    CodePropertyGraph :=
  { g with edges := g.edges ++ extra }

lemma withEdges_nil (g : CodePropertyGraph) : g.withEdges [] = g := by
  cases g
  simp [CodePropertyGraph.withEdges]

lemma withEdges_withEdges (g : CodePropertyGraph) (extra extra' : List CpgEdge) :
    (g.withEdges extra).withEdges extra' = g.withEdges (extra ++ extra') := by
  simp only [CodePropertyGraph.withEdges, List.append_assoc]

/-- A search for a top-level function finds a node. -/
lemma Reaches.findNode_eq {g : CodePropertyGraph} {path : String} (h : Reaches g path tree)
    {function : Node} (hfunction : function ∈ topLevelFunctions tree) {p : CpgNode → Bool}
    (hp : ∀ n : CpgNode, n.name = some (nameOf function) → n.file = path →
      n.line = function.lineno → p n = true) :
    ∃ i ∈ g.functionNodes, findNode p g.functionNodes g = (g.indexed, some i) := by
  obtain ⟨i, hi, n, hn, hname, hpath, hline⟩ := h function hfunction
  have hany : (g.found i).any p = true := by
    rw [hn]
    exact hp n hname hpath hline
  obtain ⟨i', hfind⟩ : ∃ i', (g.functionNodes.find? fun i => (g.found i).any p) = some i' :=
    Option.isSome_iff_exists.1 (List.find?_isSome.2 ⟨i, hi, hany⟩)
  refine ⟨i', List.mem_of_find?_eq_some hfind, ?_⟩
  rw [Prepare.findNode_eq, hfind, if_neg (List.ne_nil_of_mem hi)]

/-- An entry of the control-flow pass. -/
lemma Reaches.buildCfg {g : CodePropertyGraph} (h : Reaches g file.path tree)
    (hne : g.functionNodes ≠ []) (hparse : py.parse file.source = .ok tree)
    (info : FunctionInfo) :
    buildCfg py file info g = .ok (g.indexed.withEdges (flowOf file.path tree info)) := by
  rw [Prepare.buildCfg, hparse, flowOf]
  simp only
  cases htop : topLevelFunction tree info with
  | none =>
      rw [Prepare.findNode_eq, if_neg hne]
      split
      · rename_i g' heq
        obtain ⟨rfl, -⟩ := Prod.mk.inj heq
        rw [withEdges_nil]
      · rename_i g' i heq
        obtain ⟨rfl, -⟩ := Prod.mk.inj heq
        rw [withEdges_nil]
  | some function =>
      obtain ⟨hfunction, hname, -⟩ := topLevelFunction_eq_some htop
      obtain ⟨i, -, hfind⟩ := h.findNode_eq hfunction
        (p := fun n => n.name = some info.name && n.file = file.path)
        (fun n hn hf _ => by simp [hn, hf, hname])
      rw [hfind]
      rfl

/-- The control-flow pass. -/
lemma Reaches.foldlM_buildCfg {g : CodePropertyGraph} (h : Reaches g file.path tree)
    (hne : g.functionNodes ≠ []) (hparse : py.parse file.source = .ok tree)
    {infos : List FunctionInfo} (hinfos : infos ≠ []) :
    infos.foldlM (fun g info => Prepare.buildCfg py file info g) g
      = .ok (g.indexed.withEdges (infos.flatMap (flowOf file.path tree))) := by
  induction infos generalizing g with
  | nil => exact absurd rfl hinfos
  | cons info rest ih =>
      rw [List.foldlM_cons, h.buildCfg hne hparse info]
      by_cases hrest : rest = []
      · subst hrest
        rw [List.flatMap_singleton]
        rfl
      · have hreach : Reaches (g.indexed.withEdges (flowOf file.path tree info)) file.path tree := h
        refine (ih hreach hne hrest).trans ?_
        simp [CodePropertyGraph.withEdges, CodePropertyGraph.indexed]

/-- The id that the data-flow pass finds for an entry. -/
def functionIdOf (index : Dict String CpgNode) (ids : List String) (path : String)
    (info : FunctionInfo) : String :=
  (ids.find? fun i => (index.get? i).any fun n : CpgNode =>
    n.name = some info.name && n.file = path && n.line = info.line).getD ""

/-- The parameter edges for an entry of the file. -/
def paramsOf (index : Dict String CpgNode) (ids : List String) (path : String) (tree : Node)
    (info : FunctionInfo) : List CpgEdge :=
  match topLevelFunction tree info with
  | none => []
  | some function => paramEdges path (functionIdOf index ids path info) function

/-- The graph after the body of an entry. -/
def bodyWalked (path : String) (tree : Node) (info : FunctionInfo) (g : CodePropertyGraph) :
    CodePropertyGraph :=
  match topLevelFunction tree info with
  | none => g
  | some function => ((function.children "body").foldl (walkDfgStmt path) (g, info.args)).1

lemma bodyWalked_appends (path : String) (tree : Node) (info : FunctionInfo)
    (g : CodePropertyGraph) : AppendsNames path g (bodyWalked path tree info g) := by
  rw [bodyWalked]
  split
  · exact .refl path g
  · exact walkDfgBody_appends (g, info.args) _

/-- An entry of the data-flow pass. -/
lemma Reaches.buildDfg {g : CodePropertyGraph} (h : Reaches g file.path tree)
    {index : Dict String CpgNode} (hindex : g.nodeIndex = some index)
    (hparse : py.parse file.source = .ok tree) (info : FunctionInfo) :
    buildDfg py file info g = .ok (bodyWalked file.path tree info
      (g.withEdges (paramsOf index g.functionNodes file.path tree info))) := by
  rw [Prepare.buildDfg, hparse, bodyWalked, paramsOf]
  simp only
  cases htop : topLevelFunction tree info with
  | none => rw [withEdges_nil]
  | some function =>
      obtain ⟨hfunction, hname, hline⟩ := topLevelFunction_eq_some htop
      obtain ⟨i, -, hfind⟩ := h.findNode_eq hfunction
        (p := fun n => n.name = some info.name && n.file = file.path && n.line = info.line)
        (fun n hn hf hl => by simp [hn, hf, hl, hname, hline])
      have hid : functionIdOf index g.functionNodes file.path info = i := by
        have hsnd := congrArg Prod.snd hfind
        rw [Prepare.findNode_eq] at hsnd
        simp only [CodePropertyGraph.found, hindex, Option.getD_some] at hsnd
        rw [functionIdOf, hsnd]
        rfl
      rw [hfind, indexed_of_some hindex, hid]
      rfl

lemma AppendsNames.withEdges {path : String} {g g' : CodePropertyGraph}
    (h : AppendsNames path g g') (extra : List CpgEdge) :
    AppendsNames path (g.withEdges extra) (g'.withEdges extra) where
  nodes := h.nodes
  edges := congrArg (· ++ extra) h.edges
  fileNodes := h.fileNodes
  functionNodes := h.functionNodes
  callNodes := h.callNodes
  index := h.index

/-- The functions are still found when names and parameters are added. -/
lemma Reaches.of_appends {g g' : CodePropertyGraph} (h : Reaches g file.path tree)
    {index : Dict String CpgNode} (hindex : g.nodeIndex = some index) {extra : List CpgEdge}
    (happends : AppendsNames file.path (g.withEdges extra) g') : Reaches g' file.path tree := by
  have hfound : ∀ i, g'.found i = g.found i := by
    intro i
    rw [CodePropertyGraph.found, CodePropertyGraph.found, happends.index index hindex, hindex]
    rfl
  intro function hfunction
  obtain ⟨i, hi, hn⟩ := h function hfunction
  exact ⟨i, by rw [happends.functionNodes]; exact hi, by rw [hfound]; exact hn⟩

/-- The data-flow pass. -/
lemma Reaches.foldlM_buildDfg {g : CodePropertyGraph} (h : Reaches g file.path tree)
    {index : Dict String CpgNode} (hindex : g.nodeIndex = some index)
    (hparse : py.parse file.source = .ok tree) (infos : List FunctionInfo) :
    ∃ g', infos.foldlM (fun g info => Prepare.buildDfg py file info g) g = .ok g'
      ∧ AppendsNames file.path
        (g.withEdges (infos.flatMap (paramsOf index g.functionNodes file.path tree))) g' := by
  induction infos generalizing g with
  | nil => exact ⟨g, rfl, by rw [List.flatMap_nil, withEdges_nil]; exact .refl _ g⟩
  | cons info rest ih =>
      rw [List.foldlM_cons, h.buildDfg hindex hparse info]
      have happends := bodyWalked_appends file.path tree info
        (g.withEdges (paramsOf index g.functionNodes file.path tree info))
      have hindex' := happends.index index hindex
      have hreach := h.of_appends hindex happends
      obtain ⟨g', hfold, hrest⟩ := ih hreach hindex'
      refine ⟨g', hfold, ?_⟩
      have hfirst := happends.withEdges
        (rest.flatMap (paramsOf index g.functionNodes file.path tree))
      rw [happends.functionNodes] at hrest
      rw [withEdges_withEdges, ← List.flatMap_cons] at hfirst
      exact hfirst.trans hrest

end Pass

end Sast.Prepare
