import Mathlib.Data.List.Find
import SastEngine.Prepare.Cpg.WellFormed

/-!
# What lookups see

`node_by_id` makes its index at the first call and keeps it.  Nodes that are added later are not
found, so that the functions of all files but the first one are missed and the data-flow pass adds
a node each time it meets a name.
-/

namespace Sast.Prepare

variable {py : PyInterpreter}

/-! ## Runs on a graph -/

/-- What is done to a graph. -/
inductive GraphOp where
  | add (n : CpgNode)
  | lookup (nodeId : String)

namespace GraphOp

def isAdd : GraphOp → Bool
  | add _ => true
  | lookup _ => false

/-- The node that is added. -/
def added : GraphOp → List CpgNode
  | add n => [n]
  | lookup _ => []

end GraphOp

namespace CodePropertyGraph

/-- The graph after an operation. -/
def step (g : CodePropertyGraph) : GraphOp → CodePropertyGraph
  | .add n => { g with nodes := g.nodes ++ [n] }
  | .lookup nodeId => (g.nodeById nodeId).1

/-- The graph after a run. -/
def run (g : CodePropertyGraph) (ops : List GraphOp) : CodePropertyGraph := ops.foldl step g

end CodePropertyGraph

/-- The last node with this id. -/
def lastNode (nodes : List CpgNode) (nodeId : String) : Option CpgNode :=
  nodes.reverse.find? fun n => n.id = nodeId

/-- Every lookup of the run answers with the last node of the id that is in the graph then. -/
def AnswersCurrent (g : CodePropertyGraph) (ops : List GraphOp) : Prop :=
  ∀ before nodeId after, ops = before ++ .lookup nodeId :: after →
    ((g.run before).nodeById nodeId).2 = lastNode (g.run before).nodes nodeId

/-- After the first lookup no other node is added under an id that is looked up later. -/
def NoneReplaced (g : CodePropertyGraph) (ops : List GraphOp) : Prop :=
  ∀ early first late nodeId after,
    ops = early ++ .lookup first :: (late ++ .lookup nodeId :: after) →
    (∀ op ∈ early, op.isAdd) →
    lastNode (late.flatMap GraphOp.added) nodeId = none
      ∨ lastNode (late.flatMap GraphOp.added) nodeId
        = lastNode (g.nodes ++ early.flatMap GraphOp.added) nodeId

lemma lastNode_append (nodes nodes' : List CpgNode) (nodeId : String) :
    lastNode (nodes ++ nodes') nodeId = (lastNode nodes' nodeId).or (lastNode nodes nodeId) := by
  rw [lastNode, List.reverse_append, List.find?_append]
  rfl

/-- A new index has the last node of each id. -/
lemma get?_indexOf (nodes : List CpgNode) (nodeId : String) :
    (CodePropertyGraph.indexOf nodes).get? nodeId = lastNode nodes nodeId := by
  induction nodes using List.reverseRecOn with
  | nil => rfl
  | append_singleton nodes n ih =>
      rw [indexOf_concat, Dict.get?_set, lastNode_append, ih]
      by_cases hid : nodeId = n.id
      · simp [lastNode, hid]
      · simp [lastNode, hid, Ne.symm hid]

section Runs

variable {g : CodePropertyGraph} {ops : List GraphOp}

lemma run_nodes (g : CodePropertyGraph) (ops : List GraphOp) :
    (g.run ops).nodes = g.nodes ++ ops.flatMap GraphOp.added := by
  induction ops generalizing g with
  | nil => exact (List.append_nil _).symm
  | cons op rest ih =>
      have hrest := ih (g.step op)
      rw [CodePropertyGraph.run, List.foldl_cons, ← CodePropertyGraph.run, hrest,
        List.flatMap_cons, ← List.append_assoc]
      cases op with
      | add n => rfl
      | lookup nodeId => simp [CodePropertyGraph.step, CodePropertyGraph.nodeById, GraphOp.added]

/-- Additions leave the index. -/
lemma nodeIndex_run_of_adds (h : ∀ op ∈ ops, op.isAdd) :
    (g.run ops).nodeIndex = g.nodeIndex := by
  induction ops generalizing g with
  | nil => rfl
  | cons op rest ih =>
      obtain ⟨hop, hrest⟩ := List.forall_mem_cons.1 h
      cases op with
      | add n => exact ih hrest
      | lookup nodeId => cases hop

/-- An index that is there stays. -/
lemma nodeIndex_run_of_some {index : Dict String CpgNode} (h : g.nodeIndex = some index) :
    (g.run ops).nodeIndex = some index := by
  induction ops generalizing g with
  | nil => exact h
  | cons op rest ih =>
      cases op with
      | add n => exact ih h
      | lookup nodeId =>
          refine ih ?_
          show g.indexed.nodeIndex = some index
          rw [indexed_of_some h, h]

/-- A run has no lookup, or a first one. -/
lemma adds_or_first (ops : List GraphOp) :
    (∀ op ∈ ops, op.isAdd) ∨ ∃ early first late, ops = early ++ .lookup first :: late
      ∧ ∀ op ∈ early, op.isAdd := by
  induction ops with
  | nil => exact Or.inl (by simp)
  | cons op rest ih =>
      cases op with
      | lookup first => exact Or.inr ⟨[], first, rest, rfl, by simp⟩
      | add n =>
          rcases ih with hadds | ⟨early, first, late, rfl, hadds⟩
          · exact Or.inl (List.forall_mem_cons.2 ⟨rfl, hadds⟩)
          · exact Or.inr ⟨.add n :: early, first, late, rfl, List.forall_mem_cons.2 ⟨rfl, hadds⟩⟩

/-- Up to the first lookup the answer is current. -/
lemma nodeById_run_of_adds (hfresh : g.nodeIndex = none) (h : ∀ op ∈ ops, op.isAdd)
    (nodeId : String) :
    ((g.run ops).nodeById nodeId).2 = lastNode (g.run ops).nodes nodeId := by
  rw [CodePropertyGraph.nodeById, nodeIndex_run_of_adds h, hfresh]
  exact get?_indexOf _ _

/-- After it the answer is that of the first lookup. -/
lemma nodeById_run_of_first (hfresh : g.nodeIndex = none) {early late : List GraphOp}
    (h : ∀ op ∈ early, op.isAdd) (first nodeId : String) :
    ((g.run (early ++ .lookup first :: late)).nodeById nodeId).2
      = lastNode (g.nodes ++ early.flatMap GraphOp.added) nodeId := by
  have hindex : ((g.run early).step (.lookup first)).nodeIndex
      = some (CodePropertyGraph.indexOf (g.run early).nodes) := by
    show some ((g.run early).nodeIndex.getD _) = _
    rw [nodeIndex_run_of_adds h, hfresh]
    rfl
  have hrun : g.run (early ++ .lookup first :: late)
      = ((g.run early).step (.lookup first)).run late := by
    rw [CodePropertyGraph.run, List.foldl_append]
    rfl
  rw [hrun, CodePropertyGraph.nodeById, nodeIndex_run_of_some hindex, ← run_nodes]
  exact get?_indexOf _ _

/-- A run answers from the current graph when no node is replaced. -/
lemma answersCurrent_iff_noneReplaced (hfresh : g.nodeIndex = none) (ops : List GraphOp) :
    AnswersCurrent g ops ↔ NoneReplaced g ops := by
  have hlater : ∀ {early late : List GraphOp} (first nodeId : String), (∀ op ∈ early, op.isAdd) →
      (((g.run (early ++ .lookup first :: late)).nodeById nodeId).2
          = lastNode (g.run (early ++ .lookup first :: late)).nodes nodeId
        ↔ lastNode (late.flatMap GraphOp.added) nodeId = none
          ∨ lastNode (late.flatMap GraphOp.added) nodeId
            = lastNode (g.nodes ++ early.flatMap GraphOp.added) nodeId) := by
    intro early late first nodeId hadds
    rw [nodeById_run_of_first hfresh hadds, run_nodes, List.flatMap_append, List.flatMap_cons,
      GraphOp.added, List.nil_append, ← List.append_assoc, lastNode_append _ (late.flatMap _)]
    cases lastNode (late.flatMap GraphOp.added) nodeId with
    | none => simp
    | some n => simp [eq_comm]
  constructor
  · intro h early first late nodeId after hops hadds
    exact (hlater first nodeId hadds).1 (h _ nodeId after (by rw [hops]; simp))
  · intro h before nodeId after hops
    rcases adds_or_first before with hadds | ⟨early, first, late, rfl, hadds⟩
    · exact nodeById_run_of_adds hfresh hadds nodeId
    · exact (hlater first nodeId hadds).2 (h early first late nodeId after (by simp [hops]) hadds)

end Runs

/-! ## The functions of the files -/

/-- When the builder comes to a file, it finds each of its top-level functions: these are the ones
whose flow it builds. -/
def FindsFunctions (py : PyInterpreter) (snapshot : ProjectSnapshot) : Prop :=
  ∀ before file after,
    (snapshot.files.filter fun file => file.error.isNone) = before ++ file :: after →
    ∀ g, before.foldlM (buildFile py) (.empty snapshot.projectId) = .ok g →
    ∀ tree, storedTree py file = some tree →
    ∀ w child, walkAst file.path (fileNode file).id 0 (astToDict tree) = .ok (w, child) →
      Reaches ((g.withFile file).append w) file.path tree

/-- No file with a top-level function comes after another one that shows a function. -/
def FunctionsComeFirst (py : PyInterpreter) (snapshot : ProjectSnapshot) : Prop :=
  ∀ file ∈ snapshot.files, ∀ tree, storedTree py file = some tree →
    topLevelFunctions tree ≠ [] → snapshot.files.find? (showsFunction py) = some file

lemma PreparedFiles.filter {files : List SourceFile} (h : PreparedFiles py files)
    (p : SourceFile → Bool) : PreparedFiles py (files.filter p) where
  parsed file hfile := h.parsed file (List.mem_filter.1 hfile).1
  python file hfile := h.python file (List.mem_filter.1 hfile).1
  distinct := h.distinct.sublist (List.filter_sublist.map _)

/-- The files that are left out show no function. -/
lemma find?_errorFree {files : List SourceFile} (hprep : PreparedFiles py files) :
    (files.filter fun file => file.error.isNone).find? (showsFunction py)
      = files.find? (showsFunction py) := by
  rw [List.find?_filter]
  refine List.find?_congr fun file hfile => ?_
  cases hstored : storedTree py file with
  | none => simp [showsFunction, hstored]
  | some tree =>
      have hnone := (ast_of_parsed (hprep.parsed file hfile)).2 (by rw [hstored]; rfl)
      simp [hnone]

/-- A file with a top-level function shows it. -/
lemma showsFunction_of_topLevel (hgram : py.ParsesGrammar) (hlays : py.LaysOut)
    {file : SourceFile} {tree : Node} (hsome : storedTree py file = some tree)
    (hne : topLevelFunctions tree ≠ []) : showsFunction py file = true := by
  obtain ⟨function, hfunction⟩ := List.exists_mem_of_ne_nil _ hne
  have hlaid := hlays _ _ (storedTree_eq_some.1 hsome).1
  rw [showsFunction, hsome]
  exact List.any_eq_true.2 ⟨_, topLevel_shown (hgram.stored hsome) hlaid hfunction,
    (mem_nodes_of_topLevel hfunction).2⟩

section Functions

variable {files before after : List SourceFile} {file : SourceFile} {g : CodePropertyGraph}
  {projectId : String} {tree : Node} {w : Walked} {child : Option String}

/-- The functions of the first file that shows one are found. -/
lemma reaches_of_first (hgram : py.ParsesGrammar) (hlays : py.LaysOut)
    (hprep : PreparedFiles py (before ++ file :: after))
    (hrun : before.foldlM (buildFile py) (.empty projectId) = .ok g)
    (hsome : storedTree py file = some tree)
    (hw : walkAst file.path (fileNode file).id 0 (astToDict tree) = .ok (w, child))
    (hfind : (before ++ file :: after).find? (showsFunction py) = some file) :
    Reaches ((g.withFile file).append w) file.path tree := by
  have hphase := phaseOf_run hgram hlays hprep.of_append hrun
  rw [List.append_cons] at hprep
  have hdone := hprep.of_append
  cases hbefore : before.find? (showsFunction py) with
  | none =>
      rw [PhaseOf, hbefore] at hphase
      exact hphase.reaches hgram hlays hdone hsome hw
  | some first =>
      rw [List.find?_append, hbefore] at hfind
      obtain rfl := Option.some.inj hfind
      have hdistinct := hdone.distinct
      rw [List.map_append, List.nodup_append] at hdistinct
      exact absurd rfl (hdistinct.2.2 _ (List.mem_map_of_mem (List.mem_of_find?_eq_some hbefore))
        _ List.mem_cons_self)

/-- Where functions are found, no earlier file shows one. -/
lemma find?_eq_none_of_reaches (hgram : py.ParsesGrammar) (hlays : py.LaysOut)
    (hprep : PreparedFiles py (before ++ file :: after))
    (hrun : before.foldlM (buildFile py) (.empty projectId) = .ok g)
    (hreach : Reaches ((g.withFile file).append w) file.path tree)
    (hne : topLevelFunctions tree ≠ []) : before.find? (showsFunction py) = none := by
  have hphase := phaseOf_run hgram hlays hprep.of_append hrun
  cases hbefore : before.find? (showsFunction py) with
  | none => rfl
  | some first =>
      rw [PhaseOf, hbefore] at hphase
      obtain ⟨_, _, _, _, _, _, -, -, hafter⟩ := hphase
      obtain ⟨index, hindex, hseen⟩ := hafter.index
      obtain ⟨function, hfunction⟩ := List.exists_mem_of_ne_nil _ hne
      obtain ⟨i, -, n, hfound, -, hpath, -⟩ := hreach function hfunction
      have hindex' : ((g.withFile file).append w).nodeIndex = some index := hindex
      rw [CodePropertyGraph.found, hindex'] at hfound
      obtain ⟨earlier, hearlier, hsame⟩ := hseen i n hfound
      have hdistinct := hprep.distinct
      rw [List.map_append, List.nodup_append] at hdistinct
      exact absurd (hsame.symm.trans hpath)
        (hdistinct.2.2 _ (List.mem_map_of_mem hearlier) _ List.mem_cons_self)

end Functions

/-- The builder finds the functions when they come first. -/
lemma findsFunctions_iff_comeFirst (hgram : py.ParsesGrammar) (hlays : py.LaysOut)
    {snapshot : ProjectSnapshot} (hprep : PreparedFiles py snapshot.files)
    {graph : CodePropertyGraph} (hbuild : buildGraph py snapshot = .ok graph) :
    FindsFunctions py snapshot ↔ FunctionsComeFirst py snapshot := by
  have hfiles := hprep.filter fun file => file.error.isNone
  constructor
  · intro hfinds file hfile tree hsome hne
    have hnone := (ast_of_parsed (hprep.parsed file hfile)).2 (by rw [hsome]; rfl)
    obtain ⟨before, after, hsplit⟩ := List.append_of_mem
      (List.mem_filter.2 ⟨hfile, by simp [hnone]⟩ :
        file ∈ snapshot.files.filter fun file => file.error.isNone)
    obtain ⟨g', hg', -⟩ := buildGraph_eq_ok.1 hbuild
    rw [hsplit, List.foldlM_append, bind_eq_ok] at hg'
    obtain ⟨g, hrun, hrest⟩ := hg'
    rw [List.foldlM_cons, bind_eq_ok] at hrest
    obtain ⟨g₁, hfirst, -⟩ := hrest
    obtain ⟨w, child, hw, -⟩ := walkAst_of_buildFile (hprep.parsed file hfile) hsome hfirst
    have hreach := hfinds before file after hsplit g hrun tree hsome w child hw
    rw [hsplit] at hfiles
    have hbefore := find?_eq_none_of_reaches hgram hlays hfiles hrun hreach hne
    rw [← find?_errorFree hprep, hsplit, List.find?_append, hbefore, List.find?_cons,
      showsFunction_of_topLevel hgram hlays hsome hne]
    rfl
  · intro hfirst before file after hsplit g hrun tree hsome w child hw function hfunction
    have hfile : file ∈ snapshot.files := by
      have hmem : file ∈ snapshot.files.filter fun file => file.error.isNone := by
        rw [hsplit]
        simp
      exact (List.mem_filter.1 hmem).1
    have hfind := hfirst file hfile tree hsome (List.ne_nil_of_mem hfunction)
    rw [← find?_errorFree hprep, hsplit] at hfind
    rw [hsplit] at hfiles
    exact reaches_of_first hgram hlays hfiles hrun hsome hw hfind function hfunction

/-! ## The nodes of the data-flow pass -/

/-- The data-flow pass adds no node under an id that is there. -/
def AddsOnce (graph : CodePropertyGraph) : Prop :=
  ∀ path nodeId, FlowId path nodeId → graph.ids.count nodeId ≤ 1

/-- In the first file that shows a function no name is assigned, or read in scope, twice in a
line. -/
def NamesOnce (py : PyInterpreter) (snapshot : ProjectSnapshot) : Prop :=
  ∀ file, snapshot.files.find? (showsFunction py) = some file →
    ∀ tree, storedTree py file = some tree →
      (file.functions.flatMap (entryIds file.path tree)).Nodup

/-- The ids of the data-flow pass are added once when the names are met once. -/
lemma addsOnce_iff_namesOnce (hgram : py.ParsesGrammar) (hlays : py.LaysOut)
    {snapshot : ProjectSnapshot} (hprep : PreparedFiles py snapshot.files)
    {graph : CodePropertyGraph} (hbuild : buildGraph py snapshot = .ok graph) :
    AddsOnce graph ↔ NamesOnce py snapshot := by
  have hcount : ∀ {flow names}, Made py snapshot.files flow names graph →
      (∀ i ∈ names, ∃ path, FlowId path i) → (AddsOnce graph ↔ names.Nodup) := by
    intro flow names hmade hnames
    rw [List.nodup_iff_count_le_one]
    constructor
    · intro honce i
      by_cases hi : i ∈ names
      · obtain ⟨path, hid⟩ := hnames i hi
        have hle := honce path i hid
        rw [hmade.ids.count_eq, List.count_append] at hle
        exact (Nat.le_add_left _ _).trans hle
      · rw [List.count_eq_zero_of_not_mem hi]
        exact Nat.zero_le 1
    · intro honce path i hid
      have hnew : i ∉ snapshot.files.flatMap (treeIds py) := fun hi =>
        disjoint_names hprep (List.forall_mem_singleton.2 ⟨path, hid⟩) hi
          (List.mem_singleton_self i)
      rw [hmade.ids.count_eq, List.count_append, List.count_eq_zero_of_not_mem hnew, Nat.zero_add]
      exact honce i
  have hmade := madeOf_buildGraph hgram hlays hprep hbuild
  rw [MadeOf] at hmade
  cases hfind : snapshot.files.find? (showsFunction py) with
  | none =>
      rw [hfind] at hmade
      refine ⟨fun _ file hfile => ?_, fun _ => (hcount hmade (by simp)).2 List.nodup_nil⟩
      rw [hfind] at hfile
      cases hfile
  | some file =>
      rw [hfind] at hmade
      obtain ⟨tree, params, names, g₁, g₂, index, hsome, hpasses, hmade⟩ := hmade
      rw [hcount hmade hpasses.flowIds, hpasses.names_eq_entryIds hsome]
      constructor
      · intro hnodup file' hfind' tree' hsome'
        obtain rfl := Option.some.inj (hfind.symm.trans hfind')
        obtain rfl := Option.some.inj (hsome.symm.trans hsome')
        exact hnodup
      · intro honce
        exact honce file hfind tree hsome

/-! ## The current graph -/

/-- **A graph answers from its current nodes as long as no node is replaced, and the builder finds
the functions, and adds each name once, exactly where no lookup comes too late.** -/
theorem seesCurrent_iff (hgram : py.ParsesGrammar) (hlays : py.LaysOut)
    {snapshot : ProjectSnapshot} (hprep : PreparedFiles py snapshot.files)
    {graph : CodePropertyGraph} (hbuild : buildGraph py snapshot = .ok graph) :
    (∀ g ops, g.nodeIndex = none → (AnswersCurrent g ops ↔ NoneReplaced g ops))
      ∧ (FindsFunctions py snapshot ↔ FunctionsComeFirst py snapshot)
      ∧ (AddsOnce graph ↔ NamesOnce py snapshot) :=
  ⟨fun _ ops hfresh => answersCurrent_iff_noneReplaced hfresh ops,
    findsFunctions_iff_comeFirst hgram hlays hprep hbuild,
    addsOnce_iff_namesOnce hgram hlays hprep hbuild⟩

/-- A snapshot of one file with one assignment. -/
theorem seesCurrent_plain :
    (∀ g ops, g.nodeIndex = none → (AnswersCurrent g ops ↔ NoneReplaced g ops))
      ∧ (FindsFunctions (readsOnly plainText plainTree)
          (soleSnapshot (readsOnly plainText plainTree) plainText)
        ↔ FunctionsComeFirst (readsOnly plainText plainTree)
          (soleSnapshot (readsOnly plainText plainTree) plainText))
      ∧ (AddsOnce (soleGraph (readsOnly plainText plainTree) plainText)
        ↔ NamesOnce (readsOnly plainText plainTree)
          (soleSnapshot (readsOnly plainText plainTree) plainText)) :=
  seesCurrent_iff (readsOnly_parsesGrammar _ plainTree_grammatical)
    (readsOnly_laysOut _ plainTree_laidOut)
    (preparedFiles_sole _ (readsOnly_parse plainText plainTree)) rfl

/-! ## Two files -/

/-- `x` is assigned in the second line. -/
def assignNode (value : Int) : Node :=
  .mk "Assign" (some 2) (some 2)
    [("targets", .list [.node (.mk "Name" (some 2) (some 2)
        [("id", .constant (.str "x")), ("ctx", .node (.mk "Store" none none []))])]),
      ("value", .node (.mk "Constant" (some 2) (some 2)
        [("value", .constant (.int value)), ("kind", .constant .none)])),
      ("type_comment", .constant .none)]

/-- The tree of a function that assigns `x` twice. -/
def twiceTree : Node := moduleNode [functionNode "f" 1 2 [assignNode 1, assignNode 2]]

/-- The text of this tree. -/
def twiceText : String := "def f():\n    x = 1; x = 2\n"

lemma twiceTree_grammatical : twiceTree.Grammatical :=
  grammatical_of_forall rfl rfl (by decide) (by decide)

lemma twiceTree_laidOut : twiceTree.LaidOut where
  compounds := by decide
  oneBlock := eq_of_blocks (by decide)
  function := by decide
  import_ := by decide
  loop := by decide
  try_ := by decide
  identifier := identifier_of_x (by decide)

/-- The interpreter that reads this text. -/
def readsTwice : PyInterpreter := readsOnly twiceText twiceTree

/-- A file with this text. -/
def twiceFile (path : String) : SourceFile :=
  (parseFile readsTwice path twiceText).toOption.getD (unparsedFile readsTwice path twiceText)

/-- The snapshot of a repository with two such files. -/
def twiceSnapshot : ProjectSnapshot :=
  buildSnapshot ⟨"r", .directory, "/r"⟩ "p" ⟨0, some 0⟩
    ⟨["a.py", "b.py"], twiceText.utf8ByteSize + twiceText.utf8ByteSize, [], []⟩
    [twiceFile "a.py", twiceFile "b.py"]

/-- The graph of this snapshot. -/
def twiceGraph : CodePropertyGraph :=
  (buildGraph readsTwice twiceSnapshot).toOption.getD (.empty "p")

lemma parseFile_twice (path : String) :
    parseFile readsTwice path twiceText = .ok (twiceFile path) := by
  have hparse : readsTwice.parse twiceText = .ok twiceTree := readsOnly_parse _ _
  rw [twiceFile, parseFile, hparse]
  rfl

lemma preparedFiles_twice : PreparedFiles readsTwice twiceSnapshot.files := by
  have hfile : ∀ file ∈ twiceSnapshot.files, ∃ path ∈ ["a.py", "b.py"], file = twiceFile path := by
    rintro file (_ | ⟨_, _ | ⟨_, hfile⟩⟩)
    · exact ⟨"a.py", by simp, rfl⟩
    · exact ⟨"b.py", by simp, rfl⟩
    · cases hfile
  refine ⟨fun file hmem => ?_, fun file hmem => ?_, ?_⟩
  · obtain ⟨path, -, rfl⟩ := hfile file hmem
    obtain ⟨hpath, hsource⟩ := parseFile_path (parseFile_twice path)
    rw [hpath, hsource]
    exact parseFile_twice path
  · obtain ⟨path, hpython, rfl⟩ := hfile file hmem
    have hall : ∀ path ∈ ["a.py", "b.py"], endswith ".py" path = true := by decide
    rw [(parseFile_path (parseFile_twice path)).1]
    exact hall path hpython
  · show [(twiceFile "a.py").path, (twiceFile "b.py").path].Nodup
    rw [(parseFile_path (parseFile_twice _)).1, (parseFile_path (parseFile_twice _)).1]
    decide

/-- **A lookup after an addition misses the new node; of two files with the same function the
second one's is not found, and its name is added twice.** -/
theorem not_seesCurrent_twice :
    ¬ AnswersCurrent (.empty "p") [.lookup "a", .add ⟨"a", .name, "a.py", 1, none, none, none⟩,
        .lookup "a"]
      ∧ readsTwice.ParsesGrammar ∧ readsTwice.LaysOut
      ∧ PreparedFiles readsTwice twiceSnapshot.files
      ∧ buildGraph readsTwice twiceSnapshot = .ok twiceGraph
      ∧ ¬ FindsFunctions readsTwice twiceSnapshot ∧ ¬ AddsOnce twiceGraph := by
  have hgram := readsOnly_parsesGrammar twiceText twiceTree_grammatical
  have hlays := readsOnly_laysOut twiceText twiceTree_laidOut
  have hbuild : buildGraph readsTwice twiceSnapshot = .ok twiceGraph := rfl
  refine ⟨fun hcurrent => ?_, hgram, hlays, preparedFiles_twice, hbuild, fun hfinds => ?_,
    fun honce => ?_⟩
  · have hanswer := hcurrent
      [.lookup "a", .add ⟨"a", .name, "a.py", 1, none, none, none⟩] "a" [] rfl
    revert hanswer
    decide
  · have hfirst := (findsFunctions_iff_comeFirst hgram hlays preparedFiles_twice hbuild).1 hfinds
    have hsome : storedTree readsTwice (twiceFile "b.py") = some twiceTree := rfl
    have hfind := hfirst (twiceFile "b.py") (.tail _ (.head _)) twiceTree hsome (by decide)
    have hother : twiceSnapshot.files.find? (showsFunction readsTwice) = some (twiceFile "a.py") :=
      rfl
    have hpath := congrArg SourceFile.path (Option.some.inj (hother.symm.trans hfind))
    rw [(parseFile_path (parseFile_twice _)).1, (parseFile_path (parseFile_twice _)).1] at hpath
    exact absurd hpath (by decide)
  · have hcount := honce "a.py" (defId "a.py" "x" 2) ⟨"x", 2, Or.inl rfl⟩
    revert hcount
    decide +kernel

end Sast.Prepare
