import SastEngine.Prepare.Cpg.FirstFile

/-!
# The loop over the files

Before the first file that shows a function there is no index and no function; in that file the
index is made; after it the index has only nodes of earlier files.  What holds of the graph in
each of the three phases is kept by one more file.
-/

namespace Sast.Prepare

variable {py : PyInterpreter}

/-! ## What holds of every graph -/

/-- What the loop has made of the files so far, where `flow` and `names` are the edges and the ids
of the flow passes. -/
structure Made (py : PyInterpreter) (done : List SourceFile) (flow : List CpgEdge)
    (names : List String) (g : CodePropertyGraph) : Prop where
  ids : g.ids.Perm (done.flatMap (treeIds py) ++ names)
  edges : ∀ e ∈ g.edges, e.edgeType ∈ astEdgeTypes ∧ e.src ∈ g.ids ∧ e.dst ∈ g.ids ∨ e ∈ flow
  flow_mem : ∀ e ∈ flow, e ∈ g.edges
  fileNodes : ∀ i ∈ g.fileNodes, i ∈ idsOfKind .file g.nodes
  functionNodes : ∀ i ∈ g.functionNodes, i ∈ idsOfKind .function g.nodes
  callNodes : ∀ i ∈ g.callNodes, i ∈ idsOfKind .call g.nodes

section Made

variable {done : List SourceFile} {flow : List CpgEdge} {names : List String}
  {g : CodePropertyGraph}

lemma Made.empty (projectId : String) : Made py [] [] [] (.empty projectId) where
  ids := List.Perm.refl _
  edges := by simp [CodePropertyGraph.empty]
  flow_mem := by simp
  fileNodes := by simp [CodePropertyGraph.empty]
  functionNodes := by simp [CodePropertyGraph.empty]
  callNodes := by simp [CodePropertyGraph.empty]

lemma Made.skip (h : Made py done flow names g) {file : SourceFile}
    (hnone : storedTree py file = none) : Made py (done ++ [file]) flow names g where
  ids := by
    rw [List.flatMap_append, List.flatMap_singleton, treeIds, hnone, List.append_nil]
    exact h.ids
  edges := h.edges
  flow_mem := h.flow_mem
  fileNodes := h.fileNodes
  functionNodes := h.functionNodes
  callNodes := h.callNodes

/-- The ids after a file and its tree. -/
lemma ids_withFile_append (g : CodePropertyGraph) (file : SourceFile) (w : Walked) :
    ((g.withFile file).append w).ids = g.ids ++ (fileNode file).id :: w.ids := by
  simp [CodePropertyGraph.ids, CodePropertyGraph.append, CodePropertyGraph.withFile, Walked.ids]

lemma walked_treeIds (hgram : py.ParsesGrammar) {file : SourceFile} {tree : Node}
    (hsome : storedTree py file = some tree) {w : Walked} {child : Option String}
    (hw : walkAst file.path (fileNode file).id 0 (astToDict tree) = .ok (w, child)) :
    (fileNode file).id :: w.ids = treeIds py file := by
  rw [treeIds, hsome, Walked.ids, tree.walked_nodes file.path (hgram.stored hsome).regular hw,
    List.map_map]
  rfl

lemma Made.addFile (h : Made py done flow names g) (hgram : py.ParsesGrammar) {file : SourceFile}
    {tree : Node} (hsome : storedTree py file = some tree) {w : Walked} {child : Option String}
    (hw : walkAst file.path (fileNode file).id 0 (astToDict tree) = .ok (w, child)) :
    Made py (done ++ [file]) flow names ((g.withFile file).append w) := by
  have hclosed := (walkAst_closed file.path (astToDict tree) hw).1
  have hold : ∀ i ∈ g.ids, i ∈ ((g.withFile file).append w).ids := fun i hi => by
    rw [ids_withFile_append]
    exact List.mem_append_left _ hi
  have hnew : ∀ i, i = (fileNode file).id ∨ i ∈ w.ids →
      i ∈ ((g.withFile file).append w).ids := fun i hi => by
    rw [ids_withFile_append]
    exact List.mem_append_right _ (List.mem_cons.2 hi)
  have hkind : ∀ kind i, i ∈ idsOfKind kind g.nodes →
      i ∈ idsOfKind kind ((g.withFile file).append w).nodes := fun kind i hi => by
    obtain ⟨n, hn, hid⟩ := mem_idsOfKind.1 hi
    exact mem_idsOfKind.2 ⟨n, List.mem_append_left _ (List.mem_append_left _ hn), hid⟩
  have hwalked : ∀ kind i, i ∈ idsOfKind kind w.nodes →
      i ∈ idsOfKind kind ((g.withFile file).append w).nodes := fun kind i hi => by
    obtain ⟨n, hn, hid⟩ := mem_idsOfKind.1 hi
    exact mem_idsOfKind.2 ⟨n, List.mem_append_right _ hn, hid⟩
  constructor
  · rw [ids_withFile_append, walked_treeIds hgram hsome hw, List.flatMap_append,
      List.flatMap_singleton]
    refine (h.ids.append_right _).trans ?_
    rw [List.append_assoc, List.append_assoc]
    exact List.perm_append_comm.append_left _
  · intro e he
    rcases List.mem_append.1 he with he | he
    · rcases h.edges e he with ⟨htype, hsrc, hdst⟩ | hflow
      · exact Or.inl ⟨htype, hold _ hsrc, hold _ hdst⟩
      · exact Or.inr hflow
    · exact Or.inl ⟨hclosed.edgeType e he, hnew _ (hclosed.src e he), hnew _ (hclosed.dst e he)⟩
  · exact fun e he => List.mem_append_left _ (h.flow_mem e he)
  · intro i hi
    rcases List.mem_append.1 hi with hi | hi
    · exact hkind _ i (h.fileNodes i hi)
    · obtain rfl := List.mem_singleton.1 hi
      exact mem_idsOfKind.2 ⟨fileNode file, List.mem_append_left _
        (List.mem_append_right _ List.mem_cons_self), rfl, rfl⟩
  · intro i hi
    rcases List.mem_append.1 hi with hi | hi
    · exact hkind _ i (h.functionNodes i hi)
    · exact hwalked _ i (hclosed.functionNodes ▸ hi)
  · intro i hi
    rcases List.mem_append.1 hi with hi | hi
    · exact hkind _ i (h.callNodes i hi)
    · exact hwalked _ i (hclosed.callNodes ▸ hi)

/-- The flow passes of a file add their edges and the ids of their names. -/
lemma Made.addFlow (h : Made py done [] [] g) {path : String} {g' : CodePropertyGraph}
    (happends : AppendsNames path (g.indexed.withEdges flow) g') {extra : List CpgNode}
    (hextra : g'.nodes = g.nodes ++ extra) :
    Made py done flow (extra.map CpgNode.id) g' := by
  have hids : g'.ids = g.ids ++ extra.map CpgNode.id := by
    rw [CodePropertyGraph.ids, hextra, List.map_append]
    rfl
  have hkind : ∀ kind i, i ∈ idsOfKind kind g.nodes → i ∈ idsOfKind kind g'.nodes := by
    intro kind i hi
    obtain ⟨n, hn, hid⟩ := mem_idsOfKind.1 hi
    exact mem_idsOfKind.2 ⟨n, hextra ▸ List.mem_append_left _ hn, hid⟩
  have hedges : g'.edges = g.edges ++ flow := happends.edges
  constructor
  · rw [hids]
    have hperm := h.ids
    rw [List.append_nil] at hperm
    exact hperm.append_right _
  · intro e he
    rw [hedges] at he
    rcases List.mem_append.1 he with he | he
    · rcases h.edges e he with ⟨htype, hsrc, hdst⟩ | hnil
      · refine Or.inl ⟨htype, ?_, ?_⟩
        · rw [hids]
          exact List.mem_append_left _ hsrc
        · rw [hids]
          exact List.mem_append_left _ hdst
      · cases hnil
    · exact Or.inr he
  · intro e he
    rw [hedges]
    exact List.mem_append_right _ he
  · intro i hi
    rw [happends.fileNodes] at hi
    exact hkind _ i (h.fileNodes i hi)
  · intro i hi
    rw [happends.functionNodes] at hi
    exact hkind _ i (h.functionNodes i hi)
  · intro i hi
    rw [happends.callNodes] at hi
    exact hkind _ i (h.callNodes i hi)

end Made

/-! ## Nodes that stand for trees -/

/-- A node of a file or of its tree. -/
def TreeNode (py : PyInterpreter) (done : List SourceFile) (n : CpgNode) : Prop :=
  ∃ file ∈ done, n = fileNode file
    ∨ ∃ tree, storedTree py file = some tree ∧ ∃ p ∈ tree.shown 0, n = shownNode file.path p

lemma TreeNode.mono {done done' : List SourceFile} (hsub : ∀ file ∈ done, file ∈ done')
    {n : CpgNode} (h : TreeNode py done n) : TreeNode py done' n := by
  obtain ⟨file, hfile, hn⟩ := h
  exact ⟨file, hsub file hfile, hn⟩

lemma TreeNode.file_mem {done : List SourceFile} {n : CpgNode} (h : TreeNode py done n) :
    ∃ file ∈ done, n.file = file.path := by
  obtain ⟨file, hfile, rfl | ⟨tree, -, p, -, rfl⟩⟩ := h
  · exact ⟨file, hfile, rfl⟩
  · exact ⟨file, hfile, rfl⟩

/-- The data-flow pass uses other ids. -/
lemma TreeNode.not_flowId {done : List SourceFile} (hprep : PreparedFiles py done) {n : CpgNode}
    (h : TreeNode py done n) {path : String} : ¬ FlowId path n.id := by
  intro hid
  obtain ⟨file, hfile, rfl | ⟨tree, -, p, -, rfl⟩⟩ := h
  · exact hid.ne_fileNode_id (hprep.python file hfile) rfl
  · exact hid.ne_astId _ _ _ _ rfl

/-- The nodes of a tree come from its nodes, and all but the module have a line number. -/
lemma mem_of_shown {tree : Node} (htree : tree.Grammatical) {p : Node × Nat}
    (h : p ∈ tree.shown 0) : p.1 ∈ tree.nodes ∧ (p.1.cls = "Module" ∨ p.1.lineno?.isSome) := by
  rw [shown_of_grammatical htree] at h
  rcases List.mem_cons.1 h with rfl | h
  · exact ⟨mem_nodes_self _, Or.inl htree.cls⟩
  · have hplaced := (fieldsShown_sublist tree.fields htree.inner 1).subset h
    exact ⟨mem_nodes_of_mem_fields (mem_of_fieldsPlaced tree.fields hplaced),
      Or.inr (lineno_of_fieldsPlaced tree.fields hplaced)⟩

/-- The node with the id of a top-level function stands for that function. -/
lemma eq_of_topLevel_id (hgram : py.ParsesGrammar) {done : List SourceFile}
    (hprep : PreparedFiles py done) {file : SourceFile} (hfile : file ∈ done) {tree : Node}
    (hsome : storedTree py file = some tree) (hlaid : tree.LaidOut) {function : Node}
    (hfunction : function ∈ topLevelFunctions tree) {n : CpgNode} (hn : TreeNode py done n)
    (hid : n.id = treeId file.path (function, 1)) : n = shownNode file.path (function, 1) := by
  have htree := hgram.stored hsome
  obtain ⟨hmem, hfun⟩ := mem_nodes_of_topLevel hfunction
  have hcolon := (htree.regular function hmem).colon
  obtain ⟨file', hfile', rfl | ⟨tree', hsome', ⟨m, depth⟩, hp, rfl⟩⟩ := hn
  · exact absurd hid (fileNode_id_ne_astId (hprep.python file' hfile') _ _ _ _)
  · have htree' := hgram.stored hsome'
    obtain ⟨hm, hline⟩ := mem_of_shown htree' hp
    obtain ⟨hpath, hcls, hlineno, rfl⟩ :=
      astId_inj (htree'.regular m hm).colon hcolon hid
    obtain rfl := List.inj_on_of_nodup_map hprep.distinct hfile' hfile hpath
    obtain rfl := Option.some.inj (hsome.symm.trans hsome')
    have hfun' : isFunctionDef m := by
      rw [isFunctionDef_iff, hcls, ← isFunctionDef_iff]
      exact hfun
    have hsame : m = function := by
      refine hlaid.eq_of_lineno hm hmem (isFunctionDef_compound hfun')
        (isFunctionDef_compound hfun) ?_
      obtain ⟨l, hl⟩ := Option.isSome_iff_exists.1 (hlaid.function m hm hfun').1
      obtain ⟨l', hl'⟩ := Option.isSome_iff_exists.1 (hlaid.function function hmem hfun).1
      rw [hl, hl'] at hlineno
      rw [lineno_eq hl, lineno_eq hl']
      exact hlineno
    rw [hsame]

/-! ## The index -/

lemma indexOf_concat (nodes : List CpgNode) (n : CpgNode) :
    CodePropertyGraph.indexOf (nodes ++ [n]) = (CodePropertyGraph.indexOf nodes).set n.id n :=
  List.foldl_concat _ _ _ _

/-- The index has only nodes, under their ids. -/
lemma mem_of_get?_indexOf {nodes : List CpgNode} {i : String} {n : CpgNode}
    (h : (CodePropertyGraph.indexOf nodes).get? i = some n) : n ∈ nodes ∧ n.id = i := by
  induction nodes using List.reverseRecOn with
  | nil => cases h
  | append_singleton nodes m ih =>
      rw [indexOf_concat, Dict.get?_set] at h
      split_ifs at h with hid
      · obtain rfl := Option.some.inj h
        exact ⟨List.mem_append_right _ List.mem_cons_self, hid.symm⟩
      · obtain ⟨hn, hni⟩ := ih h
        exact ⟨List.mem_append_left _ hn, hni⟩

/-- Every id is in the index. -/
lemma get?_indexOf_of_mem {nodes : List CpgNode} {n : CpgNode} (h : n ∈ nodes) :
    ∃ m, (CodePropertyGraph.indexOf nodes).get? n.id = some m := by
  induction nodes using List.reverseRecOn with
  | nil => cases h
  | append_singleton nodes m ih =>
      rw [indexOf_concat, Dict.get?_set]
      split_ifs with hid
      · exact ⟨m, rfl⟩
      · rcases List.mem_append.1 h with h | h
        · exact ih h
        · obtain rfl := List.mem_singleton.1 h
          exact absurd rfl hid

/-! ## The three phases -/

/-- Before the first file that shows a function. -/
structure Before (py : PyInterpreter) (done : List SourceFile) (g : CodePropertyGraph) :
    Prop where
  made : Made py done [] [] g
  nodes : ∀ n ∈ g.nodes, TreeNode py done n
  index : g.nodeIndex = none
  functionNodes : g.functionNodes = []

/-- From this file on. -/
structure After (py : PyInterpreter) (done : List SourceFile) (flow : List CpgEdge)
    (names : List String) (g : CodePropertyGraph) : Prop where
  made : Made py done flow names g
  index : ∃ index, g.nodeIndex = some index
    ∧ ∀ i n, index.get? i = some n → ∃ file ∈ done, n.file = file.path

/-- The flow passes of a file whose functions are found. -/
structure FlowPasses (py : PyInterpreter) (file : SourceFile) (tree : Node)
    (params : List CpgEdge) (names : List String) (g g' : CodePropertyGraph)
    (index : Dict String CpgNode) : Prop where
  index_eq : g.nodeIndex = some index
  noNames : ∀ i, FlowId file.path i → index.get? i = none
  reaches : Reaches g file.path tree
  pass : file.functions.foldlM (fun g info => buildDfg py file info g) g = .ok g'
  params_eq : params = file.functions.flatMap (paramsOf index g.functionNodes file.path tree)
  names_eq : ∃ extra, g'.nodes = g.nodes ++ extra ∧ names = extra.map CpgNode.id
    ∧ ∀ i ∈ names, FlowId file.path i

lemma ite_ne {c : Prop} [Decidable c] {a b kind : CpgNodeKind} (ha : a ≠ kind) (hb : b ≠ kind) :
    (if c then a else b) ≠ kind := by
  by_cases h : c
  · rwa [if_pos h]
  · rwa [if_neg h]

lemma isFunctionDef_iff_kind {n : Node} : isFunctionDef n ↔ nodeKind n.cls = .function := by
  rw [isFunctionDef_iff]
  constructor
  · rintro (hcls | hcls)
    · rw [hcls]
      decide
    · rw [hcls]
      decide
  · intro hkind
    by_contra hne
    refine absurd hkind ?_
    rw [nodeKind]
    refine ite_ne (by decide) ?_
    rw [if_neg hne]
    repeat refine ite_ne (by decide) ?_
    decide

/-- The functions that are registered for a tree. -/
lemma functionNodes_eq_nil_iff (hgram : py.ParsesGrammar) {file : SourceFile} {tree : Node}
    (hsome : storedTree py file = some tree) {w : Walked} {child : Option String}
    (hw : walkAst file.path (fileNode file).id 0 (astToDict tree) = .ok (w, child)) :
    w.functionNodes = [] ↔ showsFunction py file = false := by
  have hclosed := (walkAst_closed file.path (astToDict tree) hw).1
  rw [hclosed.functionNodes, tree.walked_nodes file.path (hgram.stored hsome).regular hw,
    showsFunction, hsome, idsOfKind, List.map_eq_nil_iff, List.filter_eq_nil_iff]
  simp only [List.any_eq_false]
  constructor
  · intro h p hp hfun
    exact h (shownNode file.path p) (List.mem_map_of_mem hp)
      (decide_eq_true (isFunctionDef_iff_kind.1 hfun))
  · intro h n hn hkind
    obtain ⟨p, hp, rfl⟩ := List.mem_map.1 hn
    exact h p hp (isFunctionDef_iff_kind.2 (of_decide_eq_true hkind))

lemma nodes_append {done : List SourceFile} {g : CodePropertyGraph}
    (hnodes : ∀ n ∈ g.nodes, TreeNode py done n) (hgram : py.ParsesGrammar) {file : SourceFile}
    {tree : Node} (hsome : storedTree py file = some tree) {w : Walked} {child : Option String}
    (hw : walkAst file.path (fileNode file).id 0 (astToDict tree) = .ok (w, child)) :
    ∀ n ∈ ((g.withFile file).append w).nodes, TreeNode py (done ++ [file]) n := by
  have hfile : file ∈ done ++ [file] := List.mem_append_right _ List.mem_cons_self
  intro n hn
  rcases List.mem_append.1 hn with hn | hn
  · rcases List.mem_append.1 hn with hn | hn
    · exact (hnodes n hn).mono fun _ => List.mem_append_left _
    · exact ⟨file, hfile, Or.inl (List.mem_singleton.1 hn)⟩
  · rw [tree.walked_nodes file.path (hgram.stored hsome).regular hw] at hn
    obtain ⟨p, hp, rfl⟩ := List.mem_map.1 hn
    exact ⟨file, hfile, Or.inr ⟨tree, hsome, p, hp, rfl⟩⟩

section Phases

variable {done : List SourceFile} {g g' : CodePropertyGraph} {file : SourceFile}

/-- A file without functions leaves the first phase as it is. -/
lemma Before.step (h : Before py done g) (hgram : py.ParsesGrammar)
    (hfile : parseFile py file.path file.source = .ok file)
    (hshows : showsFunction py file = false) (hbuild : buildFile py g file = .ok g') :
    Before py (done ++ [file]) g' := by
  cases hstored : storedTree py file with
  | none =>
      rw [buildFile_none hfile hstored] at hbuild
      obtain rfl := Except.ok.inj hbuild
      exact ⟨h.made.skip hstored,
        fun n hn => (h.nodes n hn).mono fun _ => List.mem_append_left _, h.index,
        h.functionNodes⟩
  | some tree =>
      obtain ⟨w, child, hw, -⟩ := walkAst_of_buildFile hfile hstored hbuild
      have hnil : ((g.withFile file).append w).functionNodes = [] :=
        List.append_eq_nil_iff.2
          ⟨h.functionNodes, (functionNodes_eq_nil_iff hgram hstored hw).2 hshows⟩
      have hidle : Idle ((g.withFile file).append w) file.path :=
        ⟨Or.inl hnil, fun i hi => by rw [hnil] at hi; cases hi⟩
      rw [buildFile_idle hfile hstored hw hidle] at hbuild
      obtain rfl := Except.ok.inj hbuild
      exact ⟨h.made.addFile hgram hstored hw, nodes_append h.nodes hgram hstored hw, h.index, hnil⟩

/-- A file after the first one with a function gets no flow. -/
lemma After.step {flow : List CpgEdge} {names : List String} (h : After py done flow names g)
    (hgram : py.ParsesGrammar) (hprep : PreparedFiles py (done ++ [file]))
    (hbuild : buildFile py g file = .ok g') : After py (done ++ [file]) flow names g' := by
  have hfile := hprep.parsed file (List.mem_append_right _ List.mem_cons_self)
  obtain ⟨index, hindex, hseen⟩ := h.index
  have hlater : ∀ i n, index.get? i = some n → ∃ f ∈ done ++ [file], n.file = f.path :=
    fun i n hn => by
      obtain ⟨f, hf, hpath⟩ := hseen i n hn
      exact ⟨f, List.mem_append_left _ hf, hpath⟩
  cases hstored : storedTree py file with
  | none =>
      rw [buildFile_none hfile hstored] at hbuild
      obtain rfl := Except.ok.inj hbuild
      exact ⟨h.made.skip hstored, index, hindex, hlater⟩
  | some tree =>
      obtain ⟨w, child, hw, -⟩ := walkAst_of_buildFile hfile hstored hbuild
      have hidle : Idle ((g.withFile file).append w) file.path := by
        refine ⟨Or.inr ⟨index, hindex⟩, fun i _ n hn heq => ?_⟩
        have hindex' : ((g.withFile file).append w).nodeIndex = some index := hindex
        have hget : index.get? i = some n := by
          rw [CodePropertyGraph.found, hindex'] at hn
          exact hn
        obtain ⟨f, hf, hpath⟩ := hseen i n hget
        have hdistinct := hprep.distinct
        rw [List.map_append, List.nodup_append] at hdistinct
        exact hdistinct.2.2 f.path (List.mem_map_of_mem hf) file.path (by simp)
          (hpath.symm.trans heq)
      rw [buildFile_idle hfile hstored hw hidle] at hbuild
      obtain rfl := Except.ok.inj hbuild
      exact ⟨h.made.addFile hgram hstored hw, index, hindex, hlater⟩

/-- In the first file with a function the functions are found. -/
lemma Before.reaches (h : Before py done g) (hgram : py.ParsesGrammar) (hlays : py.LaysOut)
    (hprep : PreparedFiles py (done ++ [file])) {tree : Node}
    (hsome : storedTree py file = some tree) {w : Walked} {child : Option String}
    (hw : walkAst file.path (fileNode file).id 0 (astToDict tree) = .ok (w, child)) :
    Reaches ((g.withFile file).append w) file.path tree := by
  intro function hfunction
  have hlaid := hlays _ _ (storedTree_eq_some.1 hsome).1
  have htree := hgram.stored hsome
  obtain ⟨hmem, hfun⟩ := mem_nodes_of_topLevel hfunction
  have hshown := topLevel_shown htree hlaid hfunction
  have hwalked := tree.walked_nodes file.path htree.regular hw
  have hnode : shownNode file.path (function, 1) ∈ w.nodes := by
    rw [hwalked]
    exact List.mem_map_of_mem hshown
  have hregistered : treeId file.path (function, 1) ∈ w.functionNodes := by
    rw [(walkAst_closed file.path (astToDict tree) hw).1.functionNodes]
    exact mem_idsOfKind.2 ⟨_, hnode, rfl, isFunctionDef_iff_kind.1 hfun⟩
  have hall : shownNode file.path (function, 1) ∈ ((g.withFile file).append w).nodes :=
    List.mem_append_right _ hnode
  obtain ⟨n, hn⟩ := get?_indexOf_of_mem hall
  obtain ⟨hnmem, hnid⟩ := mem_of_get?_indexOf hn
  have hnfile : file ∈ done ++ [file] := List.mem_append_right _ List.mem_cons_self
  obtain rfl := eq_of_topLevel_id hgram hprep hnfile hsome hlaid hfunction
    (nodes_append h.nodes hgram hsome hw n hnmem) hnid
  have hindex : ((g.withFile file).append w).nodeIndex = none := h.index
  refine ⟨treeId file.path (function, 1), List.mem_append_right _ hregistered,
    shownNode file.path (function, 1), ?_, ?_, rfl, ?_⟩
  · rw [CodePropertyGraph.found, hindex]
    exact hn
  · exact shownNode_name file.path (htree.regular function hmem) hfun
      (hlaid.function function hmem hfun).2.1 1
  · obtain ⟨line, hline⟩ := Option.isSome_iff_exists.1 (hlaid.function function hmem hfun).1
    rw [lineno_eq hline]
    show (((function.lineno?.getD 1 : Nat)) : Int) = _
    rw [hline]
    rfl

/-- The first file with a function makes the index and gets its flow. -/
lemma Before.first (h : Before py done g) (hgram : py.ParsesGrammar) (hlays : py.LaysOut)
    (hprep : PreparedFiles py (done ++ [file])) (hshows : showsFunction py file = true)
    (hbuild : buildFile py g file = .ok g') :
    ∃ tree params names g₁ g₂ index, storedTree py file = some tree
      ∧ FlowPasses py file tree params names g₁ g₂ index
      ∧ After py (done ++ [file]) (file.functions.flatMap (flowOf file.path tree) ++ params) names
        g' := by
  have hfile := hprep.parsed file (List.mem_append_right _ List.mem_cons_self)
  cases hstored : storedTree py file with
  | none =>
      rw [showsFunction, hstored] at hshows
      cases hshows
  | some tree =>
      have hparse := (storedTree_eq_some.1 hstored).1
      have hlaid := hlays _ _ hparse
      have htree := hgram.stored hstored
      obtain ⟨w, child, hw, -⟩ := walkAst_of_buildFile hfile hstored hbuild
      have hreach := h.reaches hgram hlays hprep hstored hw
      have hmade := h.made.addFile hgram hstored hw
      have htreeNodes := nodes_append h.nodes hgram hstored hw
      have hne : ((g.withFile file).append w).functionNodes ≠ [] := by
        intro hnil
        have hfalse := (functionNodes_eq_nil_iff hgram hstored hw).1 (List.append_eq_nil_iff.1 hnil).2
        rw [hshows] at hfalse
        cases hfalse
      have hinfos : file.functions ≠ [] := by
        rw [showsFunction, hstored] at hshows
        obtain ⟨p, hp, hfun⟩ := List.any_eq_true.1 hshows
        rw [shown_of_grammatical htree] at hp
        rcases List.mem_cons.1 hp with rfl | hp
        · rw [isFunctionDef_iff, htree.cls] at hfun
          exact absurd hfun (by decide)
        · have hplaced := (fieldsShown_sublist tree.fields htree.inner 1).subset hp
          exact functions_ne_nil hfile hstored hlaid (mem_of_fieldsPlaced tree.fields hplaced) hfun
      have hcfg := hreach.foldlM_buildCfg hne hparse hinfos
      have hpass : (do
          let g ← file.functions.foldlM (fun g info => buildCfg py file info g)
            ((g.withFile file).append w)
          file.functions.foldlM (fun g info => buildDfg py file info g) g) = .ok g' := by
        rw [buildFile_some hfile hstored, hw] at hbuild
        exact hbuild
      rw [hcfg] at hpass
      have hnone : ((g.withFile file).append w).nodeIndex = none := h.index
      generalize (g.withFile file).append w = g₀ at *
      have hindex : (g₀.indexed.withEdges (file.functions.flatMap
          (flowOf file.path tree))).nodeIndex = some (CodePropertyGraph.indexOf g₀.nodes) := by
        show some (g₀.nodeIndex.getD _) = _
        rw [hnone]
        rfl
      have hreach' : Reaches (g₀.indexed.withEdges
          (file.functions.flatMap (flowOf file.path tree))) file.path tree := hreach
      obtain ⟨g₂, hdfg, happends⟩ := hreach'.foldlM_buildDfg hindex hparse file.functions
      obtain rfl := Except.ok.inj (hdfg.symm.trans hpass)
      have hnodes : ∀ i n, (CodePropertyGraph.indexOf g₀.nodes).get? i = some n →
          TreeNode py (done ++ [file]) n ∧ n.id = i := fun i n hn => by
        obtain ⟨hmem, hid⟩ := mem_of_get?_indexOf hn
        exact ⟨htreeNodes n hmem, hid⟩
      obtain ⟨extra, hextra, hflow⟩ := happends.nodes
      rw [withEdges_withEdges] at happends
      refine ⟨tree, _, extra.map CpgNode.id, _, g₂, _, rfl,
        ⟨hindex, ?_, hreach', hdfg, rfl, extra, hextra, rfl, ?_⟩,
        hmade.addFlow happends hextra, _, happends.index _ hindex, ?_⟩
      · intro i hi
        cases hget : (CodePropertyGraph.indexOf g₀.nodes).get? i with
        | none => rfl
        | some n =>
            obtain ⟨htreeNode, rfl⟩ := hnodes i n hget
            exact absurd hi (htreeNode.not_flowId hprep)
      · intro i hi
        obtain ⟨n, hn, rfl⟩ := List.mem_map.1 hi
        exact hflow n hn
      · intro i n hn
        exact (hnodes i n hn).1.file_mem

end Phases

/-! ## The whole loop -/

/-- What is made of a list of files: the flow passes of the first one that shows a function, and
nothing but nodes and edges of trees for the others. -/
def MadeOf (py : PyInterpreter) (files : List SourceFile) (g : CodePropertyGraph) : Prop :=
  match files.find? (showsFunction py) with
  | none => Made py files [] [] g
  | some file => ∃ tree params names g₁ g₂ index, storedTree py file = some tree
      ∧ FlowPasses py file tree params names g₁ g₂ index
      ∧ Made py files (file.functions.flatMap (flowOf file.path tree) ++ params) names g

lemma PreparedFiles.of_append {done rest : List SourceFile} (h : PreparedFiles py (done ++ rest)) :
    PreparedFiles py done where
  parsed file hfile := h.parsed file (List.mem_append_left _ hfile)
  python file hfile := h.python file (List.mem_append_left _ hfile)
  distinct := by
    have hdistinct := h.distinct
    rw [List.map_append] at hdistinct
    exact hdistinct.of_append_left

lemma After.run {done : List SourceFile} {flow : List CpgEdge} {names : List String}
    {g g' : CodePropertyGraph} (h : After py done flow names g) (hgram : py.ParsesGrammar)
    {rest : List SourceFile} (hprep : PreparedFiles py (done ++ rest))
    (hrun : rest.foldlM (buildFile py) g = .ok g') : After py (done ++ rest) flow names g' := by
  induction rest generalizing done g with
  | nil =>
      obtain rfl := Except.ok.inj hrun
      rw [List.append_nil]
      exact h
  | cons file rest ih =>
      rw [List.foldlM_cons, bind_eq_ok] at hrun
      obtain ⟨g₁, hfirst, hrun⟩ := hrun
      rw [List.append_cons] at hprep ⊢
      exact ih (h.step hgram hprep.of_append hfirst) hprep hrun

/-- The phase after a list of files. -/
def PhaseOf (py : PyInterpreter) (files : List SourceFile) (g : CodePropertyGraph) : Prop :=
  match files.find? (showsFunction py) with
  | none => Before py files g
  | some file => ∃ tree params names g₁ g₂ index, storedTree py file = some tree
      ∧ FlowPasses py file tree params names g₁ g₂ index
      ∧ After py files (file.functions.flatMap (flowOf file.path tree) ++ params) names g

lemma PhaseOf.madeOf {files : List SourceFile} {g : CodePropertyGraph} (h : PhaseOf py files g) :
    MadeOf py files g := by
  rw [PhaseOf] at h
  rw [MadeOf]
  cases hfind : files.find? (showsFunction py) with
  | none =>
      rw [hfind] at h
      exact h.made
  | some file =>
      rw [hfind] at h
      obtain ⟨tree, params, names, g₁, g₂, index, hsome, hpasses, hafter⟩ := h
      exact ⟨tree, params, names, g₁, g₂, index, hsome, hpasses, hafter.made⟩

lemma Before.run {done : List SourceFile} {g g' : CodePropertyGraph} (h : Before py done g)
    (hgram : py.ParsesGrammar) (hlays : py.LaysOut) (hno : done.find? (showsFunction py) = none)
    {rest : List SourceFile} (hprep : PreparedFiles py (done ++ rest))
    (hrun : rest.foldlM (buildFile py) g = .ok g') : PhaseOf py (done ++ rest) g' := by
  induction rest generalizing done g with
  | nil =>
      obtain rfl := Except.ok.inj hrun
      rw [List.append_nil, PhaseOf, hno]
      exact h
  | cons file rest ih =>
      rw [List.foldlM_cons, bind_eq_ok] at hrun
      obtain ⟨g₁, hfirst, hrun⟩ := hrun
      rw [List.append_cons] at hprep ⊢
      have hfile := hprep.parsed file (by simp)
      cases hshows : showsFunction py file with
      | false =>
          exact ih (h.step hgram hfile hshows hfirst)
            (by rw [List.find?_append, hno]; simp [hshows]) hprep hrun
      | true =>
          obtain ⟨tree, params, names, g₂, g₃, index, hsome, hpasses, hafter⟩ :=
            h.first hgram hlays hprep.of_append hshows hfirst
          have hfind : ((done ++ [file]) ++ rest).find? (showsFunction py) = some file := by
            rw [List.find?_append, List.find?_append, hno]
            simp [hshows]
          rw [PhaseOf, hfind]
          exact ⟨tree, params, names, g₂, g₃, index, hsome, hpasses,
            hafter.run hgram hprep hrun⟩

/-- The loop starts in the first phase. -/
lemma phaseOf_run (hgram : py.ParsesGrammar) (hlays : py.LaysOut) {files : List SourceFile}
    (hprep : PreparedFiles py files) {projectId : String} {g : CodePropertyGraph}
    (hrun : files.foldlM (buildFile py) (.empty projectId) = .ok g) : PhaseOf py files g := by
  have hbefore : Before py [] (.empty projectId) :=
    ⟨.empty _, by simp [CodePropertyGraph.empty], rfl, rfl⟩
  exact hbefore.run hgram hlays rfl hprep hrun

lemma foldlM_filter_of_ok {files : List SourceFile} {p : SourceFile → Bool}
    (h : ∀ file ∈ files, p file = false → ∀ g, buildFile py g file = .ok g)
    (g : CodePropertyGraph) :
    (files.filter p).foldlM (buildFile py) g = files.foldlM (buildFile py) g := by
  induction files generalizing g with
  | nil => rfl
  | cons file rest ih =>
      obtain ⟨hfile, hrest⟩ := List.forall_mem_cons.1 h
      rw [List.filter_cons, List.foldlM_cons]
      cases hp : p file with
      | false =>
          rw [if_neg Bool.false_ne_true, ih hrest, hfile hp g]
          rfl
      | true =>
          rw [if_pos rfl, List.foldlM_cons]
          exact congrArg _ (funext fun g' => ih hrest g')

/-- What the builder makes of a snapshot. -/
theorem madeOf_buildGraph (hgram : py.ParsesGrammar) (hlays : py.LaysOut)
    {snapshot : ProjectSnapshot} (hprep : PreparedFiles py snapshot.files)
    {graph : CodePropertyGraph} (h : buildGraph py snapshot = .ok graph) :
    MadeOf py snapshot.files graph := by
  obtain ⟨g, hg, rfl⟩ := buildGraph_eq_ok.1 h
  have hskip : ∀ file ∈ snapshot.files, (fun file : SourceFile => file.error.isNone) file = false →
      ∀ g, buildFile py g file = .ok g := by
    intro file hfile herror g
    refine buildFile_none (hprep.parsed file hfile) ?_ g
    cases hstored : storedTree py file with
    | none => rfl
    | some tree =>
        have hnone := (ast_of_parsed (hprep.parsed file hfile)).2 (by rw [hstored]; rfl)
        have hisNone : file.error.isNone = false := herror
        rw [hnone] at hisNone
        cases hisNone
  rw [foldlM_filter_of_ok hskip] at hg
  have hmade := (phaseOf_run hgram hlays hprep hg).madeOf
  have hcounts : ∀ {flow names}, Made py snapshot.files flow names g →
      Made py snapshot.files flow names
        { g with nodeCount := g.nodes.length, edgeCount := g.edges.length } := fun hm =>
    ⟨hm.ids, hm.edges, hm.flow_mem, hm.fileNodes, hm.functionNodes, hm.callNodes⟩
  rw [MadeOf] at hmade ⊢
  cases hfind : snapshot.files.find? (showsFunction py) with
  | none =>
    rw [hfind] at hmade
    exact hcounts hmade
  | some file =>
    rw [hfind] at hmade
    obtain ⟨tree, params, names, g₁, g₂, index, hsome, hpasses, hm⟩ := hmade
    exact ⟨tree, params, names, g₁, g₂, index, hsome, hpasses, hcounts hm⟩

end Sast.Prepare
