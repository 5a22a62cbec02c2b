import SastEngine.Prepare.Cpg.Passes
import SastEngine.Prepare.Cpg.Trees
import SastEngine.Prepare.Service

/-!
# The graph of a prepared snapshot

The files of a snapshot come from the parser, one for each path.  What the builder does with a file
is determined by the tree that was stored for it.
-/

namespace Sast.Prepare

/-! ## Prepared files -/

/-- The files that PREPARE puts into a snapshot. -/
structure PreparedFiles (py : PyInterpreter) (files : List SourceFile) : Prop where
  parsed : ∀ file ∈ files, parseFile py file.path file.source = .ok file
  python : ∀ file ∈ files, endswith ".py" file.path = true
  distinct : (files.map (·.path)).Nodup

lemma parseFile_path {py : PyInterpreter} {path source : String} {file : SourceFile}
    (h : parseFile py path source = .ok file) : file.path = path ∧ file.source = source := by
  rw [parseFile] at h
  split at h
  · obtain rfl := Except.ok.inj h
    exact ⟨rfl, rfl⟩
  · cases h
  · obtain rfl := Except.ok.inj h
    exact ⟨rfl, rfl⟩

lemma parsed_of_forall₂ {py : PyInterpreter} {texts : List (String × String)}
    {files : List SourceFile}
    (h : List.Forall₂ (fun text file => parseFile py text.1 text.2 = .ok file) texts files) :
    files.map (·.path) = texts.map Prod.fst
      ∧ ∀ file ∈ files, parseFile py file.path file.source = .ok file := by
  induction h with
  | nil => exact ⟨rfl, by simp⟩
  | cons hfile _ ih =>
      obtain ⟨hpath, hsource⟩ := parseFile_path hfile
      refine ⟨?_, List.forall_mem_cons.2 ⟨?_, ih.2⟩⟩
      · rw [List.map_cons, List.map_cons, ih.1, hpath]
      · rw [hpath, hsource]
        exact hfile

/-- The files that PREPARE parses are such files. -/
lemma preparedFiles_of_parsedFiles {py : PyInterpreter} {result : FetchResult}
    {read : String → Option (List UInt8)} {files : List SourceFile}
    (hcopied : result.copiedFiles.Nodup) (h : parsedFiles py result read = .ok files) :
    PreparedFiles py files := by
  obtain ⟨hpaths, hparsed⟩ := parsed_of_forall₂ (mapM_forall₂ h)
  have hsub : ((sourceTexts result read).map Prod.fst).Sublist (pythonPaths result) := by
    rw [sourceTexts]
    induction pythonPaths result with
    | nil => exact List.Sublist.refl _
    | cons path rest ih =>
        rw [List.filterMap_cons]
        cases read path with
        | none => exact ih.cons _
        | some raw => exact ih.cons_cons _
  refine ⟨hparsed, fun file hfile => ?_, ?_⟩
  · have hpath : file.path ∈ pythonPaths result :=
      hsub.subset (hpaths ▸ List.mem_map_of_mem hfile)
    exact (List.mem_filter.1 hpath).2
  · rw [hpaths]
    refine hsub.nodup (List.Nodup.filter _ ?_)
    exact (List.mergeSort_perm _ _).nodup_iff.2 hcopied

/-- The tree that is stored for a file. -/
def storedTree (py : PyInterpreter) (file : SourceFile) : Option Node :=
  match py.parse file.source with
  | .error _ => none
  | .ok tree => if (py.recursionError tree).isSome then none else some tree

section StoredTree

variable {py : PyInterpreter} {file : SourceFile}

lemma storedTree_eq_some {tree : Node} :
    storedTree py file = some tree
      ↔ py.parse file.source = .ok tree ∧ py.recursionError tree = none := by
  rw [storedTree]
  split
  · rename_i e he
    simp [he]
  · rename_i tree' htree
    cases hrec : py.recursionError tree' with
    | none =>
        simp only [htree, Option.isSome_none, Bool.false_eq_true, if_false, Option.some.injEq,
          Except.ok.injEq]
        constructor
        · rintro rfl
          exact ⟨rfl, hrec⟩
        · exact fun h => h.1
    | some count =>
        simp only [htree, Option.isSome_some, if_true, reduceCtorEq, Except.ok.injEq, false_iff]
        rintro ⟨rfl, hnone⟩
        rw [hrec] at hnone
        cases hnone

/-- The dictionary of a file is that of its tree, and a file with a tree has no error. -/
lemma ast_of_parsed (h : parseFile py file.path file.source = .ok file) :
    file.ast = (storedTree py file).map astToDict
      ∧ ((storedTree py file).isSome → file.error = none) := by
  rw [parseFile] at h
  rw [storedTree]
  split at h
  · rename_i hparse
    rw [hparse]
    exact ⟨(congrArg SourceFile.ast (Except.ok.inj h)).symm, fun hnone => by cases hnone⟩
  · cases h
  · rename_i tree hparse
    rw [hparse]
    refine ⟨(congrArg SourceFile.ast (Except.ok.inj h)).symm.trans ?_,
      fun _ => (congrArg SourceFile.error (Except.ok.inj h)).symm⟩
    dsimp only
    split <;> rfl

end StoredTree

/-! ## One file -/

/-- The graph with the node of a file. -/
def CodePropertyGraph.withFile (g : CodePropertyGraph) (file : SourceFile) : CodePropertyGraph :=
  { g with
    nodes := g.nodes ++ [fileNode file]
    fileNodes := g.fileNodes ++ [(fileNode file).id] }

section File

variable {py : PyInterpreter} {file : SourceFile}

lemma buildFile_none (h : parseFile py file.path file.source = .ok file)
    (hnone : storedTree py file = none) (g : CodePropertyGraph) :
    buildFile py g file = .ok g := by
  rw [buildFile, (ast_of_parsed h).1, hnone]
  rfl

/-- A file with a tree: its node, what the AST pass appends, and both flow passes. -/
lemma buildFile_some (h : parseFile py file.path file.source = .ok file) {tree : Node}
    (hsome : storedTree py file = some tree) (g : CodePropertyGraph) :
    buildFile py g file = (do
      let (walked, _) ← walkAst file.path (fileNode file).id 0 (astToDict tree)
      let g ← file.functions.foldlM (fun g info => buildCfg py file info g)
        ((g.withFile file).append walked)
      file.functions.foldlM (fun g info => buildDfg py file info g) g) := by
  rw [buildFile, (ast_of_parsed h).1, hsome]
  rfl

/-- A file with a tree is built exactly when the AST pass accepts the tree. -/
lemma buildFile_eq_ok (h : parseFile py file.path file.source = .ok file) {tree : Node}
    (hsome : storedTree py file = some tree) {g : CodePropertyGraph} {w : Walked}
    {child : Option String}
    (hw : walkAst file.path (fileNode file).id 0 (astToDict tree) = .ok (w, child)) :
    ∃ g', buildFile py g file = .ok g'
      ∧ AppendsFlow file.path ((g.withFile file).append w) g' := by
  rw [buildFile_some h hsome, hw]
  exact flow_appends (storedTree_eq_some.1 hsome).1 _

lemma walkAst_of_buildFile (h : parseFile py file.path file.source = .ok file) {tree : Node}
    (hsome : storedTree py file = some tree) {g g' : CodePropertyGraph}
    (hbuild : buildFile py g file = .ok g') :
    ∃ w child, walkAst file.path (fileNode file).id 0 (astToDict tree) = .ok (w, child)
      ∧ AppendsFlow file.path ((g.withFile file).append w) g' := by
  have hbind := hbuild
  rw [buildFile_some h hsome, bind_eq_ok] at hbind
  obtain ⟨⟨w, child⟩, hw, -⟩ := hbind
  obtain ⟨g'', hg'', happends⟩ := @buildFile_eq_ok py file h tree hsome g w child hw
  obtain rfl := Except.ok.inj (hbuild.symm.trans hg'')
  exact ⟨w, child, hw, happends⟩

end File

/-! ## All files -/

/-- The ids of the nodes of a graph. -/
def CodePropertyGraph.ids (g : CodePropertyGraph) : List String := g.nodes.map CpgNode.id

/-- The ids that a file adds: its own and those of the nodes that its tree shows. -/
def treeIds (py : PyInterpreter) (file : SourceFile) : List String :=
  match storedTree py file with
  | none => []
  | some tree => (fileNode file).id :: (tree.shown 0).map (treeId file.path)

/-- The trees of the interpreter are trees of the grammar. -/
def PyInterpreter.ParsesGrammar (py : PyInterpreter) : Prop :=
  ∀ source tree, py.parse source = .ok tree → tree.Grammatical

lemma PyInterpreter.ParsesGrammar.stored {py : PyInterpreter} (hgram : py.ParsesGrammar)
    {file : SourceFile} {tree : Node} (hsome : storedTree py file = some tree) :
    tree.Grammatical :=
  hgram file.source tree (storedTree_eq_some.1 hsome).1

section Files

variable {py : PyInterpreter}

/-- One file adds its ids, and some of the data-flow pass. -/
lemma buildFile_ids (hgram : py.ParsesGrammar) {file : SourceFile}
    (hfile : parseFile py file.path file.source = .ok file) {g g' : CodePropertyGraph}
    (h : buildFile py g file = .ok g') :
    ∃ flow, g'.ids = g.ids ++ treeIds py file ++ flow ∧ ∀ i ∈ flow, FlowId file.path i := by
  cases hstored : storedTree py file with
  | none =>
      rw [buildFile_none hfile hstored] at h
      obtain rfl := Except.ok.inj h
      exact ⟨[], by simp [treeIds, hstored], by simp⟩
  | some tree =>
      obtain ⟨w, child, hw, happends⟩ := walkAst_of_buildFile hfile hstored h
      have hshown := tree.walked_nodes file.path (hgram.stored hstored).regular hw
      obtain ⟨extra, hnodes, hextra⟩ := happends.nodes
      refine ⟨extra.map CpgNode.id, ?_, ?_⟩
      · simp only [CodePropertyGraph.ids, hnodes, treeIds, hstored, CodePropertyGraph.append,
          CodePropertyGraph.withFile, hshown, List.map_append, List.map_cons, List.map_map,
          List.append_assoc, List.cons_append, List.nil_append]
        rfl
      · intro i hi
        obtain ⟨n, hn, rfl⟩ := List.mem_map.1 hi
        exact hextra n hn

/-- The loop adds the ids of every file, and some of the data-flow pass. -/
lemma foldlM_buildFile_ids (hgram : py.ParsesGrammar) {files : List SourceFile}
    (hfiles : ∀ file ∈ files, parseFile py file.path file.source = .ok file)
    {g g' : CodePropertyGraph} (h : files.foldlM (buildFile py) g = .ok g') :
    ∃ flow, g'.ids.Perm (g.ids ++ files.flatMap (treeIds py) ++ flow)
      ∧ ∀ i ∈ flow, ∃ file ∈ files, FlowId file.path i := by
  induction files generalizing g with
  | nil =>
      obtain rfl := Except.ok.inj h
      exact ⟨[], by simp, by simp⟩
  | cons file rest ih =>
      rw [List.foldlM_cons, bind_eq_ok] at h
      obtain ⟨g₁, hfirst, hrest⟩ := h
      obtain ⟨hfile, hfiles⟩ := List.forall_mem_cons.1 hfiles
      obtain ⟨flow, hids, hflow⟩ := buildFile_ids hgram hfile hfirst
      obtain ⟨flow', hids', hflow'⟩ := ih hfiles hrest
      refine ⟨flow ++ flow', ?_, ?_⟩
      · refine hids'.trans ?_
        rw [hids, List.flatMap_cons]
        simp only [List.append_assoc]
        refine (List.Perm.refl _).append ((List.Perm.refl _).append ?_)
        rw [← List.append_assoc, ← List.append_assoc]
        exact List.perm_append_comm.append_right flow'
      · intro i hi
        rcases List.mem_append.1 hi with hi | hi
        · exact ⟨file, List.mem_cons_self, hflow i hi⟩
        · obtain ⟨file', hfile', hid⟩ := hflow' i hi
          exact ⟨file', List.mem_cons_of_mem _ hfile', hid⟩

/-- The loop goes through when the AST pass accepts every tree. -/
lemma foldlM_buildFile_isOk (hgram : py.ParsesGrammar) {files : List SourceFile}
    (hfiles : ∀ file ∈ files, parseFile py file.path file.source = .ok file)
    (hno : ∀ file ∈ files, ∀ tree, storedTree py file = some tree →
      ∀ n ∈ tree.nodes, n.cls ≠ "ExceptHandler") (g : CodePropertyGraph) :
    ∃ g', files.foldlM (buildFile py) g = .ok g' := by
  induction files generalizing g with
  | nil => exact ⟨g, rfl⟩
  | cons file rest ih =>
      obtain ⟨hfile, hfiles⟩ := List.forall_mem_cons.1 hfiles
      obtain ⟨hfirst, hno⟩ := List.forall_mem_cons.1 hno
      have hbuild : ∃ g₁, buildFile py g file = .ok g₁ := by
        cases hstored : storedTree py file with
        | none => exact ⟨g, buildFile_none hfile hstored g⟩
        | some tree =>
            obtain ⟨⟨w, child⟩, hw⟩ := tree.walkAst_isOk file.path
              (hgram.stored hstored).regular (hfirst tree hstored) (fileNode file).id 0
            obtain ⟨g₁, hg₁, -⟩ := buildFile_eq_ok (g := g) hfile hstored hw
            exact ⟨g₁, hg₁⟩
      obtain ⟨g₁, hg₁⟩ := hbuild
      obtain ⟨g', hg'⟩ := ih hfiles hno g₁
      exact ⟨g', by rw [List.foldlM_cons, hg₁]; exact hg'⟩

/-- The files that are built have all the trees. -/
lemma flatMap_treeIds_filter {files : List SourceFile}
    (hfiles : ∀ file ∈ files, parseFile py file.path file.source = .ok file) :
    (files.filter fun file => file.error.isNone).flatMap (treeIds py)
      = files.flatMap (treeIds py) := by
  induction files with
  | nil => rfl
  | cons file rest ih =>
      obtain ⟨hfile, hfiles⟩ := List.forall_mem_cons.1 hfiles
      rw [List.filter_cons, List.flatMap_cons, ← ih hfiles]
      split
      · rfl
      · rename_i herror
        have hnone : storedTree py file = none := by
          cases hstored : storedTree py file with
          | none => rfl
          | some tree =>
              have hok := (ast_of_parsed hfile).2 (by rw [hstored]; rfl)
              rw [hok] at herror
              exact absurd rfl herror
        simp [treeIds, hnone]

lemma buildGraph_eq_ok {snapshot : ProjectSnapshot} {graph : CodePropertyGraph} :
    buildGraph py snapshot = .ok graph ↔
      ∃ g, (snapshot.files.filter fun file => file.error.isNone).foldlM (buildFile py)
          (.empty snapshot.projectId) = .ok g
        ∧ { g with nodeCount := g.nodes.length, edgeCount := g.edges.length } = graph := by
  rw [buildGraph, bind_eq_ok]
  simp only [pure_eq_ok]

/-- The ids of the graph: those of every file with a tree, and some of the data-flow pass. -/
theorem buildGraph_ids (hgram : py.ParsesGrammar) {snapshot : ProjectSnapshot}
    (hprep : PreparedFiles py snapshot.files) {graph : CodePropertyGraph}
    (h : buildGraph py snapshot = .ok graph) :
    ∃ flow, graph.ids.Perm (snapshot.files.flatMap (treeIds py) ++ flow)
      ∧ ∀ i ∈ flow, ∃ file ∈ snapshot.files, FlowId file.path i := by
  obtain ⟨g, hg, rfl⟩ := buildGraph_eq_ok.1 h
  obtain ⟨flow, hids, hflow⟩ := foldlM_buildFile_ids hgram
    (fun file hfile => hprep.parsed file (List.mem_filter.1 hfile).1) hg
  rw [flatMap_treeIds_filter hprep.parsed] at hids
  refine ⟨flow, hids, fun i hi => ?_⟩
  obtain ⟨file, hfile, hid⟩ := hflow i hi
  exact ⟨file, (List.mem_filter.1 hfile).1, hid⟩

end Files

/-! ## A snapshot of one file -/

/-- An interpreter that reads one text. -/
def readsOnly (source : String) (tree : Node) : PyInterpreter where
  parse text :=
    if text = source then .ok tree
    else .error (.syntaxError (some 1) (some 1) (some "invalid syntax") "invalid syntax (line 1)")
  unparse _ := ""
  sha256 text := text
  recursionError _ := none

/-- The file with this text. -/
def soleFile (py : PyInterpreter) (source : String) : SourceFile :=
  (parseFile py "app.py" source).toOption.getD (unparsedFile py "app.py" source)

/-- The snapshot of a repository with this file. -/
def soleSnapshot (py : PyInterpreter) (source : String) : ProjectSnapshot :=
  buildSnapshot ⟨"r", .directory, "/r"⟩ "p" ⟨0, some 0⟩
    ⟨["app.py"], source.utf8ByteSize, [], []⟩ [soleFile py source]

/-- The graph of this snapshot. -/
def soleGraph (py : PyInterpreter) (source : String) : CodePropertyGraph :=
  (buildGraph py (soleSnapshot py source)).toOption.getD (.empty "p")

section Sole

variable {source : String} {tree : Node}

lemma readsOnly_parse (source : String) (tree : Node) :
    (readsOnly source tree).parse source = .ok tree := if_pos rfl

lemma readsOnly_parsesGrammar (source : String) {tree : Node} (h : tree.Grammatical) :
    (readsOnly source tree).ParsesGrammar := by
  intro text tree' hparse
  simp only [readsOnly] at hparse
  split_ifs at hparse
  obtain rfl := Except.ok.inj hparse
  exact h

lemma parseFile_sole (py : PyInterpreter) (h : py.parse source = .ok tree) :
    parseFile py "app.py" source = .ok (soleFile py source) := by
  rw [soleFile, parseFile, h]
  rfl

lemma soleFile_source (py : PyInterpreter) (h : py.parse source = .ok tree) :
    (soleFile py source).source = source := (parseFile_path (parseFile_sole py h)).2

lemma preparedFiles_sole (py : PyInterpreter) (h : py.parse source = .ok tree) :
    PreparedFiles py (soleSnapshot py source).files := by
  have hfile := parseFile_sole py h
  obtain ⟨hpath, hsource⟩ := parseFile_path hfile
  refine ⟨?_, ?_, List.nodup_singleton _⟩
  · refine List.forall_mem_singleton.2 ?_
    rw [hpath, hsource]
    exact hfile
  · refine List.forall_mem_singleton.2 ?_
    rw [hpath]
    decide

end Sole

end Sast.Prepare
