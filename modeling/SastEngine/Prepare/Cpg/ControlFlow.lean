import SastEngine.Prepare.Cpg.Loop

/-!
# Which control flow the graph has

The control-flow pass walks the direct statements of the top-level functions of one file.  The
edges of every other block are missing.
-/

namespace Sast.Prepare

variable {py : PyInterpreter}

/-! ## The property -/

/-- The edges between consecutive statements of a block. -/
def seqEdges (path : String) (block : List Node) : List CpgEdge :=
  (block.zip block.tail).map fun p => ⟨stmtId path p.1, stmtId path p.2, .cfgSeq, []⟩

/-- The control-flow edges that a statement or a handler calls for: those in its blocks, and those
into them. -/
def neededAt (path : String) (m : Node) : List CpgEdge :=
  m.blocks.flatMap (seqEdges path) ++ branchEdges path m

/-- The graph has the control flow of every function of every file, at any depth. -/
def FlowComplete (py : PyInterpreter) (snapshot : ProjectSnapshot) (graph : CodePropertyGraph) :
    Prop :=
  ∀ file ∈ snapshot.files, ∀ tree, py.parse file.source = .ok tree →
    ∀ f ∈ tree.nodes, isFunctionDef f →
      ∀ m ∈ f.nodes, ∀ e ∈ neededAt file.path m, e ∈ graph.edges

/-- The classes of the statements that branch. -/
def branchingClasses : List String := ["If", "For", "While", "Try"]

/-- The files whose control flow the builder covers: only the first file that shows a function has
any, and there it is that of the direct statements of top-level functions. -/
structure FlowSources (py : PyInterpreter) (files : List SourceFile) : Prop where
  others : ∀ file ∈ files, files.find? (showsFunction py) ≠ some file →
    ∀ tree, py.parse file.source = .ok tree → ∀ f ∈ tree.nodes, isFunctionDef f →
      ∀ m ∈ f.nodes, (∀ b ∈ m.blocks, b.length ≤ 1) ∧ m.cls ∉ branchingClasses
  first : ∀ file ∈ files, files.find? (showsFunction py) = some file →
    ∀ tree, py.parse file.source = .ok tree → ∀ f ∈ tree.nodes, isFunctionDef f →
      ∀ m ∈ f.nodes, (m ∈ topLevelFunctions tree ∨ ∀ b ∈ m.blocks, b.length ≤ 1)
        ∧ ((∃ function ∈ topLevelFunctions tree, m ∈ function.children "body")
          ∨ m.cls ∉ branchingClasses)

lemma branchingClasses_compound {cls : String} (h : cls ∈ branchingClasses) :
    cls ∈ compoundClasses := by
  simp only [branchingClasses, List.mem_cons, List.not_mem_nil, or_false] at h
  rcases h with rfl | rfl | rfl | rfl <;> decide

/-! ## The edges of a body -/

lemma stmtId_inj {path path' : String} {s s' : Node} (hs : ':' ∉ s.cls.toList)
    (hs' : ':' ∉ s'.cls.toList) (h : stmtId path s = stmtId path' s') :
    path = path' ∧ s.cls = s'.cls ∧ s.lineno = s'.lineno := by
  have hsplit : ∀ (p : String) (n : Node),
      stmtId p n = p ++ ":" ++ n.cls ++ ":" ++ toString n.lineno ++ ":" ++ "stmt" := by
    intro p n
    rw [@String.append_assoc _ ":" "stmt"]
    rfl
  rw [hsplit, hsplit] at h
  obtain ⟨h, -⟩ := append_colon_inj (by decide) (by decide) h
  obtain ⟨h, hline⟩ :=
    append_colon_inj (colon_notMem_toString s.lineno) (colon_notMem_toString s'.lineno) h
  obtain ⟨hpath, hcls⟩ := append_colon_inj hs hs' h
  exact ⟨hpath, hcls, toString_inj hline⟩

lemma seqEdges_cons (path : String) (s s' : Node) (rest : List Node) :
    seqEdges path (s :: s' :: rest)
      = ⟨stmtId path s, stmtId path s', .cfgSeq, []⟩ :: seqEdges path (s' :: rest) := rfl

lemma mem_seqEdges {path : String} {block : List Node} {e : CpgEdge}
    (h : e ∈ seqEdges path block) :
    ∃ s ∈ block, ∃ s' ∈ block, e = ⟨stmtId path s, stmtId path s', .cfgSeq, []⟩ := by
  obtain ⟨⟨s, s'⟩, hmem, rfl⟩ := List.mem_map.1 h
  exact ⟨s, (List.of_mem_zip hmem).1, s', List.mem_of_mem_tail (List.of_mem_zip hmem).2, rfl⟩

lemma seqEdges_eq_nil {path : String} {block : List Node} (h : block.length ≤ 1) :
    seqEdges path block = [] := by
  match block with
  | [] => rfl
  | [_] => rfl
  | _ :: _ :: _ => simp at h

lemma exists_seqEdge {path : String} {block : List Node} (h : ¬ block.length ≤ 1) :
    ∃ e, e ∈ seqEdges path block := by
  match block with
  | [] => simp at h
  | [_] => simp at h
  | _ :: _ :: _ => exact ⟨_, List.mem_cons_self⟩

/-- The loop over a body links its statements and branches from each. -/
lemma mem_bodyEdges {path : String} {e : CpgEdge} (previous : Option Node) (block : List Node) :
    e ∈ bodyEdges path previous block
      ↔ e ∈ seqEdges path (previous.toList ++ block) ∨ ∃ s ∈ block, e ∈ branchEdges path s := by
  induction block generalizing previous with
  | nil =>
      have hnil : seqEdges path (previous.toList ++ []) = [] := by
        cases previous <;> rfl
      rw [hnil]
      simp [bodyEdges]
  | cons stmt rest ih =>
      rw [bodyEdges, List.mem_append, List.mem_append, ih]
      cases previous with
      | none =>
          simp only [Option.map_none, Option.toList_none, List.not_mem_nil, false_or,
            Option.toList_some, List.singleton_append, List.nil_append, List.mem_cons,
            exists_eq_or_imp]
          tauto
      | some p =>
          simp only [Option.map_some, Option.toList_some, List.not_mem_nil, or_false,
            List.singleton_append, seqEdges_cons, List.mem_cons, exists_eq_or_imp]
          tauto

lemma mem_edgeToFirst {path : String} {stmt : Node} {edgeType : CpgEdgeType} {block : List Node}
    {e : CpgEdge} (h : e ∈ edgeToFirst path stmt edgeType block) :
    e.src = stmtId path stmt ∧ e.edgeType = edgeType := by
  cases block with
  | nil => cases h
  | cons s rest =>
      obtain rfl := List.mem_singleton.1 h
      exact ⟨rfl, rfl⟩

lemma exists_edgeToFirst (path : String) (stmt : Node) (edgeType : CpgEdgeType)
    {block : List Node} (h : block ≠ []) : ∃ e, e ∈ edgeToFirst path stmt edgeType block := by
  cases block with
  | nil => exact absurd rfl h
  | cons s rest => exact ⟨_, List.mem_cons_self⟩

/-- The types of the branching edges. -/
def branchTypes : List CpgEdgeType := [.cfgTrue, .cfgFalse, .cfgLoopBody, .cfgExcept, .cfgFinal]

lemma mem_branchEdges {path : String} {stmt : Node} {e : CpgEdge}
    (h : e ∈ branchEdges path stmt) :
    e.src = stmtId path stmt ∧ e.edgeType ∈ branchTypes ∧ stmt.cls ∈ branchingClasses := by
  rw [branchEdges] at h
  split at h
  · rename_i hcls
    rcases List.mem_append.1 h with h | h
    · obtain ⟨hsrc, htype⟩ := mem_edgeToFirst h
      exact ⟨hsrc, htype ▸ by decide, hcls ▸ by decide⟩
    · obtain ⟨hsrc, htype⟩ := mem_edgeToFirst h
      exact ⟨hsrc, htype ▸ by decide, hcls ▸ by decide⟩
  split at h
  · rename_i hcls
    obtain ⟨hsrc, htype⟩ := mem_edgeToFirst h
    exact ⟨hsrc, htype ▸ by decide, hcls ▸ by decide⟩
  split at h
  · rename_i hcls
    obtain ⟨hsrc, htype⟩ := mem_edgeToFirst h
    exact ⟨hsrc, htype ▸ by decide, hcls ▸ by decide⟩
  split at h
  · rename_i hcls
    rcases List.mem_append.1 h with h | h
    · obtain ⟨handler, -, h⟩ := List.mem_flatMap.1 h
      obtain ⟨hsrc, htype⟩ := mem_edgeToFirst h
      exact ⟨hsrc, htype ▸ by decide, hcls ▸ by decide⟩
    · obtain ⟨hsrc, htype⟩ := mem_edgeToFirst h
      exact ⟨hsrc, htype ▸ by decide, hcls ▸ by decide⟩
  · cases h

/-- A branching statement calls for an edge. -/
lemma exists_branchEdge (path : String) {tree stmt : Node} (hlaid : tree.LaidOut)
    (hmem : stmt ∈ tree.nodes) (h : stmt.cls ∈ branchingClasses) :
    ∃ e, e ∈ branchEdges path stmt := by
  have hbody := hlaid.loop stmt hmem
  have htry := hlaid.try_ stmt hmem
  simp only [branchingClasses, List.mem_cons, List.not_mem_nil, or_false] at h
  rcases h with hcls | hcls | hcls | hcls
  · obtain ⟨e, he⟩ := exists_edgeToFirst path stmt .cfgTrue (hbody (Or.inl hcls))
    exact ⟨e, by rw [branchEdges, if_pos hcls]; exact List.mem_append_left _ he⟩
  · obtain ⟨e, he⟩ := exists_edgeToFirst path stmt .cfgLoopBody (hbody (Or.inr (Or.inl hcls)))
    exact ⟨e, by rw [branchEdges, if_neg (by rw [hcls]; decide), if_pos hcls]; exact he⟩
  · obtain ⟨e, he⟩ := exists_edgeToFirst path stmt .cfgLoopBody (hbody (Or.inr (Or.inr hcls)))
    refine ⟨e, ?_⟩
    rw [branchEdges, if_neg (by rw [hcls]; decide), if_neg (by rw [hcls]; decide), if_pos hcls]
    exact he
  · have hedges : branchEdges path stmt
        = (stmt.children "handlers").flatMap
            (fun handler => edgeToFirst path stmt .cfgExcept (handler.children "body"))
          ++ edgeToFirst path stmt .cfgFinal (stmt.children "finalbody") := by
      rw [branchEdges, if_neg (by rw [hcls]; decide), if_neg (by rw [hcls]; decide),
        if_neg (by rw [hcls]; decide), if_pos hcls]
    rw [hedges]
    rcases htry hcls with hfinal | ⟨handler, hhandler, hbody⟩
    · obtain ⟨e, he⟩ := exists_edgeToFirst path stmt .cfgFinal hfinal
      exact ⟨e, List.mem_append_right _ he⟩
    · obtain ⟨e, he⟩ := exists_edgeToFirst path stmt .cfgExcept hbody
      exact ⟨e, List.mem_append_left _ (List.mem_flatMap.2 ⟨handler, hhandler, he⟩)⟩

lemma branchEdges_eq_nil {path : String} {stmt : Node} (h : stmt.cls ∉ branchingClasses) :
    branchEdges path stmt = [] :=
  List.eq_nil_iff_forall_not_mem.2 fun _ he => h (mem_branchEdges he).2.2

/-! ## Statements are nodes -/

lemma mem_nodes_of_children {n s : Node} {name : String} (h : s ∈ n.children name) :
    s ∈ n.nodes := by
  cases n with
  | mk cls lineno endLineno fields =>
      refine List.mem_cons_of_mem _ ?_
      rw [Node.children, Node.field] at h
      induction fields with
      | nil => cases h
      | cons field rest ih =>
          obtain ⟨key, value⟩ := field
          rw [Dict.getEntry] at h
          by_cases hkey : key = name
          · rw [if_pos hkey, Option.getD_some] at h
            refine List.mem_append_left _ (valueNodes_subset ?_)
            cases value with
            | list items => exact h
            | node m => cases h
            | constant c => cases h
          · rw [if_neg hkey] at h
            exact List.mem_append_right _ (ih h)

lemma mem_nodes_of_blocks {n s : Node} {b : List Node} (hb : b ∈ n.blocks) (hs : s ∈ b) :
    s ∈ n.nodes := by
  simp only [Node.blocks, List.mem_cons, List.not_mem_nil, or_false] at hb
  rcases hb with rfl | rfl | rfl
  · exact mem_nodes_of_children hs
  · exact mem_nodes_of_children hs
  · exact mem_nodes_of_children hs

/-! ## The control flow of the graph -/

lemma cfgSeq_notMem : CpgEdgeType.cfgSeq ∉ branchTypes := by decide

/-- The types of the control-flow edges. -/
def flowTypes : List CpgEdgeType := .cfgSeq :: branchTypes

lemma flowTypes_disjoint {t : CpgEdgeType} (h : t ∈ flowTypes) :
    t ∉ astEdgeTypes ∧ t ≠ .dfgParam := by
  revert t
  decide

lemma mem_neededAt {path : String} {m : Node} {e : CpgEdge} :
    e ∈ neededAt path m ↔ (∃ b ∈ m.blocks, e ∈ seqEdges path b) ∨ e ∈ branchEdges path m := by
  rw [neededAt, List.mem_append, List.mem_flatMap]

/-- A needed edge starts at a statement below. -/
lemma neededAt_src {path : String} {m : Node} {e : CpgEdge} (h : e ∈ neededAt path m) :
    e.edgeType ∈ flowTypes ∧ ∃ s ∈ m.nodes, e.src = stmtId path s := by
  rcases mem_neededAt.1 h with ⟨b, hb, he⟩ | he
  · obtain ⟨s, hs, s', -, rfl⟩ := mem_seqEdges he
    exact ⟨List.mem_cons_self, s, mem_nodes_of_blocks hb hs, rfl⟩
  · obtain ⟨hsrc, htype, -⟩ := mem_branchEdges he
    exact ⟨List.mem_cons_of_mem _ htype, m, mem_nodes_self m, hsrc⟩

/-- Where nothing is needed, the blocks are single statements and nothing branches. -/
lemma straight_of_needed {path : String} {tree m : Node} (hlaid : tree.LaidOut)
    (hm : m ∈ tree.nodes) (h : ∀ e, e ∉ neededAt path m) :
    (∀ b ∈ m.blocks, b.length ≤ 1) ∧ m.cls ∉ branchingClasses := by
  constructor
  · intro b hb
    by_contra hlong
    obtain ⟨e, he⟩ := @exists_seqEdge path b hlong
    exact h e (mem_neededAt.2 (Or.inl ⟨b, hb, he⟩))
  · intro hcls
    obtain ⟨e, he⟩ := exists_branchEdge path hlaid hm hcls
    exact h e (mem_neededAt.2 (Or.inr he))

lemma neededAt_eq_nil {path : String} {m : Node} (hblocks : ∀ b ∈ m.blocks, b.length ≤ 1)
    (hcls : m.cls ∉ branchingClasses) : ∀ e, e ∉ neededAt path m := by
  intro e he
  rcases mem_neededAt.1 he with ⟨b, hb, he⟩ | he
  · rw [seqEdges_eq_nil (hblocks b hb)] at he
    cases he
  · rw [branchEdges_eq_nil hcls] at he
    cases he

/-- An edge of the control flow comes from a top-level function of the first file that shows a
function. -/
lemma flow_of_mem {files : List SourceFile} {graph : CodePropertyGraph}
    (hmade : MadeOf py files graph) {e : CpgEdge} (he : e ∈ graph.edges)
    (htype : e.edgeType ∈ flowTypes) :
    ∃ file, files.find? (showsFunction py) = some file
      ∧ ∃ tree, storedTree py file = some tree
        ∧ ∃ function ∈ topLevelFunctions tree,
          e ∈ bodyEdges file.path none (function.children "body") := by
  obtain ⟨hast, hparam⟩ := flowTypes_disjoint htype
  rw [MadeOf] at hmade
  cases hfind : files.find? (showsFunction py) with
  | none =>
      rw [hfind] at hmade
      rcases hmade.edges e he with ⟨hmem, -⟩ | hnil
      · exact absurd hmem hast
      · cases hnil
  | some file =>
      rw [hfind] at hmade
      obtain ⟨tree, params, names, g₁, g₂, index, hsome, hpasses, hmade⟩ := hmade
      refine ⟨file, rfl, tree, hsome, ?_⟩
      rcases hmade.edges e he with ⟨hmem, -⟩ | hflow
      · exact absurd hmem hast
      rcases List.mem_append.1 hflow with hflow | hflow
      · obtain ⟨info, -, hflow⟩ := List.mem_flatMap.1 hflow
        rw [flowOf] at hflow
        split at hflow
        · cases hflow
        · rename_i function htop
          exact ⟨function, (topLevelFunction_eq_some htop).1, hflow⟩
      · rw [hpasses.params_eq] at hflow
        obtain ⟨info, -, hflow⟩ := List.mem_flatMap.1 hflow
        rw [paramsOf] at hflow
        split at hflow
        · cases hflow
        · obtain ⟨name, -, rfl⟩ := List.mem_map.1 hflow
          exact absurd rfl hparam

/-- The bodies of the top-level functions of that file are linked. -/
lemma mem_of_flow {files : List SourceFile} (hprep : PreparedFiles py files)
    (hlays : py.LaysOut) {graph : CodePropertyGraph} (hmade : MadeOf py files graph)
    {file : SourceFile} (hfile : file ∈ files)
    (hfind : files.find? (showsFunction py) = some file) {tree : Node}
    (hparse : py.parse file.source = .ok tree) {function : Node}
    (hfunction : function ∈ topLevelFunctions tree) {e : CpgEdge}
    (he : e ∈ bodyEdges file.path none (function.children "body")) : e ∈ graph.edges := by
  rw [MadeOf, hfind] at hmade
  obtain ⟨tree', params, names, g₁, g₂, index, hsome, hpasses, hmade⟩ := hmade
  obtain rfl := Except.ok.inj (hparse.symm.trans (storedTree_eq_some.1 hsome).1)
  obtain ⟨info, hinfo, htop⟩ :=
    exists_info (hprep.parsed file hfile) hsome (hlays _ _ hparse) hfunction
  refine hmade.flow_mem e (List.mem_append_left _ (List.mem_flatMap.2 ⟨info, hinfo, ?_⟩))
  rw [flowOf, htop]
  exact he

section Complete

variable {snapshot : ProjectSnapshot} {graph : CodePropertyGraph}

/-- The edges of one statement are there only where they are made. -/
lemma source_of_needed (hgram : py.ParsesGrammar)
    (hprep : PreparedFiles py snapshot.files) (hmade : MadeOf py snapshot.files graph)
    {file : SourceFile} (hfile : file ∈ snapshot.files) {tree : Node}
    (hparse : py.parse file.source = .ok tree) {m : Node} (hm : m ∈ tree.nodes) {e : CpgEdge}
    (he : e ∈ neededAt file.path m) (hmem : e ∈ graph.edges) :
    snapshot.files.find? (showsFunction py) = some file
      ∧ ∃ function ∈ topLevelFunctions tree,
        e ∈ bodyEdges file.path none (function.children "body") := by
  have htree := hgram _ _ hparse
  obtain ⟨htype, s, hs, hsrc⟩ := neededAt_src he
  obtain ⟨file', hfind, tree', hsome', function, hfunction, hbody⟩ := flow_of_mem hmade hmem htype
  have hparse' := (storedTree_eq_some.1 hsome').1
  have htree' := hgram _ _ hparse'
  -- the edge starts at a statement of both files
  have hsrc' : ∃ s' ∈ tree'.nodes, e.src = stmtId file'.path s' := by
    have hfun := (mem_nodes_of_topLevel hfunction).1
    rcases (mem_bodyEdges none _).1 hbody with hseq | ⟨s', hs', hbranch⟩
    · obtain ⟨s', hs', s₂, _, rfl⟩ := mem_seqEdges hseq
      exact ⟨s', tree'.mem_nodes_trans hfun (mem_nodes_of_children hs'), rfl⟩
    · exact ⟨s', tree'.mem_nodes_trans hfun (mem_nodes_of_children hs'),
        (mem_branchEdges hbranch).1⟩
  obtain ⟨s', hs', hsrc'⟩ := hsrc'
  obtain ⟨hpath, -⟩ := stmtId_inj (htree.regular s (tree.mem_nodes_trans hm hs)).colon
    (htree'.regular s' hs').colon (hsrc.symm.trans hsrc')
  obtain rfl := List.inj_on_of_nodup_map hprep.distinct hfile
    (List.mem_of_find?_eq_some hfind) hpath
  obtain rfl := Except.ok.inj (hparse.symm.trans hparse')
  exact ⟨hfind, function, hfunction, hbody⟩

/-- A block whose statements a top-level function links is the body of that function. -/
lemma topLevel_of_seq {path : String} {tree m function : Node} (htree : tree.Grammatical)
    (hlaid : tree.LaidOut) (hm : m ∈ tree.nodes) {b : List Node} (hb : b ∈ m.blocks) {e : CpgEdge}
    (he : e ∈ seqEdges path b) (hfunction : function ∈ topLevelFunctions tree)
    (hbody : e ∈ bodyEdges path none (function.children "body")) :
    m ∈ topLevelFunctions tree := by
  have hfun := (mem_nodes_of_topLevel hfunction).1
  obtain ⟨s, hs, s₁, _, rfl⟩ := mem_seqEdges he
  rcases (mem_bodyEdges none _).1 hbody with hseq | ⟨s', -, hbranch⟩
  · obtain ⟨s', hs', s₂, _, heq⟩ := mem_seqEdges hseq
    obtain ⟨-, hcls, hline⟩ := stmtId_inj
      (htree.regular s (tree.mem_nodes_trans hm (mem_nodes_of_blocks hb hs))).colon
      (htree.regular s' (tree.mem_nodes_trans hfun (mem_nodes_of_children hs'))).colon
      (congrArg CpgEdge.src heq)
    have hsame : m = function := hlaid.oneBlock m hm function hfun b hb _
      List.mem_cons_self s hs s' hs' hcls hline
    exact hsame ▸ hfunction
  · exact absurd (mem_branchEdges hbranch).2.1 cfgSeq_notMem

/-- A statement whose branches a top-level function makes stands in the body of that function. -/
lemma direct_of_branch {path : String} {tree m function : Node} (htree : tree.Grammatical)
    (hlaid : tree.LaidOut) (hm : m ∈ tree.nodes) {e : CpgEdge} (he : e ∈ branchEdges path m)
    (hfunction : function ∈ topLevelFunctions tree)
    (hbody : e ∈ bodyEdges path none (function.children "body")) :
    m ∈ function.children "body" := by
  have hfun := (mem_nodes_of_topLevel hfunction).1
  obtain ⟨hsrc, htype, hcls⟩ := mem_branchEdges he
  rcases (mem_bodyEdges none _).1 hbody with hseq | ⟨s, hs, hbranch⟩
  · obtain ⟨s₁, _, s₂, _, rfl⟩ := mem_seqEdges hseq
    exact absurd htype cfgSeq_notMem
  · obtain ⟨hsrc', -, hcls'⟩ := mem_branchEdges hbranch
    have hsmem := tree.mem_nodes_trans hfun (mem_nodes_of_children hs)
    obtain ⟨-, -, hline⟩ := stmtId_inj (htree.regular m hm).colon (htree.regular s hsmem).colon
      (hsrc.symm.trans hsrc')
    have hsame : m = s := hlaid.eq_of_lineno hm hsmem (branchingClasses_compound hcls)
      (branchingClasses_compound hcls') hline
    exact hsame ▸ hs

/-- A file with complete control flow is covered. -/
lemma sources_of_complete (hgram : py.ParsesGrammar) (hlays : py.LaysOut)
    (hprep : PreparedFiles py snapshot.files) (hmade : MadeOf py snapshot.files graph)
    (hcomplete : FlowComplete py snapshot graph) : FlowSources py snapshot.files := by
  constructor
  · intro file hfile hother tree hparse f hf hfun m hm
    have hmem := tree.mem_nodes_trans hf hm
    refine @straight_of_needed file.path tree m (hlays _ _ hparse) hmem fun e he => ?_
    exact hother (source_of_needed hgram hprep hmade hfile hparse hmem he
      (hcomplete file hfile tree hparse f hf hfun m hm e he)).1
  · intro file hfile hfind tree hparse f hf hfun m hm
    have htree := hgram _ _ hparse
    have hlaid := hlays _ _ hparse
    have hmem := tree.mem_nodes_trans hf hm
    have hsource := fun e (he : e ∈ neededAt file.path m) => (source_of_needed hgram hprep
      hmade hfile hparse hmem he (hcomplete file hfile tree hparse f hf hfun m hm e he)).2
    constructor
    · by_cases hshort : ∀ b ∈ m.blocks, b.length ≤ 1
      · exact Or.inr hshort
      obtain ⟨b, hshort⟩ := not_forall.1 hshort
      obtain ⟨hb, hlong⟩ := Classical.not_imp.1 hshort
      obtain ⟨e, he⟩ := @exists_seqEdge file.path b hlong
      obtain ⟨function, hfunction, hbody⟩ := hsource e (mem_neededAt.2 (Or.inl ⟨b, hb, he⟩))
      exact Or.inl (topLevel_of_seq htree hlaid hmem hb he hfunction hbody)
    · by_cases hcls : m.cls ∈ branchingClasses
      · obtain ⟨e, he⟩ := exists_branchEdge file.path hlaid hmem hcls
        obtain ⟨function, hfunction, hbody⟩ := hsource e (mem_neededAt.2 (Or.inr he))
        exact Or.inl ⟨function, hfunction,
          direct_of_branch htree hlaid hmem he hfunction hbody⟩
      · exact Or.inr hcls

/-- A covered file has complete control flow. -/
lemma complete_of_sources (hlays : py.LaysOut) (hprep : PreparedFiles py snapshot.files)
    (hmade : MadeOf py snapshot.files graph) (hsources : FlowSources py snapshot.files) :
    FlowComplete py snapshot graph := by
  intro file hfile tree hparse f hf hfun m hm e he
  by_cases hfind : snapshot.files.find? (showsFunction py) = some file
  · obtain ⟨hblocks, hbranching⟩ := hsources.first file hfile hfind tree hparse f hf hfun m hm
    have hmem := tree.mem_nodes_trans hf hm
    rcases mem_neededAt.1 he with ⟨b, hb, he⟩ | he
    · rcases hblocks with hfunction | hshort
      · obtain ⟨-, -, horelse, hfinal⟩ := (hlays _ _ hparse).function m hmem
          (mem_nodes_of_topLevel hfunction).2
        refine mem_of_flow hprep hlays hmade hfile hfind hparse hfunction
          ((mem_bodyEdges none _).2 (Or.inl ?_))
        simp only [Node.blocks, List.mem_cons, List.not_mem_nil, or_false, horelse, hfinal] at hb
        rcases hb with rfl | rfl | rfl
        · exact he
        · cases he
        · cases he
      · rw [seqEdges_eq_nil (hshort b hb)] at he
        cases he
    · rcases hbranching with ⟨function, hfunction, hbody⟩ | hcls
      · exact mem_of_flow hprep hlays hmade hfile hfind hparse hfunction
          ((mem_bodyEdges none _).2 (Or.inr ⟨m, hbody, he⟩))
      · rw [branchEdges_eq_nil hcls] at he
        cases he
  · obtain ⟨hblocks, hcls⟩ := hsources.others file hfile hfind tree hparse f hf hfun m hm
    exact absurd he (neededAt_eq_nil hblocks hcls e)

end Complete

/-! ## Two snapshots -/

/-- `pass`, in this line. -/
def passNode (line : Nat) : Node := .mk "Pass" (some line) (some line) []

/-- A function without parameters. -/
def functionNode (name : String) (line endLine : Nat) (body : List Node) : Node :=
  .mk "FunctionDef" (some line) (some endLine)
    [("name", .constant (.str name)),
      ("args", .node (.mk "arguments" none none
        [("posonlyargs", .list []), ("args", .list []), ("vararg", .constant .none),
          ("kwonlyargs", .list []), ("kw_defaults", .list []), ("kwarg", .constant .none),
          ("defaults", .list [])])),
      ("body", .list (body.map .node)),
      ("decorator_list", .list []),
      ("returns", .constant .none),
      ("type_comment", .constant .none)]

/-- A module. -/
def moduleNode (body : List Node) : Node :=
  .mk "Module" none none [("body", .list (body.map .node)), ("type_ignores", .list [])]

/-- An `if` statement in the second line. -/
def ifNode : Node :=
  .mk "If" (some 2) (some 3)
    [("test", .node (.mk "Constant" (some 2) (some 2)
        [("value", .constant (.int 1)), ("kind", .constant .none)])),
      ("body", .list [.node (passNode 3)]),
      ("orelse", .list [])]

/-- The tree of a function with this statement and `pass` after it. -/
def branchTree : Node := moduleNode [functionNode "f" 1 4 [ifNode, passNode 4]]

/-- The text of this tree. -/
def branchText : String := "def f():\n    if 1:\n        pass\n    pass\n"

/-- The tree of a class with a method of two statements. -/
def methodTree : Node :=
  moduleNode [.mk "ClassDef" (some 1) (some 4)
    [("name", .constant (.str "A")), ("bases", .list []), ("keywords", .list []),
      ("body", .list [.node (functionNode "f" 2 4 [passNode 3, passNode 4])]),
      ("decorator_list", .list [])]]

/-- The text of this tree. -/
def methodText : String := "class A:\n    def f():\n        pass\n        pass\n"

lemma branchTree_grammatical : branchTree.Grammatical :=
  grammatical_of_forall rfl rfl (by decide) (by decide)

lemma branchTree_laidOut : branchTree.LaidOut where
  compounds := by decide
  oneBlock := eq_of_blocks (by decide)
  function := by decide
  import_ := by decide
  loop := by decide
  try_ := by decide
  identifier := identifier_of_none (by decide)

lemma methodTree_grammatical : methodTree.Grammatical :=
  grammatical_of_forall rfl rfl (by decide) (by decide)

lemma methodTree_laidOut : methodTree.LaidOut where
  compounds := by decide
  oneBlock := eq_of_blocks (by decide)
  function := by decide
  import_ := by decide
  loop := by decide
  try_ := by decide
  identifier := identifier_of_none (by decide)

end Sast.Prepare
