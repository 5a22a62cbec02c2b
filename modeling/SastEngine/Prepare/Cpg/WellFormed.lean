import SastEngine.Prepare.Cpg.ControlFlow
import SastEngine.Prepare.Cpg.FlowNames

/-!
# When the graph is well formed

The flow passes name statements and parameters by ids that no pass emits, and a lookup does not
find the names that the data-flow pass has emitted.  The graph is well formed only when these
passes have nearly nothing to add.
-/

namespace Sast.Prepare

variable {py : PyInterpreter}

/-! ## The property -/

/-- Ids are unique, edges lead from node to node, and the registered ids are of nodes of that
kind. -/
structure WellFormed (g : CodePropertyGraph) : Prop where
  unique : g.ids.Nodup
  src : ∀ e ∈ g.edges, e.src ∈ g.ids
  dst : ∀ e ∈ g.edges, e.dst ∈ g.ids
  fileNodes : ∀ i ∈ g.fileNodes, ∃ n ∈ g.nodes, n.id = i ∧ n.kind = .file
  functionNodes : ∀ i ∈ g.functionNodes, ∃ n ∈ g.nodes, n.id = i ∧ n.kind = .function
  callNodes : ∀ i ∈ g.callNodes, ∃ n ∈ g.nodes, n.id = i ∧ n.kind = .call

/-- The class, the line and the depth of a node that is shown. -/
def shownAt (p : Node × Nat) : String × Nat × Nat := (p.1.cls, p.1.lineno?.getD 1, p.2)

/-- A function without parameters whose body is one statement that does not branch. -/
structure PlainFunction (function : Node) : Prop where
  params : paramNames function = []
  body : (function.children "body").length ≤ 1
  straight : ∀ s ∈ function.children "body", s.cls ∉ branchingClasses

/-- The names that a statement assigns, with its line. -/
def assignedBy (stmt : Node) : List (String × Nat) :=
  if stmt.cls = "Assign" then
    (stmt.children "targets").filterMap fun target =>
      match target.text? "id" with
      | some name => if target.cls = "Name" then some (name, stmt.lineno) else none
      | none => none
  else []

/-- The names that the function of an entry assigns directly. -/
def assignedNames (tree : Node) (info : FunctionInfo) : List (String × Nat) :=
  match topLevelFunction tree info with
  | none => []
  | some function => (function.children "body").flatMap assignedBy

/-- The files whose graph is well formed: no two nodes that are shown have the same class, line and
depth, and in the first file that shows a function the top-level ones are plain and assign no name
twice in a line. -/
structure WellFormedSources (py : PyInterpreter) (files : List SourceFile) : Prop where
  distinct : ∀ file ∈ files, ∀ tree, storedTree py file = some tree →
    ((tree.shown 0).map shownAt).Nodup
  first : ∀ file, files.find? (showsFunction py) = some file →
    ∀ tree, storedTree py file = some tree →
      (∀ function ∈ topLevelFunctions tree, PlainFunction function)
        ∧ (file.functions.flatMap (assignedNames tree)).Nodup

/-! ## The ids of the trees -/

lemma shownAt_inj {path path' : String} {tree tree' : Node} (htree : tree.Grammatical)
    (htree' : tree'.Grammatical) {p p' : Node × Nat} (hp : p ∈ tree.shown 0)
    (hp' : p' ∈ tree'.shown 0) (h : treeId path p = treeId path' p') :
    path = path' ∧ shownAt p = shownAt p' := by
  obtain ⟨hpath, hcls, hline, hdepth⟩ :=
    astId_inj (htree.regular _ (mem_of_shown htree hp).1).colon
      (htree'.regular _ (mem_of_shown htree' hp').1).colon h
  exact ⟨hpath, by rw [shownAt, shownAt, hcls, hline, hdepth]⟩

/-- The ids of one file. -/
lemma nodup_treeIds_iff (hgram : py.ParsesGrammar) {file : SourceFile}
    (hpython : endswith ".py" file.path = true) {tree : Node}
    (hsome : storedTree py file = some tree) :
    (treeIds py file).Nodup ↔ ((tree.shown 0).map shownAt).Nodup := by
  have htree := hgram.stored hsome
  have hnew : (fileNode file).id ∉ (tree.shown 0).map (treeId file.path) := by
    intro hmem
    obtain ⟨p, -, hp⟩ := List.mem_map.1 hmem
    exact fileNode_id_ne_astId hpython _ _ _ _ hp.symm
  rw [treeIds, hsome]
  dsimp only
  rw [List.nodup_cons]
  constructor
  · rintro ⟨-, hids⟩
    refine List.Nodup.map_on (fun p hp p' hp' heq => ?_) hids.of_map
    refine List.inj_on_of_nodup_map hids hp hp' ?_
    obtain ⟨hcls, hrest⟩ := Prod.mk.inj heq
    obtain ⟨hline, hdepth⟩ := Prod.mk.inj hrest
    rw [treeId, treeId, hcls, hline, hdepth]
  · intro hshown
    refine ⟨hnew, List.Nodup.map_on (fun p hp p' hp' heq => ?_) hshown.of_map⟩
    exact List.inj_on_of_nodup_map hshown hp hp' (shownAt_inj htree htree hp hp' heq).2

/-- Ids of different files differ. -/
lemma disjoint_treeIds (hgram : py.ParsesGrammar) {files : List SourceFile}
    (hprep : PreparedFiles py files) {file file' : SourceFile} (hfile : file ∈ files)
    (hfile' : file' ∈ files) (hne : file.path ≠ file'.path) :
    (treeIds py file).Disjoint (treeIds py file') := by
  intro i hi hi'
  rw [treeIds] at hi hi'
  split at hi
  · cases hi
  · rename_i tree hsome
    split at hi'
    · cases hi'
    · rename_i tree' hsome'
      rcases List.mem_cons.1 hi with rfl | hi
      · rcases List.mem_cons.1 hi' with heq | hi'
        · exact hne (fileNode_id_inj heq)
        · obtain ⟨p', -, hp'⟩ := List.mem_map.1 hi'
          exact fileNode_id_ne_astId (hprep.python file hfile) _ _ _ _ hp'.symm
      · obtain ⟨p, hp, rfl⟩ := List.mem_map.1 hi
        rcases List.mem_cons.1 hi' with heq | hi'
        · exact fileNode_id_ne_astId (hprep.python file' hfile') _ _ _ _ heq.symm
        · obtain ⟨p', hp', heq⟩ := List.mem_map.1 hi'
          exact hne (shownAt_inj (hgram.stored hsome) (hgram.stored hsome') hp hp' heq.symm).1

/-- The ids of all files. -/
lemma nodup_flatMap_treeIds_iff (hgram : py.ParsesGrammar) {files : List SourceFile}
    (hprep : PreparedFiles py files) :
    (files.flatMap (treeIds py)).Nodup ↔ ∀ file ∈ files, ∀ tree,
      storedTree py file = some tree → ((tree.shown 0).map shownAt).Nodup := by
  rw [List.nodup_flatMap]
  constructor
  · rintro ⟨hids, -⟩ file hfile tree hsome
    exact (nodup_treeIds_iff hgram (hprep.python file hfile) hsome).1 (hids file hfile)
  · intro hshown
    refine ⟨fun file hfile => ?_, ?_⟩
    · cases hsome : storedTree py file with
      | none =>
          rw [treeIds, hsome]
          exact List.nodup_nil
      | some tree =>
          exact (nodup_treeIds_iff hgram (hprep.python file hfile) hsome).2
            (hshown file hfile tree hsome)
    · have hpaths := List.pairwise_map.1 hprep.distinct
      exact hpaths.imp_of_mem fun hfile hfile' hne =>
        disjoint_treeIds hgram hprep hfile hfile' hne

/-! ## Ids that no pass emits -/

/-- An id of the graph is one of the AST pass, one of a file, or one of the data-flow pass. -/
lemma mem_ids_cases (hgram : py.ParsesGrammar) {files : List SourceFile}
    {flow : List CpgEdge} {names : List String} {graph : CodePropertyGraph}
    (hmade : Made py files flow names graph) {i : String} (hi : i ∈ graph.ids) :
    (∃ file ∈ files, i = (fileNode file).id)
      ∨ (∃ path cls line depth, ':' ∉ cls.toList ∧ i = astId path cls (line : Nat) depth)
      ∨ i ∈ names := by
  rcases List.mem_append.1 (hmade.ids.subset hi) with hi | hi
  · obtain ⟨file, hfile, hi⟩ := List.mem_flatMap.1 hi
    rw [treeIds] at hi
    split at hi
    · cases hi
    · rename_i tree hsome
      have htree := hgram.stored hsome
      rcases List.mem_cons.1 hi with heq | hi
      · exact Or.inl ⟨file, hfile, heq⟩
      · obtain ⟨p, hp, rfl⟩ := List.mem_map.1 hi
        exact Or.inr (Or.inl ⟨_, _, _, _,
          (htree.regular _ (mem_of_shown htree hp).1).colon, rfl⟩)
  · exact Or.inr (Or.inr hi)

section Dangling

variable {files : List SourceFile} {flow : List CpgEdge} {names : List String}
  {graph : CodePropertyGraph}

/-- No node stands for a statement under the id of the control-flow pass. -/
lemma stmtId_notMem (hgram : py.ParsesGrammar) (hprep : PreparedFiles py files)
    (hmade : Made py files flow names graph) (hnames : ∀ i ∈ names, ∃ path, FlowId path i)
    (path : String) (stmt : Node) : stmtId path stmt ∉ graph.ids := by
  intro hmem
  have hlast := lastChar_stmtId path stmt
  rcases mem_ids_cases hgram hmade hmem with ⟨file, hfile, heq⟩ | ⟨_, _, _, _, -, heq⟩ | hname
  · rw [heq, lastChar_fileNode (hprep.python file hfile)] at hlast
    exact absurd hlast (by decide)
  · obtain ⟨c, hc, hdigit⟩ := lastChar_astId _ _ _ _
    rw [heq, hc] at hlast
    obtain rfl := Option.some.inj hlast
    exact absurd hdigit (by decide)
  · obtain ⟨path', hid⟩ := hnames _ hname
    rcases hid.lastChar with hid | hid
    · exact absurd (hlast.symm.trans hid) (by decide)
    · exact absurd (hlast.symm.trans hid) (by decide)

/-- No node stands for a parameter. -/
lemma paramId_notMem (hgram : py.ParsesGrammar) (hprep : PreparedFiles py files)
    (hmade : Made py files flow names graph) (hnames : ∀ i ∈ names, ∃ path, FlowId path i)
    (path : String) {name : String} (hname : name = "" ∨ IsIdentifier name) (line : Nat) :
    path ++ ":param:" ++ name ++ ":" ++ toString line ∉ graph.ids := by
  intro hmem
  obtain ⟨c, hlast, hdigit⟩ := lastChar_append_toString (path ++ ":param:" ++ name ++ ":") line
  rcases mem_ids_cases hgram hmade hmem with ⟨file, hfile, heq⟩ | ⟨_, _, _, _, hcls, heq⟩ | hid
  · rw [heq, lastChar_fileNode (hprep.python file hfile)] at hlast
    obtain rfl := Option.some.inj hlast
    exact absurd hdigit (by decide)
  · have hcolon : ':' ∉ name.toList := by
      rcases hname with rfl | hname
      · decide
      · exact hname.colon
    rw [astId, toString_natCast] at heq
    obtain ⟨heq, -⟩ :=
      append_colon_inj (colon_notMem_toString line) (colon_notMem_toString _) heq
    rw [show path ++ ":param:" ++ name = (path ++ ":param") ++ ":" ++ name by
      rw [@String.append_assoc path ":param" ":"]; rfl] at heq
    obtain ⟨-, heq⟩ := append_colon_inj hcolon (colon_notMem_toString _) heq
    rcases hname with rfl | hname
    · exact toString_ne_empty _ heq.symm
    · exact hname.digits _ heq
  · obtain ⟨path', hid⟩ := hnames _ hid
    rcases hid.lastChar with hid | hid
    · obtain rfl := Option.some.inj (hlast.symm.trans hid)
      exact absurd hdigit (by decide)
    · obtain rfl := Option.some.inj (hlast.symm.trans hid)
      exact absurd hdigit (by decide)

end Dangling

/-! ## What plain functions add -/

/-- Names that no identifier is. -/
def Starred (scope : List String) : Prop := ∀ name ∈ scope, '*' ∈ name.toList

lemma starred_argNames {function : Node} (h : paramNames function = []) :
    Starred (argNames function) := by
  rw [paramNames] at h
  rw [argNames]
  cases hargs : function.child? "args" with
  | none => simp [Starred]
  | some args =>
      rw [hargs] at h
      obtain ⟨hfirst, hkwonly⟩ := List.append_eq_nil_iff.1 (List.map_eq_nil_iff.1 h)
      obtain ⟨hposargs, hposonly⟩ := List.append_eq_nil_iff.1 hfirst
      intro name hname
      simp only [hposargs, hposonly, hkwonly, List.append_nil, List.map_nil, List.nil_append,
        List.mem_append, Option.mem_toList, Option.map_eq_some_iff] at hname
      rcases hname with ⟨s, -, rfl⟩ | ⟨s, -, rfl⟩
      · rw [String.toList_append]
        exact List.mem_append_left _ (by decide)
      · rw [String.toList_append]
        exact List.mem_append_left _ (by decide)

section Plain

variable {path : String} {tree : Node}

/-- Names that are not in scope call for no node. -/
lemma emittedIds_uses {events : List NameEvent} {scope : List String}
    (h : ∀ event ∈ events, ∃ name line, event = .use name line ∧ name ∉ scope) :
    emittedIds path scope events = [] ∧ events.foldl scopeAfter scope = scope := by
  induction events with
  | nil => exact ⟨rfl, rfl⟩
  | cons event rest ih =>
      obtain ⟨⟨name, line, rfl, hname⟩, hrest⟩ := List.forall_mem_cons.1 h
      obtain ⟨hids, hscope⟩ := ih hrest
      exact ⟨by rw [emittedIds, eventIds, if_neg hname, scopeAfter, hids]; rfl, hscope⟩

lemma mem_nodes_of_child {n m : Node} {name : String} (h : n.child? name = some m) :
    m ∈ n.nodes := by
  cases n with
  | mk cls lineno endLineno fields =>
      refine List.mem_cons_of_mem _ ?_
      rw [Node.child?, Node.field] at h
      induction fields with
      | nil => cases h
      | cons field rest ih =>
          obtain ⟨key, value⟩ := field
          rw [Dict.getEntry] at h
          by_cases hkey : key = name
          · rw [if_pos hkey, Option.getD_some] at h
            refine List.mem_append_left _ (valueNodes_subset ?_)
            cases value with
            | node m' =>
                obtain rfl := Option.some.inj h
                exact List.mem_singleton_self _
            | list items => cases h
            | constant c => cases h
          · rw [if_neg hkey] at h
            exact List.mem_append_right _ (ih h)

/-- Where no name is in scope, the value of a statement calls for nothing. -/
lemma valueEvents_starred (hlaid : tree.LaidOut) {stmt : Node} (hstmt : stmt ∈ tree.nodes)
    {scope : List String} (hscope : Starred scope) :
    ∀ event ∈ valueEvents stmt, ∃ name line, event = .use name line ∧ name ∉ scope := by
  intro event hevent
  rw [valueEvents] at hevent
  split at hevent
  · rename_i value hvalue
    obtain ⟨node, hnode, hevent⟩ := List.mem_flatMap.1 hevent
    have hmem := tree.mem_nodes_trans (tree.mem_nodes_trans hstmt (mem_nodes_of_child hvalue)) hnode
    rw [useEvents] at hevent
    split at hevent
    · rename_i name htext
      have hid := hlaid.identifier node hmem name (Or.inl htext)
      split_ifs at hevent
      · obtain rfl := List.mem_singleton.1 hevent
        exact ⟨name, node.lineno, rfl, fun h => hid.star (hscope name h)⟩
      · cases hevent
    · cases hevent
  · cases hevent

/-- Each assigned name calls for a node. -/
lemma emittedIds_targets (line : Nat) (targets : List Node) (scope : List String) :
    emittedIds path scope (targets.flatMap (defineEvents line))
      = (targets.filterMap fun target =>
          match target.text? "id" with
          | some name => if target.cls = "Name" then some (name, line) else none
          | none => none).map fun p => defId path p.1 p.2 := by
  induction targets generalizing scope with
  | nil => rfl
  | cons target rest ih =>
      rw [List.flatMap_cons, emittedIds_append, ih, List.filterMap_cons, defineEvents]
      cases target.text? "id" with
      | none => rfl
      | some name =>
          by_cases hname : target.cls = "Name"
          · simp [hname, emittedIds, eventIds]
          · simp [hname, emittedIds]

/-- A statement that does not branch calls for the names that it assigns. -/
lemma emittedIds_stmt (hlaid : tree.LaidOut) {stmt : Node} (hstmt : stmt ∈ tree.nodes)
    (hcls : stmt.cls ∉ branchingClasses) {scope : List String} (hscope : Starred scope) :
    emittedIds path scope (stmtEvents stmt)
      = (assignedBy stmt).map fun p => defId path p.1 p.2 := by
  obtain ⟨hids, hsame⟩ :=
    @emittedIds_uses path _ _ (valueEvents_starred hlaid hstmt hscope)
  cases stmt with
  | mk cls lineno endLineno fields =>
      simp only [branchingClasses, List.mem_cons, List.not_mem_nil, or_false, not_or,
        Node.cls] at hcls
      obtain ⟨hif, hfor, hwhile, htry⟩ := hcls
      rw [stmtEvents, assignedBy]
      by_cases hassign : cls = "Assign"
      · rw [if_pos hassign, if_pos (show (Node.mk cls lineno endLineno fields).cls = "Assign"
          from hassign), emittedIds_append, hids, hsame]
        exact emittedIds_targets _ _ scope
      · rw [if_neg hassign, if_neg (show ¬ (Node.mk cls lineno endLineno fields).cls = "Assign"
          from hassign), if_neg hif, if_neg hfor, if_neg hwhile, if_neg htry]
        split_ifs
        · rfl
        · exact hids
        · rfl

/-- A plain function calls for the names that it assigns. -/
lemma entryIds_of_plain (path : String) (hlaid : tree.LaidOut) {info : FunctionInfo}
    (hplain : ∀ function ∈ topLevelFunctions tree, PlainFunction function)
    (hargs : ∀ function, topLevelFunction tree info = some function →
      info.args = argNames function) :
    entryIds path tree info = (assignedNames tree info).map fun p => defId path p.1 p.2 := by
  rw [entryIds, assignedNames]
  cases htop : topLevelFunction tree info with
  | none => rfl
  | some function =>
      have hfunction := (topLevelFunction_eq_some htop).1
      obtain ⟨hparams, hbody, hstraight⟩ := hplain function hfunction
      have hmem := (mem_nodes_of_topLevel hfunction).1
      have hscope : Starred info.args := hargs function htop ▸ starred_argNames hparams
      dsimp only
      generalize hblock : function.children "body" = block at hbody hstraight
      rcases block with _ | ⟨stmt, _ | ⟨_, _⟩⟩
      · rfl
      · have hstmt : stmt ∈ tree.nodes :=
          tree.mem_nodes_trans hmem (mem_nodes_of_children (hblock ▸ List.mem_singleton_self _))
        rw [List.flatMap_singleton, List.flatMap_singleton]
        exact emittedIds_stmt hlaid hstmt (hstraight stmt List.mem_cons_self) hscope
      · simp at hbody

end Plain

/-! ## When the graph is well formed -/

section WellFormed

variable {files : List SourceFile} {file : SourceFile} {tree : Node} {params : List CpgEdge}
  {names : List String} {g₁ g₂ : CodePropertyGraph} {index : Dict String CpgNode}

lemma FlowPasses.flowIds (h : FlowPasses py file tree params names g₁ g₂ index) :
    ∀ i ∈ names, ∃ path, FlowId path i := by
  obtain ⟨extra, -, -, hnames⟩ := h.names_eq
  exact fun i hi => ⟨file.path, hnames i hi⟩

/-- The ids that the data-flow pass adds for plain functions. -/
lemma FlowPasses.names_of_plain (h : FlowPasses py file tree params names g₁ g₂ index)
    (hfile : parseFile py file.path file.source = .ok file) (hsome : storedTree py file = some tree)
    (hlaid : tree.LaidOut)
    (hplain : ∀ function ∈ topLevelFunctions tree, PlainFunction function) :
    names = (file.functions.flatMap (assignedNames tree)).map fun p => defId file.path p.1 p.2 := by
  rw [h.names_eq_entryIds hsome, List.map_flatMap]
  exact List.flatMap_congr fun info hinfo => entryIds_of_plain file.path hlaid hplain
    fun function => args_of_topLevel hfile hsome hlaid hinfo

lemma assignedBy_identifier (hlaid : tree.LaidOut) {stmt : Node} (hstmt : stmt ∈ tree.nodes)
    {p : String × Nat} (hp : p ∈ assignedBy stmt) : IsIdentifier p.1 := by
  rw [assignedBy] at hp
  split at hp
  · obtain ⟨target, htarget, hname⟩ := List.mem_filterMap.1 hp
    have hmem := tree.mem_nodes_trans hstmt (mem_nodes_of_children htarget)
    cases htext : target.text? "id" with
    | none =>
        rw [htext] at hname
        cases hname
    | some name =>
        rw [htext] at hname
        dsimp only at hname
        split at hname
        · obtain rfl := Option.some.inj hname
          exact hlaid.identifier target hmem name (Or.inl htext)
        · cases hname
  · cases hp

lemma defId_inj {path name name' : String} {line line' : Nat} (hname : ':' ∉ name.toList)
    (hname' : ':' ∉ name'.toList) (h : defId path name line = defId path name' line') :
    name = name' ∧ line = line' := by
  have hsplit : ∀ (s : String) (n : Nat), defId path s n
      = path ++ ":Name" ++ ":" ++ s ++ ":" ++ toString n ++ ":" ++ "def" := by
    intro s n
    rw [@String.append_assoc _ ":" "def", @String.append_assoc path ":Name" ":"]
    rfl
  rw [hsplit, hsplit] at h
  obtain ⟨h, -⟩ := append_colon_inj (by decide) (by decide) h
  obtain ⟨h, hline⟩ := append_colon_inj (colon_notMem_toString _) (colon_notMem_toString _) h
  exact ⟨(append_colon_inj hname hname' h).2, toString_inj hline⟩

/-- Different assigned names have different ids. -/
lemma nodup_names_iff (hlaid : tree.LaidOut) (path : String) (infos : List FunctionInfo) :
    ((infos.flatMap (assignedNames tree)).map fun p => defId path p.1 p.2).Nodup
      ↔ (infos.flatMap (assignedNames tree)).Nodup := by
  refine ⟨List.Nodup.of_map _, fun hnodup => List.Nodup.map_on (fun p hp p' hp' heq => ?_) hnodup⟩
  have hcolon : ∀ q ∈ infos.flatMap (assignedNames tree), ':' ∉ q.1.toList := by
    intro q hq
    obtain ⟨info, -, hq⟩ := List.mem_flatMap.1 hq
    rw [assignedNames] at hq
    split at hq
    · cases hq
    · rename_i function htop
      obtain ⟨stmt, hstmt, hq⟩ := List.mem_flatMap.1 hq
      have hmem := (mem_nodes_of_topLevel (topLevelFunction_eq_some htop).1).1
      exact (assignedBy_identifier hlaid
        (tree.mem_nodes_trans hmem (mem_nodes_of_children hstmt)) hq).colon
  obtain ⟨hname, hline⟩ := defId_inj (hcolon p hp) (hcolon p' hp') heq
  exact Prod.ext hname hline

/-- The ids of the data-flow pass are no ids of trees. -/
lemma disjoint_names (hprep : PreparedFiles py files) {names : List String}
    (hnames : ∀ i ∈ names, ∃ path, FlowId path i) :
    (files.flatMap (treeIds py)).Disjoint names := by
  intro i hi hname
  obtain ⟨path, hid⟩ := hnames i hname
  obtain ⟨file, hfile, hi⟩ := List.mem_flatMap.1 hi
  rw [treeIds] at hi
  split at hi
  · cases hi
  · rcases List.mem_cons.1 hi with rfl | hi
    · exact hid.ne_fileNode_id (hprep.python file hfile) rfl
    · obtain ⟨p, -, rfl⟩ := List.mem_map.1 hi
      exact hid.ne_astId _ _ _ _ rfl

/-- The names of the parameters are identifiers, or missing. -/
lemma paramNames_identifier (hlaid : tree.LaidOut) {function : Node}
    (hfunction : function ∈ tree.nodes) {name : String} (h : name ∈ paramNames function) :
    name = "" ∨ IsIdentifier name := by
  rw [paramNames] at h
  split at h
  · cases h
  · rename_i args hargs
    obtain ⟨arg, harg, rfl⟩ := List.mem_map.1 h
    have hmem : arg ∈ args.nodes := by
      rcases List.mem_append.1 harg with harg | harg
      · rcases List.mem_append.1 harg with harg | harg
        · exact mem_nodes_of_children harg
        · exact mem_nodes_of_children harg
      · exact mem_nodes_of_children harg
    have htree := tree.mem_nodes_trans (tree.mem_nodes_trans hfunction (mem_nodes_of_child hargs))
      hmem
    cases htext : arg.text? "arg" with
    | none => exact Or.inl rfl
    | some s => exact Or.inr (hlaid.identifier arg htree s (Or.inr htext))

/-- In a well-formed graph the functions of the first file are plain. -/
lemma plain_of_wellFormed (hgram : py.ParsesGrammar) (hprep : PreparedFiles py files)
    {graph : CodePropertyGraph} (hwf : WellFormed graph) (hfile : file ∈ files)
    (hsome : storedTree py file = some tree) (hlaid : tree.LaidOut)
    (hpasses : FlowPasses py file tree params names g₁ g₂ index)
    (hmade : Made py files (file.functions.flatMap (flowOf file.path tree) ++ params) names graph)
    {function : Node} (hfunction : function ∈ topLevelFunctions tree) : PlainFunction function := by
  obtain ⟨info, hinfo, htop⟩ := exists_info (hprep.parsed file hfile) hsome hlaid hfunction
  have hmem := (mem_nodes_of_topLevel hfunction).1
  have hbody : ∀ e, e ∉ bodyEdges file.path none (function.children "body") := by
    intro e he
    have hflow : e ∈ file.functions.flatMap (flowOf file.path tree) := by
      refine List.mem_flatMap.2 ⟨info, hinfo, ?_⟩
      rw [flowOf, htop]
      exact he
    have hsrc := hwf.src e (hmade.flow_mem e (List.mem_append_left _ hflow))
    rcases (mem_bodyEdges none _).1 he with hseq | ⟨s, -, hbranch⟩
    · obtain ⟨s, _, s', _, rfl⟩ := mem_seqEdges hseq
      exact stmtId_notMem hgram hprep hmade hpasses.flowIds _ _ hsrc
    · rw [(mem_branchEdges hbranch).1] at hsrc
      exact stmtId_notMem hgram hprep hmade hpasses.flowIds _ _ hsrc
  constructor
  · by_contra hparams
    obtain ⟨name, hname⟩ := List.exists_mem_of_ne_nil _ hparams
    have hedge : (⟨functionIdOf index g₁.functionNodes file.path info,
        file.path ++ ":param:" ++ name ++ ":" ++ toString function.lineno, .dfgParam,
        [("param_name", name)]⟩ : CpgEdge) ∈ params := by
      rw [hpasses.params_eq]
      refine List.mem_flatMap.2 ⟨info, hinfo, ?_⟩
      rw [paramsOf, htop]
      exact List.mem_map.2 ⟨name, hname, rfl⟩
    have hdst := hwf.dst _ (hmade.flow_mem _ (List.mem_append_right _ hedge))
    exact paramId_notMem hgram hprep hmade hpasses.flowIds file.path
      (paramNames_identifier hlaid hmem hname) function.lineno hdst
  · by_contra hlong
    obtain ⟨e, he⟩ := @exists_seqEdge file.path _ hlong
    exact hbody e ((mem_bodyEdges none _).2 (Or.inl he))
  · intro s hs hcls
    obtain ⟨e, he⟩ := exists_branchEdge file.path hlaid
      (tree.mem_nodes_trans hmem (mem_nodes_of_children hs)) hcls
    exact hbody e ((mem_bodyEdges none _).2 (Or.inr ⟨s, hs, he⟩))

/-- Plain functions get no flow edges. -/
lemma flow_of_plain (hplain : ∀ function ∈ topLevelFunctions tree, PlainFunction function)
    (hpasses : FlowPasses py file tree params names g₁ g₂ index) :
    file.functions.flatMap (flowOf file.path tree) ++ params = [] := by
  rw [hpasses.params_eq, List.append_eq_nil_iff, List.flatMap_eq_nil_iff, List.flatMap_eq_nil_iff]
  constructor
  · intro info _
    rw [flowOf]
    cases htop : topLevelFunction tree info with
    | none => rfl
    | some function =>
        obtain ⟨-, hbody, hstraight⟩ := hplain function (topLevelFunction_eq_some htop).1
        refine List.eq_nil_iff_forall_not_mem.2 fun e he => ?_
        rcases (mem_bodyEdges none _).1 he with hseq | ⟨s, hs, hbranch⟩
        · have hnil := @seqEdges_eq_nil file.path _ hbody
          rw [show (none : Option Node).toList ++ function.children "body"
            = function.children "body" from rfl, hnil] at hseq
          cases hseq
        · exact hstraight s hs (mem_branchEdges hbranch).2.2
  · intro info _
    rw [paramsOf]
    cases htop : topLevelFunction tree info with
    | none => rfl
    | some function =>
        obtain ⟨hparams, -, -⟩ := hplain function (topLevelFunction_eq_some htop).1
        simp only [paramEdges, hparams, List.map_nil]

/-- Without flow edges the graph is well formed when its ids are unique. -/
lemma wellFormed_of_made {graph : CodePropertyGraph} (hmade : Made py files [] names graph)
    (hunique : (files.flatMap (treeIds py) ++ names).Nodup) : WellFormed graph := by
  have hast : ∀ e ∈ graph.edges, e.src ∈ graph.ids ∧ e.dst ∈ graph.ids := by
    intro e he
    rcases hmade.edges e he with ⟨-, hends⟩ | hnil
    · exact hends
    · cases hnil
  exact ⟨hmade.ids.nodup_iff.2 hunique, fun e he => (hast e he).1, fun e he => (hast e he).2,
    fun i hi => mem_idsOfKind.1 (hmade.fileNodes i hi),
    fun i hi => mem_idsOfKind.1 (hmade.functionNodes i hi),
    fun i hi => mem_idsOfKind.1 (hmade.callNodes i hi)⟩

/-- **The graph is well formed exactly when the passes do not meet**: the nodes of each tree are
told apart by class, line and depth, and the functions that get a flow are plain. -/
theorem wellFormed_iff (hgram : py.ParsesGrammar) (hlays : py.LaysOut)
    {snapshot : ProjectSnapshot} (hprep : PreparedFiles py snapshot.files)
    {graph : CodePropertyGraph} (h : buildGraph py snapshot = .ok graph) :
    WellFormed graph ↔ WellFormedSources py snapshot.files := by
  have hmade := madeOf_buildGraph hgram hlays hprep h
  rw [MadeOf] at hmade
  cases hfind : snapshot.files.find? (showsFunction py) with
  | none =>
      rw [hfind] at hmade
      constructor
      · intro hwf
        have hunique := hmade.ids.nodup_iff.1 hwf.unique
        rw [List.append_nil] at hunique
        refine ⟨(nodup_flatMap_treeIds_iff hgram hprep).1 hunique, fun file hfile => ?_⟩
        rw [hfind] at hfile
        cases hfile
      · intro hsources
        refine wellFormed_of_made hmade ?_
        rw [List.append_nil]
        exact (nodup_flatMap_treeIds_iff hgram hprep).2 hsources.distinct
  | some file =>
      rw [hfind] at hmade
      obtain ⟨tree, params, names, g₁, g₂, index, hsome, hpasses, hmade⟩ := hmade
      have hfile := List.mem_of_find?_eq_some hfind
      have hlaid := hlays _ _ (storedTree_eq_some.1 hsome).1
      constructor
      · intro hwf
        have hunique := hmade.ids.nodup_iff.1 hwf.unique
        refine ⟨(nodup_flatMap_treeIds_iff hgram hprep).1 hunique.of_append_left, ?_⟩
        intro file' hfind' tree' hsome'
        obtain rfl := Option.some.inj (hfind.symm.trans hfind')
        obtain rfl := Option.some.inj (hsome.symm.trans hsome')
        have hplain : ∀ function ∈ topLevelFunctions tree, PlainFunction function :=
          fun function => plain_of_wellFormed hgram hprep hwf hfile hsome hlaid hpasses hmade
        have hnames := hpasses.names_of_plain (hprep.parsed file hfile) hsome hlaid hplain
        have hnodup := hunique.of_append_right
        rw [hnames] at hnodup
        exact ⟨hplain, (nodup_names_iff hlaid _ _).1 hnodup⟩
      · intro hsources
        obtain ⟨hplain, hassigned⟩ := hsources.first file hfind tree hsome
        rw [flow_of_plain hplain hpasses] at hmade
        have hnames := hpasses.names_of_plain (hprep.parsed file hfile) hsome hlaid hplain
        refine wellFormed_of_made hmade (List.nodup_append'.2 ⟨?_, ?_, ?_⟩)
        · exact (nodup_flatMap_treeIds_iff hgram hprep).2 hsources.distinct
        · rw [hnames]
          exact (nodup_names_iff hlaid _ _).2 hassigned
        · exact disjoint_names hprep hpasses.flowIds

end WellFormed

/-! ## Two snapshots -/

/-- The tree of a function that assigns `x = 1`. -/
def plainTree : Node :=
  moduleNode [functionNode "f" 1 2
    [.mk "Assign" (some 2) (some 2)
      [("targets", .list [.node (.mk "Name" (some 2) (some 2)
          [("id", .constant (.str "x")), ("ctx", .node (.mk "Store" none none []))])]),
        ("value", .node (.mk "Constant" (some 2) (some 2)
          [("value", .constant (.int 1)), ("kind", .constant .none)])),
        ("type_comment", .constant .none)]]]

/-- The text of this tree. -/
def plainText : String := "def f():\n    x = 1\n"

lemma plainTree_grammatical : plainTree.Grammatical :=
  grammatical_of_forall rfl rfl (by decide) (by decide)

lemma isIdentifier_x : IsIdentifier "x" where
  colon := by decide
  star := by decide
  digits n h := by
    have hx : 'x' ∈ (toString n).toList := h ▸ List.mem_singleton_self 'x'
    exact notMem_toString rfl n hx

/-- A tree with no other name than `x`. -/
lemma identifier_of_x {nodes : List Node}
    (h : ∀ n ∈ nodes, (n.text? "id" = none ∨ n.text? "id" = some "x") ∧ n.text? "arg" = none) :
    ∀ n ∈ nodes, ∀ s, n.text? "id" = some s ∨ n.text? "arg" = some s → IsIdentifier s := by
  intro n hn s hs
  obtain ⟨hid, harg⟩ := h n hn
  rcases hs with hs | hs
  · rcases hid with hnone | hsome
    · rw [hnone] at hs
      cases hs
    · obtain rfl := Option.some.inj (hsome.symm.trans hs)
      exact isIdentifier_x
  · rw [harg] at hs
    cases hs

lemma plainTree_laidOut : plainTree.LaidOut where
  compounds := by decide
  oneBlock := eq_of_blocks (by decide)
  function := by decide
  import_ := by decide
  loop := by decide
  try_ := by decide
  identifier := identifier_of_x (by decide)

/-- The graph of this function is well formed. -/
theorem wellFormed_plain : WellFormed (soleGraph (readsOnly plainText plainTree) plainText) := by
  have hparse := readsOnly_parse plainText plainTree
  have hbuild : buildGraph (readsOnly plainText plainTree)
      (soleSnapshot (readsOnly plainText plainTree) plainText)
    = .ok (soleGraph (readsOnly plainText plainTree) plainText) := rfl
  refine (wellFormed_iff (readsOnly_parsesGrammar _ plainTree_grammatical)
    (readsOnly_laysOut _ plainTree_laidOut) (preparedFiles_sole _ hparse) hbuild).2 ⟨?_, ?_⟩
  · refine List.forall_mem_singleton.2 fun tree hsome => ?_
    rw [storedTree_eq_some, soleFile_source _ hparse, hparse] at hsome
    obtain rfl := Except.ok.inj hsome.1
    decide +kernel
  · intro file hfind tree hsome
    obtain rfl : soleFile (readsOnly plainText plainTree) plainText = file :=
      Option.some.inj hfind
    rw [storedTree_eq_some, soleFile_source _ hparse, hparse] at hsome
    obtain rfl := Except.ok.inj hsome.1
    refine ⟨?_, by decide +kernel⟩
    rintro function (_ | ⟨_, hfunction⟩)
    · exact ⟨rfl, by decide, by decide⟩
    · cases hfunction

/-- The tree of a function with two statements. -/
def twoTree : Node := moduleNode [functionNode "f" 1 3 [passNode 2, passNode 3]]

/-- The text of this tree. -/
def twoText : String := "def f():\n    pass\n    pass\n"

lemma twoTree_grammatical : twoTree.Grammatical :=
  grammatical_of_forall rfl rfl (by decide) (by decide)

lemma twoTree_laidOut : twoTree.LaidOut where
  compounds := by decide
  oneBlock := eq_of_blocks (by decide)
  function := by decide
  import_ := by decide
  loop := by decide
  try_ := by decide
  identifier := identifier_of_none (by decide)

/-- **Two statements in a function are linked by an edge between no nodes.** -/
theorem not_wellFormed_two :
    (readsOnly twoText twoTree).ParsesGrammar ∧ (readsOnly twoText twoTree).LaysOut
      ∧ PreparedFiles (readsOnly twoText twoTree)
        (soleSnapshot (readsOnly twoText twoTree) twoText).files
      ∧ buildGraph (readsOnly twoText twoTree) (soleSnapshot (readsOnly twoText twoTree) twoText)
        = .ok (soleGraph (readsOnly twoText twoTree) twoText)
      ∧ ¬ WellFormed (soleGraph (readsOnly twoText twoTree) twoText) := by
  have hparse := readsOnly_parse twoText twoTree
  refine ⟨readsOnly_parsesGrammar _ twoTree_grammatical, readsOnly_laysOut _ twoTree_laidOut,
    preparedFiles_sole _ hparse, rfl, fun hwf => ?_⟩
  have hsrc := hwf.src ⟨"app.py:Pass:2:stmt", "app.py:Pass:3:stmt", .cfgSeq, []⟩
    (by decide +kernel)
  revert hsrc
  decide +kernel

end Sast.Prepare
