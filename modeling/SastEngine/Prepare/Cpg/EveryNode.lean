import SastEngine.Prepare.Cpg.Built
import Mathlib.Data.List.Perm.Subperm

/-!
# Which files the builder takes whole

The dictionary of a handler has the handler's expression under `type`, so that the AST pass raises
there, or leaves the handler out.  It also leaves out what stands below a node without a line
number, such as the parameters of a function and the expressions of a comprehension.
-/

namespace Sast.Prepare

variable {py : PyInterpreter}

/-! ## The property -/

/-- The ids of the nodes with a line number in the tree of a file. -/
def placedIds (py : PyInterpreter) (file : SourceFile) : List String :=
  match py.parse file.source with
  | .error _ => []
  | .ok tree => (tree.placed 0).map (treeId file.path)

/-- The stored dictionaries record the trees, and the builder emits every node with a line
number. -/
def AcceptsEveryNode (py : PyInterpreter) (snapshot : ProjectSnapshot) : Prop :=
  (∀ file ∈ snapshot.files, ∀ tree, py.parse file.source = .ok tree →
      ∃ dict, file.ast = some dict ∧ tree.Recorded dict)
    ∧ ∃ graph, buildGraph py snapshot = .ok graph
        ∧ (snapshot.files.flatMap (placedIds py)).Subperm graph.ids

/-- A tree that the traversals get through, without handlers, and with no line number below a node
that has none. -/
structure TakenWhole (py : PyInterpreter) (tree : Node) : Prop where
  traversed : py.recursionError tree = none
  noHandler : ∀ n ∈ tree.nodes, n.cls ≠ "ExceptHandler"
  placed : PlacedBelowPlaced (fieldNodes tree.fields)

/-! ## The ids of a file -/

/-- The ids of the file and of its module. -/
def headIds (py : PyInterpreter) (file : SourceFile) : List String :=
  match storedTree py file with
  | none => []
  | some tree => [(fileNode file).id, treeId file.path (tree, 0)]

/-- The ids of the nodes that are shown below the module. -/
def innerIds (py : PyInterpreter) (file : SourceFile) : List String :=
  match storedTree py file with
  | none => []
  | some tree => (fieldsShown 1 tree.fields).map (treeId file.path)

lemma treeIds_eq (hgram : py.ParsesGrammar) (file : SourceFile) :
    treeIds py file = headIds py file ++ innerIds py file := by
  rw [treeIds, headIds, innerIds]
  cases hstored : storedTree py file with
  | none => rfl
  | some tree =>
      dsimp only
      rw [shown_of_grammatical (hgram.stored hstored)]
      rfl

/-- The ids of the graph, with those below the modules at the end. -/
lemma ids_perm (hgram : py.ParsesGrammar) {snapshot : ProjectSnapshot}
    (hprep : PreparedFiles py snapshot.files) {graph : CodePropertyGraph}
    (h : buildGraph py snapshot = .ok graph) :
    ∃ flow, graph.ids.Perm ((snapshot.files.flatMap (headIds py) ++ flow)
        ++ snapshot.files.flatMap (innerIds py))
      ∧ ∀ i ∈ flow, ∃ file ∈ snapshot.files, FlowId file.path i := by
  obtain ⟨flow, hids, hflow⟩ := buildGraph_ids hgram hprep h
  refine ⟨flow, hids.trans ?_, hflow⟩
  have hsplit : (snapshot.files.flatMap (treeIds py)).Perm
      (snapshot.files.flatMap (headIds py) ++ snapshot.files.flatMap (innerIds py)) := by
    rw [List.flatMap_congr fun file _ => treeIds_eq hgram file]
    exact (List.flatMap_append_perm _ _ _).symm
  refine (hsplit.append_right flow).trans ?_
  rw [List.append_assoc, List.append_assoc]
  exact List.perm_append_comm.append_left _

lemma innerIds_sublist (hgram : py.ParsesGrammar) (file : SourceFile) :
    (innerIds py file).Sublist (placedIds py file) := by
  rw [innerIds, placedIds]
  cases hstored : storedTree py file with
  | none => exact List.nil_sublist _
  | some tree =>
      have htree := hgram.stored hstored
      rw [(storedTree_eq_some.1 hstored).1]
      dsimp only
      rw [placed_of_grammatical htree]
      exact (fieldsShown_sublist tree.fields htree.inner 1).map _

lemma sublist_flatMap {α β : Type} {s p : α → List β} (l : List α)
    (h : ∀ a ∈ l, (s a).Sublist (p a)) : (l.flatMap s).Sublist (l.flatMap p) := by
  induction l with
  | nil => exact List.Sublist.refl _
  | cons a l ih =>
      obtain ⟨ha, hl⟩ := List.forall_mem_cons.1 h
      exact ha.append (ih hl)

lemma eq_of_flatMap_eq {α β : Type} {s p : α → List β} {l : List α}
    (h : ∀ a ∈ l, (s a).Sublist (p a)) (heq : l.flatMap s = l.flatMap p) :
    ∀ a ∈ l, s a = p a := by
  induction l with
  | nil => simp
  | cons a l ih =>
      obtain ⟨ha, hl⟩ := List.forall_mem_cons.1 h
      obtain ⟨hfirst, hrest⟩ := (append_eq_append_of_sublist ha (sublist_flatMap l hl)).1 heq
      exact List.forall_mem_cons.2 ⟨hfirst, ih hl hrest⟩

/-- The ids of the nodes of a tree are no others. -/
lemma placedIds_notMem (hgram : py.ParsesGrammar) {snapshot : ProjectSnapshot}
    (hprep : PreparedFiles py snapshot.files) {flow : List String}
    (hflow : ∀ i ∈ flow, ∃ file ∈ snapshot.files, FlowId file.path i) {i : String}
    (hi : i ∈ snapshot.files.flatMap (placedIds py)) :
    i ∉ snapshot.files.flatMap (headIds py) ++ flow := by
  obtain ⟨file, hfile, hi⟩ := List.mem_flatMap.1 hi
  rw [placedIds] at hi
  split at hi
  · cases hi
  · rename_i tree hparse
    have htree := hgram _ _ hparse
    rw [placed_of_grammatical htree] at hi
    obtain ⟨⟨n, depth⟩, hp, rfl⟩ := List.mem_map.1 hi
    have hn := mem_of_fieldsPlaced tree.fields hp
    have hcolon : ':' ∉ n.cls.toList := (htree.regular n (mem_nodes_of_mem_fields hn)).colon
    rw [List.mem_append, not_or]
    constructor
    · intro hhead
      obtain ⟨file', hfile', hhead⟩ := List.mem_flatMap.1 hhead
      rw [headIds] at hhead
      split at hhead
      · cases hhead
      · rename_i tree' hstored'
        have hmodule := (hgram.stored hstored').cls
        rcases List.mem_cons.1 hhead with heq | hhead
        · exact fileNode_id_ne_astId (hprep.python file' hfile') _ _ _ _ heq.symm
        · have heq := List.mem_singleton.1 hhead
          rw [treeId, treeId, hmodule] at heq
          obtain ⟨-, hcls, -⟩ := astId_inj hcolon (by decide) heq
          exact htree.inner n hn hcls
    · intro hmem
      obtain ⟨file', -, hid⟩ := hflow _ hmem
      exact hid.ne_astId _ _ _ _ rfl

/-- A tree without handlers shows all its nodes with a line number exactly when none of them stands
below a node without one. -/
lemma innerIds_eq_placedIds_iff (hgram : py.ParsesGrammar) {file : SourceFile} {tree : Node}
    (hsome : storedTree py file = some tree) (hno : ∀ n ∈ tree.nodes, n.cls ≠ "ExceptHandler") :
    innerIds py file = placedIds py file ↔ PlacedBelowPlaced (fieldNodes tree.fields) := by
  have htree := hgram.stored hsome
  have hinner : ∀ n ∈ fieldNodes tree.fields, n.cls ≠ "ExceptHandler" :=
    fun n hn => hno n (mem_nodes_of_mem_fields hn)
  rw [innerIds, placedIds, hsome, (storedTree_eq_some.1 hsome).1]
  dsimp only
  rw [placed_of_grammatical htree, ← fieldsShown_eq_placed_iff tree.fields htree.inner hinner 1]
  constructor
  · intro hids
    have hlength := congrArg List.length hids
    rw [List.length_map, List.length_map] at hlength
    exact (fieldsShown_sublist tree.fields htree.inner 1).eq_of_length_le hlength.ge
  · intro hshown
    rw [hshown]

/-! ## When the builder takes everything -/

/-- Recorded files have trees without handlers. -/
lemma stored_of_recorded (hgram : py.ParsesGrammar) {file : SourceFile}
    (hfile : parseFile py file.path file.source = .ok file) {tree : Node}
    (hparse : py.parse file.source = .ok tree) {dict : PyVal} (hdict : file.ast = some dict)
    (hrecorded : tree.Recorded dict) :
    storedTree py file = some tree ∧ ∀ n ∈ tree.nodes, n.cls ≠ "ExceptHandler" := by
  rw [(ast_of_parsed hfile).1] at hdict
  obtain ⟨tree', hsome, rfl⟩ := Option.map_eq_some_iff.1 hdict
  obtain rfl := Except.ok.inj (hparse.symm.trans (storedTree_eq_some.1 hsome).1)
  exact ⟨hsome, (tree.recorded_iff (hgram _ _ hparse).regular).1 hrecorded⟩

/-- When the graph has every id, no file leaves a node out. -/
lemma innerIds_eq_of_subperm (hgram : py.ParsesGrammar) {snapshot : ProjectSnapshot}
    (hprep : PreparedFiles py snapshot.files) {graph : CodePropertyGraph}
    (hbuild : buildGraph py snapshot = .ok graph)
    (hsub : (snapshot.files.flatMap (placedIds py)).Subperm graph.ids) :
    ∀ file ∈ snapshot.files, innerIds py file = placedIds py file := by
  obtain ⟨flow, hids, hflow⟩ := ids_perm hgram hprep hbuild
  have hinner : (snapshot.files.flatMap (innerIds py)).Sublist
      (snapshot.files.flatMap (placedIds py)) :=
    sublist_flatMap _ fun file _ => innerIds_sublist hgram file
  -- the ids of nodes with a line number can only be those of the AST pass
  have hplaced : (snapshot.files.flatMap (placedIds py)).Subperm
      (snapshot.files.flatMap (innerIds py)) := by
    refine List.subperm_ext_iff.2 fun i hi => ?_
    have hcount := (hsub.trans hids.subperm).count_le i
    have hzero := List.count_eq_zero.2 (placedIds_notMem hgram hprep hflow hi)
    rwa [List.count_append, hzero, Nat.zero_add] at hcount
  exact eq_of_flatMap_eq (fun file _ => innerIds_sublist hgram file)
    (hinner.eq_of_length_le hplaced.length_le)

/-- The builder takes a snapshot of parsed files whole exactly when it takes each tree whole. -/
theorem acceptsEveryNode_iff (hgram : py.ParsesGrammar) {snapshot : ProjectSnapshot}
    (hprep : PreparedFiles py snapshot.files)
    (hparses : ∀ file ∈ snapshot.files, ∃ tree, py.parse file.source = .ok tree) :
    AcceptsEveryNode py snapshot
      ↔ ∀ file ∈ snapshot.files, ∀ tree, py.parse file.source = .ok tree → TakenWhole py tree := by
  constructor
  · rintro ⟨hrecorded, graph, hbuild, hsub⟩ file hfile tree hparse
    obtain ⟨dict, hdict, htree⟩ := hrecorded file hfile tree hparse
    obtain ⟨hsome, hno⟩ :=
      stored_of_recorded hgram (hprep.parsed file hfile) hparse hdict htree
    have hids := innerIds_eq_of_subperm hgram hprep hbuild hsub file hfile
    exact ⟨(storedTree_eq_some.1 hsome).2, hno, (innerIds_eq_placedIds_iff hgram hsome hno).1 hids⟩
  · intro hwhole
    have hstored : ∀ file ∈ snapshot.files, ∀ tree, py.parse file.source = .ok tree →
        storedTree py file = some tree := fun file hfile tree hparse =>
      storedTree_eq_some.2 ⟨hparse, (hwhole file hfile tree hparse).traversed⟩
    have hno : ∀ file ∈ snapshot.files, ∀ tree, storedTree py file = some tree →
        ∀ n ∈ tree.nodes, n.cls ≠ "ExceptHandler" := fun file hfile tree hsome =>
      (hwhole file hfile tree (storedTree_eq_some.1 hsome).1).noHandler
    obtain ⟨g, hg⟩ := foldlM_buildFile_isOk hgram
      (fun file hfile => hprep.parsed file (List.mem_filter.1 hfile).1)
      (fun file hfile => hno file (List.mem_filter.1 hfile).1) (.empty snapshot.projectId)
    have hbuild := (@buildGraph_eq_ok py snapshot _).2 ⟨g, hg, rfl⟩
    refine ⟨?_, _, hbuild, ?_⟩
    · intro file hfile tree hparse
      refine ⟨astToDict tree, ?_, ?_⟩
      · rw [(ast_of_parsed (hprep.parsed file hfile)).1, hstored file hfile tree hparse]
        rfl
      · exact (tree.recorded_iff (hgram _ _ hparse).regular).2
          (hwhole file hfile tree hparse).noHandler
    · obtain ⟨flow, hids, -⟩ := ids_perm hgram hprep hbuild
      have heq : snapshot.files.flatMap (placedIds py) = snapshot.files.flatMap (innerIds py) := by
        refine List.flatMap_congr fun file hfile => ?_
        obtain ⟨tree, hparse⟩ := hparses file hfile
        have hsome := hstored file hfile tree hparse
        exact ((innerIds_eq_placedIds_iff hgram hsome (hno file hfile tree hsome)).2
          (hwhole file hfile tree hparse).placed).symm
      rw [heq]
      exact (List.sublist_append_right _ _).subperm.trans hids.symm.subperm

/-- The tree of `x = 1`. -/
def assignTree : Node :=
  .mk "Module" none none
    [("body", .list [.node (.mk "Assign" (some 1) (some 1)
        [("targets", .list [.node (.mk "Name" (some 1) (some 1)
            [("id", .constant (.str "x")), ("ctx", .node (.mk "Store" none none []))])]),
          ("value", .node (.mk "Constant" (some 1) (some 1)
            [("value", .constant (.int 1)), ("kind", .constant .none)])),
          ("type_comment", .constant .none)])]),
      ("type_ignores", .list [])]

lemma assignTree_grammatical : assignTree.Grammatical where
  cls := rfl
  lineno := rfl
  regular := by
    intro n hn
    simp only [assignTree, Node.nodes, fieldNodes, FieldValue.nodes, itemNodes, List.append_nil,
      List.cons_append, List.nil_append, List.mem_cons, List.not_mem_nil, or_false] at hn
    rcases hn with rfl | rfl | rfl | rfl | rfl <;>
      exact .of_ne (by decide) (by decide) (by decide) (by decide) (by decide)
  inner := by decide

/-- The builder takes `x = 1` whole. -/
theorem acceptsEveryNode_assign :
    AcceptsEveryNode (readsOnly "x = 1\n" assignTree)
      (soleSnapshot (readsOnly "x = 1\n" assignTree) "x = 1\n") := by
  have hparse := readsOnly_parse "x = 1\n" assignTree
  refine (acceptsEveryNode_iff (readsOnly_parsesGrammar _ assignTree_grammatical)
    (preparedFiles_sole _ hparse) ?_).2 ?_
  · refine List.forall_mem_singleton.2 ⟨assignTree, ?_⟩
    rw [soleFile_source _ hparse, hparse]
  · refine List.forall_mem_singleton.2 fun tree htree => ?_
    rw [soleFile_source _ hparse, hparse] at htree
    obtain rfl := Except.ok.inj htree
    exact ⟨rfl, by decide, by unfold PlacedBelowPlaced; decide⟩

/-- The tree of a `try` statement with a handler for `ValueError`. -/
def handlerTree : Node :=
  .mk "Module" none none
    [("body", .list [.node (.mk "Try" (some 1) (some 4)
        [("body", .list [.node (.mk "Pass" (some 2) (some 2) [])]),
          ("handlers", .list [.node (.mk "ExceptHandler" (some 3) (some 4)
            [("type", .node (.mk "Name" (some 3) (some 3)
                [("id", .constant (.str "ValueError")), ("ctx", .node (.mk "Load" none none []))])),
              ("name", .constant .none),
              ("body", .list [.node (.mk "Pass" (some 4) (some 4) [])])])]),
          ("orelse", .list []),
          ("finalbody", .list [])])]),
      ("type_ignores", .list [])]

/-- The text of this tree. -/
def handlerText : String := "try:\n    pass\nexcept ValueError:\n    pass\n"

lemma handlerTree_grammatical : handlerTree.Grammatical where
  cls := rfl
  lineno := rfl
  regular := by
    intro n hn
    simp only [handlerTree, Node.nodes, fieldNodes, FieldValue.nodes, itemNodes, List.append_nil,
      List.cons_append, List.nil_append, List.mem_cons, List.not_mem_nil, or_false] at hn
    rcases hn with rfl | rfl | rfl | rfl | rfl | rfl | rfl
    case inr.inr.inr.inl =>
      exact
        { cls_ne := by decide
          colon := by decide
          lineno_ne := by decide
          names := by decide
          lineno_notMem := by decide
          endLineno_notMem := by decide
          handler := ⟨fun _ => rfl, fun _ => by decide⟩
          handlerType := by simp [Node.fields] }
    all_goals exact .of_ne (by decide) (by decide) (by decide) (by decide) (by decide)
  inner := by decide

/-- **A typed handler makes the builder raise**, although the file parses. -/
theorem not_acceptsEveryNode_handler :
    (readsOnly handlerText handlerTree).ParsesGrammar
      ∧ PreparedFiles (readsOnly handlerText handlerTree)
          (soleSnapshot (readsOnly handlerText handlerTree) handlerText).files
      ∧ (readsOnly handlerText handlerTree).parse handlerText = .ok handlerTree
      ∧ ¬ AcceptsEveryNode (readsOnly handlerText handlerTree)
          (soleSnapshot (readsOnly handlerText handlerTree) handlerText) := by
  have hparse := readsOnly_parse handlerText handlerTree
  refine ⟨readsOnly_parsesGrammar _ handlerTree_grammatical, preparedFiles_sole _ hparse, hparse,
    ?_⟩
  rintro ⟨-, graph, hbuild, -⟩
  have hraises : buildGraph (readsOnly handlerText handlerTree)
      (soleSnapshot (readsOnly handlerText handlerTree) handlerText) = .error "TypeError" := rfl
  rw [hraises] at hbuild
  cases hbuild

end Sast.Prepare
