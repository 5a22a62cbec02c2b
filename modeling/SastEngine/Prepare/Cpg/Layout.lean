import SastEngine.Prepare.Cpg.Built

/-!
# Where statements stand

A compound statement starts a line of its own, so that a function is determined by its line; two
statements of one class on one line stand in one block.  The collector meets every function, and
the flow passes find a top-level function by its name and its line.
-/

namespace Sast.Prepare

/-! ## Layout -/

/-- The classes of compound statements. -/
def compoundClasses : List String :=
  ["FunctionDef", "AsyncFunctionDef", "ClassDef", "If", "For", "AsyncFor", "While", "With",
    "AsyncWith", "Try", "TryStar", "Match"]

/-- The blocks of a statement or of a handler. -/
def Node.blocks (n : Node) : List (List Node) :=
  [n.children "body", n.children "orelse", n.children "finalbody"]

/-- Identifiers are not numbers and contain no colons or stars. -/
structure IsIdentifier (s : String) : Prop where
  colon : ':' ∉ s.toList
  star : '*' ∉ s.toList
  digits : ∀ n : Nat, s ≠ toString n

/-- What the grammar says about the statements of a module and about their lines. -/
structure Node.LaidOut (tree : Node) : Prop where
  compounds : ((tree.nodes.filter fun n => n.cls ∈ compoundClasses).map Node.lineno).Nodup
  oneBlock : ∀ m ∈ tree.nodes, ∀ m' ∈ tree.nodes, ∀ b ∈ m.blocks, ∀ b' ∈ m'.blocks, ∀ s ∈ b,
    ∀ s' ∈ b', s.cls = s'.cls → s.lineno = s'.lineno → m = m'
  function : ∀ n ∈ tree.nodes, isFunctionDef n →
    n.lineno?.isSome ∧ nameOf n ≠ "" ∧ n.children "orelse" = [] ∧ n.children "finalbody" = []
  import_ : ∀ n ∈ tree.nodes, n.cls = "Import" ∨ n.cls = "ImportFrom" →
    ∀ m ∈ fieldNodes n.fields, ¬ isFunctionDef m
  loop : ∀ n ∈ tree.nodes, n.cls = "If" ∨ n.cls = "For" ∨ n.cls = "While" → n.children "body" ≠ []
  try_ : ∀ n ∈ tree.nodes, n.cls = "Try" → n.children "finalbody" ≠ []
    ∨ ∃ handler ∈ n.children "handlers", handler.children "body" ≠ []
  identifier : ∀ n ∈ tree.nodes, ∀ s, n.text? "id" = some s ∨ n.text? "arg" = some s →
    IsIdentifier s

/-- The interpreter's trees are laid out so. -/
def PyInterpreter.LaysOut (py : PyInterpreter) : Prop :=
  ∀ source tree, py.parse source = .ok tree → tree.LaidOut

lemma isFunctionDef_iff {n : Node} :
    isFunctionDef n ↔ n.cls = "FunctionDef" ∨ n.cls = "AsyncFunctionDef" := by
  simp [isFunctionDef]

lemma isFunctionDef_compound {n : Node} (h : isFunctionDef n) : n.cls ∈ compoundClasses := by
  rcases isFunctionDef_iff.1 h with hcls | hcls
  · rw [hcls]
    decide
  · rw [hcls]
    decide

/-- A compound statement is determined by its line. -/
lemma Node.LaidOut.eq_of_lineno {tree : Node} (h : tree.LaidOut) {m n : Node}
    (hm : m ∈ tree.nodes) (hn : n ∈ tree.nodes) (hmc : m.cls ∈ compoundClasses)
    (hnc : n.cls ∈ compoundClasses) (hline : m.lineno = n.lineno) : m = n :=
  List.inj_on_of_nodup_map h.compounds (List.mem_filter.2 ⟨hm, by simpa using hmc⟩)
    (List.mem_filter.2 ⟨hn, by simpa using hnc⟩) hline

/-- One block for each class and line, by position among the nodes. -/
lemma eq_of_blocks {nodes : List Node}
    (h : ∀ i j : Fin nodes.length, ∀ b ∈ (nodes.get i).blocks, ∀ b' ∈ (nodes.get j).blocks,
      ∀ s ∈ b, ∀ s' ∈ b', s.cls = s'.cls → s.lineno = s'.lineno → i = j) :
    ∀ m ∈ nodes, ∀ m' ∈ nodes, ∀ b ∈ m.blocks, ∀ b' ∈ m'.blocks, ∀ s ∈ b, ∀ s' ∈ b',
      s.cls = s'.cls → s.lineno = s'.lineno → m = m' := by
  intro m hm m' hm' b hb b' hb' s hs s' hs' hcls hline
  obtain ⟨i, rfl⟩ := List.mem_iff_get.1 hm
  obtain ⟨j, rfl⟩ := List.mem_iff_get.1 hm'
  rw [h i j b hb b' hb' s hs s' hs' hcls hline]

lemma readsOnly_laysOut (source : String) {tree : Node} (h : tree.LaidOut) :
    (readsOnly source tree).LaysOut := by
  intro text tree' hparse
  simp only [readsOnly] at hparse
  split_ifs at hparse
  obtain rfl := Except.ok.inj hparse
  exact h

/-- A tree without names. -/
lemma identifier_of_none {nodes : List Node}
    (h : ∀ n ∈ nodes, n.text? "id" = none ∧ n.text? "arg" = none) :
    ∀ n ∈ nodes, ∀ s, n.text? "id" = some s ∨ n.text? "arg" = some s → IsIdentifier s := by
  intro n hn s hs
  simp [h n hn] at hs

/-! ## Functions that are collected -/

/-- The function of an entry, if it is one. -/
def Collected.function? : Collected → Option FunctionInfo
  | .function info => some info
  | .class_ _ => none
  | .import_ _ => none
  | .call _ => none
  | .assignment _ => none

section Collected

variable {py : PyInterpreter}

lemma functions_of_parsed {file : SourceFile}
    (h : parseFile py file.path file.source = .ok file) {tree : Node}
    (hsome : storedTree py file = some tree) :
    file.functions
      = (walkChildren py file.path [] [] tree.fields).filterMap Collected.function? := by
  obtain ⟨hparse, hrec⟩ := storedTree_eq_some.1 hsome
  rw [parseFile, hparse] at h
  have hfunctions := (congrArg SourceFile.functions (Except.ok.inj h)).symm
  refine hfunctions.trans ?_
  cases tree
  simp only [collect, hrec]
  refine List.filterMap_congr fun c _ => ?_
  cases c <;> rfl

section

variable (path : String)

mutual

/-- What the collector reports as a function is one. -/
theorem of_mem_visit (n : Node) {classStack fnStack : List String} {info : FunctionInfo}
    (h : .function info ∈ visit py path classStack fnStack n) :
    ∃ m ∈ n.nodes, isFunctionDef m ∧ ∃ cs fs, info = functionInfo py path m cs fs := by
  match n with
  | .mk cls lineno endLineno fields =>
    rw [visit] at h
    split at h
    · rename_i hcls
      rcases List.mem_cons.1 h with heq | h
      · exact ⟨_, mem_nodes_self _, isFunctionDef_iff.2 hcls, _, _, Collected.function.inj heq⟩
      · obtain ⟨m, hm, hfun⟩ := of_mem_walkChildren fields h
        exact ⟨m, List.mem_cons_of_mem _ hm, hfun⟩
    split at h
    · rcases List.mem_cons.1 h with heq | h
      · cases heq
      · obtain ⟨m, hm, hfun⟩ := of_mem_walkChildren fields h
        exact ⟨m, List.mem_cons_of_mem _ hm, hfun⟩
    split at h
    · rcases List.mem_cons.1 h with heq | h
      · cases heq
      · obtain ⟨m, hm, hfun⟩ := of_mem_walkChildren fields h
        exact ⟨m, List.mem_cons_of_mem _ hm, hfun⟩
    split at h
    · rcases List.mem_cons.1 h with heq | h
      · cases heq
      · obtain ⟨m, hm, hfun⟩ := of_mem_walkChildren fields h
        exact ⟨m, List.mem_cons_of_mem _ hm, hfun⟩
    split at h
    · obtain ⟨item, -, heq⟩ := List.mem_map.1 h
      cases heq
    · obtain ⟨m, hm, hfun⟩ := of_mem_walkChildren fields h
      exact ⟨m, List.mem_cons_of_mem _ hm, hfun⟩

theorem of_mem_walkChildren (fields : List (String × FieldValue))
    {classStack fnStack : List String} {info : FunctionInfo}
    (h : .function info ∈ walkChildren py path classStack fnStack fields) :
    ∃ m ∈ fieldNodes fields, isFunctionDef m ∧ ∃ cs fs, info = functionInfo py path m cs fs := by
  match fields with
  | [] => cases h
  | (name, value) :: rest =>
    rcases List.mem_append.1 h with h | h
    · obtain ⟨m, hm, hfun⟩ := of_mem_visitField value h
      exact ⟨m, List.mem_append_left _ hm, hfun⟩
    · obtain ⟨m, hm, hfun⟩ := of_mem_walkChildren rest h
      exact ⟨m, List.mem_append_right _ hm, hfun⟩

theorem of_mem_visitField (value : FieldValue) {classStack fnStack : List String}
    {info : FunctionInfo} (h : .function info ∈ visitField py path classStack fnStack value) :
    ∃ m ∈ value.nodes, isFunctionDef m ∧ ∃ cs fs, info = functionInfo py path m cs fs := by
  match value with
  | .node n => exact of_mem_visit n h
  | .list items => exact of_mem_visitItems items h
  | .constant c => cases h

theorem of_mem_visitItems (items : List ListItem) {classStack fnStack : List String}
    {info : FunctionInfo} (h : .function info ∈ visitItems py path classStack fnStack items) :
    ∃ m ∈ itemNodes items, isFunctionDef m ∧ ∃ cs fs, info = functionInfo py path m cs fs := by
  match items with
  | [] => cases h
  | .node n :: rest =>
    rcases List.mem_append.1 h with h | h
    · obtain ⟨m, hm, hfun⟩ := of_mem_visit n h
      exact ⟨m, List.mem_append_left _ hm, hfun⟩
    · obtain ⟨m, hm, hfun⟩ := of_mem_visitItems rest h
      exact ⟨m, List.mem_append_right _ hm, hfun⟩
  | .constant c :: rest => exact of_mem_visitItems rest h

end

/-- No function below an import. -/
def NoneImported (nodes : List Node) : Prop :=
  ∀ n ∈ nodes, n.cls = "Import" ∨ n.cls = "ImportFrom" →
    ∀ m ∈ fieldNodes n.fields, ¬ isFunctionDef m

lemma noneImported_append {nodes nodes' : List Node} :
    NoneImported (nodes ++ nodes') ↔ NoneImported nodes ∧ NoneImported nodes' :=
  List.forall_mem_append

mutual

/-- The collector meets every function. -/
theorem mem_visit (n : Node) (himport : NoneImported n.nodes) {m : Node} (hm : m ∈ n.nodes)
    (hfun : isFunctionDef m) (classStack fnStack : List String) :
    ∃ cs fs, .function (functionInfo py path m cs fs) ∈ visit py path classStack fnStack n := by
  match n with
  | .mk cls lineno endLineno fields =>
    have hfields := (List.forall_mem_cons.1 himport).2
    rw [visit]
    rcases List.mem_cons.1 hm with rfl | hm
    · have hcls : cls = "FunctionDef" ∨ cls = "AsyncFunctionDef" := isFunctionDef_iff.1 hfun
      rw [if_pos hcls]
      exact ⟨_, _, List.mem_cons_self⟩
    split
    · obtain ⟨cs, fs, h⟩ := mem_walkChildren fields hfields hm hfun _ _
      exact ⟨cs, fs, List.mem_cons_of_mem _ h⟩
    split
    · obtain ⟨cs, fs, h⟩ := mem_walkChildren fields hfields hm hfun _ _
      exact ⟨cs, fs, List.mem_cons_of_mem _ h⟩
    split
    · obtain ⟨cs, fs, h⟩ := mem_walkChildren fields hfields hm hfun _ _
      exact ⟨cs, fs, List.mem_cons_of_mem _ h⟩
    split
    · obtain ⟨cs, fs, h⟩ := mem_walkChildren fields hfields hm hfun _ _
      exact ⟨cs, fs, List.mem_cons_of_mem _ h⟩
    split
    · rename_i hcls
      exact absurd hfun (himport _ (mem_nodes_self _) hcls m hm)
    · exact mem_walkChildren fields hfields hm hfun _ _

theorem mem_walkChildren (fields : List (String × FieldValue))
    (himport : NoneImported (fieldNodes fields)) {m : Node} (hm : m ∈ fieldNodes fields)
    (hfun : isFunctionDef m) (classStack fnStack : List String) :
    ∃ cs fs, .function (functionInfo py path m cs fs)
      ∈ walkChildren py path classStack fnStack fields := by
  match fields with
  | [] => cases hm
  | (name, value) :: rest =>
    obtain ⟨hvalue, hrest⟩ := noneImported_append.1 himport
    rcases List.mem_append.1 hm with hm | hm
    · obtain ⟨cs, fs, h⟩ := mem_visitField value hvalue hm hfun classStack fnStack
      exact ⟨cs, fs, List.mem_append_left _ h⟩
    · obtain ⟨cs, fs, h⟩ := mem_walkChildren rest hrest hm hfun classStack fnStack
      exact ⟨cs, fs, List.mem_append_right _ h⟩

theorem mem_visitField (value : FieldValue) (himport : NoneImported value.nodes) {m : Node}
    (hm : m ∈ value.nodes) (hfun : isFunctionDef m) (classStack fnStack : List String) :
    ∃ cs fs, .function (functionInfo py path m cs fs)
      ∈ visitField py path classStack fnStack value := by
  match value with
  | .node n => exact mem_visit n himport hm hfun classStack fnStack
  | .list items => exact mem_visitItems items himport hm hfun classStack fnStack
  | .constant c => cases hm

theorem mem_visitItems (items : List ListItem) (himport : NoneImported (itemNodes items))
    {m : Node} (hm : m ∈ itemNodes items) (hfun : isFunctionDef m)
    (classStack fnStack : List String) :
    ∃ cs fs, .function (functionInfo py path m cs fs)
      ∈ visitItems py path classStack fnStack items := by
  match items with
  | [] => cases hm
  | .node n :: rest =>
    obtain ⟨hitem, hrest⟩ := noneImported_append.1 himport
    rcases List.mem_append.1 hm with hm | hm
    · obtain ⟨cs, fs, h⟩ := mem_visit n hitem hm hfun classStack fnStack
      exact ⟨cs, fs, List.mem_append_left _ h⟩
    · obtain ⟨cs, fs, h⟩ := mem_visitItems rest hrest hm hfun classStack fnStack
      exact ⟨cs, fs, List.mem_append_right _ h⟩
  | .constant c :: rest => exact mem_visitItems rest himport hm hfun classStack fnStack

end

end

end Collected

/-! ## Top-level functions -/

/-- The functions that stand directly in a module. -/
def topLevelFunctions (tree : Node) : List Node :=
  (iterChildNodes tree).filter fun child => isFunctionDef child

lemma valueNodes_subset {value : FieldValue} {n : Node} (h : n ∈ valueNodes value) :
    n ∈ value.nodes := by
  cases value with
  | node m =>
      obtain rfl := List.mem_singleton.1 h
      exact mem_nodes_self _
  | list items =>
      rw [FieldValue.nodes]
      induction items with
      | nil => cases h
      | cons item rest ih =>
          cases item with
          | node m =>
              rcases List.mem_cons.1 h with rfl | h
              · exact List.mem_append_left _ (mem_nodes_self _)
              · exact List.mem_append_right _ (ih h)
          | constant c => exact ih h
  | constant c => cases h

lemma mem_fieldNodes_of_child {tree n : Node} (h : n ∈ iterChildNodes tree) :
    n ∈ fieldNodes tree.fields := by
  cases tree with
  | mk cls lineno endLineno fields =>
      rw [Node.fields]
      rw [iterChildNodes] at h
      induction fields with
      | nil => cases h
      | cons field rest ih =>
          rcases List.mem_append.1 h with h | h
          · exact List.mem_append_left _ (valueNodes_subset h)
          · exact List.mem_append_right _ (ih h)

lemma valueNodes_shown {value : FieldValue} {n : Node} (h : n ∈ valueNodes value)
    (hshows : n.Shows) (depth : Nat) : (n, depth) ∈ value.shown depth := by
  have hself : (n, depth) ∈ n.shown depth := by
    cases n
    rw [Node.shown, if_pos hshows]
    exact List.mem_cons_self
  cases value with
  | node m =>
      obtain rfl := List.mem_singleton.1 h
      exact hself
  | list items =>
      rw [FieldValue.shown]
      induction items with
      | nil => cases h
      | cons item rest ih =>
          cases item with
          | node m =>
              rcases List.mem_cons.1 h with rfl | h
              · exact List.mem_append_left _ hself
              · exact List.mem_append_right _ (ih h)
          | constant c => exact ih h
  | constant c => cases h

/-- A child of the module is shown if it is a node to show. -/
lemma mem_shown_of_child {tree n : Node} (htree : tree.Grammatical) (h : n ∈ iterChildNodes tree)
    (hshows : n.Shows) : (n, 1) ∈ tree.shown 0 := by
  have hmodule : tree.Shows := Or.inl htree.cls
  cases tree with
  | mk cls lineno endLineno fields =>
      rw [Node.shown, if_pos hmodule]
      refine List.mem_cons_of_mem _ ?_
      rw [iterChildNodes] at h
      clear htree hmodule
      induction fields with
      | nil => cases h
      | cons field rest ih =>
          rcases List.mem_append.1 h with h | h
          · exact List.mem_append_left _ (valueNodes_shown h hshows 1)
          · exact List.mem_append_right _ (ih h)

section TopLevel

variable {py : PyInterpreter} {file : SourceFile} {tree : Node}

lemma topLevelFunction_eq_some {info : FunctionInfo} {function : Node}
    (h : topLevelFunction tree info = some function) :
    function ∈ topLevelFunctions tree ∧ nameOf function = info.name
      ∧ function.lineno = info.line := by
  have hmem := List.mem_of_find?_eq_some h
  have htest := List.find?_some h
  simp only [Bool.and_eq_true, decide_eq_true_eq] at htest
  exact ⟨List.mem_filter.2 ⟨hmem, htest.1.1⟩, htest.1.2, htest.2⟩

lemma mem_nodes_of_topLevel {function : Node} (h : function ∈ topLevelFunctions tree) :
    function ∈ tree.nodes ∧ isFunctionDef function :=
  ⟨mem_nodes_of_mem_fields (mem_fieldNodes_of_child (List.mem_filter.1 h).1),
    (List.mem_filter.1 h).2⟩

/-- The search finds a top-level function from its name and its line. -/
lemma topLevelFunction_of_mem (hlaid : tree.LaidOut) {info : FunctionInfo} {function : Node}
    (h : function ∈ topLevelFunctions tree) (hname : info.name = nameOf function)
    (hline : info.line = function.lineno) : topLevelFunction tree info = some function := by
  obtain ⟨hmem, hfun⟩ := mem_nodes_of_topLevel h
  cases hfind : topLevelFunction tree info with
  | none =>
      have hnone := List.find?_eq_none.1 hfind function (List.mem_filter.1 h).1
      exact absurd (by simp [hfun, hname, hline]) hnone
  | some function' =>
      obtain ⟨hfunction', -, hline'⟩ := topLevelFunction_eq_some hfind
      obtain ⟨hmem', hfun'⟩ := mem_nodes_of_topLevel hfunction'
      exact congrArg some (hlaid.eq_of_lineno hmem' hmem (isFunctionDef_compound hfun')
        (isFunctionDef_compound hfun) (hline'.trans hline))

/-- Every top-level function is collected. -/
lemma exists_info (hfile : parseFile py file.path file.source = .ok file)
    (hsome : storedTree py file = some tree) (hlaid : tree.LaidOut) {function : Node}
    (h : function ∈ topLevelFunctions tree) :
    ∃ info ∈ file.functions, topLevelFunction tree info = some function := by
  have himport : NoneImported (fieldNodes tree.fields) := fun n hn =>
    hlaid.import_ n (mem_nodes_of_mem_fields hn)
  obtain ⟨cs, fs, hmem⟩ := @mem_walkChildren py file.path tree.fields himport _
    (mem_fieldNodes_of_child (List.mem_filter.1 h).1) (mem_nodes_of_topLevel h).2 [] []
  refine ⟨functionInfo py file.path function cs fs, ?_, topLevelFunction_of_mem hlaid h rfl rfl⟩
  rw [functions_of_parsed hfile hsome]
  exact List.mem_filterMap.2 ⟨_, hmem, rfl⟩

/-- The function of an entry has the arguments that were collected. -/
lemma args_of_topLevel (hfile : parseFile py file.path file.source = .ok file)
    (hsome : storedTree py file = some tree) (hlaid : tree.LaidOut) {info : FunctionInfo}
    (hinfo : info ∈ file.functions) {function : Node}
    (h : topLevelFunction tree info = some function) : info.args = argNames function := by
  rw [functions_of_parsed hfile hsome] at hinfo
  obtain ⟨c, hc, hcinfo⟩ := List.mem_filterMap.1 hinfo
  cases c with
  | function info' =>
      obtain rfl := Option.some.inj hcinfo
      obtain ⟨m, hm, hfun, cs, fs, rfl⟩ := of_mem_walkChildren file.path tree.fields hc
      obtain ⟨hfunction, -, hline⟩ := topLevelFunction_eq_some h
      obtain ⟨hmem, hfun'⟩ := mem_nodes_of_topLevel hfunction
      obtain rfl := hlaid.eq_of_lineno hmem (mem_nodes_of_mem_fields hm)
        (isFunctionDef_compound hfun') (isFunctionDef_compound hfun) hline
      rfl
  | class_ _ => cases hcinfo
  | import_ _ => cases hcinfo
  | call _ => cases hcinfo
  | assignment _ => cases hcinfo

/-- A file that shows a function has collected one. -/
lemma functions_ne_nil (hfile : parseFile py file.path file.source = .ok file)
    (hsome : storedTree py file = some tree) (hlaid : tree.LaidOut) {n : Node}
    (hn : n ∈ fieldNodes tree.fields) (hfun : isFunctionDef n) : file.functions ≠ [] := by
  have himport : NoneImported (fieldNodes tree.fields) := fun n hn =>
    hlaid.import_ n (mem_nodes_of_mem_fields hn)
  obtain ⟨cs, fs, hmem⟩ :=
    @mem_walkChildren py file.path tree.fields himport _ hn hfun [] []
  rw [functions_of_parsed hfile hsome]
  exact List.ne_nil_of_mem (List.mem_filterMap.2 ⟨_, hmem, rfl⟩)

/-- A top-level function is shown. -/
lemma topLevel_shown (htree : tree.Grammatical) (hlaid : tree.LaidOut) {function : Node}
    (h : function ∈ topLevelFunctions tree) : (function, 1) ∈ tree.shown 0 := by
  obtain ⟨hmem, hfun⟩ := mem_nodes_of_topLevel h
  refine mem_shown_of_child htree (List.mem_filter.1 h).1 (Or.inr ⟨?_, ?_⟩)
  · exact (hlaid.function function hmem hfun).1
  · rcases isFunctionDef_iff.1 hfun with hcls | hcls
    · rw [hcls]
      decide
    · rw [hcls]
      decide

end TopLevel

/-- The name of the node of a function. -/
lemma shownNode_name (path : String) {n : Node} (hn : n.Regular) (hfun : isFunctionDef n)
    (hname : nameOf n ≠ "") (depth : Nat) : (shownNode path (n, depth)).name = some (nameOf n) := by
  cases n with
  | mk cls lineno endLineno fields =>
      have htext : (Node.mk cls lineno endLineno fields).text? "name"
          = some (nameOf (.mk cls lineno endLineno fields)) := by
        cases htext : (Node.mk cls lineno endLineno fields).text? "name" with
        | none => exact absurd (by rw [nameOf, htext]; rfl) hname
        | some s => rw [nameOf, htext]; rfl
      generalize nameOf (.mk cls lineno endLineno fields) = name at hname htext
      have hentry : Dict.getEntry "name" fields = some (.constant (.str name)) := by
        rw [Node.text?, Node.field] at htext
        cases hentry : Dict.getEntry "name" fields with
        | none =>
            rw [hentry] at htext
            cases htext
        | some value =>
            rw [hentry] at htext
            simp only [Option.getD_some] at htext
            split at htext
            · obtain rfl := Option.some.inj htext
              rfl
            · cases htext
      have hfield : Dict.getEntry "name" (fieldsInto (headEntries cls lineno) fields)
          = some (.constant (.str name)) := by
        have hnames : (fields.map Prod.fst).Nodup := hn.names
        rw [getEntry_fieldsInto hnames, hentry]
        rfl
      show nameOrId (fieldsInto (headEntries cls lineno) fields) = some name
      rw [nameOrId, hfield]
      simp [isFalsy, hname]

end Sast.Prepare
