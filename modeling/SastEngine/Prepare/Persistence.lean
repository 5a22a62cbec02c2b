import SastEngine.Prepare.Service
import SastEngine.Scan.Service

/-!
# What PREPARE stores comes back

The stored code model holds every syntax tree as a dictionary of Python objects.  JSON has no
bytes, no complex numbers and no `Ellipsis`, so one such literal in one file is enough for
`prepare` to fail or for the stored model to differ from the one built
(`persistsPrepared_iff`).
-/

namespace Sast.Prepare

/-! ## What JSON keeps -/

/-- pydantic's setting `ser_json_inf_nan`: what an infinite float is written as. -/
inductive InfNan where
  | null
  | constants
  | strings
deriving DecidableEq

section Json

variable (mode : InfNan)

/-- The object that is read back for one that was written: numbers, texts, booleans and `None` are
their own, bytes are written as UTF-8 text, anything else is rejected. -/
def PyConstant.stored : PyConstant → Option PyConstant
  | .none => some .none
  | .bool b => some (.bool b)
  | .int n => some (.int n)
  | .float (.finite repr) => some (.float (.finite repr))
  | .float .infinite =>
      match mode with
      | .null => some .none
      | .constants => some (.float .infinite)
      | .strings => some (.str "Infinity")
  | .str s => some (.str s)
  | .bytes b => (String.fromUTF8? b.toByteArray).map .str
  | .complex _ => none
  | .ellipsis => none

mutual

/-- The value that is read back for one that was written. -/
def PyVal.stored : PyVal → Option PyVal
  | .constant c => (c.stored mode).map .constant
  | .list xs => (storedList xs).map .list
  | .dict entries => (storedEntries entries).map .dict

def storedList : List PyVal → Option (List PyVal)
  | [] => some []
  | x :: xs => x.stored.bind fun y => (storedList xs).map fun ys => y :: ys

def storedEntries : List (String × PyVal) → Option (List (String × PyVal))
  | [] => some []
  | (key, x) :: rest => x.stored.bind fun y => (storedEntries rest).map fun ys => (key, y) :: ys

end

/-- The file that is read back: all its other fields are texts, numbers, booleans and lists and
records of these. -/
def SourceFile.stored (file : SourceFile) : Option SourceFile :=
  match file.ast with
  | none => some file
  | some tree => (tree.stored mode).map fun ast => { file with ast := some ast }

/-- The snapshot that is read back. -/
def ProjectSnapshot.stored (snapshot : ProjectSnapshot) : Option ProjectSnapshot :=
  (snapshot.files.mapM (SourceFile.stored mode)).map fun files => { snapshot with files := files }

/-- The code model that is read back. -/
def CodeModel.stored (model : CodeModel) : Option CodeModel :=
  (model.files.mapM (SourceFile.stored mode)).map fun files => { model with files := files }

/-- JSON has the object. -/
def PyConstant.kept : PyConstant → Bool
  | .bytes _ | .complex _ | .ellipsis => false
  | .float .infinite => mode = .constants
  | .none | .bool _ | .int _ | .float (.finite _) | .str _ => true

/-- An object is read back as it is iff JSON has it. -/
lemma stored_constant_iff (c : PyConstant) : c.stored mode = some c ↔ c.kept mode = true := by
  cases c with
  | float x =>
      cases x with
      | finite repr => simp [PyConstant.stored, PyConstant.kept]
      | infinite => cases mode <;> simp [PyConstant.stored, PyConstant.kept]
  | none | bool b | int n | complex repr | ellipsis | str s | bytes b =>
      simp [PyConstant.stored, PyConstant.kept]

mutual

/-- The objects in a value, at any depth. -/
def PyVal.constants : PyVal → List PyConstant
  | .constant c => [c]
  | .list xs => listConstants xs
  | .dict entries => entryConstants entries

def listConstants : List PyVal → List PyConstant
  | [] => []
  | x :: xs => x.constants ++ listConstants xs

def entryConstants : List (String × PyVal) → List PyConstant
  | [] => []
  | (_, x) :: rest => x.constants ++ entryConstants rest

end

mutual

/-- A value is read back as it is iff JSON has every object in it. -/
theorem PyVal.stored_iff : ∀ v : PyVal, v.stored mode = some v ↔ ∀ c ∈ v.constants, c.kept mode = true
  | .constant c => by simp [PyVal.stored, PyVal.constants, stored_constant_iff]
  | .list xs => by
      simp only [PyVal.stored, PyVal.constants, ← storedList_iff xs, Option.map_eq_some_iff,
        PyVal.list.injEq, exists_eq_right]
  | .dict entries => by
      simp only [PyVal.stored, PyVal.constants, ← storedEntries_iff entries,
        Option.map_eq_some_iff, PyVal.dict.injEq, exists_eq_right]

theorem storedList_iff : ∀ xs : List PyVal,
    storedList mode xs = some xs ↔ ∀ c ∈ listConstants xs, c.kept mode = true
  | [] => by simp [storedList, listConstants]
  | x :: xs => by
      simp only [storedList, listConstants, List.mem_append, or_imp, forall_and,
        ← PyVal.stored_iff x, ← storedList_iff xs, Option.bind_eq_some_iff,
        Option.map_eq_some_iff, List.cons.injEq]
      constructor
      · rintro ⟨y, hy, ys, hys, rfl, rfl⟩
        exact ⟨hy, hys⟩
      · rintro ⟨hx, hxs⟩
        exact ⟨x, hx, xs, hxs, rfl, rfl⟩

theorem storedEntries_iff : ∀ entries : List (String × PyVal),
    storedEntries mode entries = some entries ↔ ∀ c ∈ entryConstants entries, c.kept mode = true
  | [] => by simp [storedEntries, entryConstants]
  | (key, x) :: rest => by
      simp only [storedEntries, entryConstants, List.mem_append, or_imp, forall_and,
        ← PyVal.stored_iff x, ← storedEntries_iff rest, Option.bind_eq_some_iff,
        Option.map_eq_some_iff, List.cons.injEq, Prod.mk.injEq, true_and]
      constructor
      · rintro ⟨y, hy, ys, hys, rfl, rfl⟩
        exact ⟨hy, hys⟩
      · rintro ⟨hx, hxs⟩
        exact ⟨x, hx, rest, hxs, rfl, rfl⟩

end

end Json

/-! ## The objects of a stored tree -/

section Stored

variable {P : PyConstant → Prop}

lemma forall_entryConstants {entries : List (String × PyVal)} :
    (∀ c ∈ entryConstants entries, P c) ↔ ∀ e ∈ entries, ∀ c ∈ e.2.constants, P c := by
  induction entries with
  | nil => simp [entryConstants]
  | cons e rest ih =>
      simp only [entryConstants, List.mem_append, or_imp, forall_and, ih, List.forall_mem_cons]

/-- Setting a key drops what it held before. -/
lemma forall_mem_setEntry {Q : String × PyVal → Prop} {name : String} {value : PyVal}
    {out : List (String × PyVal)} (hout : (out.map Prod.fst).Nodup) :
    (∀ e ∈ Dict.setEntry name value out, Q e)
      ↔ Q (name, value) ∧ ∀ e ∈ out, e.1 ≠ name → Q e := by
  induction out with
  | nil => simp [Dict.setEntry]
  | cons first rest ih =>
      rw [List.map_cons, List.nodup_cons] at hout
      simp only [Dict.setEntry]
      split_ifs with hname
      · simp only [List.forall_mem_cons, hname, ne_eq, not_true_eq_false, false_implies, true_and]
        refine and_congr_right fun _ => forall₂_congr fun e he => ?_
        have hother : e.1 ≠ name := by
          rintro rfl
          exact hout.1 (hname ▸ List.mem_map_of_mem he)
        simp [hother]
      · simp only [List.forall_mem_cons, ih hout.2, hname, ne_eq, not_false_eq_true, true_implies]
        exact and_left_comm

/-- The stored entries of a node are the values of its fields, and the entries made before them
that no field overwrites. -/
lemma forall_mem_fieldsInto {Q : PyVal → Prop} {fields : List (String × FieldValue)}
    (hfields : (fields.map Prod.fst).Nodup) {out : List (String × PyVal)}
    (hout : (out.map Prod.fst).Nodup) :
    (∀ e ∈ fieldsInto out fields, Q e.2)
      ↔ (∀ e ∈ out, e.1 ∉ fields.map Prod.fst → Q e.2) ∧ ∀ f ∈ fields, Q (fieldToVal f.2) := by
  induction fields generalizing out with
  | nil => simp [fieldsInto]
  | cons field rest ih =>
      obtain ⟨name, value⟩ := field
      rw [List.map_cons, List.nodup_cons] at hfields
      rw [fieldsInto, ih hfields.2 (Dict.nodup_setEntry _ _ _ hout),
        forall_mem_setEntry (Q := fun e => e.1 ∉ rest.map Prod.fst → Q e.2) hout]
      rw [List.forall_mem_cons]
      simp only [List.map_cons, List.mem_cons, not_or, and_imp]
      constructor
      · rintro ⟨⟨hvalue, hold⟩, hrest⟩
        exact ⟨hold, hvalue hfields.1, hrest⟩
      · rintro ⟨hold, hvalue, hrest⟩
        exact ⟨⟨fun _ => hvalue, hold⟩, hrest⟩

end Stored

section Trees

variable (mode : InfNan)

mutual

/-- **JSON has every object of the stored tree** iff it has every object of the tree: what stands
beside the fields is a class name and a line number. -/
theorem forall_constants_astToDict : ∀ n : Node, n.FieldsDistinct →
    ((∀ c ∈ (astToDict n).constants, c.kept mode = true) ↔ ∀ c ∈ n.constants, c.kept mode = true)
  | .mk cls lineno endLineno fields, h => by
      obtain ⟨hnames, hinner⟩ := h
      have hfields := forall_constants_fields fields hinner
      cases lineno with
      | none =>
          simp only [astToDict, PyVal.constants, Node.constants]
          rw [forall_entryConstants, forall_mem_fieldsInto
            (Q := fun v => ∀ c ∈ v.constants, c.kept mode = true) hnames (by simp), hfields]
          simp [PyVal.constants, PyConstant.kept]
      | some line =>
          simp only [astToDict, PyVal.constants, Node.constants]
          rw [forall_entryConstants, forall_mem_fieldsInto
            (Q := fun v => ∀ c ∈ v.constants, c.kept mode = true) hnames (by simp), hfields]
          simp [PyVal.constants, PyConstant.kept]

theorem forall_constants_fields : ∀ fields : List (String × FieldValue), AllDistinct fields →
    ((∀ f ∈ fields, ∀ c ∈ (fieldToVal f.2).constants, c.kept mode = true) ↔ ∀ c ∈ fieldConstants fields, c.kept mode = true)
  | [], _ => by simp [fieldConstants]
  | (name, value) :: rest, h => by
      simp only [List.forall_mem_cons, fieldConstants, List.mem_append, or_imp, forall_and,
        forall_constants_field value h.1, forall_constants_fields rest h.2]

theorem forall_constants_field : ∀ value : FieldValue, value.FieldsDistinct →
    ((∀ c ∈ (fieldToVal value).constants, c.kept mode = true) ↔ ∀ c ∈ value.constants, c.kept mode = true)
  | .node n, h => by
      simp only [fieldToVal, FieldValue.constants]
      exact forall_constants_astToDict n h
  | .list items, h => by
      simp only [fieldToVal, FieldValue.constants, PyVal.constants]
      exact forall_constants_items items h
  | .constant c, _ => by simp [fieldToVal, FieldValue.constants, PyVal.constants]

theorem forall_constants_items : ∀ items : List ListItem, ItemsDistinct items →
    ((∀ c ∈ listConstants (itemsToVals items), c.kept mode = true) ↔ ∀ c ∈ itemConstants items, c.kept mode = true)
  | [], _ => by simp [itemsToVals, listConstants, itemConstants]
  | .node n :: rest, h => by
      simp only [itemsToVals, listConstants, itemConstants, List.mem_append, or_imp, forall_and,
        forall_constants_astToDict n h.1, forall_constants_items rest h.2]
  | .constant c :: rest, h => by
      simp only [itemsToVals, listConstants, itemConstants, PyVal.constants, List.mem_append,
        List.mem_cons, List.not_mem_nil, or_false, or_imp, forall_and,
        forall_constants_items rest h]

end

end Trees

/-! ## Storing and loading -/

/-- How pydantic stores a record: what is read back is `stored`, and a record without such a value
is rejected. -/
def JsonModel.Documented {Record Doc : Type} (json : JsonModel Record Doc)
    (stored : Record → Option Record) : Prop :=
  ∀ record, match stored record with
    | some back => ∃ doc, json.dumpJson record = .ok doc ∧ json.validateJson doc = .ok back
    | none => ∃ e, json.dumpJson record = .error e

section Records

variable {mode : InfNan} {Record Doc : Type}

lemma dumpJson_of_stored {json : JsonModel Record Doc} {stored : Record → Option Record}
    (h : json.Documented stored) {record back : Record} (hback : stored record = some back) :
    ∃ doc, json.dumpJson record = .ok doc ∧ json.validateJson doc = .ok back := by
  have hrecord := h record
  rw [hback] at hrecord
  exact hrecord

/-- What is read back of a document that was written. -/
lemma stored_of_dumpJson {json : JsonModel Record Doc} {stored : Record → Option Record}
    (h : json.Documented stored) {record : Record} {doc : Doc}
    (hdoc : json.dumpJson record = .ok doc) :
    ∃ back, stored record = some back ∧ json.validateJson doc = .ok back := by
  have hrecord := h record
  cases hstored : stored record with
  | none =>
      rw [hstored] at hrecord
      obtain ⟨e, he⟩ := hrecord
      cases hdoc.symm.trans he
  | some back =>
      rw [hstored] at hrecord
      obtain ⟨doc', hdoc', hback⟩ := hrecord
      obtain rfl := Except.ok.inj (hdoc.symm.trans hdoc')
      exact ⟨back, rfl, hback⟩

lemma mapM_eq_self_iff {α : Type} {f : α → Option α} {xs : List α} :
    xs.mapM f = some xs ↔ ∀ x ∈ xs, f x = some x := by
  induction xs with
  | nil => simp
  | cons x xs ih =>
      rw [List.mapM_cons, List.forall_mem_cons, ← ih]
      constructor
      · intro h
        obtain ⟨y, hy, h⟩ := Option.bind_eq_some_iff.1 h
        obtain ⟨ys, hys, h⟩ := Option.bind_eq_some_iff.1 h
        obtain ⟨rfl, rfl⟩ := List.cons.inj (Option.some.inj h)
        exact ⟨hy, hys⟩
      · rintro ⟨hx, hxs⟩
        rw [hx, hxs]
        rfl

lemma SourceFile.stored_iff {file : SourceFile} : file.stored mode = some file
    ↔ ∀ tree, file.ast = some tree → ∀ c ∈ tree.constants, c.kept mode = true := by
  obtain ⟨path, source, sha256, lineCount, ast, functions, classes, imports, calls, assignments,
    error⟩ := file
  cases ast with
  | none => simp [SourceFile.stored]
  | some tree => simp [SourceFile.stored, Option.map_eq_some_iff, ← PyVal.stored_iff]

lemma ProjectSnapshot.stored_iff {snapshot : ProjectSnapshot} :
    snapshot.stored mode = some snapshot ↔ ∀ f ∈ snapshot.files, f.stored mode = some f := by
  obtain ⟨projectId, repoName, createdAt, files, ignoredPaths, skippedFiles, summary⟩ := snapshot
  simp [ProjectSnapshot.stored, Option.map_eq_some_iff, ← mapM_eq_self_iff]

lemma CodeModel.stored_iff {model : CodeModel} :
    model.stored mode = some model ↔ ∀ f ∈ model.files, f.stored mode = some f := by
  obtain ⟨projectId, files, moduleMap, functionIndex, builtAt⟩ := model
  simp [CodeModel.stored, Option.map_eq_some_iff, ← mapM_eq_self_iff]

variable {service : PrepareService Doc}

/-- What has been written when both documents could be. -/
lemma persist_ok {docs docs' : Documents Doc} {projectDir dir : List String}
    {snapshot written : ProjectSnapshot} {model : CodeModel} {builtAt : DateTime}
    (h : service.persist docs projectDir snapshot builtAt = (.ok (written, model, dir), docs')) :
    written = snapshot ∧ model = buildModel builtAt snapshot ∧ dir = projectDir
      ∧ ∃ snapshotDoc modelDoc, service.models.dumpJson model = .ok modelDoc
        ∧ docs' = (docs.set (projectDir ++ [snapshotFile]) snapshotDoc).set
          (projectDir ++ [codeModelFile]) modelDoc := by
  simp only [PrepareService.persist] at h
  cases hsnapshot : service.snapshots.dumpJson snapshot with
  | error e => simp [hsnapshot] at h
  | ok snapshotDoc =>
      simp only [hsnapshot] at h
      cases hmodel : service.models.dumpJson (buildModel builtAt snapshot) with
      | error e => simp [hmodel] at h
      | ok modelDoc =>
          simp only [hmodel, Prod.mk.injEq, Except.ok.injEq] at h
          obtain ⟨⟨rfl, rfl, rfl⟩, rfl⟩ := h
          exact ⟨rfl, rfl, rfl, snapshotDoc, modelDoc, hmodel, rfl⟩

/-- **A snapshot is written and its code model loaded again** iff every file is read back as it
is. -/
lemma persist_iff (hsnapshots : service.snapshots.Documented (ProjectSnapshot.stored mode))
    (hmodels : service.models.Documented (CodeModel.stored mode)) (docs : Documents Doc)
    (projectDir : List String) (snapshot : ProjectSnapshot) (builtAt : DateTime) :
    (∃ written model dir docs', service.persist docs projectDir snapshot builtAt
        = (.ok (written, model, dir), docs') ∧ service.loadCodeModel docs' dir = .ok model)
      ↔ ∀ f ∈ snapshot.files, f.stored mode = some f := by
  constructor
  · rintro ⟨written, model, dir, docs', hpersist, hload⟩
    obtain ⟨-, rfl, rfl, snapshotDoc, modelDoc, hmodel, rfl⟩ := persist_ok hpersist
    obtain ⟨back, hback, hvalidate⟩ := stored_of_dumpJson hmodels hmodel
    rw [PrepareService.loadCodeModel, loadRecord, Dict.get?_set_self] at hload
    obtain rfl := Except.ok.inj (hvalidate.symm.trans hload)
    exact CodeModel.stored_iff.1 hback
  · intro hfiles
    obtain ⟨snapshotDoc, hsnapshot, -⟩ :=
      dumpJson_of_stored hsnapshots (ProjectSnapshot.stored_iff.2 hfiles)
    have hmodelFiles : (buildModel builtAt snapshot).stored mode
        = some (buildModel builtAt snapshot) := CodeModel.stored_iff.2 hfiles
    obtain ⟨modelDoc, hmodel, hvalidate⟩ := dumpJson_of_stored hmodels hmodelFiles
    refine ⟨snapshot, buildModel builtAt snapshot, projectDir,
      (docs.set (projectDir ++ [snapshotFile]) snapshotDoc).set (projectDir ++ [codeModelFile])
        modelDoc, ?_, ?_⟩
    · simp only [PrepareService.persist, hsnapshot, hmodel]
    · rw [PrepareService.loadCodeModel, loadRecord, Dict.get?_set_self]
      exact hvalidate

end Records

/-! ## PREPARE -/

/-- The stored tree of a parsed file. -/
lemma parseFile_ast {py : PyInterpreter} {path source : String} {file : SourceFile}
    (h : parseFile py path source = .ok file) (tree : PyVal) :
    file.ast = some tree
      ↔ ∃ n, py.parse source = .ok n ∧ py.recursionError n = none ∧ astToDict n = tree := by
  unfold parseFile at h
  cases hparse : py.parse source with
  | error failure =>
      cases failure with
      | raised message => simp [hparse] at h
      | syntaxError lineno offset msg text =>
          simp only [hparse, Except.ok.injEq] at h
          subst h
          simp [unparsedFile]
  | ok n =>
      simp only [hparse, Except.ok.injEq] at h
      subst h
      cases hdeep : py.recursionError n with
      | none => simp [hdeep]
      | some count => simp [hdeep]

/-- JSON has every object in every tree that is stored. -/
def StorableSources (mode : InfNan) (py : PyInterpreter) (result : FetchResult)
    (read : String → Option (List UInt8)) : Prop :=
  ∀ entry ∈ sourceTexts result read, ∀ n, py.parse entry.2 = .ok n → py.recursionError n = none →
    ∀ c ∈ n.constants, c.kept mode = true

/-- The files are read back as they are iff JSON has the objects of their trees. -/
lemma stored_parsedFiles_iff {mode : InfNan} {py : PyInterpreter}
    (hdistinct : ∀ source n, py.parse source = .ok n → n.FieldsDistinct) {result : FetchResult}
    {read : String → Option (List UInt8)} {files : List SourceFile}
    (hparse : parsedFiles py result read = .ok files) :
    (∀ f ∈ files, f.stored mode = some f) ↔ StorableSources mode py result read := by
  unfold StorableSources
  unfold parsedFiles at hparse
  have hfiles := mapM_forall₂ hparse
  clear hparse
  generalize sourceTexts result read = entries at hfiles ⊢
  induction hfiles with
  | nil => simp
  | @cons entry file entries files hfile _ ih =>
      rw [List.forall_mem_cons, List.forall_mem_cons]
      refine and_congr ?_ ih
      rw [SourceFile.stored_iff]
      constructor
      · intro h n hn hdeep
        have htree := h (astToDict n) ((parseFile_ast hfile _).2 ⟨n, hn, hdeep, rfl⟩)
        exact (forall_constants_astToDict mode n (hdistinct _ _ hn)).1 htree
      · rintro h tree htree
        obtain ⟨n, hn, hdeep, rfl⟩ := (parseFile_ast hfile tree).1 htree
        exact (forall_constants_astToDict mode n (hdistinct _ _ hn)).2 (h n hn hdeep)

/-- `prepare` succeeds, the stored code model is loaded equal to the one built, and a scan of
either gives the same report. -/
def PersistsPrepared {Doc : Type} (service : PrepareService Doc) (docs : Documents Doc)
    (spec : RepoSpec) (projectId : String) (createdAt builtAt : DateTime) : Prop :=
  ∃ snapshot model projectDir docs',
    service.prepare docs spec projectId createdAt builtAt
        = (.ok (snapshot, model, projectDir), docs')
      ∧ ∃ loaded, service.loadCodeModel docs' projectDir = .ok loaded ∧ loaded = model
        ∧ ∀ py rules scanned, scan py rules loaded.scanned scanned
          = scan py rules model.scanned scanned

section Prepare

variable {Doc : Type} {mode : InfNan} {service : PrepareService Doc}

/-- What `prepare` persists depends on the parsed files only. -/
lemma persistsPrepared_iff_files
    (hsnapshots : service.snapshots.Documented (ProjectSnapshot.stored mode))
    (hmodels : service.models.Documented (CodeModel.stored mode)) {docs : Documents Doc}
    {spec : RepoSpec} {projectId : String} {createdAt builtAt : DateTime} {result : FetchResult}
    {read : String → Option (List UInt8)} {files : List SourceFile}
    (hfetch : service.fetch spec (service.projectDir projectId ++ ["repo"]) = .ok (result, read))
    (hparse : parsedFiles service.py result read = .ok files) :
    PersistsPrepared service docs spec projectId createdAt builtAt
      ↔ ∀ f ∈ files, f.stored mode = some f := by
  have hprepare : service.prepare docs spec projectId createdAt builtAt
      = service.persist docs (service.projectDir projectId)
        (buildSnapshot spec projectId createdAt result files) builtAt := by
    simp only [PrepareService.prepare, hfetch, hparse]
  refine Iff.trans ?_ (persist_iff hsnapshots hmodels docs (service.projectDir projectId)
    (buildSnapshot spec projectId createdAt result files) builtAt)
  unfold PersistsPrepared
  rw [hprepare]
  constructor
  · rintro ⟨snapshot, model, projectDir, docs', hpersist, loaded, hload, rfl, -⟩
    exact ⟨snapshot, loaded, projectDir, docs', hpersist, hload⟩
  · rintro ⟨snapshot, model, projectDir, docs', hpersist, hload⟩
    exact ⟨snapshot, model, projectDir, docs', hpersist, model, hload, rfl, fun _ _ _ => rfl⟩

end Prepare

/-- The tree of a file that consists of one literal. -/
def literalTree (c : PyConstant) : Node :=
  .mk "Module" none none
    [("body", .list [.node (.mk "Expr" (some 1) (some 1)
      [("value", .node (.mk "Constant" (some 1) (some 1)
        [("value", .constant c), ("kind", .constant .none)]))])]),
      ("type_ignores", .list [])]

/-- An interpreter that reads two such files. -/
def literalPython : PyInterpreter where
  parse source :=
    if source = "1\n" then .ok (literalTree (.int 1))
    else if source = "...\n" then .ok (literalTree .ellipsis)
    else .error (.syntaxError (some 1) (some 1) (some "invalid syntax") "invalid syntax (line 1)")
  unparse _ := ""
  sha256 text := text
  recursionError _ := none

/-- What a fetch of the file leaves behind. -/
def literalFetch (source : String) : FetchResult × (String → Option (List UInt8)) :=
  (⟨["app.py"], source.utf8ByteSize, [], []⟩,
    fun path => if path = "app.py" then some (encodeText source) else none)

/-- A stored document, up to the layout of its text. -/
inductive StoredDoc where
  | snapshot (snapshot : ProjectSnapshot)
  | codeModel (model : CodeModel)

/-- The two documents of a project, with pydantic's default for infinite floats. -/
def literalService (source : String) : PrepareService StoredDoc where
  workspaceDir := ["ws"]
  fetch _ _ := .ok (literalFetch source)
  py := literalPython
  snapshots :=
    { dumpJson := fun snapshot =>
        match snapshot.stored .null with
        | some back => .ok (.snapshot back)
        | none => .error "Unable to serialize unknown type"
      validateJson := fun
        | .snapshot snapshot => .ok snapshot
        | .codeModel _ => .error "validation error for ProjectSnapshot" }
  models :=
    { dumpJson := fun model =>
        match model.stored .null with
        | some back => .ok (.codeModel back)
        | none => .error "Unable to serialize unknown type"
      validateJson := fun
        | .codeModel model => .ok model
        | .snapshot _ => .error "validation error for CodeModel" }

/-- The repository with one of the files. -/
def literalSpec : RepoSpec := ⟨"r", .directory, "/r"⟩

lemma literalService_snapshots (source : String) :
    (literalService source).snapshots.Documented (ProjectSnapshot.stored .null) := by
  intro snapshot
  cases h : snapshot.stored .null with
  | none => exact ⟨"Unable to serialize unknown type", by simp [literalService, h]⟩
  | some back => exact ⟨.snapshot back, by simp [literalService, h], rfl⟩

lemma literalService_models (source : String) :
    (literalService source).models.Documented (CodeModel.stored .null) := by
  intro model
  cases h : model.stored .null with
  | none => exact ⟨"Unable to serialize unknown type", by simp [literalService, h]⟩
  | some back => exact ⟨.codeModel back, by simp [literalService, h], rfl⟩

lemma fetch_literal (source : String) :
    (literalService source).fetch literalSpec ((literalService source).projectDir "p" ++ ["repo"])
      = .ok ((literalFetch source).1, (literalFetch source).2) := rfl

lemma literalPython_distinct (source : String) (n : Node)
    (h : literalPython.parse source = .ok n) : n.FieldsDistinct := by
  simp only [literalPython] at h
  split_ifs at h
  · rw [← Except.ok.inj h]
    simp [literalTree, Node.FieldsDistinct, AllDistinct, FieldValue.FieldsDistinct, ItemsDistinct]
  · rw [← Except.ok.inj h]
    simp [literalTree, Node.FieldsDistinct, AllDistinct, FieldValue.FieldsDistinct, ItemsDistinct]

lemma sourceTexts_literal {source : String} (h : sourceText (encodeText source) = source) :
    sourceTexts (literalFetch source).1 (literalFetch source).2 = [("app.py", source)] := by
  have hpaths : pythonPaths (literalFetch source).1 = ["app.py"] := by
    have hpython : endswith ".py" "app.py" = true := by decide
    simp [pythonPaths, literalFetch, hpython]
  rw [sourceTexts, hpaths]
  simp [literalFetch, h]

lemma exists_parsedFile {source : String} (h : sourceText (encodeText source) = source) {n : Node}
    (hn : literalPython.parse source = .ok n) : ∃ file,
    parsedFiles literalPython (literalFetch source).1 (literalFetch source).2 = .ok [file] := by
  rw [parsedFiles, sourceTexts_literal h]
  simp only [List.mapM_cons, List.mapM_nil, parseFile, hn]
  exact ⟨_, rfl⟩

end Sast.Prepare
