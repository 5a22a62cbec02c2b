import Mathlib.Algebra.GroupWithZero.Nat
import SastEngine.Lib.Except
import SastEngine.Prepare.Parser
import SastEngine.Python.TextFiles

/-!
# The PREPARE stage

`prepare/service.py`: the fetched Python files are parsed, the snapshot is written, the code model
is built from it and written.  The fetcher and the parser are parts the service is given; pydantic
turns the records into JSON documents and back.
-/

namespace Sast.Prepare

/-! ## What the service is given -/

/-- `FetchResult`. -/
structure FetchResult where
  copiedFiles : List String
  totalBytes : Nat
  ignoredPaths : List String
  skipped : List SkipInfo

/-- `SecurityError`, the other `FetcherError`s, and the exceptions that a fetch lets pass. -/
inductive FetchFailure where
  | security (message : String)
  | fetcher (message : String)
  | raised (message : String)

/-- `SecurityError`, `PrepareError`, and the exceptions that nobody catches. -/
inductive PrepareFailure where
  | security (message : String)
  | prepare (message : String)
  | raised (message : String)

/-- `model_dump_json` and `model_validate_json` of a record. -/
structure JsonModel (Record Doc : Type) where
  dumpJson : Record → Except String Doc
  validateJson : Doc → Except String Record

/-- The stored documents. -/
abbrev Documents (Doc : Type) : Type := Dict (List String) Doc

/-- `PrepareService`, with the workspace directory of its settings.  A fetch leaves the copied
files in the repository directory, where a file may turn out unreadable. -/
structure PrepareService (Doc : Type) where
  workspaceDir : List String
  fetch : RepoSpec → List String →
    Except FetchFailure (FetchResult × (String → Option (List UInt8)))
  py : PyInterpreter
  snapshots : JsonModel ProjectSnapshot Doc
  models : JsonModel CodeModel Doc

/-- `SNAPSHOT_FILE`. -/
def snapshotFile : String := "snapshot.json"

/-- `CODE_MODEL_FILE`. -/
def codeModelFile : String := "codemodel.json"

/-! ## Parsing the files -/

/-- The text that is parsed for a file: a file that looks binary gets a text of its own. -/
def sourceText (raw : List UInt8) : String :=
  if 0 ∈ raw.take 8192 then "<binary content>\n" else decodeBytes raw

/-- The copied Python files, in order. -/
def pythonPaths (result : FetchResult) : List String :=
  (result.copiedFiles.mergeSort fun a b => a ≤ b).filter (endswith ".py")

/-- The Python files that can be read, with their texts. -/
def sourceTexts (result : FetchResult) (read : String → Option (List UInt8)) :
    List (String × String) :=
  (pythonPaths result).filterMap fun path => (read path).map fun raw => (path, sourceText raw)

/-- `parsed_files`. -/
def parsedFiles (py : PyInterpreter) (result : FetchResult)
    (read : String → Option (List UInt8)) : Except String (List SourceFile) :=
  (sourceTexts result read).mapM fun (path, source) => parseFile py path source

/-! ## Building -/

/-- `_summarize`. -/
def summarize (result : FetchResult) (files : List SourceFile) : SnapshotSummary where
  fetchedFiles := result.copiedFiles.length
  fetchedBytes := result.totalBytes
  pythonFiles := files.length
  parseFailures := files.countP (·.error.isSome)
  totalLines := (files.map (·.lineCount)).sum
  functionCount := (files.map (·.functions.length)).sum
  classCount := (files.map (·.classes.length)).sum
  callCount := (files.map (·.calls.length)).sum
  importCount := (files.map (·.imports.length)).sum
  assignmentCount := (files.map (·.assignments.length)).sum

/-- `_build_snapshot`. -/
def buildSnapshot (spec : RepoSpec) (projectId : String) (createdAt : DateTime)
    (result : FetchResult) (files : List SourceFile) : ProjectSnapshot where
  projectId := projectId
  repoName := spec.name
  createdAt := createdAt
  files := files
  ignoredPaths := result.ignoredPaths
  skippedFiles := result.skipped
  summary := summarize result files

/-- `_module_name`. -/
def moduleName (path : String) : String :=
  let stem := if endswith ".py" path then path.toList.dropLast.dropLast.dropLast else path.toList
  String.ofList (stem.map fun c => if c = '/' ∨ c = '\\' then '.' else c)

/-- `PythonASTCodeModelBuilder.build`. -/
def buildModel (builtAt : DateTime) (snapshot : ProjectSnapshot) : CodeModel where
  projectId := snapshot.projectId
  files := snapshot.files
  moduleMap := snapshot.files.foldl (fun map file => map.set (moduleName file.path) file.path)
    .empty
  functionIndex := snapshot.files.flatMap (·.functions)
  builtAt := builtAt

/-! ## The service -/

section Service

variable {Doc : Type} (service : PrepareService Doc)

/-- The directory of a project. -/
def PrepareService.projectDir (projectId : String) : List String :=
  service.workspaceDir ++ ["projects", projectId]

/-- Write the two documents: the code model is built after the snapshot has been written. -/
def PrepareService.persist (docs : Documents Doc) (projectDir : List String)
    (snapshot : ProjectSnapshot) (builtAt : DateTime) :
    Except PrepareFailure (ProjectSnapshot × CodeModel × List String) × Documents Doc :=
  match service.snapshots.dumpJson snapshot with
  | .error e => (.error (.raised e), docs)
  | .ok snapshotDoc =>
      let docs := docs.set (projectDir ++ [snapshotFile]) snapshotDoc
      let model := buildModel builtAt snapshot
      match service.models.dumpJson model with
      | .error e => (.error (.raised e), docs)
      | .ok modelDoc =>
          (.ok (snapshot, model, projectDir),
            docs.set (projectDir ++ [codeModelFile]) modelDoc)

/-- `PrepareService.prepare`; the two times are those of its clock. -/
def PrepareService.prepare (docs : Documents Doc) (spec : RepoSpec) (projectId : String)
    (createdAt builtAt : DateTime) :
    Except PrepareFailure (ProjectSnapshot × CodeModel × List String) × Documents Doc :=
  let projectDir := service.projectDir projectId
  match service.fetch spec (projectDir ++ ["repo"]) with
  | .error (.security message) => (.error (.security message), docs)
  | .error (.fetcher message) => (.error (.prepare message), docs)
  | .error (.raised message) => (.error (.raised message), docs)
  | .ok (result, read) =>
      match parsedFiles service.py result read with
      | .error e => (.error (.raised e), docs)
      | .ok files =>
          service.persist docs projectDir (buildSnapshot spec projectId createdAt result files)
            builtAt

/-- The document at a path, read and validated. -/
def loadRecord {Record : Type} (json : JsonModel Record Doc) (docs : Documents Doc)
    (path : List String) : Except String Record :=
  match docs.get? path with
  | none => .error ("cannot read /" ++ String.intercalate "/" path)
  | some doc => json.validateJson doc

/-- `PrepareService.load_snapshot`. -/
def PrepareService.loadSnapshot (docs : Documents Doc) (projectDir : List String) :
    Except String ProjectSnapshot :=
  loadRecord service.snapshots docs (projectDir ++ [snapshotFile])

/-- `PrepareService.load_code_model`. -/
def PrepareService.loadCodeModel (docs : Documents Doc) (projectDir : List String) :
    Except String CodeModel :=
  loadRecord service.models docs (projectDir ++ [codeModelFile])

end Service

end Sast.Prepare
