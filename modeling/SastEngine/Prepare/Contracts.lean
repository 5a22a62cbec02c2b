import SastEngine.Core.Time
import SastEngine.Prepare.Nodes
import SastEngine.Scan.Models

/-!
# PREPARE stage contracts

The records of `core/contracts.py` that PREPARE fills in.  The SCAN stage reads a part of them
(`CodeModel.scanned`).
-/

namespace Sast.Prepare

/-- The literal type of `RepoSpec.source_type`. -/
inductive SourceType where
  | directory
  | zip
  | git
deriving DecidableEq

/-- `RepoSpec`; its language is always `"python"`. -/
structure RepoSpec where
  name : String
  sourceType : SourceType
  location : String
deriving DecidableEq

/-- `ParseErrorInfo`. -/
structure ParseErrorInfo where
  lineno : Nat
  offset : Nat
  message : String
deriving DecidableEq

/-- `SkipInfo`. -/
structure SkipInfo where
  path : String
  reason : String
deriving DecidableEq

/-- The literal type of `ImportInfo.kind`. -/
inductive ImportKind where
  | import_
  | fromImport
  | importStar
deriving DecidableEq

/-- `ImportInfo`. -/
structure ImportInfo where
  moduleName : String
  name : String
  aliasName : Option String
  kind : ImportKind
  file : String
  line : Nat
deriving DecidableEq

/-- `FunctionInfo`. -/
structure FunctionInfo where
  name : String
  qualifiedName : String
  file : String
  line : Nat
  endLine : Nat
  args : List String
  decorators : List String
  isMethod : Bool
  isAsync : Bool
deriving DecidableEq

/-- `ClassInfo`. -/
structure ClassInfo where
  name : String
  file : String
  line : Nat
  endLine : Nat
  bases : List String
  decorators : List String
  methods : List String
deriving DecidableEq

/-- `CallInfo`. -/
structure CallInfo where
  func : String
  args : List String
  numArgs : Nat
  keywords : List String
  isMethodCall : Bool
  file : String
  line : Nat
deriving DecidableEq

/-- The literal type of `AssignmentInfo.value_kind`. -/
inductive ValueKind where
  | call
  | attribute_
  | name
  | constant
  | binaryOp
  | collection
  | subscript
  | lambda
  | ifexp
  | none
  | other
deriving DecidableEq

/-- `AssignmentInfo`. -/
structure AssignmentInfo where
  targets : List String
  valueKind : ValueKind
  valueExpr : String
  file : String
  line : Nat
deriving DecidableEq

/-- `SourceFile`; `ast` is the stored dictionary. -/
structure SourceFile where
  path : String
  source : String
  sha256 : String
  lineCount : Nat
  ast : Option PyVal
  functions : List FunctionInfo
  classes : List ClassInfo
  imports : List ImportInfo
  calls : List CallInfo
  assignments : List AssignmentInfo
  error : Option ParseErrorInfo

/-- `SnapshotSummary`. -/
structure SnapshotSummary where
  fetchedFiles : Nat
  fetchedBytes : Nat
  pythonFiles : Nat
  parseFailures : Nat
  totalLines : Nat
  functionCount : Nat
  classCount : Nat
  callCount : Nat
  importCount : Nat
  assignmentCount : Nat
deriving DecidableEq

/-- `ProjectSnapshot`; its language is always `"python"`. -/
structure ProjectSnapshot where
  projectId : String
  repoName : String
  createdAt : DateTime
  files : List SourceFile
  ignoredPaths : List String
  skippedFiles : List SkipInfo
  summary : SnapshotSummary

/-- `CodeModel`; its language is always `"python"`. -/
structure CodeModel where
  projectId : String
  files : List SourceFile
  moduleMap : Dict String String
  functionIndex : List FunctionInfo
  builtAt : DateTime

/-- What the SCAN stage reads of a file. -/
def SourceFile.scanned (file : SourceFile) : Sast.SourceFile where
  path := file.path
  source := file.source
  error := file.error.map ParseErrorInfo.message

/-- What the SCAN stage reads of a code model. -/
def CodeModel.scanned (model : CodeModel) : Sast.CodeModel where
  projectId := model.projectId
  files := model.files.map SourceFile.scanned

end Sast.Prepare
