import Mathlib.Data.String.Basic
import SastEngine.Lib.FileTree
import SastEngine.Lib.Loop
import SastEngine.Prepare.Service

/-!
# Repository ingestion

`prepare/fetcher.py`: a local directory is copied, a ZIP archive extracted and a git repository
cloned into the repository directory of a project, which `_walk` lists again later.  Paths are
lists of names.  What is written is recorded together with the directory it is written to, and the
state a fetch leaves is there also when it raises.
-/

namespace Sast.Prepare

/-! ## Names and paths -/

/-- `IGNORED_DIR_NAMES`. -/
def ignoredDirNames : List String :=
  [".git", ".hg", ".svn", "node_modules", "__pycache__", ".venv", "venv", "env", ".env", ".tox",
    ".nox", ".mypy_cache", ".pytest_cache", ".ruff_cache", ".eggs", "dist", "build", "target",
    ".idea", ".vscode", ".coverage", "htmlcov"]

/-- `_is_ignored_dir`. -/
def isIgnoredDir (name : String) : Bool := name ∈ ignoredDirNames

/-- `_is_ignored_file`: the patterns are `*.pyc` and `*.pyo`. -/
def isIgnoredFile (name : String) : Bool := endswith ".pyc" name || endswith ".pyo" name

/-- `"/".join(parts)`, and `as_posix` of a relative path. -/
def joinParts (parts : List String) : String := "/".intercalate parts

/-- `path.split("/")`. -/
def splitParts (path : String) : List String := (path.toList.splitOn '/').map String.ofList

/-- A part that a path keeps: `p not in ("", ".")`. -/
def isProperPart (p : String) : Bool := p ≠ "" && p ≠ "."

/-- `base / p`. -/
def joinPath (base : List String) (p : String) : List String :=
  let parts := (splitParts p).filter isProperPart
  if startswith "/" p then parts else base ++ parts

/-- `path.resolve()`, where no directory is a symbolic link. -/
def resolvePath (path : List String) : List String :=
  path.foldl (fun acc p => if p = ".." then acc.dropLast else acc ++ [p]) []

/-- One path lies on the way to the other. -/
def clash (p q : List String) : Bool := p ≠ q && (p.isPrefixOf q || q.isPrefixOf p)

/-! ## Limits -/

/-- The ingestion limits of the settings. -/
structure FetchSettings where
  maxFileSizeBytes : Nat
  maxTotalSizeBytes : Nat
  maxFiles : Nat

/-- What is raised for too many files. -/
def maxFilesMessage (what : String) (settings : FetchSettings) : String :=
  what ++ " exceeds max_files limit (" ++ toString settings.maxFiles ++ ")"

/-- What is raised for too many bytes. -/
def maxTotalMessage (what : String) (settings : FetchSettings) : String :=
  what ++ " exceeds max_total_size limit (" ++ toString settings.maxTotalSizeBytes ++ " bytes)"

/-! ## The state of a fetch -/

/-- A file opened for writing: where, the size it was counted with, and what was written. -/
structure FileWrite where
  target : List String
  size : Nat
  content : List UInt8

/-- `result` and `file_count`, and the files written so far. -/
structure Ingest where
  result : FetchResult
  fileCount : Nat
  writes : List FileWrite

namespace Ingest

/-- The state before the first file. -/
def initial : Ingest := ⟨⟨[], 0, [], []⟩, 0, []⟩

variable (s : Ingest)

/-- `result.ignored_paths.append(path)`. -/
def ignore (path : String) : Ingest :=
  { s with result := { s.result with ignoredPaths := s.result.ignoredPaths ++ [path] } }

/-- `result.skipped.append(SkipInfo(path, reason))`. -/
def skip (path reason : String) : Ingest :=
  { s with result := { s.result with skipped := s.result.skipped ++ [⟨path, reason⟩] } }

/-- `result.copied_files.append(path)`. -/
def copied (path : String) : Ingest :=
  { s with result := { s.result with copiedFiles := s.result.copiedFiles ++ [path] } }

/-- Count a file of the given size; the limits abort. -/
def count (settings : FetchSettings) (what : String) (size : Nat) : Ingest × Option FetchFailure :=
  let s := { s with fileCount := s.fileCount + 1 }
  if settings.maxFiles < s.fileCount then
    (s, some (.fetcher (maxFilesMessage what settings)))
  else
    let s := { s with result := { s.result with totalBytes := s.result.totalBytes + size } }
    if settings.maxTotalSizeBytes < s.result.totalBytes then
      (s, some (.fetcher (maxTotalMessage what settings)))
    else (s, none)

/-- Write a file; a file on the way to it, or a directory in its place, raises `OSError`. -/
def write (w : FileWrite) : Ingest × Option FetchFailure :=
  if s.writes.any fun old => clash old.target w.target then (s, some (.raised "OSError"))
  else ({ s with writes := s.writes ++ [w] }, none)

/-- The files below a directory, with their last contents. -/
def files (dest : List String) : Dict (List String) (List UInt8) :=
  s.writes.foldl (fun files w => files.set (w.target.drop dest.length) w.content) .empty

end Ingest

/-! ## Directories -/

/-- A directory entry that is not a directory. -/
inductive FileEntry where
  | regular (content : List UInt8)
  | symlink
  | dirSymlink
  | unstattable (exc : String)
deriving DecidableEq

/-- A name that a directory entry can have. -/
def IsName (name : String) : Prop := isProperPart name ∧ name ≠ ".." ∧ '/' ∉ name.toList

instance (name : String) : Decidable (IsName name) := inferInstanceAs (Decidable (_ ∧ _ ∧ _))

/-- A directory with everything below it. -/
structure RepoTree where
  entries : List (String × FileTree String FileEntry)
  distinct : (FileTree.dir entries).Distinct
  named : ∀ f ∈ FileTree.leavesIn entries, ∀ name ∈ f.1, IsName name

/-- The files of a tree. -/
abbrev RepoTree.leaves (t : RepoTree) : List (List String × FileEntry) :=
  FileTree.leavesIn t.entries

/-- How `os.walk` lists a directory, and how the two walks prune it: ignored directories are not
entered, and the files come in order. -/
def walkOptions : FileTree.WalkOptions String FileEntry where
  listedAsDir := (· = .dirSymlink)
  prune := isIgnoredDir
  arrange files := files.mergeSort fun a b => a.1 ≤ b.1

/-- What becomes of a file in a directory. -/
inductive FileVerdict where
  | ignored
  | skipped (reason : String)
  | taken (content : List UInt8)

/-- The checks on a file in a directory. -/
def fileVerdict (settings : FetchSettings) (path : List String) (entry : FileEntry) :
    FileVerdict :=
  if (path.getLast?.map isIgnoredFile).getD false then .ignored
  else match entry with
    | .symlink | .dirSymlink => .skipped "symlink"
    | .unstattable exc => .skipped ("stat_error: " ++ exc)
    | .regular content =>
        if settings.maxFileSizeBytes < content.length then .skipped "too_large"
        else .taken content

/-- One item of a walk; `copyTo` is where the files are copied to, if they are. -/
def ingestItem (settings : FetchSettings) (copyTo : Option (List String)) (s : Ingest) :
    FileTree.WalkItem String FileEntry → Ingest × Option FetchFailure
  | .pruned path => (s.ignore (joinParts path), none)
  | .file path entry =>
      match fileVerdict settings path entry with
      | .ignored => (s.ignore (joinParts path), none)
      | .skipped reason => (s.skip (joinParts path) reason, none)
      | .taken content =>
          andThen (s.count settings "repository" content.length) fun s =>
            match copyTo with
            | none => (s.copied (joinParts path), none)
            | some dest =>
                andThen (s.write ⟨dest ++ path, content.length, content⟩) fun s =>
                  (s.copied (joinParts path), none)

/-- The loop of a walk over a directory. -/
def ingestTree (settings : FetchSettings) (copyTo : Option (List String)) (src : RepoTree) :
    Ingest × Option FetchFailure :=
  loop (ingestItem settings copyTo) .initial ((FileTree.dir src.entries).walk walkOptions [])

/-- `_fetch_directory`. -/
def fetchDirectory (settings : FetchSettings) (location : String) (src : Option RepoTree)
    (dest : List String) : Ingest × Option FetchFailure :=
  match src with
  | none => (.initial, some (.fetcher ("directory not found: " ++ location)))
  | some src => ingestTree settings (some dest) src

/-- `_walk`. -/
def walkRepo (settings : FetchSettings) (root : RepoTree) : Ingest × Option FetchFailure :=
  ingestTree settings none root

/-! ## ZIP archives -/

/-- What `archive.open` and the copying of an entry yield. -/
inductive ZipData where
  | unopenable (exc : String)
  | stream (content : List UInt8) (exc : Option String)

/-- The bytes that can be read. -/
def ZipData.content : ZipData → List UInt8
  | .unopenable _ => []
  | .stream content _ => content

/-- `zipfile.ZipInfo`, with the data of the entry: at most the declared size. -/
structure ZipInfo where
  filename : String
  externalAttr : Nat
  flagBits : Nat
  fileSize : Nat
  data : ZipData
  data_le : data.content.length ≤ fileSize

/-- What becomes of an entry. -/
inductive ZipVerdict where
  | dropped
  | refused (message : String)
  | ignored (path : List String)
  | tooLarge (parts : List String)
  | taken (parts : List String)
deriving DecidableEq

/-- `info.filename.replace("\\", "/")`. -/
def slashed (filename : String) : String :=
  String.ofList (filename.toList.map fun c => if c = '\\' then '/' else c)

/-- `[p for p in name.split("/") if p not in ("", ".")]`. -/
def nameParts (name : String) : List String := (splitParts name).filter isProperPart

/-- `len(p) == 2 and p[1] == ":"`. -/
def isDrive (p : String) : Bool :=
  match p.toList with
  | [_, c] => c = ':'
  | _ => false

/-- `stat.S_ISLNK(mode)`. -/
def isLink (mode : Nat) : Bool := mode &&& 0o170000 = 0o120000

/-- The parts up to the first ignored directory, if there is one. -/
def ignoredPath (parts : List String) (first : String) : Option (List String) :=
  match parts.dropLast.findIdx? isIgnoredDir with
  | some i => some (parts.take (i + 1))
  | none => if isIgnoredDir first then some (parts.take 1) else none

/-- The checks on the attributes of an entry; `repr` is that of Python. -/
def attributesVerdict (repr : String → String) (settings : FetchSettings) (info : ZipInfo)
    (parts : List String) : ZipVerdict :=
  if isLink (info.externalAttr >>> 16) then
    .refused ("zip entry is a symlink: " ++ repr info.filename)
  else if info.flagBits &&& 1 ≠ 0 then
    .refused ("zip entry is encrypted: " ++ repr info.filename)
  else if settings.maxFileSizeBytes < info.fileSize then .tooLarge parts
  else .taken parts

/-- The checks on the parts of a name. -/
def partsVerdict (repr : String → String) (settings : FetchSettings) (info : ZipInfo)
    (first : String) (rest : List String) : ZipVerdict :=
  let parts := first :: rest
  if ".." ∈ parts then .refused ("zip entry escapes destination: " ++ repr info.filename)
  else if startswith "/" (slashed info.filename) || isDrive first then
    .refused ("zip entry is an absolute path: " ++ repr info.filename)
  else match ignoredPath parts first with
    | some path => .ignored path
    | none =>
        if isIgnoredFile (parts.getLast (List.cons_ne_nil _ _)) then .ignored parts
        else attributesVerdict repr settings info parts

/-- The checks on an entry. -/
def zipVerdict (repr : String → String) (settings : FetchSettings) (info : ZipInfo) : ZipVerdict :=
  let name := slashed info.filename
  if name = "" || endswith "/" name then .dropped
  else match nameParts name with
    | [] => .refused ("zip entry escapes destination: " ++ repr info.filename)
    | first :: rest => partsVerdict repr settings info first rest

/-- Copy the data of an entry to a file. -/
def extractTo (target : List String) (info : ZipInfo) (s : Ingest) :
    Ingest × Option FetchFailure :=
  match info.data with
  | .unopenable exc => (s, some (.raised exc))
  | .stream content exc =>
      andThen (s.write ⟨target, info.fileSize, content⟩) fun s => (s, exc.map .raised)

/-- One entry of an archive. -/
def extractEntry (repr : String → String) (settings : FetchSettings) (dest : List String)
    (s : Ingest) (info : ZipInfo) : Ingest × Option FetchFailure :=
  match zipVerdict repr settings info with
  | .dropped => (s, none)
  | .refused message => (s, some (.security message))
  | .ignored path => (s.ignore (joinParts path), none)
  | .tooLarge parts => (s.skip (joinParts parts) "too_large", none)
  | .taken parts =>
      andThen (s.count settings "zip" info.fileSize) fun s =>
        let target := resolvePath (parts.foldl joinPath dest)
        if ¬ resolvePath dest <+: target then
          (s, some (.security ("zip entry escapes destination: " ++ repr info.filename)))
        else
          andThen (extractTo target info s) fun s => (s.copied (joinParts parts), none)

/-- What is found at the location of an archive. -/
inductive ZipFile where
  | missing
  | unreadable (exc : String)
  | archive (infolist : List ZipInfo)

/-- `_fetch_zip`. -/
def fetchZip (repr : String → String) (settings : FetchSettings) (location : String)
    (src : ZipFile) (dest : List String) : Ingest × Option FetchFailure :=
  match src with
  | .missing => (.initial, some (.fetcher ("zip file not found: " ++ location)))
  | .unreadable exc => (.initial, some (.raised exc))
  | .archive infolist => loop (extractEntry repr settings dest) .initial infolist

/-! ## Paths -/

lemma notMem_of_mem_splitOn {α : Type} [DecidableEq α] {sep : α} {xs part : List α}
    (h : part ∈ xs.splitOn sep) : sep ∉ part := by
  induction xs generalizing part with
  | nil => simp at h; simp [h]
  | cons x xs ih =>
      rw [List.splitOn_cons_eq_if_modifyHead] at h
      split_ifs at h with hx
      · rcases List.mem_cons.1 h with rfl | h
        · simp
        · exact ih h
      · cases hxs : xs.splitOn sep with
        | nil => simp [hxs] at h
        | cons y ys =>
            rw [hxs, List.modifyHead_cons] at h
            rcases List.mem_cons.1 h with rfl | h
            · have hy : sep ∉ y := ih (hxs ▸ List.mem_cons_self)
              simp only [List.mem_cons, not_or]
              exact ⟨fun heq => hx (by simp [heq]), hy⟩
            · exact ih (hxs ▸ List.mem_cons_of_mem _ h)

/-- The parts of a path contain no slash. -/
lemma slash_notMem_splitParts {path p : String} (h : p ∈ splitParts path) : '/' ∉ p.toList := by
  obtain ⟨part, hpart, rfl⟩ := List.mem_map.1 h
  rw [String.toList_ofList]
  exact notMem_of_mem_splitOn hpart

lemma splitParts_of_notMem {p : String} (h : '/' ∉ p.toList) : splitParts p = [p] := by
  rw [splitParts, List.splitOn_eq_singleton h, List.map_singleton, String.ofList_toList]

lemma not_startswith_slash {p : String} (h : '/' ∉ p.toList) : startswith "/" p = false := by
  unfold startswith
  cases hp : p.toList with
  | nil => rfl
  | cons c cs =>
      rw [hp] at h
      have hc : ('/' == c) = false := by
        simp only [beq_eq_false_iff_ne]
        rintro rfl
        exact h List.mem_cons_self
      show (List.isPrefixOf ['/'] (c :: cs)) = false
      simp [List.isPrefixOf, hc]

lemma joinPath_of_isName {base : List String} {p : String} (h : IsName p) :
    joinPath base p = base ++ [p] := by
  obtain ⟨hproper, -, hslash⟩ := h
  unfold joinPath
  rw [not_startswith_slash hslash, splitParts_of_notMem hslash]
  simp [hproper]

lemma foldl_joinPath {parts : List String} (h : ∀ p ∈ parts, IsName p) (base : List String) :
    parts.foldl joinPath base = base ++ parts := by
  induction parts generalizing base with
  | nil => simp
  | cons p parts ih =>
      rw [List.foldl_cons, joinPath_of_isName (h p (by simp)), ih fun q hq => h q (by simp [hq]),
        List.append_assoc]
      rfl

/-- Parts other than `..` stay when a path is resolved. -/
lemma resolvePath_append {base parts : List String} (h : ".." ∉ parts) :
    resolvePath (base ++ parts) = resolvePath base ++ parts := by
  unfold resolvePath
  rw [List.foldl_append]
  generalize base.foldl _ _ = acc
  induction parts generalizing acc with
  | nil => simp
  | cons p parts ih =>
      have hp : p ≠ ".." := fun heq => h (by simp [heq])
      rw [List.foldl_cons, if_neg hp, ih (fun hmem => h (by simp [hmem])), List.append_assoc]
      rfl

/-! ## What the loops keep -/

/-- A file is counted where both limits allow it; otherwise a limit aborts. -/
lemma count_cases (settings : FetchSettings) (what : String) (size : Nat) (s : Ingest) :
    (s.fileCount < settings.maxFiles ∧ s.result.totalBytes + size ≤ settings.maxTotalSizeBytes
      ∧ s.count settings what size
        = ({ s with
            fileCount := s.fileCount + 1
            result := { s.result with totalBytes := s.result.totalBytes + size } }, none))
    ∨ (¬ (s.fileCount < settings.maxFiles
        ∧ s.result.totalBytes + size ≤ settings.maxTotalSizeBytes)
      ∧ (s.count settings what size).1.writes = s.writes
      ∧ s.fileCount ≤ (s.count settings what size).1.fileCount
      ∧ s.result.totalBytes ≤ (s.count settings what size).1.result.totalBytes
      ∧ ((s.count settings what size).2 = some (.fetcher (maxFilesMessage what settings))
        ∨ (s.count settings what size).2 = some (.fetcher (maxTotalMessage what settings)))) := by
  unfold Ingest.count
  dsimp only
  split_ifs with hfiles hbytes
  · exact Or.inr ⟨by omega, rfl, Nat.le_succ _, Nat.le_refl _, Or.inl rfl⟩
  · exact Or.inr ⟨by omega, rfl, Nat.le_succ _, Nat.le_add_right _ _, Or.inr rfl⟩
  · exact Or.inl ⟨by omega, by omega, rfl⟩

lemma write_cases (s : Ingest) (w : FileWrite) :
    (s.writes.any (fun old => clash old.target w.target) = false
      ∧ s.write w = ({ s with writes := s.writes ++ [w] }, none))
    ∨ (s.writes.any (fun old => clash old.target w.target) = true
      ∧ s.write w = (s, some (.raised "OSError"))) := by
  unfold Ingest.write
  split_ifs with hclash
  · exact Or.inr ⟨hclash, rfl⟩
  · exact Or.inl ⟨by simpa using hclash, rfl⟩

end Sast.Prepare
