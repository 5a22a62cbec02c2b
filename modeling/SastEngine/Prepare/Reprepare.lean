import Mathlib.Data.List.Perm.Subperm
import Mathlib.Data.List.Sort
import SastEngine.Lib.Except
import SastEngine.Prepare.Ingestion
import SastEngine.Prepare.Persistence

/-!
# Preparing a workspace again

`prepare` counts what the fetcher has recorded, and `reprepare` counts what lies in the repository
directory.  For a directory and a git repository the two agree.  An archive can hold several
entries for one path, and an entry can have less data than it declares: then `prepare` counts
more than there is (`reprepareUnchanged_iff`).
-/

namespace Sast.Prepare

/-! ## The fetcher -/

/-- The files below a directory. -/
abbrev Listing : Type := List (List String × FileEntry)

/-- `RepoFetcher`, with what it finds at a location; `clone` is what `git clone` leaves, or the
message for its failure. -/
structure RepoFetcher where
  settings : FetchSettings
  repr : String → String
  directory : String → Option RepoTree
  zip : String → ZipFile
  clone : String → Except String RepoTree

/-- What a loop returns, unless it raises. -/
def returned (run : Ingest × Option FetchFailure) : Except FetchFailure Ingest :=
  match run.2 with
  | some failure => .error failure
  | none => .ok run.1

/-- The files that were written below a directory. -/
def Ingest.written (s : Ingest) (dest : List String) : Listing :=
  (s.files dest).entries.map fun e => (e.1, .regular e.2)

/-- `RepoFetcher.fetch`, with the files that the repository directory holds after it. -/
def RepoFetcher.fetchRepo (fetcher : RepoFetcher) (spec : RepoSpec) (dest : List String) :
    Except FetchFailure (FetchResult × Listing) :=
  match spec.sourceType with
  | .directory =>
      (returned (fetchDirectory fetcher.settings spec.location (fetcher.directory spec.location)
        dest)).map fun s => (s.result, s.written dest)
  | .zip =>
      (returned (fetchZip fetcher.repr fetcher.settings spec.location
        (fetcher.zip spec.location) dest)).map fun s => (s.result, s.written (resolvePath dest))
  | .git =>
      match fetcher.clone spec.location with
      | .error message => .error (.fetcher message)
      | .ok repo =>
          (returned (walkRepo fetcher.settings repo)).map fun s => (s.result, repo.leaves)

/-- `(repo_dir / path).read_bytes()`. -/
def readFile (files : Listing) (path : String) : Option (List UInt8) :=
  match Dict.getEntry (splitParts path) files with
  | some (.regular content) => some content
  | _ => none

/-- The service with this fetcher. -/
def PrepareService.using {Doc : Type} (service : PrepareService Doc) (fetcher : RepoFetcher) :
    PrepareService Doc :=
  { service with
    fetch := fun spec dest => (fetcher.fetchRepo spec dest).map fun r => (r.1, readFile r.2) }

/-! ## Preparing again -/

/-- The text of an exception that a fetch raises. -/
def FetchFailure.message : FetchFailure → String
  | .security message => message
  | .fetcher message => message
  | .raised message => message

/-- `PrepareService.reprepare`; `repo` is the repository directory, if there is one. -/
def PrepareService.reprepare {Doc : Type} (service : PrepareService Doc) (fetcher : RepoFetcher)
    (docs : Documents Doc) (projectId name : String) (sourceType : SourceType)
    (location : String) (projectDir : List String) (repo : Option RepoTree)
    (createdAt builtAt : DateTime) :
    Except PrepareFailure (ProjectSnapshot × CodeModel × List String) × Documents Doc :=
  match repo with
  | none =>
      (.error (.prepare ("no workspace copy to re-prepare at /"
        ++ joinParts (projectDir ++ ["repo"]))), docs)
  | some repo =>
      match returned (walkRepo fetcher.settings repo) with
      | .error failure => (.error (.raised failure.message), docs)
      | .ok s =>
          match parsedFiles service.py s.result (readFile repo.leaves) with
          | .error e => (.error (.raised e), docs)
          | .ok files =>
              let spec : RepoSpec := ⟨name, sourceType, if location = "" then "n/a" else location⟩
              service.persist docs projectDir
                (buildSnapshot spec projectId createdAt s.result files) builtAt

/-- The repository directory is as the fetch has left it. -/
def RepoFetcher.Leaves (fetcher : RepoFetcher) (spec : RepoSpec) (dest : List String)
    (repo : RepoTree) : Prop :=
  ∃ result files, fetcher.fetchRepo spec dest = .ok (result, files) ∧ repo.leaves.Perm files

/-- `reprepare` succeeds with the same files, the same summary and the same code model up to the
time it was built, and a scan of it gives the same report. -/
def ReprepareUnchanged {Doc : Type} (service : PrepareService Doc) (fetcher : RepoFetcher)
    (docs : Documents Doc) (spec : RepoSpec) (projectId : String) (projectDir : List String)
    (repo : RepoTree) (createdAt builtAt : DateTime) (snapshot : ProjectSnapshot)
    (model : CodeModel) : Prop :=
  ∃ snapshot' model' docs', service.reprepare fetcher docs projectId spec.name spec.sourceType
        spec.location projectDir (some repo) createdAt builtAt
      = (.ok (snapshot', model', projectDir), docs')
    ∧ snapshot'.files = snapshot.files
    ∧ snapshot'.summary = snapshot.summary
    ∧ { model' with builtAt := model.builtAt } = model
    ∧ ∀ py rules scanned, scan py rules model'.scanned scanned
      = scan py rules model.scanned scanned

/-- The entries of an archive that are taken name distinct paths, and each has as much data as it
declares. -/
def CountedAsStored (repr : String → String) (settings : FetchSettings)
    (infolist : List ZipInfo) : Prop :=
  let files := takenFiles (infolist.map (entryEffect repr settings))
  files.Pairwise (fun f g => f.path ≠ g.path) ∧ ∀ f ∈ files, f.data.content.length = f.size

instance (repr : String → String) (settings : FetchSettings) (infolist : List ZipInfo) :
    Decidable (CountedAsStored repr settings infolist) :=
  inferInstanceAs (Decidable (_ ∧ _))

/-! ## What a loop has stored -/

/-- The contents stored for the files taken: the last one for each path. -/
def stored (files : List Taken) : Dict (List String) (List UInt8) :=
  files.foldl (fun d file => d.set file.path file.data.content) .empty

/-- A stored file as a walk takes it. -/
def onDisk (entry : List String × List UInt8) : Taken :=
  ⟨entry.1, entry.2.length, .stream entry.2 none⟩

/-- The path of a taken file, with what is stored for it. -/
def Taken.entry (file : Taken) : List String × List UInt8 := (file.path, file.data.content)

variable {settings : FetchSettings} {dest : List String} {es : List Effect} {files : List Taken}

lemma returned_eq_ok_iff {run : Ingest × Option FetchFailure} {s : Ingest} :
    returned run = .ok s ↔ run = (s, none) := by
  obtain ⟨s', failure⟩ := run
  cases failure <;> simp [returned]

/-- A run of effects returns iff they fit, and it returns their tally. -/
lemma returned_runEffects_iff {what : String} {copyTo : Option (List String)} {s : Ingest} :
    returned (runEffects settings what copyTo es) = .ok s
      ↔ Fits settings copyTo es ∧ s = tally copyTo es := by
  rw [returned_eq_ok_iff]
  constructor
  · intro h
    have hfits : Fits settings copyTo es := runEffects_snd_eq_none_iff.1 (congrArg Prod.snd h)
    rw [runEffects_of_fits hfits] at h
    exact ⟨hfits, (congrArg Prod.fst h).symm⟩
  · rintro ⟨hfits, rfl⟩
    exact runEffects_of_fits hfits

lemma written_tally (dest : List String) (es : List Effect) :
    (tally (some dest) es).written dest
      = (stored (takenFiles es)).entries.map fun e => (e.1, .regular e.2) := by
  have hfiles : (tally (some dest) es).files dest = stored (takenFiles es) := by
    simp only [Ingest.files, tally, copyWrites, List.foldl_map, List.drop_left]
    rfl
  rw [Ingest.written, hfiles]

lemma stored_eq (files : List Taken) :
    stored files = (files.map Taken.entry).foldl (fun d e => d.set e.1 e.2) .empty := by
  rw [stored, List.foldl_map]
  rfl

/-- What is stored comes from the files taken. -/
lemma subperm_stored (files : List Taken) :
    (stored files).entries.Subperm (files.map Taken.entry) := by
  refine List.Nodup.subperm (List.Nodup.of_map _ (stored files).nodup) ?_
  rintro ⟨path, content⟩ hmem
  have hget := (Dict.get?_eq_some_iff _).2 hmem
  rw [stored_eq, Dict.get?_foldl_set_empty_eq_some] at hget
  obtain ⟨before, after, heq, -⟩ := hget
  rw [heq]
  exact List.mem_append_right _ List.mem_cons_self

/-- All files taken are stored iff they have distinct paths. -/
lemma perm_stored_iff : (stored files).entries.Perm (files.map Taken.entry)
    ↔ files.Pairwise fun f g => f.path ≠ g.path := by
  have hpaths : ((files.map Taken.entry).map Prod.fst).Nodup
      ↔ files.Pairwise fun f g => f.path ≠ g.path := by
    rw [List.map_map, List.Nodup, List.pairwise_map]
    rfl
  rw [← hpaths]
  constructor
  · intro hperm
    exact ((hperm.map Prod.fst).nodup_iff).1 (stored files).nodup
  · intro hnodup
    rw [List.perm_ext_iff_of_nodup (List.Nodup.of_map _ (stored files).nodup)
      (List.Nodup.of_map _ hnodup)]
    rintro ⟨path, content⟩
    rw [← Dict.get?_eq_some_iff, stored_eq, Dict.get?_foldl_set _ hnodup, Dict.get?_empty,
      Option.or_none, Dict.getEntry_eq_some hnodup]

/-- The files stored are as many as were taken, with as many bytes, iff the paths are distinct and
each file has as much data as was counted for it. -/
lemma counted_iff (hsize : ∀ f ∈ files, f.data.content.length ≤ f.size) :
    ((stored files).entries.length = files.length
      ∧ (((stored files).entries.map onDisk).map Taken.size).sum = (files.map Taken.size).sum)
      ↔ files.Pairwise (fun f g => f.path ≠ g.path)
        ∧ ∀ f ∈ files, f.data.content.length = f.size := by
  have hsum : ∀ entries : List (List String × List UInt8), entries.Perm (files.map Taken.entry) →
      ((entries.map onDisk).map Taken.size).sum
        = (files.map fun f => f.data.content.length).sum := by
    intro entries hperm
    rw [((hperm.map onDisk).map Taken.size).sum_eq, List.map_map, List.map_map]
    rfl
  constructor
  · rintro ⟨hlength, htotal⟩
    have hperm : (stored files).entries.Perm (files.map Taken.entry) :=
      (subperm_stored files).perm_of_length_le (by rw [List.length_map, hlength])
    refine ⟨perm_stored_iff.1 hperm, eq_of_sum_map_eq hsize ?_⟩
    rw [← hsum _ hperm, htotal]
  · rintro ⟨hpaths, hcounted⟩
    have hperm := perm_stored_iff.2 hpaths
    refine ⟨by rw [hperm.length_eq, List.length_map], ?_⟩
    rw [hsum _ hperm]
    exact congrArg List.sum (List.map_congr_left hcounted)

/-- What is stored stays within the limits. -/
lemma within_stored (hsize : ∀ f ∈ files, f.data.content.length ≤ f.size)
    (h : Within settings files) : Within settings ((stored files).entries.map onDisk) := by
  obtain ⟨sub, hperm, hsub⟩ := subperm_stored files
  rw [← Within.perm (hperm.map onDisk)]
  refine Within.of_sublist ?_ (hsub.map onDisk)
  refine ⟨by simpa using h.1, le_trans ?_ h.2⟩
  rw [List.map_map, List.map_map]
  exact List.sum_le_sum hsize

/-! ## Listing what is stored -/

/-- A walk takes the file. -/
structure Ingestible (settings : FetchSettings) (entry : List String × List UInt8) : Prop where
  reached : walkOptions.Reaches (entry.1, .regular entry.2)
  kept : (entry.1.getLast?.map isIgnoredFile).getD false = false
  size_le : entry.2.length ≤ settings.maxFileSizeBytes

/-- A walk takes everything in a directory that holds such files. -/
lemma perm_takenFiles_repo {repo : RepoTree} {entries : List (List String × List UInt8)}
    (h : repo.leaves.Perm (entries.map fun e => (e.1, .regular e.2)))
    (hentries : ∀ e ∈ entries, Ingestible settings e) :
    (takenFiles (walkEffects settings repo)).Perm (entries.map onDisk) := by
  let onLeaf := fun f : List String × FileEntry => (itemEffect settings (.file f.1 f.2)).taken?
  have hreached : (entries.map fun e => ((e.1, .regular e.2) : List String × FileEntry)).filter
      walkOptions.Reaches = entries.map fun e => (e.1, .regular e.2) := by
    refine List.filter_eq_self.2 fun f hf => ?_
    obtain ⟨e, he, rfl⟩ := List.mem_map.1 hf
    exact (hentries e he).reached
  have htaken : ∀ e ∈ entries, onLeaf (e.1, .regular e.2) = some (onDisk e) := by
    intro e he
    obtain ⟨-, hkept, hsize⟩ := hentries e he
    simp only [onLeaf, itemEffect, fileVerdict, hkept, Bool.false_eq_true, if_false,
      if_neg (Nat.not_lt.2 hsize), Effect.taken?]
    rfl
  refine (filterMap_walkEffects (fun _ => rfl) settings repo).trans ?_
  refine ((h.filter walkOptions.Reaches).filterMap onLeaf).trans ?_
  rw [hreached, List.filterMap_map, ← List.filterMap_eq_map]
  exact List.Perm.of_eq (List.filterMap_congr htaken)

/-- Two walks over the same files take the same. -/
lemma perm_takenFiles_walk {repo repo' : RepoTree} (h : repo.leaves.Perm repo'.leaves) :
    (takenFiles (walkEffects settings repo)).Perm (takenFiles (walkEffects settings repo')) :=
  ((filterMap_walkEffects (fun _ => rfl) settings repo).trans
    ((h.filter walkOptions.Reaches).filterMap _)).trans
      (filterMap_walkEffects (fun _ => rfl) settings repo').symm

/-- A directory walk takes files that it takes again. -/
lemma ingestible_of_walk {src : RepoTree} {file : Taken}
    (h : file ∈ takenFiles (walkEffects settings src)) :
    Ingestible settings file.entry ∧ file.data.content.length = file.size := by
  obtain ⟨path, content, -, hreaches, hkept, hsize, rfl⟩ := mem_takenFiles_walkEffects_iff.1 h
  exact ⟨⟨hreaches, hkept, hsize⟩, rfl⟩

/-- The paths that a directory walk takes are distinct. -/
lemma pairwise_takenFiles_walk (src : RepoTree) :
    (takenFiles (walkEffects settings src)).Pairwise fun f g => f.path ≠ g.path := by
  have hleaves : (src.leaves.filter walkOptions.Reaches).Pairwise fun f g => f.1 ≠ g.1 :=
    ((FileTree.pairwise_leaves _ src.distinct).imp fun happart => happart.ne).filter _
  refine ((filterMap_walkEffects (fun _ => rfl) settings src).pairwise_iff
    fun hne => hne.symm).2 (List.pairwise_filterMap.2 (hleaves.imp ?_))
  intro f g hne a ha b hb
  have hpath : ∀ {f : List String × FileEntry} {a : Taken},
      (itemEffect settings (.file f.1 f.2)).taken? = some a → a.path = f.1 := by
    intro f a ha
    simp only [itemEffect] at ha
    split at ha
    · cases ha
    · cases ha
    · rw [← Option.some.inj ha]
  rw [hpath ha, hpath hb]
  exact hne

/-- An extraction takes files that a walk takes as well. -/
lemma ingestible_of_zip {repr : String → String} {infolist : List ZipInfo} {file : Taken}
    (h : file ∈ takenFiles (infolist.map (entryEffect repr settings))) :
    Ingestible settings file.entry ∧ file.data.content.length ≤ file.size := by
  rw [takenFiles, List.filterMap_map] at h
  obtain ⟨info, -, htaken⟩ := List.mem_filterMap.1 h
  rw [Function.comp_apply, entryEffect] at htaken
  split at htaken
  · cases htaken
  · cases htaken
  · cases htaken
  · cases htaken
  · next parts hverdict =>
    obtain ⟨hsafe, hsize⟩ := zipVerdict_taken hverdict
    rw [← Option.some.inj htaken]
    refine ⟨⟨?_, ?_, info.data_le.trans hsize⟩, info.data_le⟩
    · show (parts.dropLast.all (fun p => !isIgnoredDir p) && true) = true
      simpa using hsafe.noIgnoredDir
    · show (parts.getLast?.map isIgnoredFile).getD false = false
      cases hlast : parts.getLast? with
      | none => rfl
      | some p => exact hsafe.noIgnoredFile p hlast

/-! ## What is read of the two listings -/

/-- Listings of the same files are read alike. -/
lemma readFile_perm {files files' : Listing} (h : files.Perm files')
    (hnodup : (files'.map Prod.fst).Nodup) : readFile files = readFile files' := by
  funext path
  rw [readFile, readFile, Dict.getEntry_perm (d := ⟨files', hnodup⟩) h]
  rfl

lemma nodup_leaves (repo : RepoTree) : (repo.leaves.map Prod.fst).Nodup := by
  rw [List.Nodup, List.pairwise_map]
  exact (FileTree.pairwise_leaves _ repo.distinct).imp fun happart => happart.ne

/-- The Python files do not depend on the order in which the files were recorded. -/
lemma pythonPaths_perm {result result' : FetchResult}
    (h : result.copiedFiles.Perm result'.copiedFiles) : pythonPaths result = pythonPaths result' := by
  have hsorted : ∀ paths : List String,
      (paths.mergeSort fun a b => a ≤ b).Pairwise fun a b => a ≤ b := by
    intro paths
    have htrans : ∀ a b c : String, decide (a ≤ b) → decide (b ≤ c) → decide (a ≤ c) := by
      simp only [decide_eq_true_eq]
      exact fun a b c hab hbc => le_trans hab hbc
    have htotal : ∀ a b : String, decide (a ≤ b) || decide (b ≤ a) := by
      simp only [Bool.or_eq_true, decide_eq_true_eq]
      exact le_total
    simpa using List.pairwise_mergeSort htrans htotal paths
  rw [pythonPaths, pythonPaths]
  refine congrArg _ (List.Perm.eq_of_pairwise' (hsorted _) (hsorted _) ?_)
  exact ((List.mergeSort_perm _ _).trans h).trans (List.mergeSort_perm _ _).symm

/-- The parsed files are those of the recorded paths and of what is read there. -/
lemma parsedFiles_congr {py : PyInterpreter} {result result' : FetchResult}
    {read read' : String → Option (List UInt8)}
    (h : result.copiedFiles.Perm result'.copiedFiles) (hread : read = read') :
    parsedFiles py result read = parsedFiles py result' read' := by
  rw [parsedFiles, parsedFiles, sourceTexts, sourceTexts, pythonPaths_perm h, hread]

section Persisted

variable {Doc : Type} {mode : InfNan} {service : PrepareService Doc}

/-- Whether a snapshot and its code model can be written depends on their files only. -/
lemma persist_of_files (hsnapshots : service.snapshots.Documented (ProjectSnapshot.stored mode))
    (hmodels : service.models.Documented (CodeModel.stored mode)) {docs docs' : Documents Doc}
    {projectDir : List String} {snapshot snapshot' : ProjectSnapshot} {builtAt : DateTime}
    {outcome : ProjectSnapshot × CodeModel × List String}
    (h : service.persist docs projectDir snapshot builtAt = (.ok outcome, docs'))
    (hfiles : snapshot'.files = snapshot.files) (docs₀ : Documents Doc) (builtAt' : DateTime) :
    ∃ docs'', service.persist docs₀ projectDir snapshot' builtAt'
      = (.ok (snapshot', buildModel builtAt' snapshot', projectDir), docs'') := by
  have hkept : ∃ files, snapshot.files.mapM (SourceFile.stored mode) = some files := by
    cases hdump : service.snapshots.dumpJson snapshot with
    | error e => simp [PrepareService.persist, hdump] at h
    | ok doc =>
        obtain ⟨back, hback, -⟩ := stored_of_dumpJson hsnapshots hdump
        obtain ⟨files, hfiles, -⟩ := Option.map_eq_some_iff.1 hback
        exact ⟨files, hfiles⟩
  obtain ⟨files, hstored⟩ := hkept
  rw [← hfiles] at hstored
  have hsnapshot : snapshot'.stored mode = some { snapshot' with files := files } := by
    rw [ProjectSnapshot.stored, hstored]
    rfl
  have hmodel : (buildModel builtAt' snapshot').stored mode
      = some { buildModel builtAt' snapshot' with files := files } := by
    rw [CodeModel.stored, show (buildModel builtAt' snapshot').files = snapshot'.files from rfl,
      hstored]
    rfl
  obtain ⟨snapshotDoc, hsnapshotDoc, -⟩ := dumpJson_of_stored hsnapshots hsnapshot
  obtain ⟨modelDoc, hmodelDoc, -⟩ := dumpJson_of_stored hmodels hmodel
  simp only [PrepareService.persist, hsnapshotDoc, hmodelDoc]
  exact ⟨_, rfl⟩

/-- What `prepare` has done when it returns. -/
lemma prepare_ok {fetcher : RepoFetcher} {docs docs' : Documents Doc} {spec : RepoSpec}
    {projectId : String} {createdAt builtAt : DateTime} {snapshot : ProjectSnapshot}
    {model : CodeModel} {projectDir : List String}
    (h : (service.using fetcher).prepare docs spec projectId createdAt builtAt
      = (.ok (snapshot, model, projectDir), docs')) :
    projectDir = service.projectDir projectId
      ∧ ∃ result files parsed, fetcher.fetchRepo spec (projectDir ++ ["repo"]) = .ok (result, files)
        ∧ parsedFiles service.py result (readFile files) = .ok parsed
        ∧ snapshot = buildSnapshot spec projectId createdAt result parsed
        ∧ model = buildModel builtAt snapshot
        ∧ service.persist docs projectDir snapshot builtAt
          = (.ok (snapshot, model, projectDir), docs') := by
  have hfetched : (service.using fetcher).fetch spec
        ((service.using fetcher).projectDir projectId ++ ["repo"])
      = (fetcher.fetchRepo spec (service.projectDir projectId ++ ["repo"])).map
        fun r => (r.1, readFile r.2) := rfl
  simp only [PrepareService.prepare, hfetched] at h
  cases hfetch : fetcher.fetchRepo spec (service.projectDir projectId ++ ["repo"]) with
  | error failure =>
      rw [hfetch] at h
      cases failure <;> cases h
  | ok fetched =>
      obtain ⟨result, files⟩ := fetched
      rw [hfetch] at h
      simp only [Except.map] at h
      cases hparse : parsedFiles service.py result (readFile files) with
      | error e =>
          simp only [show (service.using fetcher).py = service.py from rfl, hparse] at h
          cases h
      | ok parsed =>
          simp only [show (service.using fetcher).py = service.py from rfl, hparse] at h
          have hpersist : service.persist docs (service.projectDir projectId)
              (buildSnapshot spec projectId createdAt result parsed) builtAt
                = (.ok (snapshot, model, projectDir), docs') := h
          obtain ⟨rfl, rfl, rfl, -⟩ := persist_ok hpersist
          exact ⟨rfl, result, files, parsed, hfetch, hparse, rfl, rfl, hpersist⟩

/-- **A workspace is prepared again unchanged** iff the fetcher recorded as many files and bytes
as a walk finds, provided that where it did so, it recorded the same paths. -/
lemma reprepareUnchanged_iff_counted
    (hsnapshots : service.snapshots.Documented (ProjectSnapshot.stored mode))
    (hmodels : service.models.Documented (CodeModel.stored mode)) {fetcher : RepoFetcher}
    {docs docs' : Documents Doc} {spec : RepoSpec} {projectId : String}
    {createdAt builtAt : DateTime} {snapshot : ProjectSnapshot} {model : CodeModel}
    {projectDir : List String} {result : FetchResult} {files : Listing} {parsed : List SourceFile}
    (hparse : parsedFiles service.py result (readFile files) = .ok parsed)
    (hsnapshot : snapshot = buildSnapshot spec projectId createdAt result parsed)
    (hmodel : model = buildModel builtAt snapshot)
    (hpersist : service.persist docs projectDir snapshot builtAt
      = (.ok (snapshot, model, projectDir), docs')) {repo : RepoTree} {s : Ingest}
    (hrepo : repo.leaves.Perm files) (hwalk : returned (walkRepo fetcher.settings repo) = .ok s)
    (hcopied : s.result.copiedFiles.length = result.copiedFiles.length →
      s.result.totalBytes = result.totalBytes →
        s.result.copiedFiles.Perm result.copiedFiles) (createdAt' builtAt' : DateTime) :
    ReprepareUnchanged service fetcher docs' spec projectId projectDir repo createdAt' builtAt'
        snapshot model
      ↔ s.result.copiedFiles.length = result.copiedFiles.length
        ∧ s.result.totalBytes = result.totalBytes := by
  have hread : readFile repo.leaves = readFile files := by
    refine readFile_perm hrepo ?_
    exact ((hrepo.map Prod.fst).nodup_iff).1 (nodup_leaves repo)
  unfold ReprepareUnchanged
  simp only [PrepareService.reprepare, hwalk]
  constructor
  · rintro ⟨snapshot', model', docs'', hagain, -, hsummary, -⟩
    cases hparse' : parsedFiles service.py s.result (readFile repo.leaves) with
    | error e =>
        rw [hparse'] at hagain
        cases hagain
    | ok parsed' =>
        rw [hparse'] at hagain
        obtain ⟨rfl, -⟩ := persist_ok hagain
        rw [hsnapshot] at hsummary
        exact ⟨congrArg SnapshotSummary.fetchedFiles hsummary,
          congrArg SnapshotSummary.fetchedBytes hsummary⟩
  · rintro ⟨hlength, hbytes⟩
    have hparse' : parsedFiles service.py s.result (readFile repo.leaves) = .ok parsed :=
      (parsedFiles_congr (hcopied hlength hbytes) hread).trans hparse
    rw [hparse']
    let snapshot' := buildSnapshot ⟨spec.name, spec.sourceType,
      if spec.location = "" then "n/a" else spec.location⟩ projectId createdAt' s.result parsed
    have hfiles : snapshot'.files = snapshot.files := by rw [hsnapshot]; rfl
    obtain ⟨docs'', hagain⟩ :=
      persist_of_files hsnapshots hmodels hpersist hfiles docs' builtAt'
    have hsame : { buildModel builtAt' snapshot' with builtAt := model.builtAt } = model := by
      rw [hmodel, hsnapshot]
      rfl
    refine ⟨snapshot', buildModel builtAt' snapshot', docs'', hagain, hfiles, ?_, hsame, ?_⟩
    · rw [hsnapshot]
      show summarize s.result parsed = summarize result parsed
      rw [summarize, summarize, hlength, hbytes]
    · intro py rules scanned
      have hscanned : (buildModel builtAt' snapshot').scanned = model.scanned := by
        rw [← hsame]
        rfl
      rw [hscanned]

end Persisted

/-! ## Walking what a fetch has left -/

/-- A fetch has copied the files: it has recorded all of them, and stored the last one for each
path. -/
structure Copied (settings : FetchSettings) (files : List Taken) (result : FetchResult)
    (listing : Listing) : Prop where
  within : Within settings files
  ingestible : ∀ f ∈ files, Ingestible settings f.entry
  size_le : ∀ f ∈ files, f.data.content.length ≤ f.size
  copiedFiles : result.copiedFiles = files.map fun f => joinParts f.path
  totalBytes : result.totalBytes = (files.map Taken.size).sum
  listing : listing = (stored files).entries.map fun e => (e.1, .regular e.2)

lemma Copied.of_fits {result : FetchResult} {listing : Listing}
    (hfits : Fits settings (some dest) es)
    (hfiles : ∀ f ∈ takenFiles es, Ingestible settings f.entry ∧ f.data.content.length ≤ f.size)
    (hresult : result = (tally (some dest) es).result)
    (hlisting : listing = (tally (some dest) es).written dest) :
    Copied settings (takenFiles es) result listing where
  within := hfits.within
  ingestible f hf := (hfiles f hf).1
  size_le f hf := (hfiles f hf).2
  copiedFiles := congrArg FetchResult.copiedFiles hresult
  totalBytes := congrArg FetchResult.totalBytes hresult
  listing := hlisting.trans (written_tally dest es)

/-- A walk over copied files returns.  It records as many files and bytes as the fetch iff the
files taken have distinct paths and are stored in full, and then it records the same paths. -/
lemma Copied.walk {result : FetchResult} {listing : Listing}
    (h : Copied settings files result listing) {repo : RepoTree}
    (hrepo : repo.leaves.Perm listing) :
    ∃ s, returned (walkRepo settings repo) = .ok s
      ∧ ((s.result.copiedFiles.length = result.copiedFiles.length
          ∧ s.result.totalBytes = result.totalBytes)
        ↔ files.Pairwise (fun f g => f.path ≠ g.path)
          ∧ ∀ f ∈ files, f.data.content.length = f.size)
      ∧ (files.Pairwise (fun f g => f.path ≠ g.path) →
        s.result.copiedFiles.Perm result.copiedFiles) := by
  have hentries : ∀ e ∈ (stored files).entries, Ingestible settings e := by
    intro e he
    obtain ⟨f, hf, rfl⟩ := List.mem_map.1 ((subperm_stored files).subset he)
    exact h.ingestible f hf
  rw [h.listing] at hrepo
  have hperm := perm_takenFiles_repo hrepo hentries
  have hfits : Fits settings none (walkEffects settings repo) :=
    (fits_walkEffects_iff none).2 ((Within.perm hperm).2 (within_stored h.size_le h.within))
  have hpaths : (tally none (walkEffects settings repo)).result.copiedFiles.Perm
      ((stored files).entries.map fun e => joinParts e.1) := by
    have hmapped := hperm.map fun f => joinParts f.path
    rwa [List.map_map] at hmapped
  refine ⟨tally none (walkEffects settings repo), ?_, ?_, fun hdistinct => ?_⟩
  · rw [walkRepo, ingestTree_eq]
    exact returned_runEffects_iff.2 ⟨hfits, rfl⟩
  · rw [← counted_iff h.size_le, hpaths.length_eq, h.copiedFiles, h.totalBytes, List.length_map,
      List.length_map, ← (hperm.map Taken.size).sum_eq]
    rfl
  · refine hpaths.trans ?_
    have hstored := (perm_stored_iff.2 hdistinct).map fun e => joinParts e.1
    rw [List.map_map] at hstored
    rw [h.copiedFiles]
    exact hstored

/-- What a fetch has done when it returns: it has copied the files of a directory or of an
archive, or walked over a clone. -/
lemma fetchRepo_ok {fetcher : RepoFetcher} {spec : RepoSpec} {result : FetchResult}
    {listing : Listing} (h : fetcher.fetchRepo spec dest = .ok (result, listing)) :
    match spec.sourceType with
    | .directory => ∃ src, Copied fetcher.settings
        (takenFiles (walkEffects fetcher.settings src)) result listing
    | .zip => ∃ infolist, fetcher.zip spec.location = .archive infolist
        ∧ Copied fetcher.settings
          (takenFiles (infolist.map (entryEffect fetcher.repr fetcher.settings))) result listing
    | .git => ∃ repo s, returned (walkRepo fetcher.settings repo) = .ok s
        ∧ result = s.result ∧ listing = repo.leaves := by
  unfold RepoFetcher.fetchRepo at h
  cases hsource : spec.sourceType with
  | directory =>
      simp only [hsource] at h
      obtain ⟨s, hrun, heq⟩ := map_eq_ok.1 h
      obtain ⟨rfl, rfl⟩ := Prod.mk.inj heq
      cases hsrc : fetcher.directory spec.location with
      | none =>
          rw [hsrc] at hrun
          cases hrun
      | some src =>
          rw [hsrc, fetchDirectory, ingestTree_eq] at hrun
          obtain ⟨hfits, rfl⟩ := returned_runEffects_iff.1 hrun
          exact ⟨src, Copied.of_fits hfits (fun f hf => ⟨(ingestible_of_walk hf).1,
            (ingestible_of_walk hf).2.le⟩) rfl rfl⟩
  | zip =>
      simp only [hsource] at h
      obtain ⟨s, hrun, heq⟩ := map_eq_ok.1 h
      obtain ⟨rfl, rfl⟩ := Prod.mk.inj heq
      cases hsrc : fetcher.zip spec.location with
      | missing =>
          rw [hsrc] at hrun
          cases hrun
      | unreadable exc =>
          rw [hsrc] at hrun
          cases hrun
      | archive infolist =>
          rw [hsrc, fetchZip_eq] at hrun
          obtain ⟨hfits, rfl⟩ := returned_runEffects_iff.1 hrun
          exact ⟨infolist, rfl, Copied.of_fits hfits (fun f hf => ingestible_of_zip hf) rfl rfl⟩
  | git =>
      simp only [hsource] at h
      cases hclone : fetcher.clone spec.location with
      | error message =>
          rw [hclone] at h
          cases h
      | ok repo =>
          rw [hclone] at h
          obtain ⟨s, hrun, heq⟩ := map_eq_ok.1 h
          obtain ⟨rfl, rfl⟩ := Prod.mk.inj heq
          exact ⟨repo, s, hrun, rfl, rfl⟩

/-- Two walks over the same files record the same. -/
lemma walk_again {repo cloned : RepoTree} {s : Ingest}
    (h : returned (walkRepo settings cloned) = .ok s) (hrepo : repo.leaves.Perm cloned.leaves) :
    ∃ s', returned (walkRepo settings repo) = .ok s'
      ∧ s'.result.copiedFiles.Perm s.result.copiedFiles
      ∧ s'.result.totalBytes = s.result.totalBytes := by
  have hperm : (takenFiles (walkEffects settings repo)).Perm
      (takenFiles (walkEffects settings cloned)) := perm_takenFiles_walk hrepo
  rw [walkRepo, ingestTree_eq] at h
  obtain ⟨hfits, rfl⟩ := returned_runEffects_iff.1 h
  have hfits' : Fits settings none (walkEffects settings repo) :=
    (fits_walkEffects_iff none).2 ((Within.perm hperm).2 hfits.within)
  refine ⟨tally none (walkEffects settings repo), ?_, hperm.map _, (hperm.map Taken.size).sum_eq⟩
  rw [walkRepo, ingestTree_eq]
  exact returned_runEffects_iff.2 ⟨hfits', rfl⟩

/-- **Preparing an untouched workspace again changes nothing** iff the repository is no archive,
or one whose entries are counted as they are stored. -/
theorem reprepareUnchanged_iff {Doc : Type} (mode : InfNan) (service : PrepareService Doc)
    (fetcher : RepoFetcher)
    (hsnapshots : service.snapshots.Documented (ProjectSnapshot.stored mode))
    (hmodels : service.models.Documented (CodeModel.stored mode)) {docs docs' : Documents Doc}
    {spec : RepoSpec} {projectId : String} {createdAt builtAt : DateTime}
    {snapshot : ProjectSnapshot} {model : CodeModel} {projectDir : List String}
    (hprepare : (service.using fetcher).prepare docs spec projectId createdAt builtAt
      = (.ok (snapshot, model, projectDir), docs')) {repo : RepoTree}
    (hrepo : fetcher.Leaves spec (projectDir ++ ["repo"]) repo)
    (createdAt' builtAt' : DateTime) :
    ReprepareUnchanged service fetcher docs' spec projectId projectDir repo createdAt' builtAt'
        snapshot model
      ↔ (spec.sourceType = .zip → ∀ infolist, fetcher.zip spec.location = .archive infolist →
        CountedAsStored fetcher.repr fetcher.settings infolist) := by
  obtain ⟨-, result, files, parsed, hfetch, hparse, hsnapshot, hmodel, hpersist⟩ :=
    prepare_ok hprepare
  obtain ⟨result', files', hfetch', hleaves⟩ := hrepo
  obtain ⟨rfl, rfl⟩ := Prod.mk.inj (Except.ok.inj (hfetch'.symm.trans hfetch))
  have hdone := fetchRepo_ok hfetch
  cases hsource : spec.sourceType with
  | directory =>
      rw [hsource] at hdone
      obtain ⟨src, hcopied⟩ := hdone
      obtain ⟨s, hwalk, hcounted, hpaths⟩ := hcopied.walk hleaves
      have hdistinct := @pairwise_takenFiles_walk fetcher.settings src
      rw [reprepareUnchanged_iff_counted hsnapshots hmodels hparse hsnapshot hmodel hpersist
        hleaves hwalk (fun _ _ => hpaths hdistinct), hcounted]
      exact iff_of_true ⟨hdistinct, fun f hf => (ingestible_of_walk hf).2⟩ (fun h => by cases h)
  | zip =>
      rw [hsource] at hdone
      obtain ⟨infolist, hzip, hcopied⟩ := hdone
      obtain ⟨s, hwalk, hcounted, hpaths⟩ := hcopied.walk hleaves
      rw [reprepareUnchanged_iff_counted hsnapshots hmodels hparse hsnapshot hmodel hpersist
        hleaves hwalk (fun hlength hbytes => hpaths (hcounted.1 ⟨hlength, hbytes⟩).1), hcounted]
      constructor
      · rintro h - infolist' hzip'
        obtain rfl := ZipFile.archive.inj (hzip.symm.trans hzip')
        exact h
      · intro h
        exact h rfl infolist hzip
  | git =>
      rw [hsource] at hdone
      obtain ⟨cloned, s, hcloned, rfl, rfl⟩ := hdone
      obtain ⟨s', hwalk, hpaths, hbytes⟩ := walk_again hcloned hleaves
      rw [reprepareUnchanged_iff_counted hsnapshots hmodels hparse hsnapshot hmodel hpersist
        hleaves hwalk (fun _ _ => hpaths)]
      exact iff_of_true ⟨hpaths.length_eq, hbytes⟩ (fun h => by cases h)

/-! ## An archive with one file -/

/-- The entry of a file that consists of a number. -/
def numberEntry : ZipInfo where
  filename := "app.py"
  externalAttr := 0
  flagBits := 0
  fileSize := 2
  data := .stream [49, 10] none
  data_le := by decide

/-- A fetcher that finds an archive. -/
def archiveFetcher (infolist : List ZipInfo) : RepoFetcher where
  settings := sampleLimits
  repr := id
  directory _ := none
  zip _ := .archive infolist
  clone _ := .error "git executable not found on PATH"

/-- The repository with the archive. -/
def archiveSpec : RepoSpec := ⟨"r", .zip, "/r.zip"⟩

/-- The directory with the file. -/
def numberRepo : RepoTree where
  entries := [("app.py", .leaf (.regular [49, 10]))]
  distinct := by simp [FileTree.Distinct, FileTree.DistinctIn]
  named := by decide +kernel

lemma sourceText_number : sourceText [49, 10] = "1\n" := by decide +kernel

/-- Files that all consist of the number are prepared. -/
lemma exists_prepare {infolist : List ZipInfo} {result : FetchResult} {files : Listing}
    (hfetch : (archiveFetcher infolist).fetchRepo archiveSpec ["ws", "projects", "p", "repo"]
      = .ok (result, files))
    (hcopied : ∀ path ∈ result.copiedFiles, readFile files path = some [49, 10]) :
    ∃ snapshot model docs',
      ((literalService "1\n").using (archiveFetcher infolist)).prepare .empty archiveSpec "p"
        ⟨0, some 0⟩ ⟨0, some 0⟩ = (.ok (snapshot, model, ["ws", "projects", "p"]), docs') := by
  have hsources : ∀ entry ∈ sourceTexts result (readFile files), entry.2 = "1\n" := by
    intro entry hentry
    obtain ⟨path, hpath, hread⟩ := List.mem_filterMap.1 hentry
    rw [hcopied path (List.mem_mergeSort.1 (List.mem_filter.1 hpath).1)] at hread
    rw [← Option.some.inj hread]
    exact sourceText_number
  have hfile : ∀ entry ∈ sourceTexts result (readFile files),
      ∃ file, parseFile literalPython entry.1 entry.2 = .ok file := by
    intro entry hentry
    rw [hsources entry hentry]
    exact ⟨_, rfl⟩
  obtain ⟨parsed, hparse⟩ : ∃ parsed,
      parsedFiles literalPython result (readFile files) = .ok parsed := by
    rw [parsedFiles]
    generalize sourceTexts result (readFile files) = entries at hfile ⊢
    induction entries with
    | nil => exact ⟨[], rfl⟩
    | cons entry entries ih =>
        obtain ⟨hhead, htail⟩ := List.forall_mem_cons.1 hfile
        obtain ⟨file, hfile⟩ := hhead
        obtain ⟨parsed, hparsed⟩ := ih htail
        exact ⟨file :: parsed, mapM_cons_eq_ok.2 ⟨file, hfile, parsed, hparsed, rfl⟩⟩
  have hstored : ∀ f ∈ parsed, f.stored .null = some f := by
    refine (stored_parsedFiles_iff literalPython_distinct hparse).2 fun entry hentry n hn _ => ?_
    rw [hsources entry hentry] at hn
    obtain rfl : literalTree (.int 1) = n := Except.ok.inj hn
    simp [literalTree, Node.constants, fieldConstants, FieldValue.constants, itemConstants,
      PyConstant.kept]
  obtain ⟨snapshot, model, dir, docs', hpersist, -⟩ :=
    (persist_iff (literalService_snapshots "1\n") (literalService_models "1\n") .empty
      ["ws", "projects", "p"] (buildSnapshot archiveSpec "p" ⟨0, some 0⟩ result parsed)
      ⟨0, some 0⟩).2 hstored
  obtain ⟨-, -, rfl, -⟩ := persist_ok hpersist
  refine ⟨snapshot, model, docs', ?_⟩
  have hfetched : ((literalService "1\n").using (archiveFetcher infolist)).fetch archiveSpec
      (((literalService "1\n").using (archiveFetcher infolist)).projectDir "p" ++ ["repo"])
        = ((archiveFetcher infolist).fetchRepo archiveSpec
          ["ws", "projects", "p", "repo"]).map fun r => (r.1, readFile r.2) := rfl
  rw [PrepareService.prepare, hfetched, hfetch]
  simp only [Except.map]
  rw [show ((literalService "1\n").using (archiveFetcher infolist)).py = literalPython from rfl,
    hparse]
  exact hpersist

lemma fetchRepo_once : (archiveFetcher [numberEntry]).fetchRepo archiveSpec
    ["ws", "projects", "p", "repo"] = .ok (⟨["app.py"], 2, [], []⟩, numberRepo.leaves) := rfl

lemma fetchRepo_twice : (archiveFetcher [numberEntry, numberEntry]).fetchRepo archiveSpec
      ["ws", "projects", "p", "repo"]
    = .ok (⟨["app.py", "app.py"], 4, [], []⟩, numberRepo.leaves) := rfl

/-- The archive with the file is prepared, and prepared again unchanged. -/
theorem reprepareUnchanged_once : ∃ snapshot model docs',
    ((literalService "1\n").using (archiveFetcher [numberEntry])).prepare .empty archiveSpec "p"
        ⟨0, some 0⟩ ⟨0, some 0⟩ = (.ok (snapshot, model, ["ws", "projects", "p"]), docs')
      ∧ ReprepareUnchanged (literalService "1\n") (archiveFetcher [numberEntry]) docs' archiveSpec
        "p" ["ws", "projects", "p"] numberRepo ⟨1, some 0⟩ ⟨1, some 0⟩ snapshot model := by
  obtain ⟨snapshot, model, docs', hprepare⟩ := exists_prepare fetchRepo_once (by decide +kernel)
  refine ⟨snapshot, model, docs', hprepare, ?_⟩
  refine (reprepareUnchanged_iff .null (literalService "1\n") (archiveFetcher [numberEntry])
    (literalService_snapshots "1\n") (literalService_models "1\n") hprepare
    ⟨_, _, fetchRepo_once, List.Perm.refl _⟩ ⟨1, some 0⟩ ⟨1, some 0⟩).2 ?_
  intro _ infolist hzip
  obtain rfl := ZipFile.archive.inj hzip
  decide +kernel

/-- **Preparing a workspace again can change the summary**: two entries for one path are two files
for `prepare`, and one for `reprepare`. -/
theorem not_reprepareUnchanged_twice : ∃ snapshot model docs',
    ((literalService "1\n").using (archiveFetcher [numberEntry, numberEntry])).prepare .empty
        archiveSpec "p" ⟨0, some 0⟩ ⟨0, some 0⟩
      = (.ok (snapshot, model, ["ws", "projects", "p"]), docs')
      ∧ (archiveFetcher [numberEntry, numberEntry]).Leaves archiveSpec
        ["ws", "projects", "p", "repo"] numberRepo
      ∧ ¬ ReprepareUnchanged (literalService "1\n") (archiveFetcher [numberEntry, numberEntry])
        docs' archiveSpec "p" ["ws", "projects", "p"] numberRepo ⟨1, some 0⟩ ⟨1, some 0⟩ snapshot
        model := by
  obtain ⟨snapshot, model, docs', hprepare⟩ := exists_prepare fetchRepo_twice (by decide +kernel)
  refine ⟨snapshot, model, docs', hprepare, ⟨_, _, fetchRepo_twice, List.Perm.refl _⟩, ?_⟩
  obtain ⟨-, result, files, parsed, hfetch, -, rfl, -⟩ := prepare_ok hprepare
  obtain ⟨rfl, rfl⟩ := Prod.mk.inj (Except.ok.inj (hfetch.symm.trans fetchRepo_twice))
  rintro ⟨snapshot', model', docs'', hagain, -, hsummary, -⟩
  have hcount : (walkRepo sampleLimits numberRepo).1.result.copiedFiles.length = 1 := by
    decide +kernel
  simp only [PrepareService.reprepare, archiveFetcher] at hagain
  cases hwalk : returned (walkRepo sampleLimits numberRepo) with
  | error failure =>
      rw [hwalk] at hagain
      cases hagain
  | ok s =>
      rw [hwalk] at hagain
      rw [returned_eq_ok_iff.1 hwalk] at hcount
      cases hparse : parsedFiles (literalService "1\n").py s.result
          (readFile numberRepo.leaves) with
      | error e =>
          simp only [hparse] at hagain
          cases hagain
      | ok parsed' =>
          simp only [hparse] at hagain
          obtain ⟨rfl, -⟩ := persist_ok hagain
          have hfiles : s.result.copiedFiles.length = 2 :=
            congrArg SnapshotSummary.fetchedFiles hsummary
          rw [hcount] at hfiles
          cases hfiles

end Sast.Prepare
