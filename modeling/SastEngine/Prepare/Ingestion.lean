import SastEngine.Prepare.Effects

/-!
# Ingesting a directory and its archive

A tree of files is ingested as a directory, or as an archive with one entry for each file.  Both
traversals apply the same rules to different spellings of the paths, and they differ on names with
a backslash, on top-level files that are named like an ignored directory, and on drives.
-/

namespace Sast.Prepare

variable {repr : String → String} {settings : FetchSettings} {path path' parts : List String}

/-! ## Spellings of a path -/

/-- Names that contain no slash are the parts of the joined path. -/
lemma splitParts_joinParts {path : List String} (hne : path ≠ [])
    (h : ∀ p ∈ path, '/' ∉ p.toList) : splitParts (joinParts path) = path := by
  have hslash : ∀ part ∈ path.map String.toList, '/' ∉ part := by
    simpa using h
  rw [splitParts, joinParts, String.toList_intercalate]
  show (List.map String.ofList (List.splitOn '/' (List.intercalate ['/'] _))) = path
  rw [List.splitOn_intercalate '/' hslash (by simpa using hne), List.map_map]
  simp [Function.comp_def]

lemma empty_mem_splitParts_of_startswith {name : String} (h : startswith "/" name) :
    "" ∈ splitParts name := by
  obtain ⟨rest, hrest⟩ := List.isPrefixOf_iff_prefix.1 h
  have hlist : name.toList = [] ++ '/' :: rest := hrest.symm
  rw [splitParts, hlist, List.splitOn_append_cons_self]
  exact List.mem_map.2 ⟨[], by simp, rfl⟩

lemma empty_mem_splitParts_of_endswith {name : String} (h : endswith "/" name) :
    "" ∈ splitParts name := by
  obtain ⟨front, hfront⟩ := List.isSuffixOf_iff_suffix.1 h
  have hlist : name.toList = front ++ '/' :: [] := hfront.symm
  rw [splitParts, hlist, List.splitOn_append_cons_self]
  exact List.mem_map.2 ⟨[], by simp, rfl⟩

lemma slashed_of_notMem {name : String} (h : '\\' ∉ name.toList) : slashed name = name := by
  rw [slashed, List.map_congr_left (g := id), List.map_id, String.ofList_toList]
  intro c hc
  rw [if_neg]
  · rfl
  · rintro rfl
    exact h hc

/-- The other characters of joined texts are those of the texts. -/
lemma mem_intercalate_iff {α : Type} {sep c : α} (hc : c ≠ sep) (texts : List (List α)) :
    c ∈ [sep].intercalate texts ↔ ∃ text ∈ texts, c ∈ text := by
  induction texts with
  | nil => simp
  | cons text texts ih =>
      cases texts with
      | nil => simp
      | cons text' texts =>
          rw [List.intercalate_cons_cons, List.mem_append, List.mem_append, ih]
          simp [hc]

lemma backslash_notMem_joinParts_iff {path : List String} :
    '\\' ∉ (joinParts path).toList ↔ ∀ p ∈ path, '\\' ∉ p.toList := by
  rw [joinParts, String.toList_intercalate]
  show ¬ '\\' ∈ ['/'].intercalate _ ↔ _
  rw [mem_intercalate_iff (by decide)]
  simp

/-- The parts of an entry contain no backslash. -/
lemma backslash_notMem_nameParts {name p : String} (h : p ∈ nameParts (slashed name)) :
    '\\' ∉ p.toList := by
  obtain ⟨hmem, -⟩ := List.mem_filter.1 h
  obtain ⟨part, hpart, rfl⟩ := List.mem_map.1 hmem
  rw [String.toList_ofList]
  intro hback
  have hname : '\\' ∈ (slashed name).toList := by
    have hlist : ['/'].intercalate ((slashed name).toList.splitOn '/') = (slashed name).toList :=
      List.intercalate_splitOn '/'
    rw [← hlist, mem_intercalate_iff (by decide)]
    exact ⟨part, hpart, hback⟩
  simp only [slashed, String.toList_ofList, List.mem_map] at hname
  obtain ⟨c, -, hc⟩ := hname
  split_ifs at hc with hbackslash
  · cases hc
  · exact hbackslash hc

/-! ## The files of a tree -/

/-- A regular file, with the attributes its archive entry has. -/
structure ArchivedFile where
  path : List String
  content : List UInt8
  externalAttr : Nat
  flagBits : Nat
  notLink : isLink (externalAttr >>> 16) = false
  notEncrypted : flagBits &&& 1 = 0

namespace ArchivedFile

/-- The archive entry of a file. -/
def info (f : ArchivedFile) : ZipInfo where
  filename := joinParts f.path
  externalAttr := f.externalAttr
  flagBits := f.flagBits
  fileSize := f.content.length
  data := .stream f.content none
  data_le := Nat.le_refl _

/-- The file in its directory. -/
def leaf (f : ArchivedFile) : List String × FileEntry := (f.path, .regular f.content)

/-- The directory walk ignores the file, or does not come to it. -/
def DirIgnored (f : ArchivedFile) : Prop :=
  f.path.dropLast.any isIgnoredDir ∨ (f.path.getLast?.map isIgnoredFile).getD false

instance (f : ArchivedFile) : Decidable f.DirIgnored := inferInstanceAs (Decidable (_ ∨ _))

/-- The file is larger than the settings allow. -/
def TooLarge (settings : FetchSettings) (f : ArchivedFile) : Prop :=
  settings.maxFileSizeBytes < f.content.length

instance (settings : FetchSettings) (f : ArchivedFile) : Decidable (f.TooLarge settings) :=
  inferInstanceAs (Decidable (_ < _))

/-- The path reads the same in an archive: it has no backslash, and its first name is neither a
drive nor that of an ignored directory. -/
def Plain (f : ArchivedFile) : Prop :=
  (∀ p ∈ f.path, '\\' ∉ p.toList)
    ∧ ∀ p, f.path.head? = some p → isDrive p = false ∧ isIgnoredDir p = false

instance (f : ArchivedFile) : Decidable f.Plain :=
  inferInstanceAs (Decidable (_ ∧ ∀ p, f.path.head? = some p → _))

/-- The file as it is taken under a path. -/
def takenAs (f : ArchivedFile) (path : List String) : Taken :=
  ⟨path, f.content.length, .stream f.content none⟩

end ArchivedFile

/-- The archive has exactly one entry for each file of the tree. -/
def ArchiveOf (t : RepoTree) (archive : List ArchivedFile) : Prop :=
  (archive.map ArchivedFile.leaf).Perm t.leaves

/-- The names of the path are names of directory entries. -/
structure Named (path : List String) : Prop where
  nonempty : path ≠ []
  names : ∀ p ∈ path, IsName p

lemma SafeParts.named (h : SafeParts parts) : Named parts := ⟨h.nonempty, h.names⟩

lemma Named.splitParts (h : Named path) : splitParts (joinParts path) = path :=
  splitParts_joinParts h.nonempty fun p hp => (h.names p hp).2.2

lemma Named.inj (h : Named path) (h' : Named path') (heq : joinParts path = joinParts path') :
    path = path' := by
  rw [← h.splitParts, heq, h'.splitParts]

variable {f : ArchivedFile}

lemma Named.nameParts (h : Named path) : nameParts (joinParts path) = path := by
  rw [Prepare.nameParts, h.splitParts]
  exact List.filter_eq_self.2 fun p hp => (h.names p hp).1

/-- The empty name is no name of a directory entry. -/
lemma Named.empty_notMem (h : Named path) : "" ∉ Prepare.splitParts (joinParts path) := by
  rw [h.splitParts]
  intro hmem
  exact absurd (h.names "" hmem).1 (by decide)

/-- A kept file under a plain path passes all checks on its archive entry but perhaps the last. -/
lemma zipVerdict_of_plain (hnamed : Named f.path) (hplain : f.Plain) (hkept : ¬ f.DirIgnored) :
    zipVerdict repr settings f.info
      = if f.TooLarge settings then .tooLarge f.path else .taken f.path := by
  have hslashed : slashed f.info.filename = joinParts f.path :=
    slashed_of_notMem (backslash_notMem_joinParts_iff.2 hplain.1)
  have hempty : (joinParts f.path = "" || endswith "/" (joinParts f.path)) = false := by
    rw [Bool.or_eq_false_iff, decide_eq_false_iff_not]
    refine ⟨fun hname => hnamed.empty_notMem (by rw [hname]; decide), ?_⟩
    exact Bool.eq_false_iff.2 fun hend =>
      hnamed.empty_notMem (empty_mem_splitParts_of_endswith hend)
  have hstart : startswith "/" (joinParts f.path) = false :=
    Bool.eq_false_iff.2 fun hstart =>
      hnamed.empty_notMem (empty_mem_splitParts_of_startswith hstart)
  obtain ⟨hdirs, hfile⟩ := not_or.1 hkept
  unfold zipVerdict
  dsimp only
  rw [hslashed, hempty, hnamed.nameParts]
  cases hpath : f.path with
  | nil => exact absurd hpath hnamed.nonempty
  | cons first rest =>
      rw [hpath] at hdirs hfile hnamed
      obtain ⟨hdrive, hfirst⟩ := hplain.2 first (by rw [hpath]; rfl)
      have hdots : ".." ∉ first :: rest := fun hmem => (hnamed.names ".." hmem).2.1 rfl
      have hnone : ignoredPath (first :: rest) first = none := by
        refine ignoredPath_eq_none_iff.2 ⟨fun p hp => ?_, hfirst⟩
        simpa using List.any_eq_false.1 (Bool.eq_false_iff.2 hdirs) p hp
      have hlast : isIgnoredFile ((first :: rest).getLast (List.cons_ne_nil _ _)) = false := by
        rw [List.getLast?_eq_some_getLast (List.cons_ne_nil _ _)] at hfile
        simpa using hfile
      have hattributes : attributesVerdict repr settings f.info (first :: rest)
          = if f.TooLarge settings then .tooLarge (first :: rest) else .taken (first :: rest) := by
        unfold attributesVerdict
        rw [show f.info.externalAttr = f.externalAttr from rfl, f.notLink,
          show f.info.flagBits = f.flagBits from rfl, f.notEncrypted]
        rfl
      rw [← hattributes]
      show partsVerdict repr settings f.info first rest = _
      unfold partsVerdict
      rw [hslashed, hpath, if_neg hdots]
      rw [hpath] at hstart
      simp only [hstart, hdrive, Bool.or_self, Bool.false_eq_true, if_false, hnone, hlast]

/-- What passes the checks on an archive entry is spelled plainly. -/
lemma zipVerdict_spelling (h : (zipVerdict repr settings f.info).passed? = some parts) :
    SafeParts parts ∧ ∀ p ∈ parts, '\\' ∉ p.toList := by
  obtain ⟨rfl, hsafe⟩ := zipVerdict_passed h
  exact ⟨hsafe, fun p hp => backslash_notMem_nameParts hp⟩

/-! ## What the two traversals do with a file -/

/-- What a directory walk does with the file. -/
def dirEffect (settings : FetchSettings) (f : ArchivedFile) : Effect :=
  if f.DirIgnored then .ignore f.path
  else if f.TooLarge settings then .skip f.path "too_large"
  else .take (f.takenAs f.path)

/-- What the extraction of an archive does with the file. -/
def zipEffect (repr : String → String) (settings : FetchSettings) (f : ArchivedFile) : Effect :=
  entryEffect repr settings f.info

lemma reaches_leaf : walkOptions.Reaches f.leaf = !f.path.dropLast.any isIgnoredDir := by
  have hregular : walkOptions.listedAsDir (.regular f.content) = false := rfl
  simp only [FileTree.WalkOptions.Reaches, ArchivedFile.leaf, hregular, Bool.not_false,
    Bool.and_true, List.not_any_eq_all_not]
  rfl

/-- What a directory walk collects of the effects on its files, ignored ones aside. -/
lemma perm_walkEffects {γ : Type} {φ : Effect → Option γ} (hφ : ∀ path, φ (.ignore path) = none)
    {t : RepoTree} {archive : List ArchivedFile} (h : ArchiveOf t archive) :
    ((walkEffects settings t).filterMap φ).Perm
      ((archive.map (dirEffect settings)).filterMap φ) := by
  let onLeaf := fun f : List String × FileEntry => φ (itemEffect settings (.file f.1 f.2))
  have hfile : ∀ f : ArchivedFile,
      (if walkOptions.Reaches f.leaf then onLeaf f.leaf else none) = φ (dirEffect settings f) := by
    intro f
    rw [reaches_leaf]
    by_cases hdirs : f.path.dropLast.any isIgnoredDir = true
    · have hignored : f.DirIgnored := Or.inl hdirs
      rw [dirEffect, if_pos hignored, hφ, hdirs]
      rfl
    · rw [Bool.eq_false_iff.2 hdirs]
      show φ (itemEffect settings (.file f.path (.regular f.content))) = φ (dirEffect settings f)
      by_cases hfile : (f.path.getLast?.map isIgnoredFile).getD false = true
      · have hignored : f.DirIgnored := Or.inr hfile
        rw [dirEffect, if_pos hignored, itemEffect, fileVerdict, if_pos hfile]
      · have hkept : ¬ f.DirIgnored := not_or.2 ⟨hdirs, hfile⟩
        rw [dirEffect, if_neg hkept, itemEffect, fileVerdict, if_neg hfile]
        by_cases hlarge : f.TooLarge settings
        · rw [if_pos hlarge, if_pos (show settings.maxFileSizeBytes < f.content.length from hlarge)]
        · rw [if_neg hlarge,
            if_neg (show ¬ settings.maxFileSizeBytes < f.content.length from hlarge)]
          rfl
  refine (filterMap_walkEffects hφ settings t).trans ?_
  refine ((h.filter walkOptions.Reaches).filterMap onLeaf).symm.trans ?_
  rw [List.filterMap_filter, List.filterMap_map, List.filterMap_map]
  exact List.Perm.of_eq (List.filterMap_congr fun f _ => hfile f)

/-! ## When the two traversals agree -/

/-- The files a directory walk takes. -/
def dirTaken (settings : FetchSettings) (archive : List ArchivedFile) : List Taken :=
  takenFiles (archive.map (dirEffect settings))

/-- The files an extraction takes, in order. -/
def zipTaken (repr : String → String) (settings : FetchSettings) (archive : List ArchivedFile) :
    List Taken :=
  takenFiles (archive.map (zipEffect repr settings))

/-- The two states hold the same copies, skipped files and bytes, below two destinations. -/
structure SameIngest (a b : Ingest) (dest dest' : List String) : Prop where
  copied : ∀ path, path ∈ a.result.copiedFiles ↔ path ∈ b.result.copiedFiles
  contents : ∀ path, (a.files dest).get? path = (b.files dest').get? path
  skipped : ∀ path, ⟨path, "too_large"⟩ ∈ a.result.skipped ↔ ⟨path, "too_large"⟩ ∈ b.result.skipped
  totalBytes : a.result.totalBytes = b.result.totalBytes

/-- A directory and an archive were ingested alike: with the same result, or both were aborted
because of a limit. -/
def IngestedAlike (settings : FetchSettings) (dest : List String)
    (dir zip : Ingest × Option FetchFailure) : Prop :=
  (dir.2 = none ∧ zip.2 = none ∧ SameIngest dir.1 zip.1 dest (resolvePath dest))
    ∨ ((∃ failure, dir.2 = some failure ∧ IsLimit settings "repository" failure)
      ∧ ∃ failure, zip.2 = some failure ∧ IsLimit settings "zip" failure)

/-- The archive entry of an ignored file is ignored as well, or changes nothing: it is too large
like the file it would replace, or it is empty and another file replaces it. -/
def Traceless (repr : String → String) (settings : FetchSettings) (archive : List ArchivedFile)
    (f : ArchivedFile) : Prop :=
  match zipVerdict repr settings f.info with
  | .dropped => True
  | .ignored _ => True
  | .refused _ => False
  | .tooLarge path => ∃ g ∈ archive, g.path = path ∧ ¬ g.DirIgnored ∧ g.TooLarge settings
  | .taken path => f.content = [] ∧ ∃ g ∈ archive, g.path = path ∧ ¬ g.DirIgnored
      ∧ ¬ g.TooLarge settings
      ∧ (g.content = [] ∨ ∃ before after, archive = before ++ f :: after ∧ g ∈ after)

/-- The checks on the archive entries come out like those on the files. -/
structure CheckedAlike (repr : String → String) (settings : FetchSettings)
    (archive : List ArchivedFile) : Prop where
  plain : ∀ f ∈ archive, ¬ f.DirIgnored → f.Plain
  traceless : ∀ f ∈ archive, f.DirIgnored → Traceless repr settings archive f
  within : Within settings (zipTaken repr settings archive)

/-- The entries up to one of them exceed the limits, and none before it is refused or in the way
of another one. -/
def StopsAtLimit (repr : String → String) (settings : FetchSettings)
    (archive : List ArchivedFile) : Prop :=
  ∃ before f after, archive = before ++ f :: after
    ∧ (∀ g ∈ before, ∀ message, zipVerdict repr settings g.info ≠ .refused message)
    ∧ (zipTaken repr settings before).Pairwise (fun t t' => clash t.path t'.path = false)
    ∧ Within settings (zipTaken repr settings before)
    ∧ ¬ Within settings (zipTaken repr settings (before ++ [f]))

/-! ### The outcomes -/

variable {dest : List String} {archive : List ArchivedFile} {t : RepoTree}

/-- The copies are those of the taken files, the last one for each path. -/
lemma get?_files_tally {es : List Effect} {content : List UInt8} :
    ((tally (some dest) es).files dest).get? path = some content
      ↔ ∃ before file after, takenFiles es = before ++ file :: after ∧ file.path = path
        ∧ file.data.content = content ∧ ∀ other ∈ after, other.path ≠ path := by
  have hfiles : (tally (some dest) es).files dest
      = ((takenFiles es).map fun file => (file.path, file.data.content)).foldl
        (fun d e => d.set e.1 e.2) Dict.empty := by
    simp only [Ingest.files, tally, copyWrites, List.foldl_map, List.drop_left]
  rw [hfiles, Dict.get?_foldl_set_empty_eq_some]
  constructor
  · rintro ⟨before, after, heq, hafter⟩
    obtain ⟨front, back, hsplit, hbefore, hback⟩ := List.map_eq_append_iff.1 heq
    obtain ⟨file, rest, rfl, hfile, rfl⟩ := List.map_eq_cons_iff.1 hback
    obtain ⟨hpath, hcontent⟩ := Prod.mk.inj hfile
    refine ⟨front, file, rest, hsplit, hpath, hcontent, fun other hother hsame => hafter ?_⟩
    rw [List.map_map]
    exact List.mem_map.2 ⟨other, hother, hsame⟩
  · rintro ⟨before, file, after, heq, rfl, rfl, hafter⟩
    refine ⟨before.map fun file => (file.path, file.data.content),
      after.map fun file => (file.path, file.data.content), by rw [heq]; simp, ?_⟩
    rw [List.map_map]
    intro hmem
    obtain ⟨other, hother, hsame⟩ := List.mem_map.1 hmem
    exact hafter other hother hsame

lemma mem_dirTaken_iff {file : Taken} : file ∈ dirTaken settings archive
    ↔ ∃ f ∈ archive, ¬ f.DirIgnored ∧ ¬ f.TooLarge settings ∧ file = f.takenAs f.path := by
  rw [dirTaken, takenFiles, List.filterMap_map, List.mem_filterMap]
  refine exists_congr fun f => and_congr_right fun _ => ?_
  rw [Function.comp_apply, dirEffect]
  split_ifs with hignored hlarge
  · simp [Effect.taken?, hignored]
  · simp [Effect.taken?, hlarge]
  · simp [Effect.taken?, hignored, hlarge, eq_comm]

lemma zipEffect_taken? : (zipEffect repr settings f).taken?
    = match zipVerdict repr settings f.info with
      | .taken path => some (f.takenAs path)
      | _ => none := by
  rw [zipEffect, entryEffect]
  cases zipVerdict repr settings f.info <;> rfl

lemma mem_zipTaken_iff {file : Taken} : file ∈ zipTaken repr settings archive
    ↔ ∃ f ∈ archive, ∃ path, zipVerdict repr settings f.info = .taken path
      ∧ file = f.takenAs path := by
  rw [zipTaken, takenFiles, List.filterMap_map, List.mem_filterMap]
  refine exists_congr fun f => and_congr_right fun _ => ?_
  rw [Function.comp_apply, zipEffect_taken?]
  cases zipVerdict repr settings f.info <;> simp [eq_comm]

/-- The paths that an extraction skips as too large. -/
lemma mem_zipSkipped_iff {text reason : String} :
    ⟨text, reason⟩ ∈ (archive.map (zipEffect repr settings)).filterMap Effect.skipped?
      ↔ ∃ f ∈ archive, ∃ path, zipVerdict repr settings f.info = .tooLarge path
        ∧ joinParts path = text ∧ "too_large" = reason := by
  rw [List.filterMap_map, List.mem_filterMap]
  refine exists_congr fun f => and_congr_right fun _ => ?_
  rw [Function.comp_apply, zipEffect, entryEffect]
  cases zipVerdict repr settings f.info <;> simp [Effect.skipped?]

/-- The paths that a directory walk skips. -/
lemma mem_dirSkipped_iff {text reason : String} :
    ⟨text, reason⟩ ∈ (archive.map (dirEffect settings)).filterMap Effect.skipped?
      ↔ ∃ f ∈ archive, ¬ f.DirIgnored ∧ f.TooLarge settings ∧ joinParts f.path = text
        ∧ "too_large" = reason := by
  rw [List.filterMap_map, List.mem_filterMap]
  refine exists_congr fun f => and_congr_right fun _ => ?_
  rw [Function.comp_apply, dirEffect]
  split_ifs with hignored hlarge
  · simp [Effect.skipped?, hignored]
  · simp [Effect.skipped?, hignored, hlarge]
  · simp [Effect.skipped?, hlarge]

/-! ### The files of an archive -/

lemma ArchiveOf.mem_leaves (h : ArchiveOf t archive) (hf : f ∈ archive) : f.leaf ∈ t.leaves :=
  h.subset (List.mem_map_of_mem hf)

lemma ArchiveOf.named (h : ArchiveOf t archive) (hf : f ∈ archive) : Named f.path :=
  ⟨FileTree.ne_nil_of_mem_leavesIn (h.mem_leaves hf), t.named _ (h.mem_leaves hf)⟩

/-- The paths of an archive are distinct. -/
lemma ArchiveOf.pairwise_ne (h : ArchiveOf t archive) :
    archive.Pairwise fun f g => f.path ≠ g.path := by
  have hleaves : t.leaves.Pairwise fun f g => f.1 ≠ g.1 :=
    (FileTree.pairwise_leaves _ t.distinct).imp fun happart => happart.ne
  have hmap : (archive.map ArchivedFile.leaf).Pairwise fun f g => f.1 ≠ g.1 :=
    (h.pairwise_iff fun hne => hne.symm).2 hleaves
  have hpairs := List.pairwise_map.1 hmap
  exact hpairs

/-- A path names one file of an archive. -/
lemma ArchiveOf.unique (h : ArchiveOf t archive) {g : ArchivedFile} (hf : f ∈ archive)
    (hg : g ∈ archive) (hpath : f.path = g.path) : f = g := by
  have hsymm : Std.Symm fun f g : ArchivedFile => f.path ≠ g.path := ⟨fun _ _ hne => hne.symm⟩
  by_contra hne
  exact h.pairwise_ne.forall hf hg hne hpath

lemma perm_takenFiles (h : ArchiveOf t archive) :
    (takenFiles (walkEffects settings t)).Perm (dirTaken settings archive) :=
  perm_walkEffects (fun _ => rfl) h

lemma Within.perm {files files' : List Taken} (h : files.Perm files') :
    Within settings files ↔ Within settings files' := by
  rw [Within, Within, h.length_eq, (h.map Taken.size).sum_eq]

/-- The paths of a directory walk's copies and of an extraction's, as texts. -/
lemma mem_copiedFiles_iff {copyTo : Option (List String)} {es : List Effect} {text : String} :
    text ∈ (tally copyTo es).result.copiedFiles
      ↔ ∃ file ∈ takenFiles es, joinParts file.path = text := List.mem_map

/-- The copies of a directory walk. -/
lemma get?_files_walk (h : ArchiveOf t archive) {content : List UInt8} :
    ((tally (some dest) (walkEffects settings t)).files dest).get? path = some content
      ↔ ∃ f ∈ archive, ¬ f.DirIgnored ∧ ¬ f.TooLarge settings ∧ f.path = path
        ∧ f.content = content := by
  have hperm : (takenFiles (walkEffects settings t)).Perm (dirTaken settings archive) :=
    perm_takenFiles h
  rw [get?_files_tally]
  constructor
  · rintro ⟨before, file, after, heq, hpath, hcontent, -⟩
    have hmem : file ∈ dirTaken settings archive :=
      hperm.subset (heq ▸ List.mem_append_right _ List.mem_cons_self)
    obtain ⟨f, hf, hkept, hsmall, rfl⟩ := mem_dirTaken_iff.1 hmem
    exact ⟨f, hf, hkept, hsmall, hpath, hcontent⟩
  · rintro ⟨f, hf, hkept, hsmall, hpath, hcontent⟩
    have hmem : f.takenAs f.path ∈ takenFiles (walkEffects settings t) :=
      hperm.mem_iff.2 (mem_dirTaken_iff.2 ⟨f, hf, hkept, hsmall, rfl⟩)
    obtain ⟨before, after, heq⟩ := List.append_of_mem hmem
    refine ⟨before, _, after, heq, hpath, hcontent, fun other hother hsame => ?_⟩
    have hpaths : (dirTaken settings archive).Pairwise fun a b => a.path ≠ b.path := by
      rw [dirTaken, takenFiles, List.filterMap_map, List.pairwise_filterMap]
      refine h.pairwise_ne.imp fun {f g} hne a ha b hb => ?_
      have htaken : ∀ (f : ArchivedFile) (a : Taken),
          (Effect.taken? ∘ dirEffect settings) f = some a → a.path = f.path := by
        intro f a ha
        rw [Function.comp_apply, dirEffect] at ha
        split_ifs at ha
        · cases ha
        · cases ha
        · rw [← Option.some.inj ha]
          rfl
      rw [htaken f a ha, htaken g b hb]
      exact hne
    have hwalk : (takenFiles (walkEffects settings t)).Pairwise fun a b => a.path ≠ b.path :=
      (hperm.pairwise_iff fun hne => hne.symm).2 hpaths
    rw [heq, List.pairwise_append] at hwalk
    have hfirst := (List.pairwise_cons.1 hwalk.2.1).1 other hother
    exact hfirst (hpath.trans hsame.symm)

/-! ### From the same result to the same checks -/

/-- Where two sums agree and one is larger at each place, they agree at each place. -/
lemma eq_of_sum_map_eq {α : Type} {d z : α → Nat} {as : List α} (hle : ∀ a ∈ as, d a ≤ z a)
    (hsum : (as.map d).sum = (as.map z).sum) : ∀ a ∈ as, d a = z a := by
  induction as with
  | nil => simp
  | cons a as ih =>
      simp only [List.map_cons, List.sum_cons] at hsum
      have hhead := hle a List.mem_cons_self
      have htail : (as.map d).sum ≤ (as.map z).sum :=
        List.sum_le_sum fun b hb => hle b (List.mem_cons_of_mem _ hb)
      intro b hb
      rcases List.mem_cons.1 hb with rfl | hb
      · omega
      · exact ih (fun b hb => hle b (List.mem_cons_of_mem _ hb)) (by omega) b hb

/-- The last member with a property. -/
lemma exists_last {α : Type} {p : α → Prop} {as : List α} (h : ∃ a ∈ as, p a) :
    ∃ before a after, as = before ++ a :: after ∧ p a ∧ ∀ b ∈ after, ¬ p b := by
  induction as with
  | nil => simp at h
  | cons a as ih =>
      by_cases hrest : ∃ b ∈ as, p b
      · obtain ⟨before, b, after, rfl, hb, hafter⟩ := ih hrest
        exact ⟨a :: before, b, after, rfl, hb, hafter⟩
      · have hnone : ∀ b ∈ as, ¬ p b := fun b hb hpb => hrest ⟨b, hb, hpb⟩
        obtain ⟨b, hb, hpb⟩ := h
        rcases List.mem_cons.1 hb with rfl | hb
        · exact ⟨[], b, as, rfl, hpb, hnone⟩
        · exact absurd hpb (hnone b hb)

/-- The bytes counted for an effect. -/
def Effect.bytes (e : Effect) : Nat := (e.taken?.map Taken.size).getD 0

lemma sum_size_takenFiles (es : List Effect) :
    ((takenFiles es).map Taken.size).sum = (es.map Effect.bytes).sum := by
  induction es with
  | nil => rfl
  | cons e es ih =>
      rw [List.map_cons, List.sum_cons, ← ih, Effect.bytes, takenFiles, List.filterMap_cons]
      cases e.taken? <;> simp [takenFiles]

/-- The state a directory walk leaves. -/
abbrev dirTally (settings : FetchSettings) (t : RepoTree) (dest : List String) : Ingest :=
  tally (some dest) (walkEffects settings t)

/-- The state an extraction leaves. -/
abbrev zipTally (repr : String → String) (settings : FetchSettings)
    (archive : List ArchivedFile) (dest : List String) : Ingest :=
  tally (some dest) (archive.map (zipEffect repr settings))

section Same

variable {dest' : List String} (h : ArchiveOf t archive)
  (hsame : SameIngest (dirTally settings t dest) (zipTally repr settings archive dest') dest dest')
include h hsame

/-- A kept file has a plain path: extractions copy and skip no other ones. -/
lemma plain_of_sameIngest (hf : f ∈ archive) (hkept : ¬ f.DirIgnored) : f.Plain := by
  have hpassed : ∃ g ∈ archive, ∃ path, (zipVerdict repr settings g.info).passed? = some path
      ∧ joinParts path = joinParts f.path := by
    by_cases hlarge : f.TooLarge settings
    · have hskipped : ⟨joinParts f.path, "too_large"⟩ ∈ (dirTally settings t dest).result.skipped :=
        (perm_walkEffects (fun _ => rfl) h).mem_iff.2
          (mem_dirSkipped_iff.2 ⟨f, hf, hkept, hlarge, rfl, rfl⟩)
      obtain ⟨g, hg, path, hverdict, heq, -⟩ :=
        mem_zipSkipped_iff.1 ((hsame.skipped _).1 hskipped)
      exact ⟨g, hg, path, by rw [hverdict]; rfl, heq⟩
    · have hcopied : joinParts f.path ∈ (dirTally settings t dest).result.copiedFiles :=
        mem_copiedFiles_iff.2 ⟨f.takenAs f.path, (perm_takenFiles h).mem_iff.2
          (mem_dirTaken_iff.2 ⟨f, hf, hkept, hlarge, rfl⟩), rfl⟩
      obtain ⟨file, hfile, heq⟩ := mem_copiedFiles_iff.1 ((hsame.copied _).1 hcopied)
      obtain ⟨g, hg, path, hverdict, rfl⟩ := mem_zipTaken_iff.1 hfile
      exact ⟨g, hg, path, by rw [hverdict]; rfl, heq⟩
  obtain ⟨g, hg, path, hpass, heq⟩ := hpassed
  obtain ⟨hsafe, hslash⟩ := zipVerdict_spelling hpass
  obtain rfl := hsafe.named.inj (h.named hf) heq
  exact ⟨hslash, fun p hp => ⟨hsafe.noDrive p hp, hsafe.firstNotIgnored p hp⟩⟩

/-- An extraction takes what a directory walk takes. -/
lemma zipVerdict_of_sameIngest (hf : f ∈ archive) (hkept : ¬ f.DirIgnored) :
    zipVerdict repr settings f.info
      = if f.TooLarge settings then .tooLarge f.path else .taken f.path :=
  zipVerdict_of_plain (h.named hf) (plain_of_sameIngest h hsame hf hkept) hkept

/-- Every file counts the same in both. -/
lemma bytes_of_sameIngest : ∀ f ∈ archive,
    (dirEffect settings f).bytes = (zipEffect repr settings f).bytes := by
  have hsum : (archive.map fun f => (dirEffect settings f).bytes).sum
      = (archive.map fun f => (zipEffect repr settings f).bytes).sum := by
    have htotal := hsame.totalBytes
    simp only [dirTally, zipTally, tally] at htotal
    rw [((perm_takenFiles h).map Taken.size).sum_eq, dirTaken, sum_size_takenFiles,
      sum_size_takenFiles, List.map_map, List.map_map] at htotal
    exact htotal
  refine eq_of_sum_map_eq (fun f hf => ?_) hsum
  by_cases hignored : f.DirIgnored
  · rw [dirEffect, if_pos hignored]
    exact Nat.zero_le _
  · rw [zipEffect, entryEffect, zipVerdict_of_sameIngest h hsame hf hignored, dirEffect,
      if_neg hignored]
    split_ifs <;> exact Nat.le_refl _

/-- An ignored file that an extraction takes is empty. -/
lemma content_of_sameIngest (hf : f ∈ archive) (hignored : f.DirIgnored)
    (htaken : zipVerdict repr settings f.info = .taken path) : f.content = [] := by
  have hbytes := bytes_of_sameIngest h hsame f hf
  rw [dirEffect, if_pos hignored, Effect.bytes, Effect.bytes, zipEffect_taken?, htaken] at hbytes
  exact List.length_eq_zero_iff.1 hbytes.symm

/-- The entry that writes a path last, where an ignored empty file is written to it. -/
lemma traceless_order (hf : f ∈ archive) (hignored : f.DirIgnored)
    (htaken : zipVerdict repr settings f.info = .taken path) {g : ArchivedFile}
    (hg : g ∈ archive) (hkept : ¬ g.DirIgnored) (hsmall : ¬ g.TooLarge settings)
    (hpath : g.path = path) :
    g.content = [] ∨ ∃ before after, archive = before ++ f :: after ∧ g ∈ after := by
  have hdir : ((dirTally settings t dest).files dest).get? path = some g.content :=
    (get?_files_walk h).2 ⟨g, hg, hkept, hsmall, hpath, rfl⟩
  obtain ⟨before, file, after, heq, hfile, hcontent, hafter⟩ :=
    get?_files_tally.1 ((hsame.contents path).symm.trans hdir)
  -- the file whose entry comes last at this path
  rw [takenFiles, List.filterMap_map] at heq
  obtain ⟨front, back, rfl, rfl, hback⟩ := List.filterMap_eq_append_iff.1 heq
  obtain ⟨skipped, last, rest, rfl, hskipped, hlast, rfl⟩ := List.filterMap_eq_cons_iff.1 hback
  have hmem : last ∈ front ++ (skipped ++ last :: rest) := by simp
  rw [Function.comp_apply, zipEffect_taken?] at hlast
  split at hlast
  · next path' hverdict =>
    obtain rfl := Option.some.inj hlast
    obtain rfl : path' = path := hfile
    by_cases hlastIgnored : last.DirIgnored
    · left
      rw [← hcontent]
      exact content_of_sameIngest h hsame hmem hlastIgnored hverdict
    · have hlastPath : last.path = path' := by
        have hplain := zipVerdict_of_sameIngest h hsame hmem hlastIgnored
        rw [hverdict] at hplain
        split_ifs at hplain
        exact (ZipVerdict.taken.inj hplain).symm
      obtain rfl := h.unique hmem hg (hlastPath.trans hpath.symm)
      have htakes : (Effect.taken? ∘ zipEffect repr settings) f = some (f.takenAs path') := by
        rw [Function.comp_apply, zipEffect_taken?, htaken]
      rcases List.mem_append.1 hf with hfront | hfback
      · obtain ⟨one, two, rfl⟩ := List.append_of_mem hfront
        exact Or.inr ⟨one, two ++ (skipped ++ last :: rest), by simp, by simp⟩
      · rcases List.mem_append.1 hfback with hfskip | hfrest
        · exact absurd (hskipped f hfskip) (by rw [htakes]; simp)
        · rcases List.mem_cons.1 hfrest with rfl | hfrest
          · exact absurd hignored hlastIgnored
          · exact absurd rfl (hafter _ (List.mem_filterMap.2 ⟨f, hfrest, htakes⟩))
  · cases hlast

/-- **The same result, the same checks.** -/
lemma checkedAlike_of_sameIngest
    (hfits : Fits settings (some dest') (archive.map (zipEffect repr settings))) :
    CheckedAlike repr settings archive := by
  refine ⟨fun f hf hkept => plain_of_sameIngest h hsame hf hkept, fun f hf hignored => ?_,
    hfits.within⟩
  unfold Traceless
  cases hverdict : zipVerdict repr settings f.info with
  | dropped => trivial
  | ignored path => trivial
  | refused message =>
      refine hfits.accepted message (List.mem_map.2 ⟨f, hf, ?_⟩)
      rw [zipEffect, entryEffect, hverdict]
  | tooLarge path =>
      have hskipped : ⟨joinParts path, "too_large"⟩
          ∈ (zipTally repr settings archive dest').result.skipped :=
        mem_zipSkipped_iff.2 ⟨f, hf, path, hverdict, rfl, rfl⟩
      obtain ⟨g, hg, hkept, hlarge, heq, -⟩ := mem_dirSkipped_iff.1
        ((perm_walkEffects (fun _ => rfl) h).mem_iff.1 ((hsame.skipped _).2 hskipped))
      have hsafe := (zipVerdict_spelling (congrArg ZipVerdict.passed? hverdict)).1
      exact ⟨g, hg, (h.named hg).inj hsafe.named heq, hkept, hlarge⟩
  | taken path =>
      have hcopied : joinParts path ∈ (zipTally repr settings archive dest').result.copiedFiles :=
        mem_copiedFiles_iff.2 ⟨f.takenAs path,
          mem_zipTaken_iff.2 ⟨f, hf, path, hverdict, rfl⟩, rfl⟩
      obtain ⟨file, hfile, heq⟩ := mem_copiedFiles_iff.1 ((hsame.copied _).2 hcopied)
      obtain ⟨g, hg, hkept, hsmall, rfl⟩ :=
        mem_dirTaken_iff.1 ((perm_takenFiles h).mem_iff.1 hfile)
      have hsafe := (zipVerdict_spelling (congrArg ZipVerdict.passed? hverdict)).1
      have hpath : g.path = path := (h.named hg).inj hsafe.named heq
      exact ⟨content_of_sameIngest h hsame hf hignored hverdict, g, hg, hpath, hkept, hsmall,
        traceless_order h hsame hf hignored hverdict hg hkept hsmall hpath⟩

end Same

/-! ### From the same checks to the same result -/

section Checked

variable (h : ArchiveOf t archive) (hchecked : CheckedAlike repr settings archive)
include h hchecked

lemma CheckedAlike.zipVerdict (hf : f ∈ archive) (hkept : ¬ f.DirIgnored) :
    Prepare.zipVerdict repr settings f.info
      = if f.TooLarge settings then .tooLarge f.path else .taken f.path :=
  zipVerdict_of_plain (h.named hf) (hchecked.plain f hf hkept) hkept

/-- What an extraction takes, a directory walk takes under the same path. -/
lemma CheckedAlike.exists_kept (hf : f ∈ archive)
    (htaken : Prepare.zipVerdict repr settings f.info = .taken path) :
    ∃ g ∈ archive, g.path = path ∧ ¬ g.DirIgnored ∧ ¬ g.TooLarge settings := by
  by_cases hignored : f.DirIgnored
  · have htraceless := hchecked.traceless f hf hignored
    rw [Traceless, htaken] at htraceless
    obtain ⟨-, g, hg, hpath, hkept, hsmall, -⟩ := htraceless
    exact ⟨g, hg, hpath, hkept, hsmall⟩
  · have hverdict := hchecked.zipVerdict h hf hignored
    rw [htaken] at hverdict
    split_ifs at hverdict with hlarge
    exact ⟨f, hf, (ZipVerdict.taken.inj hverdict).symm, hignored, hlarge⟩

lemma CheckedAlike.fits (copyTo : Option (List String)) :
    Fits settings copyTo (archive.map (zipEffect repr settings)) := by
  refine ⟨fun message hmem => ?_, hchecked.within, fun _ => ?_, fun _ file hfile => ?_⟩
  · obtain ⟨f, hf, hrefuse⟩ := List.mem_map.1 hmem
    have hverdict : Prepare.zipVerdict repr settings f.info = .refused message := by
      rw [zipEffect, entryEffect] at hrefuse
      cases hverdict : Prepare.zipVerdict repr settings f.info with
      | refused message' =>
          rw [hverdict] at hrefuse
          rw [Effect.refuse.inj hrefuse]
      | dropped => rw [hverdict] at hrefuse; cases hrefuse
      | ignored path => rw [hverdict] at hrefuse; cases hrefuse
      | tooLarge path => rw [hverdict] at hrefuse; cases hrefuse
      | taken path => rw [hverdict] at hrefuse; cases hrefuse
    by_cases hignored : f.DirIgnored
    · have htraceless := hchecked.traceless f hf hignored
      rw [Traceless, hverdict] at htraceless
      exact htraceless
    · have hplain := hchecked.zipVerdict h hf hignored
      rw [hverdict] at hplain
      split_ifs at hplain
  · refine List.pairwise_of_forall_mem_list fun a ha b hb => ?_
    obtain ⟨f, hf, path, hverdict, rfl⟩ := mem_zipTaken_iff.1 ha
    obtain ⟨f', hf', path', hverdict', rfl⟩ := mem_zipTaken_iff.1 hb
    obtain ⟨g, hg, rfl, -⟩ := hchecked.exists_kept h hf hverdict
    obtain ⟨g', hg', rfl, -⟩ := hchecked.exists_kept h hf' hverdict'
    exact t.clash_eq_false (h.mem_leaves hg) (h.mem_leaves hg')
  · obtain ⟨f, -, path, -, rfl⟩ := mem_zipTaken_iff.1 hfile
    exact ⟨f.content, rfl⟩

/-- A kept file is what an extraction leaves at its path. -/
lemma CheckedAlike.get?_files (hf : f ∈ archive) (hkept : ¬ f.DirIgnored)
    (hsmall : ¬ f.TooLarge settings) :
    ((zipTally repr settings archive dest).files dest).get? f.path = some f.content := by
  have hverdict := hchecked.zipVerdict h hf hkept
  rw [if_neg hsmall] at hverdict
  have hexists : ∃ g ∈ archive, Prepare.zipVerdict repr settings g.info = .taken f.path :=
    ⟨f, hf, hverdict⟩
  obtain ⟨front, last, rest, heq, hlast, hrest⟩ := exists_last hexists
  have hmem : last ∈ archive := heq ▸ List.mem_append_right _ List.mem_cons_self
  have htakes : (zipEffect repr settings last).taken? = some (last.takenAs f.path) := by
    rw [zipEffect_taken?, hlast]
  have hcontent : last.content = f.content := by
    by_cases hignored : last.DirIgnored
    · have htraceless := hchecked.traceless last hmem hignored
      rw [Traceless, hlast] at htraceless
      obtain ⟨hempty, g, hg, hpath, -, -, hg' | ⟨before, after, heq', hafter⟩⟩ := htraceless
      · rw [hempty, ← h.unique hg hf hpath, hg']
      · have hne := h.pairwise_ne
        rw [heq, List.pairwise_append] at hne
        have hfront : last ∉ front := fun hin => hne.2.2 last hin last List.mem_cons_self rfl
        have hback : last ∉ rest := fun hin => (List.pairwise_cons.1 hne.2.1).1 last hin rfl
        have hsplit : front ++ last :: rest = before ++ last :: after := heq.symm.trans heq'
        obtain ⟨-, -, hrests⟩ := (List.append_cons_inj_of_notMem hfront hback).1 hsplit
        rw [h.unique hg hf hpath, ← hrests] at hafter
        exact absurd hverdict (hrest f hafter)
    · have hplain := hchecked.zipVerdict h hmem hignored
      rw [hlast] at hplain
      split_ifs at hplain
      rw [h.unique hmem hf (ZipVerdict.taken.inj hplain).symm]
  refine get?_files_tally.2 ⟨takenFiles (front.map (zipEffect repr settings)),
    last.takenAs f.path, takenFiles (rest.map (zipEffect repr settings)), ?_, rfl, hcontent, ?_⟩
  · rw [heq, List.map_append, List.map_cons, takenFiles_append]
    congr 1
    exact List.filterMap_cons_some htakes
  · intro other hother hsame
    obtain ⟨g, hg, path, htaken, rfl⟩ := mem_zipTaken_iff.1 hother
    obtain rfl : path = f.path := hsame
    exact hrest g hg htaken

/-- **The same checks, the same result.** -/
lemma CheckedAlike.sameIngest (dest dest' : List String) :
    SameIngest (dirTally settings t dest) (zipTally repr settings archive dest') dest dest' := by
  refine ⟨fun text => ?_, fun path => ?_, fun text => ?_, ?_⟩
  · rw [mem_copiedFiles_iff, mem_copiedFiles_iff]
    constructor
    · rintro ⟨file, hfile, rfl⟩
      obtain ⟨f, hf, hkept, hsmall, rfl⟩ :=
        mem_dirTaken_iff.1 ((perm_takenFiles h).mem_iff.1 hfile)
      have hverdict := hchecked.zipVerdict h hf hkept
      rw [if_neg hsmall] at hverdict
      exact ⟨f.takenAs f.path, mem_zipTaken_iff.2 ⟨f, hf, f.path, hverdict, rfl⟩, rfl⟩
    · rintro ⟨file, hfile, rfl⟩
      obtain ⟨f, hf, path, hverdict, rfl⟩ := mem_zipTaken_iff.1 hfile
      obtain ⟨g, hg, rfl, hkept, hsmall⟩ := hchecked.exists_kept h hf hverdict
      exact ⟨g.takenAs g.path, (perm_takenFiles h).mem_iff.2
        (mem_dirTaken_iff.2 ⟨g, hg, hkept, hsmall, rfl⟩), rfl⟩
  · cases hzip : ((zipTally repr settings archive dest').files dest').get? path with
    | some content =>
        obtain ⟨before, file, after, heq, hpath, hcontent, -⟩ := get?_files_tally.1 hzip
        have hfile : file ∈ zipTaken repr settings archive := by
          rw [zipTaken, heq]
          exact List.mem_append_right _ List.mem_cons_self
        obtain ⟨f, hf, path', hverdict, rfl⟩ := mem_zipTaken_iff.1 hfile
        obtain rfl : path' = path := hpath
        obtain ⟨g, hg, rfl, hkept, hsmall⟩ := hchecked.exists_kept h hf hverdict
        rw [hchecked.get?_files h hg hkept hsmall] at hzip
        exact (get?_files_walk h).2 ⟨g, hg, hkept, hsmall, rfl, Option.some.inj hzip⟩
    | none =>
        cases hdir : ((dirTally settings t dest).files dest).get? path with
        | none => rfl
        | some content =>
            obtain ⟨f, hf, hkept, hsmall, rfl, -⟩ := (get?_files_walk h).1 hdir
            rw [hchecked.get?_files h hf hkept hsmall] at hzip
            cases hzip
  · refine ((perm_walkEffects (fun _ => rfl) h).mem_iff.trans mem_dirSkipped_iff).trans
      (Iff.trans ?_ mem_zipSkipped_iff.symm)
    constructor
    · rintro ⟨f, hf, hkept, hlarge, heq, -⟩
      have hverdict := hchecked.zipVerdict h hf hkept
      rw [if_pos hlarge] at hverdict
      exact ⟨f, hf, f.path, hverdict, heq, rfl⟩
    · rintro ⟨f, hf, path, hverdict, heq, -⟩
      by_cases hignored : f.DirIgnored
      · have htraceless := hchecked.traceless f hf hignored
        rw [Traceless, hverdict] at htraceless
        obtain ⟨g, hg, rfl, hkept, hlarge⟩ := htraceless
        exact ⟨g, hg, hkept, hlarge, heq, rfl⟩
      · have hplain := hchecked.zipVerdict h hf hignored
        rw [hverdict] at hplain
        split_ifs at hplain with hlarge
        obtain rfl := ZipVerdict.tooLarge.inj hplain
        exact ⟨f, hf, hignored, hlarge, heq, rfl⟩
  · simp only [dirTally, zipTally, tally]
    rw [((perm_takenFiles h).map Taken.size).sum_eq, dirTaken, sum_size_takenFiles,
      sum_size_takenFiles, List.map_map, List.map_map]
    refine congrArg List.sum (List.map_congr_left fun f hf => ?_)
    simp only [Function.comp_apply, Effect.bytes, zipEffect_taken?]
    by_cases hignored : f.DirIgnored
    · rw [dirEffect, if_pos hignored]
      cases hverdict : Prepare.zipVerdict repr settings f.info with
      | taken path =>
          have htraceless := hchecked.traceless f hf hignored
          rw [Traceless, hverdict] at htraceless
          simp [Effect.taken?, ArchivedFile.takenAs, htraceless.1]
      | _ => rfl
    · rw [hchecked.zipVerdict h hf hignored, dirEffect, if_neg hignored]
      split_ifs <;> rfl

end Checked

/-! ### The two outcomes compared -/

/-- The entries before a place raise nothing iff none is refused or in the way of another one,
within the limits. -/
lemma fits_zipEffects_iff : Fits settings (some dest) (archive.map (zipEffect repr settings))
    ↔ (∀ g ∈ archive, ∀ message, zipVerdict repr settings g.info ≠ .refused message)
      ∧ (zipTaken repr settings archive).Pairwise (fun a b => clash a.path b.path = false)
      ∧ Within settings (zipTaken repr settings archive) := by
  have hrefuse : (∀ message, .refuse message ∉ archive.map (zipEffect repr settings))
      ↔ ∀ g ∈ archive, ∀ message, zipVerdict repr settings g.info ≠ .refused message := by
    have hone : ∀ (g : ArchivedFile) (message : String),
        zipEffect repr settings g = .refuse message
          ↔ zipVerdict repr settings g.info = .refused message := by
      intro g message
      rw [zipEffect, entryEffect]
      cases zipVerdict repr settings g.info <;> simp
    simp only [List.mem_map, not_exists, not_and, hone]
    exact ⟨fun h g hg message => h message g hg, fun h message g hg => h g hg message⟩
  constructor
  · intro hfits
    exact ⟨hrefuse.1 hfits.accepted, hfits.apart rfl, hfits.within⟩
  · rintro ⟨haccepted, happart, hwithin⟩
    refine ⟨hrefuse.2 haccepted, hwithin, fun _ => happart, fun _ file hfile => ?_⟩
    obtain ⟨f, -, path, -, rfl⟩ := mem_zipTaken_iff.1 hfile
    exact ⟨f.content, rfl⟩

/-- An extraction aborts because of a limit iff it comes to exceed one. -/
lemma isLimit_zip_iff : (∃ failure, (runEffects settings "zip" (some dest)
        (archive.map (zipEffect repr settings))).2 = some failure
      ∧ IsLimit settings "zip" failure) ↔ StopsAtLimit repr settings archive := by
  rw [isLimit_runEffects_iff]
  constructor
  · rintro ⟨before, e, after, heq, hbefore, hexceeds⟩
    obtain ⟨front, back, rfl, rfl, hback⟩ := List.map_eq_append_iff.1 heq
    obtain ⟨f, rest, rfl, rfl, rfl⟩ := List.map_eq_cons_iff.1 hback
    obtain ⟨haccepted, happart, hwithin⟩ := fits_zipEffects_iff.1 hbefore
    refine ⟨front, f, rest, rfl, haccepted, happart, hwithin, ?_⟩
    rwa [zipTaken, List.map_append]
  · rintro ⟨front, f, rest, rfl, haccepted, happart, hwithin, hexceeds⟩
    refine ⟨front.map (zipEffect repr settings), zipEffect repr settings f,
      rest.map (zipEffect repr settings), by simp,
      fits_zipEffects_iff.2 ⟨haccepted, happart, hwithin⟩, ?_⟩
    rwa [zipTaken, List.map_append] at hexceeds

/-- **A directory and its archive are ingested alike** iff their files are checked alike, or both
exceed the limits before the extraction meets an entry that it refuses. -/
theorem ingestedAlike_iff (repr : String → String) (settings : FetchSettings)
    (location location' : String) (dest : List String) {t : RepoTree}
    {archive : List ArchivedFile} (h : ArchiveOf t archive) :
    IngestedAlike settings dest (fetchDirectory settings location (some t) dest)
        (fetchZip repr settings location' (.archive (archive.map ArchivedFile.info)) dest)
      ↔ (Within settings (dirTaken settings archive) ∧ CheckedAlike repr settings archive)
        ∨ (¬ Within settings (dirTaken settings archive)
          ∧ StopsAtLimit repr settings archive) := by
  have hdir : fetchDirectory settings location (some t) dest
      = runEffects settings "repository" (some dest) (walkEffects settings t) :=
    ingestTree_eq settings (some dest) t
  have hzip : fetchZip repr settings location' (.archive (archive.map ArchivedFile.info)) dest
      = runEffects settings "zip" (some (resolvePath dest))
        (archive.map (zipEffect repr settings)) := by
    rw [fetchZip_eq, List.map_map]
    rfl
  have hwithin : Within settings (takenFiles (walkEffects settings t))
      ↔ Within settings (dirTaken settings archive) := Within.perm (perm_takenFiles h)
  have hlimit : (∃ failure, (fetchDirectory settings location (some t) dest).2 = some failure
      ∧ IsLimit settings "repository" failure) ↔ ¬ Within settings (dirTaken settings archive) :=
    (isLimit_ingestTree_iff (t := t)).trans (not_congr hwithin)
  unfold IngestedAlike
  rw [hlimit, hzip, isLimit_zip_iff]
  refine or_congr ?_ Iff.rfl
  rw [hdir, runEffects_snd_eq_none_iff, fits_walkEffects_iff, hwithin, runEffects_snd_eq_none_iff]
  refine and_congr_right fun hin => ?_
  constructor
  · rintro ⟨hfits, hsame⟩
    rw [runEffects_of_fits hfits,
      runEffects_of_fits ((fits_walkEffects_iff (some dest)).2 (hwithin.2 hin))] at hsame
    exact checkedAlike_of_sameIngest h hsame hfits
  · intro hchecked
    have hfits := hchecked.fits h (some (resolvePath dest))
    refine ⟨hfits, ?_⟩
    rw [runEffects_of_fits hfits,
      runEffects_of_fits ((fits_walkEffects_iff (some dest)).2 (hwithin.2 hin))]
    exact hchecked.sameIngest h dest (resolvePath dest)

/-! ## Two trees -/

/-- Limits for the samples. -/
def sampleLimits : FetchSettings := ⟨10, 20, 5⟩

/-- A module, and a file in an ignored directory. -/
def appTree : RepoTree where
  entries := [("app", .dir [("main.py", .leaf (.regular [120]))]),
    ("build", .dir [("main.py", .leaf (.regular [121]))])]
  distinct := by simp [FileTree.Distinct, FileTree.DistinctIn]
  named := by decide +kernel

/-- A regular entry. -/
def regularFile (path : List String) (content : List UInt8) : ArchivedFile :=
  ⟨path, content, 0o100644 <<< 16, 0, by decide, by decide⟩

/-- The archive of that tree. -/
def appArchive : List ArchivedFile :=
  [regularFile ["build", "main.py"] [121], regularFile ["app", "main.py"] [120]]

/-- The tree and its archive are ingested alike. -/
theorem ingestedAlike_appTree : IngestedAlike sampleLimits ["w"]
    (fetchDirectory sampleLimits "app" (some appTree) ["w"])
    (fetchZip id sampleLimits "app.zip" (.archive (appArchive.map ArchivedFile.info)) ["w"]) := by
  have harchive : ArchiveOf appTree appArchive := List.Perm.swap _ _ _
  refine (ingestedAlike_iff id sampleLimits "app" "app.zip" ["w"] harchive).2 (Or.inl ⟨?_, ?_⟩)
  · decide +kernel
  · refine ⟨by decide +kernel, fun f hf hignored => ?_, by decide +kernel⟩
    rcases List.mem_cons.1 hf with rfl | hf
    · have hverdict : zipVerdict id sampleLimits (regularFile ["build", "main.py"] [121]).info
          = .ignored ["build"] := by decide +kernel
      rw [Traceless, hverdict]
      trivial
    · obtain rfl := List.mem_singleton.1 hf
      exact absurd hignored (by decide +kernel)

/-- A tree whose only file is a script that is named like an ignored directory. -/
def buildTree : RepoTree where
  entries := [("build", .leaf (.regular [120]))]
  distinct := by simp [FileTree.Distinct, FileTree.DistinctIn]
  named := by decide +kernel

/-- The script is copied from the directory and left out of the archive. -/
theorem not_ingestedAlike : ¬ IngestedAlike sampleLimits ["w"]
    (fetchDirectory sampleLimits "app" (some buildTree) ["w"])
    (fetchZip id sampleLimits "app.zip"
      (.archive ([regularFile ["build"] [120]].map ArchivedFile.info)) ["w"]) := by
  rintro (⟨-, -, hsame⟩ | ⟨⟨failure, hraise, -⟩, -⟩)
  · have hcopied := (hsame.copied "build").1 (by decide +kernel)
    exact absurd hcopied (by decide +kernel)
  · have hnone : (fetchDirectory sampleLimits "app" (some buildTree) ["w"]).2.isNone := by
      decide +kernel
    rw [hraise] at hnone
    cases hnone

end Sast.Prepare
