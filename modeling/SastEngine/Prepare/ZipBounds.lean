import SastEngine.Prepare.Fetcher

/-!
# Extraction is confined and bounded

Whatever the entries of an archive are, and wherever extraction stops: the files it has written
lie strictly below the destination, under names that are not ignored, and within the limits.
-/

namespace Sast.Prepare

/-! ## Confined paths -/

/-- A relative path that an archive may extract to: it has a last name, every name is proper, it
does not start with a drive, and neither its directories nor its file are ignored.  Its first name
is not that of an ignored directory even where it names the file. -/
structure SafeParts (parts : List String) : Prop where
  nonempty : parts ≠ []
  names : ∀ p ∈ parts, IsName p
  noDrive : ∀ p, parts.head? = some p → isDrive p = false
  firstNotIgnored : ∀ p, parts.head? = some p → isIgnoredDir p = false
  noIgnoredDir : ∀ p ∈ parts.dropLast, isIgnoredDir p = false
  noIgnoredFile : ∀ p, parts.getLast? = some p → isIgnoredFile p = false

/-- The path is a safe one below the destination. -/
def ConfinedTo (dest target : List String) : Prop :=
  ∃ parts, target = resolvePath dest ++ parts ∧ SafeParts parts

variable {repr : String → String} {settings : FetchSettings} {info : ZipInfo}
  {parts dest : List String}

lemma ignoredPath_eq_none_iff {first : String} :
    ignoredPath parts first = none
      ↔ (∀ p ∈ parts.dropLast, isIgnoredDir p = false) ∧ isIgnoredDir first = false := by
  unfold ignoredPath
  cases hidx : parts.dropLast.findIdx? isIgnoredDir with
  | none => simpa using fun _ => List.findIdx?_eq_none_iff.1 hidx
  | some i =>
      have hsome : ¬ ∀ p ∈ parts.dropLast, isIgnoredDir p = false := by
        rw [← List.findIdx?_eq_none_iff, hidx]
        simp
      simp [hsome]

/-- The parts of an entry that all checks let pass, except perhaps that on its size. -/
def ZipVerdict.passed? : ZipVerdict → Option (List String)
  | .tooLarge parts => some parts
  | .taken parts => some parts
  | _ => none

lemma attributesVerdict_passed {parts' : List String}
    (h : (attributesVerdict repr settings info parts').passed? = some parts) : parts' = parts := by
  unfold attributesVerdict at h
  split_ifs at h with hlink hencrypted hsize
  · cases h
  · cases h
  · exact Option.some.inj h
  · exact Option.some.inj h

/-- What the checks on a name say about the one they let pass. -/
lemma partsVerdict_passed {first : String} {rest : List String}
    (hnames : ∀ p ∈ first :: rest, isProperPart p = true ∧ '/' ∉ p.toList)
    (h : (partsVerdict repr settings info first rest).passed? = some parts) :
    first :: rest = parts ∧ SafeParts parts := by
  unfold partsVerdict at h
  dsimp only at h
  split at h
  · cases h
  next hdots =>
  split at h
  · cases h
  next habsolute =>
  split at h
  · cases h
  next hnone =>
  split at h
  · cases h
  next hfile =>
    obtain rfl := attributesVerdict_passed h
    simp only [Bool.or_eq_true, not_or, Bool.not_eq_true] at habsolute
    obtain ⟨hdirs, hfirst⟩ := ignoredPath_eq_none_iff.1 hnone
    refine ⟨rfl, List.cons_ne_nil _ _, ?_, ?_, ?_, hdirs, ?_⟩
    · intro p hp
      exact ⟨(hnames p hp).1, fun heq => hdots (heq ▸ hp), (hnames p hp).2⟩
    · intro p hp
      obtain rfl : first = p := by simpa using hp
      exact habsolute.2
    · intro p hp
      obtain rfl : first = p := by simpa using hp
      exact hfirst
    · intro p hp
      rw [List.getLast?_eq_some_getLast (List.cons_ne_nil _ _)] at hp
      obtain rfl := Option.some.inj hp
      simpa using hfile

/-- What the checks on an entry say about the one they let pass. -/
lemma zipVerdict_passed (h : (zipVerdict repr settings info).passed? = some parts) :
    nameParts (slashed info.filename) = parts ∧ SafeParts parts := by
  unfold zipVerdict at h
  dsimp only at h
  split at h
  · cases h
  split at h
  · cases h
  · next first rest hparts =>
    rw [hparts]
    refine partsVerdict_passed (fun p hp => ?_) h
    obtain ⟨hmem, hproper⟩ := List.mem_filter.1 (hparts ▸ hp : p ∈ nameParts _)
    exact ⟨hproper, slash_notMem_splitParts hmem⟩

/-- The last check is that on the size. -/
lemma zipVerdict_size {verdict : ZipVerdict} (h : zipVerdict repr settings info = verdict)
    (hpassed : verdict.passed? = some parts) : verdict
      = if settings.maxFileSizeBytes < info.fileSize then .tooLarge parts else .taken parts := by
  subst h
  unfold zipVerdict partsVerdict attributesVerdict at hpassed ⊢
  dsimp only at hpassed ⊢
  split_ifs at hpassed ⊢
  all_goals grind [ZipVerdict.passed?]

lemma zipVerdict_taken (h : zipVerdict repr settings info = .taken parts) :
    SafeParts parts ∧ info.fileSize ≤ settings.maxFileSizeBytes := by
  refine ⟨(zipVerdict_passed (congrArg ZipVerdict.passed? h)).2, ?_⟩
  have hsize := zipVerdict_size h rfl
  split_ifs at hsize with hlarge
  omega

/-- The target of an entry is its path below the destination. -/
lemma resolvePath_target (h : SafeParts parts) (dest : List String) :
    resolvePath (parts.foldl joinPath dest) = resolvePath dest ++ parts := by
  rw [foldl_joinPath h.names, resolvePath_append]
  intro hdots
  exact (h.names _ hdots).2.1 rfl

/-! ## The invariant -/

/-- What was written is confined, fits its declared size, and respects the limits. -/
structure Bounded (settings : FetchSettings) (dest : List String) (writes : List FileWrite) :
    Prop where
  confined : ∀ w ∈ writes, ConfinedTo dest w.target
  count_le : writes.length ≤ settings.maxFiles
  total_le : (writes.map FileWrite.size).sum ≤ settings.maxTotalSizeBytes
  size_le : ∀ w ∈ writes, w.size ≤ settings.maxFileSizeBytes
  content_le : ∀ w ∈ writes, w.content.length ≤ w.size

/-- The counters cover what was written. -/
structure Covered (settings : FetchSettings) (dest : List String) (s : Ingest) : Prop where
  bounded : Bounded settings dest s.writes
  fileCount_ge : s.writes.length ≤ s.fileCount
  totalBytes_ge : (s.writes.map FileWrite.size).sum ≤ s.result.totalBytes

lemma covered_initial : Covered settings dest .initial :=
  ⟨⟨by simp [Ingest.initial], Nat.zero_le _, by simp [Ingest.initial], by simp [Ingest.initial],
    by simp [Ingest.initial]⟩, Nat.le_refl _, Nat.le_refl _⟩

/-- A counted file may be written. -/
lemma Covered.append {s : Ingest} (h : Covered settings dest s) {w : FileWrite}
    (htarget : ConfinedTo dest w.target) (hsize : w.size ≤ settings.maxFileSizeBytes)
    (hcontent : w.content.length ≤ w.size) (hfiles : s.fileCount < settings.maxFiles)
    (hbytes : s.result.totalBytes + w.size ≤ settings.maxTotalSizeBytes) :
    Covered settings dest ⟨{ s.result with totalBytes := s.result.totalBytes + w.size },
      s.fileCount + 1, s.writes ++ [w]⟩ := by
  have hsum : ((s.writes ++ [w]).map FileWrite.size).sum
      = (s.writes.map FileWrite.size).sum + w.size := by simp
  have hlength : (s.writes ++ [w]).length = s.writes.length + 1 := by simp
  have hcount : (s.writes ++ [w]).length ≤ s.fileCount + 1 := by
    have := h.fileCount_ge
    omega
  have htotal : ((s.writes ++ [w]).map FileWrite.size).sum ≤ s.result.totalBytes + w.size := by
    have := h.totalBytes_ge
    omega
  have hmem : ∀ {P : FileWrite → Prop}, (∀ v ∈ s.writes, P v) → P w →
      ∀ v ∈ s.writes ++ [w], P v := by
    intro P hall hw v hv
    rcases List.mem_append.1 hv with hv | hv
    · exact hall v hv
    · exact List.mem_singleton.1 hv ▸ hw
  exact ⟨⟨hmem h.bounded.confined htarget, hcount.trans hfiles, htotal.trans hbytes,
    hmem h.bounded.size_le hsize, hmem h.bounded.content_le hcontent⟩, hcount, htotal⟩

/-- What is left when the data of a counted entry has been copied. -/
lemma covered_extractTo {s : Ingest} (h : Covered settings dest s) {target : List String}
    (htarget : ConfinedTo dest target) (hsize : info.fileSize ≤ settings.maxFileSizeBytes)
    (hfiles : s.fileCount < settings.maxFiles)
    (hbytes : s.result.totalBytes + info.fileSize ≤ settings.maxTotalSizeBytes) :
    Covered settings dest (extractTo target info
      ⟨{ s.result with totalBytes := s.result.totalBytes + info.fileSize }, s.fileCount + 1,
        s.writes⟩).1 := by
  have hcounted : Covered settings dest
      ⟨{ s.result with totalBytes := s.result.totalBytes + info.fileSize }, s.fileCount + 1,
        s.writes⟩ :=
    ⟨h.bounded, Nat.le_succ_of_le h.fileCount_ge, Nat.le_add_right_of_le h.totalBytes_ge⟩
  unfold extractTo
  cases hdata : info.data with
  | unopenable exc => exact hcounted
  | stream content exc =>
      have hcontent : content.length ≤ info.fileSize := by
        have hle := info.data_le
        rwa [hdata] at hle
      refine andThen_invariant ?_ fun s hs => hs
      rcases write_cases _ ⟨target, info.fileSize, content⟩ with ⟨-, hwrite⟩ | ⟨-, hwrite⟩
      · rw [hwrite]
        exact @Covered.append settings dest s h ⟨target, info.fileSize, content⟩ htarget hsize
          hcontent hfiles hbytes
      · rw [hwrite]
        exact hcounted

/-- **One entry keeps the invariant**, whether or not it makes the extraction fail. -/
lemma covered_extractEntry {s : Ingest} (info : ZipInfo) (h : Covered settings dest s) :
    Covered settings dest (extractEntry repr settings dest s info).1 := by
  unfold extractEntry
  cases hverdict : zipVerdict repr settings info with
  | dropped => exact h
  | refused message => exact h
  | ignored path => exact ⟨h.bounded, h.fileCount_ge, h.totalBytes_ge⟩
  | tooLarge parts => exact ⟨h.bounded, h.fileCount_ge, h.totalBytes_ge⟩
  | taken parts =>
      obtain ⟨hsafe, hsize⟩ := zipVerdict_taken hverdict
      dsimp only
      rcases count_cases settings "zip" info.fileSize s with
        ⟨hfiles, hbytes, heq⟩ | ⟨-, hwrites, hcount, htotal, hraise⟩
      · rw [heq, andThen_of_none _ rfl, resolvePath_target hsafe,
          if_neg (not_not_intro (List.prefix_append _ _))]
        refine andThen_invariant ?_ fun s hs => ⟨hs.bounded, hs.fileCount_ge, hs.totalBytes_ge⟩
        exact covered_extractTo h ⟨parts, rfl, hsafe⟩ hsize hfiles hbytes
      · have hcovered : Covered settings dest (s.count settings "zip" info.fileSize).1 := by
          refine ⟨hwrites ▸ h.bounded, ?_, ?_⟩
          · rw [hwrites]
            exact h.fileCount_ge.trans hcount
          · rw [hwrites]
            exact h.totalBytes_ge.trans htotal
        rcases hraise with hraise | hraise
        · rw [andThen_of_some _ hraise]
          exact hcovered
        · rw [andThen_of_some _ hraise]
          exact hcovered

/-- **ZIP extraction is confined and bounded**, also where it raises. -/
theorem bounded_fetchZip (repr : String → String) (settings : FetchSettings)
    (location : String) (dest : List String) (infolist : List ZipInfo) :
    Bounded settings dest
      (fetchZip repr settings location (.archive infolist) dest).1.writes :=
  (loop_invariant (Covered settings dest) (fun _ info h => covered_extractEntry info h)
    covered_initial).bounded

end Sast.Prepare
