import Mathlib.Algebra.Order.BigOperators.Group.List
import SastEngine.Prepare.ZipBounds

/-!
# What a fetch makes of its files

The loops over a directory and over an archive do the same with a file once its checks are done:
ignore it, skip it, refuse it, or count and copy it.  What a run of such effects leaves is a tally
of them (`tally`), as long as it fits the limits (`Fits`); otherwise it stops at the first effect
that does not fit.
-/

namespace Sast.Prepare

/-- A file that is counted and copied. -/
structure Taken where
  path : List String
  size : Nat
  data : ZipData

/-- What is done with a file. -/
inductive Effect where
  | pass
  | ignore (path : List String)
  | skip (path : List String) (reason : String)
  | refuse (message : String)
  | take (file : Taken)

/-- The file that is taken. -/
def Effect.taken? : Effect → Option Taken
  | .take file => some file
  | _ => none

/-- The path and the reason that are recorded for a file that is skipped. -/
def Effect.skipped? : Effect → Option SkipInfo
  | .skip path reason => some ⟨joinParts path, reason⟩
  | _ => none

/-- The path that is recorded for a file that is ignored. -/
def Effect.ignored? : Effect → Option String
  | .ignore path => some (joinParts path)
  | _ => none

/-- Copy a file below the destination, if there is one. -/
def Taken.store (copyTo : Option (List String)) (file : Taken) (s : Ingest) :
    Ingest × Option FetchFailure :=
  match copyTo, file.data with
  | none, _ => (s, none)
  | some _, .unopenable exc => (s, some (.raised exc))
  | some dest, .stream content exc =>
      andThen (s.write ⟨dest ++ file.path, file.size, content⟩) fun s => (s, exc.map .raised)

/-- Do it. -/
def Effect.apply (settings : FetchSettings) (what : String) (copyTo : Option (List String))
    (s : Ingest) : Effect → Ingest × Option FetchFailure
  | .pass => (s, none)
  | .ignore path => (s.ignore (joinParts path), none)
  | .skip path reason => (s.skip (joinParts path) reason, none)
  | .refuse message => (s, some (.security message))
  | .take file =>
      andThen (s.count settings what file.size) fun s =>
        andThen (file.store copyTo s) fun s => (s.copied (joinParts file.path), none)

/-! ## The two loops -/

/-- The effect of an item of a walk. -/
def itemEffect (settings : FetchSettings) : FileTree.WalkItem String FileEntry → Effect
  | .pruned path => .ignore path
  | .file path entry =>
      match fileVerdict settings path entry with
      | .ignored => .ignore path
      | .skipped reason => .skip path reason
      | .taken content => .take ⟨path, content.length, .stream content none⟩

lemma andThen_done {σ ε : Type} (r : σ × Option ε) : andThen r (fun s => (s, none)) = r := by
  obtain ⟨s, e⟩ := r
  cases e <;> rfl

lemma ingestItem_eq (settings : FetchSettings) (copyTo : Option (List String)) (s : Ingest)
    (item : FileTree.WalkItem String FileEntry) : ingestItem settings copyTo s item
      = (itemEffect settings item).apply settings "repository" copyTo s := by
  cases item with
  | pruned path => rfl
  | file path entry =>
      simp only [ingestItem, itemEffect]
      cases fileVerdict settings path entry with
      | ignored => rfl
      | skipped reason => rfl
      | taken content =>
          cases copyTo with
          | none => rfl
          | some dest =>
              simp only [Effect.apply, Taken.store, Option.map_none, andThen_done]

/-- The effect of an entry of an archive. -/
def entryEffect (repr : String → String) (settings : FetchSettings) (info : ZipInfo) : Effect :=
  match zipVerdict repr settings info with
  | .dropped => .pass
  | .refused message => .refuse message
  | .ignored path => .ignore path
  | .tooLarge parts => .skip parts "too_large"
  | .taken parts => .take ⟨parts, info.fileSize, info.data⟩

lemma extractEntry_eq (repr : String → String) (settings : FetchSettings) (dest : List String)
    (s : Ingest) (info : ZipInfo) : extractEntry repr settings dest s info
      = (entryEffect repr settings info).apply settings "zip" (some (resolvePath dest)) s := by
  unfold extractEntry entryEffect
  cases hverdict : zipVerdict repr settings info with
  | dropped => rfl
  | refused message => rfl
  | ignored path => rfl
  | tooLarge parts => rfl
  | taken parts =>
      simp only [Effect.apply]
      congr 1
      funext s
      rw [resolvePath_target (zipVerdict_taken hverdict).1,
        if_neg (not_not_intro (List.prefix_append _ _)), extractTo]
      simp only [Taken.store]
      cases info.data <;> rfl

/-! ## The tally -/

/-- The files taken. -/
def takenFiles (es : List Effect) : List Taken := es.filterMap Effect.taken?

/-- What is written for the files taken. -/
def copyWrites (copyTo : Option (List String)) (files : List Taken) : List FileWrite :=
  match copyTo with
  | none => []
  | some dest => files.map fun file => ⟨dest ++ file.path, file.size, file.data.content⟩

/-- The state after effects that did not raise. -/
def tally (copyTo : Option (List String)) (es : List Effect) : Ingest where
  result := {
    copiedFiles := (takenFiles es).map fun file => joinParts file.path
    totalBytes := ((takenFiles es).map Taken.size).sum
    ignoredPaths := es.filterMap Effect.ignored?
    skipped := es.filterMap Effect.skipped? }
  fileCount := (takenFiles es).length
  writes := copyWrites copyTo (takenFiles es)

/-- The files taken are within the limits. -/
def Within (settings : FetchSettings) (files : List Taken) : Prop :=
  files.length ≤ settings.maxFiles
    ∧ (files.map Taken.size).sum ≤ settings.maxTotalSizeBytes

instance (settings : FetchSettings) (files : List Taken) : Decidable (Within settings files) :=
  inferInstanceAs (Decidable (_ ∧ _))

/-- The effects raise nothing: none refuses a file, the files taken are within the limits, and
where they are copied, none is in the way of another one and all can be read. -/
structure Fits (settings : FetchSettings) (copyTo : Option (List String)) (es : List Effect) :
    Prop where
  accepted : ∀ message, .refuse message ∉ es
  within : Within settings (takenFiles es)
  apart : copyTo.isSome → (takenFiles es).Pairwise fun f g => clash f.path g.path = false
  readable : copyTo.isSome → ∀ file ∈ takenFiles es, ∃ content, file.data = .stream content none

lemma takenFiles_append (es es' : List Effect) :
    takenFiles (es ++ es') = takenFiles es ++ takenFiles es' := List.filterMap_append

lemma takenFiles_concat (es : List Effect) (e : Effect) :
    takenFiles (es ++ [e]) = takenFiles es ++ e.taken?.toList := by
  rw [takenFiles_append]
  cases e <;> rfl

lemma Within.of_sublist {settings : FetchSettings} {files files' : List Taken}
    (h : Within settings files') (hsub : files.Sublist files') : Within settings files :=
  ⟨hsub.length_le.trans h.1,
    ((hsub.map Taken.size).sum_le_sum fun _ _ => Nat.zero_le _).trans h.2⟩

variable {settings : FetchSettings} {what : String} {copyTo : Option (List String)}
  {es : List Effect} {e : Effect} {file : Taken}

lemma fits_nil : Fits settings copyTo [] :=
  ⟨by simp, ⟨Nat.zero_le _, Nat.zero_le _⟩, fun _ => List.Pairwise.nil, fun _ => by
    simp [takenFiles]⟩

lemma Fits.left {es' : List Effect} (h : Fits settings copyTo (es ++ es')) :
    Fits settings copyTo es where
  accepted message hmem := h.accepted message (List.mem_append_left _ hmem)
  within := h.within.of_sublist (takenFiles_append es es' ▸ List.sublist_append_left _ _)
  apart hcopy := (List.pairwise_append.1 (takenFiles_append es es' ▸ h.apart hcopy)).1
  readable hcopy file hfile :=
    h.readable hcopy file (takenFiles_append es es' ▸ List.mem_append_left _ hfile)

/-- The error is that of a limit. -/
def IsLimit (settings : FetchSettings) (what : String) (failure : FetchFailure) : Prop :=
  failure = .fetcher (maxFilesMessage what settings)
    ∨ failure = .fetcher (maxTotalMessage what settings)

/-- Effects that take no file and refuse none always fit. -/
lemma Fits.concat (h : Fits settings copyTo es) (htaken : e.taken? = none)
    (hrefuse : ∀ message, e ≠ .refuse message) : Fits settings copyTo (es ++ [e]) := by
  have hfiles : takenFiles (es ++ [e]) = takenFiles es := by
    rw [takenFiles_concat, htaken]
    exact List.append_nil _
  refine ⟨fun message hmem => ?_, hfiles ▸ h.within, hfiles ▸ h.apart, hfiles ▸ h.readable⟩
  rcases List.mem_append.1 hmem with hmem | hmem
  · exact h.accepted message hmem
  · exact hrefuse message (List.mem_singleton.1 hmem).symm

/-! ## One effect -/

lemma within_concat_iff {files : List Taken} : Within settings (files ++ [file])
    ↔ files.length < settings.maxFiles
      ∧ (files.map Taken.size).sum + file.size ≤ settings.maxTotalSizeBytes := by
  simp only [Within, List.length_append, List.length_singleton, List.map_append, List.map_singleton,
    List.sum_append, List.sum_singleton, Nat.succ_le_iff]

/-- A taken file within the limits is counted. -/
lemma count_tally (h : Within settings (takenFiles es ++ [file])) :
    (tally copyTo es).count settings what file.size
      = ({ tally copyTo es with
          fileCount := (tally copyTo es).fileCount + 1
          result := { (tally copyTo es).result with
            totalBytes := (tally copyTo es).result.totalBytes + file.size } }, none) := by
  rcases count_cases settings what file.size (tally copyTo es) with ⟨-, -, heq⟩ | ⟨hnot, -⟩
  · exact heq
  · exact absurd (within_concat_iff.1 h) hnot

/-- A taken file beyond the limits aborts. -/
lemma count_tally_of_not_within (h : ¬ Within settings (takenFiles es ++ [file])) :
    ∃ failure, ((tally copyTo es).count settings what file.size).2 = some failure
      ∧ IsLimit settings what failure := by
  rcases count_cases settings what file.size (tally copyTo es) with
    ⟨hfiles, hbytes, -⟩ | ⟨-, -, -, -, hraise⟩
  · exact absurd (within_concat_iff.2 ⟨hfiles, hbytes⟩) h
  · rcases hraise with hraise | hraise
    · exact ⟨_, hraise, Or.inl rfl⟩
    · exact ⟨_, hraise, Or.inr rfl⟩

lemma clash_append (dest p q : List String) : clash (dest ++ p) (dest ++ q) = clash p q := by
  have hprefix : ∀ p q : List String, (dest ++ p).isPrefixOf (dest ++ q) = p.isPrefixOf q := by
    intro p q
    rw [Bool.eq_iff_iff, List.isPrefixOf_iff_prefix, List.isPrefixOf_iff_prefix,
      List.prefix_append_right_inj]
  simp [clash, hprefix]

/-- The files written so far are in the way of a taken file iff their paths are. -/
lemma any_clash_copyWrites (dest : List String) (files : List Taken) (file : Taken) :
    (copyWrites (some dest) files).any (fun old => clash old.target (dest ++ file.path))
      = files.any fun old => clash old.path file.path := by
  simp [copyWrites, List.any_map, Function.comp_def, clash_append]

/-- A taken file can be stored: it is readable, and no other file is in its way. -/
def Storable (copyTo : Option (List String)) (files : List Taken) (file : Taken) : Prop :=
  copyTo.isSome → (∃ content, file.data = .stream content none)
    ∧ ∀ old ∈ files, clash old.path file.path = false

lemma store_of_storable {s : Ingest} (hwrites : s.writes = copyWrites copyTo (takenFiles es))
    (h : Storable copyTo (takenFiles es) file) : file.store copyTo s
      = ({ s with writes := copyWrites copyTo (takenFiles es ++ [file]) }, none) := by
  cases copyTo with
  | none =>
      show (s, none) = ({ s with writes := [] }, none)
      rw [show ([] : List FileWrite) = s.writes from hwrites.symm]
  | some dest =>
      obtain ⟨⟨content, hdata⟩, hclash⟩ := h rfl
      have hany : s.writes.any (fun old => clash old.target (dest ++ file.path)) = false := by
        rw [hwrites, any_clash_copyWrites, List.any_eq_false]
        intro old hold
        simp [hclash old hold]
      simp only [Taken.store, hdata, Option.map_none, andThen_done]
      rcases write_cases s ⟨dest ++ file.path, file.size, content⟩ with ⟨-, heq⟩ | ⟨htrue, -⟩
      · rw [heq, hwrites]
        simp [copyWrites, hdata, ZipData.content]
      · exact absurd (hany.symm.trans htrue) (by simp)

lemma store_of_not_storable {s : Ingest} (hwrites : s.writes = copyWrites copyTo (takenFiles es))
    (h : ¬ Storable copyTo (takenFiles es) file) :
    ∃ message, (file.store copyTo s).2 = some (.raised message) := by
  cases copyTo with
  | none => exact absurd (fun h => by cases h) h
  | some dest =>
      unfold Taken.store
      cases hdata : file.data with
      | unopenable exc => exact ⟨exc, rfl⟩
      | stream content exc =>
          show ∃ message, (andThen (s.write ⟨dest ++ file.path, file.size, content⟩)
            fun s => (s, exc.map .raised)).2 = some (.raised message)
          rcases write_cases s ⟨dest ++ file.path, file.size, content⟩ with
            ⟨hfalse, heq⟩ | ⟨-, heq⟩
          · rw [heq]
            cases exc with
            | some exc => exact ⟨exc, rfl⟩
            | none =>
                rw [hwrites, any_clash_copyWrites, List.any_eq_false] at hfalse
                exact absurd (fun _ => ⟨⟨content, hdata⟩, fun old hold => by
                  simpa using hfalse old hold⟩) h
          · rw [heq]
            exact ⟨"OSError", rfl⟩

/-- When a taken file fits. -/
lemma fits_take_iff (h : Fits settings copyTo es) : Fits settings copyTo (es ++ [.take file])
    ↔ Within settings (takenFiles es ++ [file]) ∧ Storable copyTo (takenFiles es) file := by
  have hfiles : takenFiles (es ++ [.take file]) = takenFiles es ++ [file] := takenFiles_concat _ _
  constructor
  · intro hfits
    refine ⟨hfiles ▸ hfits.within, fun hcopy => ⟨?_, ?_⟩⟩
    · exact hfits.readable hcopy file (hfiles ▸ List.mem_append_right _ (List.mem_singleton_self _))
    · intro old hold
      have happart := hfits.apart hcopy
      rw [hfiles, List.pairwise_append] at happart
      exact happart.2.2 old hold file (List.mem_singleton_self _)
  · rintro ⟨hwithin, hstorable⟩
    refine ⟨fun message hmem => ?_, hfiles ▸ hwithin, fun hcopy => ?_, fun hcopy => ?_⟩
    · rcases List.mem_append.1 hmem with hmem | hmem
      · exact h.accepted message hmem
      · cases List.mem_singleton.1 hmem
    · rw [hfiles, List.pairwise_append]
      refine ⟨h.apart hcopy, List.pairwise_singleton _ _, fun old hold new hnew => ?_⟩
      rw [List.mem_singleton.1 hnew]
      exact (hstorable hcopy).2 old hold
    · rw [hfiles]
      intro new hnew
      rcases List.mem_append.1 hnew with hnew | hnew
      · exact h.readable hcopy new hnew
      · rw [List.mem_singleton.1 hnew]
        exact (hstorable hcopy).1

/-- The tally of one more effect. -/
lemma tally_concat (copyTo : Option (List String)) (es : List Effect) (e : Effect) :
    tally copyTo (es ++ [e]) = {
      result := {
        copiedFiles := (tally copyTo es).result.copiedFiles
          ++ e.taken?.toList.map fun file => joinParts file.path
        totalBytes := (tally copyTo es).result.totalBytes + (e.taken?.toList.map Taken.size).sum
        ignoredPaths := (tally copyTo es).result.ignoredPaths ++ e.ignored?.toList
        skipped := (tally copyTo es).result.skipped ++ e.skipped?.toList }
      fileCount := (tally copyTo es).fileCount + e.taken?.toList.length
      writes := copyWrites copyTo (takenFiles es ++ e.taken?.toList) } := by
  have hsingle : ∀ {α : Type} (f : Effect → Option α), [e].filterMap f = (f e).toList := by
    intro α f
    cases hf : f e with
    | none => simp [hf]
    | some a => simp [hf]
  simp only [tally, takenFiles_concat, List.map_append, List.sum_append, List.length_append,
    List.filterMap_append, hsingle]

/-- **One effect**: it is added to the tally if it fits. -/
lemma apply_tally (h : Fits settings copyTo (es ++ [e])) :
    e.apply settings what copyTo (tally copyTo es) = (tally copyTo (es ++ [e]), none) := by
  rw [tally_concat]
  cases e with
  | pass => simp [Effect.apply, Effect.taken?, Effect.skipped?, Effect.ignored?, tally]
  | ignore path =>
      simp [Effect.apply, Effect.taken?, Effect.skipped?, Effect.ignored?, tally, Ingest.ignore]
  | skip path reason =>
      simp [Effect.apply, Effect.taken?, Effect.skipped?, Effect.ignored?, tally, Ingest.skip]
  | refuse message => exact absurd (by simp) (h.accepted message)
  | take file =>
      obtain ⟨hwithin, hstorable⟩ := (fits_take_iff h.left).1 h
      rw [Effect.apply, count_tally hwithin, andThen_of_none _ rfl,
        store_of_storable rfl hstorable, andThen_of_none _ rfl]
      simp [Effect.taken?, Effect.skipped?, Effect.ignored?, Ingest.copied]

/-- **One effect** that does not fit raises: a limit's error iff the limits are exceeded. -/
lemma apply_tally_of_not_fits (hes : Fits settings copyTo es)
    (h : ¬ Fits settings copyTo (es ++ [e])) :
    ∃ failure, (e.apply settings what copyTo (tally copyTo es)).2 = some failure
      ∧ (IsLimit settings what failure ↔ ¬ Within settings (takenFiles (es ++ [e]))) := by
  cases e with
  | pass => exact absurd (hes.concat rfl fun _ => by simp) h
  | ignore path => exact absurd (hes.concat rfl fun _ => by simp) h
  | skip path reason => exact absurd (hes.concat rfl fun _ => by simp) h
  | refuse message =>
      refine ⟨.security message, rfl, iff_of_false (by simp [IsLimit]) (not_not_intro ?_)⟩
      rw [takenFiles_concat]
      exact (List.append_nil (takenFiles es)).symm ▸ hes.within
  | take file =>
      have hfiles : takenFiles (es ++ [.take file]) = takenFiles es ++ [file] :=
        takenFiles_concat _ _
      rw [hfiles, Effect.apply]
      by_cases hwithin : Within settings (takenFiles es ++ [file])
      · have hstorable : ¬ Storable copyTo (takenFiles es) file :=
          fun hstorable => h ((fits_take_iff hes).2 ⟨hwithin, hstorable⟩)
        rw [count_tally hwithin, andThen_of_none _ rfl]
        obtain ⟨message, hraise⟩ := @store_of_not_storable copyTo es file
          { tally copyTo es with
            fileCount := (tally copyTo es).fileCount + 1
            result := { (tally copyTo es).result with
              totalBytes := (tally copyTo es).result.totalBytes + file.size } } rfl hstorable
        refine ⟨.raised message, ?_, iff_of_false (by simp [IsLimit]) (not_not_intro hwithin)⟩
        rw [andThen_of_some _ hraise]
        exact hraise
      · obtain ⟨failure, hraise, hlimit⟩ :=
          @count_tally_of_not_within settings what copyTo es file hwithin
        refine ⟨failure, ?_, iff_of_true hlimit hwithin⟩
        rw [andThen_of_some _ hraise]
        exact hraise

/-! ## Runs -/

/-- The loop over effects. -/
def runEffects (settings : FetchSettings) (what : String) (copyTo : Option (List String))
    (es : List Effect) : Ingest × Option FetchFailure :=
  loop (Effect.apply settings what copyTo) .initial es

lemma initial_eq_tally (copyTo : Option (List String)) : Ingest.initial = tally copyTo [] := by
  cases copyTo <;> rfl

/-- Effects that fit are run to the end. -/
lemma throughout_of_fits (h : Fits settings copyTo es) :
    Throughout (afterBody (Effect.apply settings what copyTo))
        (Continues (Effect.apply settings what copyTo)) .initial es
      ∧ exec (afterBody (Effect.apply settings what copyTo)) .initial es = tally copyTo es := by
  induction es using List.reverseRecOn with
  | nil => exact ⟨trivial, initial_eq_tally copyTo⟩
  | append_singleton es e ih =>
      obtain ⟨hall, hstate⟩ := ih h.left
      have happly := @apply_tally settings what copyTo es e h
      rw [throughout_append, exec_concat, hstate]
      exact ⟨⟨hall, congrArg Prod.snd happly, trivial⟩, congrArg Prod.fst happly⟩

/-- **A run adds up all effects if they fit.** -/
theorem runEffects_of_fits (h : Fits settings copyTo es) :
    runEffects settings what copyTo es = (tally copyTo es, none) := by
  obtain ⟨hall, hstate⟩ := @throughout_of_fits settings what copyTo es h
  rw [runEffects, loop_of_throughout hall, hstate]

/-- Effects that do not fit have a first one that does not. -/
lemma exists_first_of_not_fits (h : ¬ Fits settings copyTo es) :
    ∃ before e after, es = before ++ e :: after ∧ Fits settings copyTo before
      ∧ ¬ Fits settings copyTo (before ++ [e]) := by
  induction es using List.reverseRecOn with
  | nil => exact absurd fits_nil h
  | append_singleton es e ih =>
      by_cases hes : Fits settings copyTo es
      · exact ⟨es, e, [], rfl, hes, h⟩
      · obtain ⟨before, e', after, rfl, hbefore, hnot⟩ := ih hes
        exact ⟨before, e', after ++ [e], by simp, hbefore, hnot⟩

/-- **A run stops at the first effect that does not fit**, with the error of a limit iff the files
taken up to there exceed the limits. -/
theorem runEffects_of_not_fits {before after : List Effect}
    (hbefore : Fits settings copyTo before) (hnot : ¬ Fits settings copyTo (before ++ [e])) :
    ∃ failure, (runEffects settings what copyTo (before ++ e :: after)).2 = some failure
      ∧ (IsLimit settings what failure ↔ ¬ Within settings (takenFiles (before ++ [e]))) := by
  obtain ⟨hall, hstate⟩ := @throughout_of_fits settings what copyTo before hbefore
  obtain ⟨failure, hraise, hlimit⟩ :=
    @apply_tally_of_not_fits settings what copyTo before e hbefore hnot
  refine ⟨failure, ?_, hlimit⟩
  rw [runEffects, loop_of_raises hall (hstate ▸ hraise)]

/-- A run raises nothing iff the effects fit. -/
lemma runEffects_snd_eq_none_iff :
    (runEffects settings what copyTo es).2 = none ↔ Fits settings copyTo es := by
  constructor
  · intro h
    by_contra hnot
    obtain ⟨before, e, after, rfl, hbefore, hnot⟩ := exists_first_of_not_fits hnot
    obtain ⟨failure, hraise, -⟩ :=
      @runEffects_of_not_fits settings what copyTo e before after hbefore hnot
    rw [h] at hraise
    cases hraise
  · intro h
    rw [runEffects_of_fits h]

/-- A run raises the error of a limit iff effects that fit come before one that exceeds it. -/
lemma isLimit_runEffects_iff :
    (∃ failure, (runEffects settings what copyTo es).2 = some failure
        ∧ IsLimit settings what failure)
      ↔ ∃ before e after, es = before ++ e :: after ∧ Fits settings copyTo before
        ∧ ¬ Within settings (takenFiles (before ++ [e])) := by
  constructor
  · rintro ⟨failure, h, hlimit⟩
    by_cases hfits : Fits settings copyTo es
    · rw [runEffects_of_fits hfits] at h
      cases h
    · obtain ⟨before, e, after, rfl, hbefore, hnot⟩ := exists_first_of_not_fits hfits
      obtain ⟨failure', hraise, hiff⟩ :=
        @runEffects_of_not_fits settings what copyTo e before after hbefore hnot
      obtain rfl := Option.some.inj (hraise.symm.trans h)
      exact ⟨before, e, after, rfl, hbefore, hiff.1 hlimit⟩
  · rintro ⟨before, e, after, rfl, hbefore, hexceeds⟩
    obtain ⟨failure, hraise, hiff⟩ :=
      @runEffects_of_not_fits settings what copyTo e before after hbefore
        fun hfits => hexceeds hfits.within
    exact ⟨failure, hraise, hiff.2 hexceeds⟩

/-- The loop of a walk is a run of effects. -/
lemma ingestTree_eq (settings : FetchSettings) (copyTo : Option (List String)) (src : RepoTree) :
    ingestTree settings copyTo src = runEffects settings "repository" copyTo
      (((FileTree.dir src.entries).walk walkOptions []).map (itemEffect settings)) := by
  have hbody : ingestItem settings copyTo = fun s item =>
      (itemEffect settings item).apply settings "repository" copyTo s := by
    funext s item
    exact ingestItem_eq settings copyTo s item
  rw [runEffects, ← loop_map, ← hbody]
  rfl

/-- The effects of a walk over a tree. -/
def walkEffects (settings : FetchSettings) (t : RepoTree) : List Effect :=
  ((FileTree.dir t.entries).walk walkOptions []).map (itemEffect settings)

lemma arrange_perm (files : List (String × FileEntry)) :
    (walkOptions.arrange files).Perm files :=
  List.mergeSort_perm files _

/-- The leaves that a walk over a tree reaches. -/
lemma perm_walkedFiles_leaves (t : RepoTree) :
    (FileTree.walkedFiles walkOptions [] (.dir t.entries)).Perm
      (t.leaves.filter walkOptions.Reaches) := by
  have hid : (Prod.map (([] : List String) ++ ·) id
      : List String × FileEntry → List String × FileEntry) = id := rfl
  have hperm := FileTree.perm_walkedFiles arrange_perm [] t.entries
  rwa [FileTree.WalkOptions.reached, hid, List.map_id] at hperm

/-- What a walk collects of its effects, ignored files aside. -/
lemma filterMap_walkEffects {γ : Type} {φ : Effect → Option γ}
    (hφ : ∀ path, φ (.ignore path) = none) (settings : FetchSettings) (t : RepoTree) :
    ((walkEffects settings t).filterMap φ).Perm
      ((t.leaves.filter walkOptions.Reaches).filterMap
        fun f => φ (itemEffect settings (.file f.1 f.2))) := by
  have hitems : (walkEffects settings t).filterMap φ
      = (FileTree.walkedFiles walkOptions [] (.dir t.entries)).filterMap
        fun f => φ (itemEffect settings (.file f.1 f.2)) := by
    rw [walkEffects, List.filterMap_map, FileTree.walkedFiles, List.filterMap_filterMap]
    refine List.filterMap_congr fun item _ => ?_
    cases item with
    | pruned path => exact hφ path
    | file path entry => rfl
  rw [hitems]
  exact (perm_walkedFiles_leaves t).filterMap _

/-- The files a walk takes are regular files that it reaches. -/
lemma mem_takenFiles_walkEffects_iff {settings : FetchSettings} {t : RepoTree} {file : Taken} :
    file ∈ takenFiles (walkEffects settings t)
      ↔ ∃ path content, (path, .regular content) ∈ t.leaves
        ∧ walkOptions.Reaches (path, .regular content)
        ∧ (path.getLast?.map isIgnoredFile).getD false = false
        ∧ content.length ≤ settings.maxFileSizeBytes
        ∧ file = ⟨path, content.length, .stream content none⟩ := by
  rw [takenFiles, (filterMap_walkEffects (fun _ => rfl) settings t).mem_iff, List.mem_filterMap]
  constructor
  · rintro ⟨⟨path, entry⟩, hleaf, htaken⟩
    obtain ⟨hleaf, hreaches⟩ := List.mem_filter.1 hleaf
    simp only [itemEffect, fileVerdict] at htaken
    by_cases hignored : (path.getLast?.map isIgnoredFile).getD false = true
    · simp [hignored, Effect.taken?] at htaken
    · cases entry with
      | symlink => simp [hignored, Effect.taken?] at htaken
      | dirSymlink => simp [hignored, Effect.taken?] at htaken
      | unstattable exc => simp [hignored, Effect.taken?] at htaken
      | regular content =>
          by_cases hlarge : settings.maxFileSizeBytes < content.length
          · simp [hignored, hlarge, Effect.taken?] at htaken
          · simp only [hignored, hlarge, if_false, Bool.false_eq_true, Effect.taken?] at htaken
            exact ⟨path, content, hleaf, hreaches, Bool.eq_false_iff.2 hignored, by omega,
              (Option.some.inj htaken).symm⟩
  · rintro ⟨path, content, hleaf, hreaches, hignored, hsize, rfl⟩
    refine ⟨(path, .regular content), List.mem_filter.2 ⟨hleaf, hreaches⟩, ?_⟩
    simp only [itemEffect, fileVerdict, hignored, if_false, Bool.false_eq_true,
      if_neg (Nat.not_lt.2 hsize), Effect.taken?]

lemma clash_eq_false_of_apart {p q : List String} (h : FileTree.Apart p q) :
    clash p q = false := by
  have hpq : p.isPrefixOf q = false := Bool.eq_false_iff.2 fun hp =>
    h.1 (List.isPrefixOf_iff_prefix.1 hp)
  have hqp : q.isPrefixOf p = false := Bool.eq_false_iff.2 fun hq =>
    h.2 (List.isPrefixOf_iff_prefix.1 hq)
  simp [clash, hpq, hqp]

lemma clash_self (p : List String) : clash p p = false := by
  simp [clash]

/-- No leaf is in the way of another one. -/
lemma RepoTree.clash_eq_false (t : RepoTree) {f g : List String × FileEntry} (hf : f ∈ t.leaves)
    (hg : g ∈ t.leaves) : clash f.1 g.1 = false := by
  by_cases hfg : f = g
  · rw [hfg]
    exact clash_self g.1
  · have hsymm : Std.Symm fun f g : List String × FileEntry => FileTree.Apart f.1 g.1 :=
      ⟨fun _ _ h => h.symm⟩
    exact clash_eq_false_of_apart ((FileTree.pairwise_leaves _ t.distinct).forall hf hg hfg)

/-- A part of a walk fits if the files it takes are within the limits. -/
lemma fits_of_sublist_walkEffects {settings : FetchSettings} (copyTo : Option (List String))
    {t : RepoTree} {es : List Effect} (hsub : es.Sublist (walkEffects settings t))
    (hwithin : Within settings (takenFiles es)) : Fits settings copyTo es := by
  have hmem : ∀ file ∈ takenFiles es, ∃ content, (file.path, .regular content) ∈ t.leaves
      ∧ file.data = .stream content none := by
    intro file hfile
    obtain ⟨path, content, hleaf, -, -, -, rfl⟩ :=
      mem_takenFiles_walkEffects_iff.1 ((hsub.filterMap _).subset hfile)
    exact ⟨content, hleaf, rfl⟩
  refine ⟨fun message hrefuse => ?_, hwithin, fun _ => ?_, fun _ file hfile => ?_⟩
  · obtain ⟨item, -, hitem⟩ := List.mem_map.1 (hsub.subset hrefuse)
    cases item with
    | pruned path => cases hitem
    | file path entry =>
        simp only [itemEffect] at hitem
        split at hitem <;> cases hitem
  · refine List.pairwise_of_forall_mem_list fun f hf g hg => ?_
    obtain ⟨content, hleaf, -⟩ := hmem f hf
    obtain ⟨content', hleaf', -⟩ := hmem g hg
    exact t.clash_eq_false hleaf hleaf'
  · obtain ⟨content, -, hdata⟩ := hmem file hfile
    exact ⟨content, hdata⟩

/-- A walk raises nothing iff the files it takes are within the limits. -/
lemma fits_walkEffects_iff {settings : FetchSettings} (copyTo : Option (List String))
    {t : RepoTree} : Fits settings copyTo (walkEffects settings t)
      ↔ Within settings (takenFiles (walkEffects settings t)) :=
  ⟨Fits.within, fits_of_sublist_walkEffects copyTo (List.Sublist.refl _)⟩

lemma sublist_of_split {α : Type} {a : α} {as before after : List α}
    (h : as = before ++ a :: after) : (before ++ [a]).Sublist as := by
  rw [h]
  exact List.Sublist.append_left (List.singleton_sublist.2 List.mem_cons_self) _

/-- A walk aborts because of a limit iff the files it takes exceed the limits. -/
lemma isLimit_ingestTree_iff {settings : FetchSettings} {copyTo : Option (List String)}
    {t : RepoTree} : (∃ failure, (ingestTree settings copyTo t).2 = some failure
        ∧ IsLimit settings "repository" failure)
      ↔ ¬ Within settings (takenFiles (walkEffects settings t)) := by
  rw [ingestTree_eq, ← walkEffects, isLimit_runEffects_iff]
  constructor
  · rintro ⟨before, e, after, heq, -, hexceeds⟩ hwithin
    exact hexceeds (hwithin.of_sublist ((sublist_of_split heq).filterMap _))
  · intro hexceeds
    obtain ⟨before, e, after, heq, hbefore, hnot⟩ :=
      exists_first_of_not_fits fun h => hexceeds ((fits_walkEffects_iff copyTo).1 h)
    refine ⟨before, e, after, heq, hbefore, fun hwithin => hnot ?_⟩
    exact fits_of_sublist_walkEffects copyTo (sublist_of_split heq) hwithin

/-- The loop over an archive is a run of effects. -/
lemma fetchZip_eq (repr : String → String) (settings : FetchSettings) (location : String)
    (dest : List String) (infolist : List ZipInfo) :
    fetchZip repr settings location (.archive infolist) dest
      = runEffects settings "zip" (some (resolvePath dest))
        (infolist.map (entryEffect repr settings)) := by
  have hbody : extractEntry repr settings dest = fun s info =>
      (entryEffect repr settings info).apply settings "zip" (some (resolvePath dest)) s := by
    funext s info
    exact extractEntry_eq repr settings dest s info
  rw [runEffects, ← loop_map, ← hbody]
  rfl

end Sast.Prepare
