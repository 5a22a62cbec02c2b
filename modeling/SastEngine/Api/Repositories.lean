import SastEngine.Risk.Models
import SastEngine.Scan.RunService
import SastEngine.Validate.Results

/-!
# The findings of a repository

Two views say which findings belong to a project.  The findings list of `api/routes/findings.py`
follows the lineage of its runs; the summary of `api/routes/repositories.py` goes by the files of
its snapshot, so that projects with the same paths share their findings.
-/

namespace Sast

/-! ## The findings list -/

/-- `db.models.Project`, with all its columns. -/
structure ProjectRow where
  id : String
  name : String
  sourceType : String
  location : String
  language : String
  status : String
  snapshotPath : String
  createdAt : DateTime
deriving DecidableEq

/-- How a listing fails: with `404` and its detail, or with an exception of the store. -/
inductive ListError where
  | notFound (detail : String)
  | read (error : ScanRunStore.ReadError)
deriving DecidableEq

/-- `finding_store.all()`. -/
def FindingStore.all (store : FindingStore) : List CandidateFinding := store.findings.values

/-- The ids in the lineage of the runs of a project. -/
def projectFindingIds (runs : ScanRunStore) (projectId : String) : Except ScanRunStore.ReadError (List String) :=
  (runs.runsForProject projectId).map fun found =>
    found.flatMap fun run => runs.findingIdsForRun run.scanRunId

/-- `_scoped_findings`, for a project. -/
def scopedFindings (projects : Dict String ProjectRow) (stores : ScanStores) (projectId : String) :
    Except ListError (List CandidateFinding) :=
  match projects.get? projectId with
  | none => .error (.notFound s!"project not found: {projectId}")
  | some _ =>
      match projectFindingIds stores.runs projectId with
      | .error e => .error (.read e)
      | .ok ids => .ok (stores.findings.all.filter fun f => f.id ∈ ids)

/-! ## The summary -/

/-- `RiskAssessment` with the score that summaries read. -/
structure ScoredAssessment extends RiskAssessment where
  riskScore : Int
deriving DecidableEq

/-- What the stages after SCAN have recorded about findings. -/
structure StageResults where
  assessments : Dict String ScoredAssessment
  validations : ValidationStore
  proofs : ProofStore
  slaRecords : Dict String SLARecord

/-- `RepositoryFindings`. -/
structure RepositoryFindings where
  total : Nat
  byPriority : List (Priority × Nat)
  highestPriority : Option Priority
deriving DecidableEq

/-- `RepositoryRisk`; it is always available. -/
structure RepositoryRisk where
  highestRiskScore : Option Int
  highestPriority : Option Priority
  topFindingId : Option String
deriving DecidableEq

/-- `RepositoryValidation`; it is always available. -/
structure RepositoryValidation where
  truePositive : Nat
  falsePositive : Nat
  uncertain : Nat
deriving DecidableEq

/-- `RepositoryProof`; it is always available. -/
structure RepositoryProof where
  verified : Nat
  notVerified : Nat
  blocked : Nat
  error : Nat
deriving DecidableEq

/-- `RepositorySla`; it is always available. -/
structure RepositorySla where
  active : Nat
  breached : Nat
  resolved : Nat
deriving DecidableEq

/-- `RepositorySummary`. -/
structure RepositorySummary where
  projectId : String
  name : String
  sourceType : String
  language : String
  status : String
  location : String
  createdAt : DateTime
  findings : Option RepositoryFindings := none
  risk : Option RepositoryRisk := none
  validation : Option RepositoryValidation := none
  proof : Option RepositoryProof := none
  sla : Option RepositorySla := none
deriving DecidableEq

/-- `_PRIORITIES`. -/
def priorities : List Priority := [.p0, .p1, .p2, .p3, .p4]

/-- `ranked`: by priority, and by falling score. -/
def rankedAssessments (assessments : List ScoredAssessment) : List ScoredAssessment :=
  assessments.insertionSort fun a b =>
    priorities.idxOf a.priority < priorities.idxOf b.priority
      ∨ a.priority = b.priority ∧ b.riskScore ≤ a.riskScore

/-- A part of the summary, if there is anything to summarize. -/
def unlessEmpty {α β : Type} (items : List α) (part : β) : Option β :=
  if items.isEmpty then none else some part

/-- The findings that the summary of a project counts: those whose source file is in the
snapshot. -/
def countedFindings (store : FindingStore) (files : Option (List String)) :
    List CandidateFinding :=
  match files with
  | none => []
  | some files => store.all.filter fun f => f.source.file ∈ files

/-- `_summarize`; `files` are those of the snapshot, if it can be loaded. -/
def summarize (project : ProjectRow) (files : Option (List String)) (store : FindingStore)
    (results : StageResults) : RepositorySummary :=
  let blank : RepositorySummary :=
    { projectId := project.id, name := project.name, sourceType := project.sourceType
      language := project.language, status := project.status, location := project.location
      createdAt := project.createdAt }
  let findings := countedFindings store files
  if findings.isEmpty then blank
  else
    let ids := findings.map CandidateFinding.id
    let assessments := results.assessments.values.filter fun a => a.findingId ∈ ids
    let validations := results.validations.values.filter fun v => v.findingId ∈ ids
    let proofs := results.proofs.values.filter fun p => p.findingId ∈ ids
    let slaRecords := results.slaRecords.values.filter fun s => s.findingId ∈ ids
    let top := (rankedAssessments assessments).head?
    { blank with
      findings := some
        { total := findings.length
          byPriority := priorities.map fun p => (p, assessments.countP fun a => a.priority = p)
          highestPriority := top.map fun a => a.priority }
      risk := unlessEmpty assessments
        { highestRiskScore := top.map ScoredAssessment.riskScore
          highestPriority := top.map fun a => a.priority
          topFindingId := top.map fun a => a.findingId }
      validation := unlessEmpty validations
        { truePositive := validations.countP fun v => v.verdict = .truePositive
          falsePositive := validations.countP fun v => v.verdict = .falsePositive
          uncertain := validations.countP fun v => v.verdict = .uncertain }
      proof := unlessEmpty proofs
        { verified := proofs.countP fun p => p.status = .verified
          notVerified := proofs.countP fun p => p.status = .notVerified
          blocked := proofs.countP fun p => p.status = .blocked
          error := proofs.countP fun p => p.status = .error }
      sla := unlessEmpty slaRecords
        { active := slaRecords.countP fun s => s.status = .active
          breached := slaRecords.countP fun s => s.status = .breached
          resolved := slaRecords.countP fun s => s.status = .resolved } }

/-! ## What is expected -/

/-- The summary counts exactly the findings that the list returns for the project. -/
def CountsListed (projects : Dict String ProjectRow) (stores : ScanStores) (project : ProjectRow)
    (files : Option (List String)) : Prop :=
  ∀ listed, scopedFindings projects stores project.id = .ok listed →
    ∀ f, f ∈ countedFindings stores.findings files ↔ f ∈ listed

/-- For stored findings, to come from a file of the snapshot and to be in the lineage of the project
is the same. -/
def FilesMatchLineage (stores : ScanStores) (projectId : String) (files : Option (List String)) :
    Prop :=
  ∀ ids, projectFindingIds stores.runs projectId = .ok ids →
    ∀ f ∈ stores.findings.all, (∃ paths, files = some paths ∧ f.source.file ∈ paths) ↔ f.id ∈ ids

/-- No finding of the report, and none that it replaces, comes from a file of the snapshot. -/
def OutsideSnapshot (store : FindingStore) (files : Option (List String))
    (findings : List CandidateFinding) : Prop :=
  ∀ paths, files = some paths → ∀ f ∈ findings, f.source.file ∉ paths
    ∧ ∀ old ∈ store.get f.id, old.source.file ∉ paths

/-! ## What is counted -/

variable {store : FindingStore} {files : Option (List String)}

lemma mem_countedFindings {f : CandidateFinding} :
    f ∈ countedFindings store files
      ↔ f ∈ store.all ∧ ∃ paths, files = some paths ∧ f.source.file ∈ paths := by
  cases files with
  | none => simp [countedFindings]
  | some paths => simp [countedFindings]

/-- The summary counts the findings in the files of the snapshot, if there are any. -/
lemma findings_summarize (project : ProjectRow) (results : StageResults) :
    (summarize project files store results).findings.map RepositoryFindings.total
      = unlessEmpty (countedFindings store files) (countedFindings store files).length := by
  simp only [summarize, unlessEmpty]
  split_ifs <;> rfl

/-- A finding from another file, in place of another such one, is not counted. -/
lemma countedFindings_add {f : CandidateFinding} (h : OutsideSnapshot store files [f]) :
    countedFindings (store.add f) files = countedFindings store files := by
  cases files with
  | none => rfl
  | some paths =>
      obtain ⟨hnew, hold⟩ := h paths rfl f (List.mem_singleton_self f)
      simp only [countedFindings, FindingStore.all, FindingStore.add]
      cases hget : store.findings.get? f.id with
      | none => simp [Dict.values_set_new _ _ _ hget, hnew]
      | some old =>
          have hmap := store.findings.values_set_of_mem f.id f (by rw [hget]; rfl)
          rw [hmap, Dict.values, List.filter_map, List.filter_map]
          have hsame : (store.findings.entries.filter
              ((fun g : CandidateFinding => decide (g.source.file ∈ paths)) ∘
                fun e => if e.1 = f.id then f else e.2))
              = store.findings.entries.filter
                ((fun g : CandidateFinding => decide (g.source.file ∈ paths)) ∘ Prod.snd) := by
            refine List.filter_congr fun e he => ?_
            simp only [Function.comp]
            split_ifs with hkey
            · have hentry := (store.findings.get?_eq_some_iff).2 (show (f.id, e.2) ∈ _ by
                rw [← hkey]; exact he)
              have houtside := hold e.2 hentry
              simp [hnew, houtside]
            · rfl
          rw [hsame]
          refine List.map_congr_left fun e he => ?_
          obtain ⟨hmem, hfile⟩ := List.mem_filter.1 he
          split_ifs with hkey
          · have hentry := (store.findings.get?_eq_some_iff).2 (show (f.id, e.2) ∈ _ by
              rw [← hkey]; exact hmem)
            exact absurd (of_decide_eq_true hfile) (hold e.2 hentry)
          · rfl

lemma countedFindings_addReport {findings : List CandidateFinding} :
    ∀ {store : FindingStore}, OutsideSnapshot store files findings →
      countedFindings (store.addReport findings) files = countedFindings store files := by
  induction findings with
  | nil => exact fun _ => rfl
  | cons f findings ih =>
      intro store h
      have hfirst : OutsideSnapshot store files [f] := by
        intro paths hpaths g hg
        obtain rfl := List.mem_singleton.1 hg
        exact h paths hpaths g (List.mem_cons_self ..)
      have hrest : OutsideSnapshot (store.add f) files findings := by
        intro paths hpaths g hg
        obtain ⟨hnew, hold⟩ := h paths hpaths g (List.mem_cons_of_mem _ hg)
        refine ⟨hnew, fun old hget => ?_⟩
        rw [FindingStore.get_add] at hget
        split_ifs at hget with hid
        · obtain rfl := Option.some.inj hget
          exact (h paths hpaths _ (List.mem_cons_self ..)).1
        · exact hold old hget
      exact (ih hrest).trans (countedFindings_add hfirst)

/-- A summary depends on the finding store through the findings it counts. -/
lemma summarize_congr {store' : FindingStore}
    (h : countedFindings store' files = countedFindings store files) (project : ProjectRow)
    (results : StageResults) :
    summarize project files store' results = summarize project files store results := by
  simp only [summarize, h]

/-- What a scan does to the finding store. -/
lemma findings_executeScan (py : Stdlib) (rules : List ScanRule) (stores : ScanStores)
    (projectId : String) (codeModel : CodeModel) (projectCreatedAt : Option DateTime)
    (stamps : ScanStamps) :
    (executeScan py rules stores projectId codeModel projectCreatedAt stamps).1.findings
      = match scan py rules codeModel (some projectId) with
        | .error _ => stores.findings
        | .ok report => stores.findings.addReport report.findings := by
  cases h : scan py rules codeModel (some projectId) with
  | error exc => exact (executeScan_error h).2.1
  | ok report => simp only [executeScan, runScanStage_ok h]

/-- **A summary goes by the files of the snapshot.**  It counts exactly the stored findings from
these files; they are the findings listed for the project if and only if files and lineage agree on
every stored finding; and a scan leaves the summary of another project alone if neither its findings
nor those they replace come from these files. -/
theorem summary_by_files (projects : Dict String ProjectRow) (stores : ScanStores)
    (results : StageResults) (project : ProjectRow) (hproject : projects.get? project.id = some project)
    (files : Option (List String)) :
    (summarize project files stores.findings results).findings.map RepositoryFindings.total
        = unlessEmpty (countedFindings stores.findings files)
          (countedFindings stores.findings files).length
      ∧ (∀ f, f ∈ countedFindings stores.findings files
        ↔ f ∈ stores.findings.all ∧ ∃ paths, files = some paths ∧ f.source.file ∈ paths)
      ∧ (CountsListed projects stores project files
        ↔ FilesMatchLineage stores project.id files)
      ∧ ∀ (py : Stdlib) (rules : List ScanRule) (other : String) (codeModel : CodeModel)
          (createdAt : Option DateTime) (stamps : ScanStamps),
        (∀ report, scan py rules codeModel (some other) = .ok report →
          OutsideSnapshot stores.findings files report.findings) →
        summarize project files
            (executeScan py rules stores other codeModel createdAt stamps).1.findings results
          = summarize project files stores.findings results := by
  refine ⟨findings_summarize project results, fun f => mem_countedFindings, ?_, ?_⟩
  · have hlisted : ∀ ids, projectFindingIds stores.runs project.id = .ok ids →
        scopedFindings projects stores project.id
          = .ok (stores.findings.all.filter fun f => f.id ∈ ids) := by
      intro ids hids
      rw [scopedFindings, hproject, hids]
    constructor
    · intro hcounts ids hids f hf
      have hiff := hcounts _ (hlisted ids hids) f
      rw [mem_countedFindings, List.mem_filter, decide_eq_true_eq] at hiff
      simpa [hf] using hiff
    · intro hmatch listed hok f
      cases hids : projectFindingIds stores.runs project.id with
      | error e => simp [scopedFindings, hproject, hids] at hok
      | ok ids =>
          rw [hlisted ids hids] at hok
          obtain rfl := Except.ok.inj hok
          rw [mem_countedFindings, List.mem_filter, decide_eq_true_eq]
          exact and_congr_right fun hf => hmatch ids hids f hf
  · intro py rules other codeModel createdAt stamps houtside
    refine summarize_congr ?_ project results
    rw [findings_executeScan]
    cases hscan : scan py rules codeModel (some other) with
    | error exc => rfl
    | ok report => exact countedFindings_addReport (houtside report hscan)

/-! ## Two projects with the same paths -/

/-- A finding in `app.py`, as the scanner reports it. -/
def appFinding : CandidateFinding where
  id := "sqli"
  vulnerabilityType := "sql_injection"
  severity := "high"
  confidence := 9 / 10
  source := ⟨"app.py", 3, "request.args['q']", "request"⟩
  sink := ⟨"app.py", 4, "cursor.execute(query)", "cursor.execute"⟩
  taintPath := []
  evidence := ⟨"request.args['q']", "cursor.execute(query)", [], [3, 4], []⟩

/-- The row of a project. -/
def projectNamed (id : String) : ProjectRow :=
  ⟨id, id, "directory", id, "python", "prepared", id, ⟨0, some 0⟩⟩

/-- Two projects. -/
def shopAndCopy : Dict String ProjectRow :=
  (Dict.empty.set "shop" (projectNamed "shop")).set "copy" (projectNamed "copy")

/-- The stores after the project `shop` has been scanned. -/
def scannedShop : ScanStores where
  runs := (ScanRunStore.empty.createRun ⟨"run", "shop", .completed, ⟨0, some 0⟩, some ⟨1, some 0⟩,
    some 1, some 1, none, ⟨0, some 0⟩⟩).addFindingLineage "run" "sqli"
  findings := FindingStore.empty.add appFinding

/-- The summary of a project that was never scanned counts the finding of the other one. -/
theorem not_countsListed :
    ¬ ∀ projects stores project files, CountsListed projects stores project files := by
  intro h
  have hlisted : scopedFindings shopAndCopy scannedShop (projectNamed "copy").id = .ok [] := by
    decide +kernel
  have hcounted := h shopAndCopy scannedShop (projectNamed "copy") (some ["app.py"]) [] hlisted
    appFinding
  have hmem : appFinding ∈ countedFindings scannedShop.findings (some ["app.py"]) := by
    decide +kernel
  exact absurd (hcounted.1 hmem) (List.not_mem_nil)

/-- Both views give the finding to the project that was scanned. -/
theorem summary_by_files_shop :
    ((summarize (projectNamed "shop") (some ["app.py"]) scannedShop.findings
        ⟨.empty, .empty, .empty, .empty⟩).findings.map RepositoryFindings.total = some 1)
      ∧ CountsListed shopAndCopy scannedShop (projectNamed "shop") (some ["app.py"]) := by
  have h := summary_by_files shopAndCopy scannedShop ⟨.empty, .empty, .empty, .empty⟩
    (projectNamed "shop") (by decide +kernel) (some ["app.py"])
  refine ⟨h.1.trans (by decide +kernel), h.2.2.1.2 ?_⟩
  intro ids hids f hf
  have hone : projectFindingIds scannedShop.runs (projectNamed "shop").id = .ok ["sqli"] := by
    decide +kernel
  rw [hone] at hids
  obtain rfl := Except.ok.inj hids
  have hall : scannedShop.findings.all = [appFinding] := by decide +kernel
  rw [hall] at hf
  obtain rfl := List.mem_singleton.1 hf
  simp [appFinding]

end Sast
