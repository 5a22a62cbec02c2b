import Mathlib.Data.List.Dedup
import SastEngine.Scan.Coverage
import SastEngine.Scan.Identity
import SastEngine.Scan.RunService

/-!
# Counting the flows of a scan

Whether every flow that a scan reports survives in the stores.  The report lists one finding for
each flow; the finding store and the lineage file findings under an id that only knows the type,
the file and two line numbers.
-/

namespace Sast

/-! ## The flows of a scan -/

/-- A flow in a file, under a rule. -/
structure ReportedFlow where
  ctx : FileContext
  flow : SinkFlow

namespace ReportedFlow

/-- The finding that reports the flow. -/
def finding (f : ReportedFlow) : CandidateFinding := f.flow.finding f.ctx

/-- The text that identifies the flow: project, type, file, source line and sink line. -/
def text (f : ReportedFlow) : String :=
  findingText f.ctx.projectId f.ctx.rule.vulnerabilityType f.ctx.file f.finding.source.line
    f.finding.sink.line

/-- The flows end in different calls, or start from different source expressions. -/
def Differs (f g : ReportedFlow) : Prop :=
  f.ctx.file ≠ g.ctx.file ∨ f.flow.call ≠ g.flow.call ∨ f.finding.source ≠ g.finding.source

lemma id_finding (f : ReportedFlow) : f.finding.id = f.ctx.sha256 f.text := rfl

end ReportedFlow

variable (py : Stdlib) (rules : List ScanRule) (projectId : String)

/-- The flows of a file: none if it could not be parsed. -/
def fileFlows (rule : ScanRule) (file : SourceFile) : List ReportedFlow :=
  if file.error.isSome then []
  else match py.parse file.source with
    | .error _ => []
    | .ok tree =>
        (treeFlows (contextOf py rule projectId file) tree).map
          (ReportedFlow.mk (contextOf py rule projectId file))

/-- The flows of all files under all rules. -/
def scanFlows (files : List SourceFile) : List ReportedFlow :=
  rules.flatMap fun rule => files.flatMap (fileFlows py projectId rule)

variable {py rules projectId}

lemma sha256_of_mem_scanFlows {files : List SourceFile} {f : ReportedFlow}
    (h : f ∈ scanFlows py rules projectId files) : f.ctx.sha256 = py.sha256 := by
  obtain ⟨rule, -, h⟩ := List.mem_flatMap.1 h
  obtain ⟨file, -, h⟩ := List.mem_flatMap.1 h
  unfold fileFlows at h
  split_ifs at h with herror
  · simp at h
  · split at h
    · simp at h
    · obtain ⟨flow, -, rfl⟩ := List.mem_map.1 h
      rfl

lemma findings_analyzeFile {rule : ScanRule} {file : SourceFile}
    {found : List CandidateFinding × List FunctionSummary}
    (h : analyzeFile py rule projectId file = .ok found) :
    found.1.Perm ((fileFlows py projectId rule file).map ReportedFlow.finding) := by
  unfold analyzeFile at h
  unfold fileFlows
  split_ifs at h ⊢ with herror
  · obtain rfl := Except.ok.inj h
    exact List.Perm.refl _
  · obtain ⟨tree, hparse, htree⟩ := bind_eq_ok.1 h
    obtain rfl := pure_eq_ok.1 htree
    rw [hparse, List.map_map]
    exact findings_analyzeTree (contextOf py rule projectId file) tree

lemma findings_scanFiles {rule : ScanRule} (files : List SourceFile) :
    ∀ {found : List CandidateFinding × List FunctionSummary},
      scanFiles py rule projectId files = .ok found →
        found.1.Perm ((files.flatMap (fileFlows py projectId rule)).map ReportedFlow.finding) := by
  induction files with
  | nil =>
      intro found h
      obtain rfl := Except.ok.inj h
      exact List.Perm.refl _
  | cons file files ih =>
      intro found h
      obtain ⟨first, hfirst, h⟩ := bind_eq_ok.1 h
      obtain ⟨rest, hrest, h⟩ := bind_eq_ok.1 h
      obtain rfl := pure_eq_ok.1 h
      rw [List.flatMap_cons, List.map_append]
      exact (findings_analyzeFile hfirst).append (ih hrest)

lemma findings_scanRules (files : List SourceFile) (rules : List ScanRule) :
    ∀ {found : List CandidateFinding × List FunctionSummary},
      scanRules py projectId files rules = .ok found →
        found.1.Perm ((scanFlows py rules projectId files).map ReportedFlow.finding) := by
  induction rules with
  | nil =>
      intro found h
      obtain rfl := Except.ok.inj h
      exact List.Perm.refl _
  | cons rule rules ih =>
      intro found h
      obtain ⟨first, hfirst, h⟩ := bind_eq_ok.1 h
      obtain ⟨rest, hrest, h⟩ := bind_eq_ok.1 h
      obtain rfl := pure_eq_ok.1 h
      rw [scanFlows, List.flatMap_cons, List.map_append]
      exact (findings_scanFiles files hfirst).append (ih hrest)

/-- **A scan reports its flows**, each in one finding. -/
theorem findings_scan {codeModel : CodeModel} {report : ScanReport}
    (h : scan py rules codeModel (some projectId) = .ok report) :
    report.findings.Perm
      ((scanFlows py rules projectId codeModel.files).map ReportedFlow.finding) := by
  obtain ⟨found, hfound, h⟩ := bind_eq_ok.1 h
  obtain rfl := pure_eq_ok.1 h
  exact (List.perm_insertionSort _ _).trans (findings_scanRules codeModel.files rules hfound)

/-! ## What fails to be scanned -/

/-- Every file that PREPARE could parse is parsed again. -/
def Reparses (py : Stdlib) (files : List SourceFile) : Prop :=
  ∀ file ∈ files, file.error = none → ∃ tree, py.parse file.source = .ok tree

lemma exists_analyzeFile {rule : ScanRule} {file : SourceFile} :
    (∃ found, analyzeFile py rule projectId file = .ok found)
      ↔ (file.error = none → ∃ tree, py.parse file.source = .ok tree) := by
  unfold analyzeFile
  cases herror : file.error with
  | some error => simp
  | none =>
      cases hparse : py.parse file.source with
      | error exc => simp [bind, Except.bind]
      | ok tree => simp [bind, Except.bind, pure, Except.pure]

lemma exists_scanFiles {rule : ScanRule} (files : List SourceFile) :
    (∃ found, scanFiles py rule projectId files = .ok found) ↔ Reparses py files := by
  induction files with
  | nil => simp [scanFiles, Reparses]
  | cons file files ih =>
      rw [Reparses, List.forall_mem_cons, ← Reparses, ← ih, ← exists_analyzeFile]
      constructor
      · rintro ⟨found, h⟩
        obtain ⟨first, hfirst, h⟩ := bind_eq_ok.1 h
        obtain ⟨rest, hrest, -⟩ := bind_eq_ok.1 h
        exact ⟨⟨first, hfirst⟩, ⟨rest, hrest⟩⟩
      · rintro ⟨⟨first, hfirst⟩, ⟨rest, hrest⟩⟩
        exact ⟨_, bind_eq_ok.2 ⟨first, hfirst, bind_eq_ok.2 ⟨rest, hrest, rfl⟩⟩⟩

/-- A scan returns iff there is no rule or every file is parsed again. -/
lemma exists_scan {codeModel : CodeModel} :
    (∃ report, scan py rules codeModel (some projectId) = .ok report)
      ↔ rules = [] ∨ Reparses py codeModel.files := by
  have hrules : (∃ found, scanRules py projectId codeModel.files rules = .ok found)
      ↔ rules = [] ∨ Reparses py codeModel.files := by
    induction rules with
    | nil => simp [scanRules]
    | cons rule rules ih =>
        constructor
        · rintro ⟨found, h⟩
          obtain ⟨first, hfirst, -⟩ := bind_eq_ok.1 h
          exact Or.inr ((exists_scanFiles codeModel.files).1 ⟨first, hfirst⟩)
        · rintro (h | h)
          · cases h
          · obtain ⟨first, hfirst⟩ := (exists_scanFiles codeModel.files).2 h
            obtain ⟨rest, hrest⟩ := ih.2 (Or.inr h)
            exact ⟨_, bind_eq_ok.2 ⟨first, hfirst, bind_eq_ok.2 ⟨rest, hrest, rfl⟩⟩⟩
  rw [← hrules]
  constructor
  · rintro ⟨report, h⟩
    obtain ⟨found, hfound, -⟩ := bind_eq_ok.1 h
    exact ⟨found, hfound⟩
  · rintro ⟨found, hfound⟩
    exact ⟨_, bind_eq_ok.2 ⟨found, hfound, rfl⟩⟩

/-! ## Counting -/

/-- How many of the findings are in the store. -/
def storedCount (store : FindingStore) (findings : List CandidateFinding) : Nat :=
  (store.findings.values.filter fun f => f ∈ findings).length

/-- Two findings are both stored, under different ids. -/
structure StoredApart (store : FindingStore) (f g : CandidateFinding) : Prop where
  left : store.get f.id = some f
  right : store.get g.id = some g
  apart : f.id ≠ g.id

/-- If the scan returns, then the findings it stored, the ids in the lineage of its run and the
total of its run are equally many; and any two of its flows that differ in their sink calls or
their sources are stored as two findings. -/
def CountsEveryFlow (py : Stdlib) (rules : List ScanRule) (stores : ScanStores)
    (projectId : String) (codeModel : CodeModel) (projectCreatedAt : Option DateTime)
    (stamps : ScanStamps) : Prop :=
  ∀ run report,
    (executeScan py rules stores projectId codeModel projectCreatedAt stamps).2
      = .ok (run, report) →
    let after := (executeScan py rules stores projectId codeModel projectCreatedAt stamps).1
    (∃ recorded, after.runs.getRun stamps.scanRunId = some recorded
      ∧ recorded.totalFindings = some (storedCount after.findings report.findings)
      ∧ (after.runs.findingIdsForRun stamps.scanRunId).dedup.length
        = storedCount after.findings report.findings)
    ∧ ∀ f ∈ scanFlows py rules projectId codeModel.files,
      ∀ g ∈ scanFlows py rules projectId codeModel.files, f.Differs g →
        StoredApart after.findings f.finding g.finding

/-- The identifying texts of the flows of a scan. -/
def flowTexts (py : Stdlib) (rules : List ScanRule) (projectId : String)
    (files : List SourceFile) : List String :=
  (scanFlows py rules projectId files).map ReportedFlow.text

/-- As many findings are stored as there are ids in the report. -/
lemma storedCount_addReport (store : FindingStore) (findings : List CandidateFinding) :
    storedCount (store.addReport findings) findings
      = (findings.map CandidateFinding.id).dedup.length := by
  let stored := (store.addReport findings).findings.values.filter fun f => f ∈ findings
  have hids : (stored.map CandidateFinding.id).Perm
      (findings.map CandidateFinding.id).dedup := by
    refine (List.perm_ext_iff_of_nodup ?_ (List.nodup_dedup _)).2 ?_
    · exact (store.addReport findings).nodup_ids.sublist (List.filter_sublist.map _)
    · intro id
      rw [List.mem_dedup]
      constructor
      · intro hid
        obtain ⟨f, hf, rfl⟩ := List.mem_map.1 hid
        exact List.mem_map_of_mem (of_decide_eq_true (List.mem_filter.1 hf).2)
      · intro hid
        obtain ⟨f, hf, rfl, hget⟩ := store.exists_get_addReport hid
        have hvalue : f ∈ (store.addReport findings).findings.values :=
          (Dict.mem_values_iff _).2 ⟨f.id, hget⟩
        exact List.mem_map_of_mem (List.mem_filter.2 ⟨hvalue, decide_eq_true hf⟩)
  rw [← hids.length_eq, List.length_map]
  rfl

lemma length_dedup_eq_iff {α : Type} [DecidableEq α] {l : List α} :
    l.dedup.length = l.length ↔ l.Nodup := by
  constructor
  · intro h
    exact List.dedup_eq_self.1 ((List.dedup_sublist l).eq_of_length h)
  · intro h
    rw [h.dedup]

/-- The ids of a report are different iff the texts of the flows are, up to collisions. -/
lemma nodup_ids_iff {codeModel : CodeModel} {report : ScanReport}
    (h : scan py rules codeModel (some projectId) = .ok report)
    (hhash : Set.InjOn py.sha256 {text | text ∈ flowTexts py rules projectId codeModel.files}) :
    (report.findings.map CandidateFinding.id).Nodup
      ↔ (flowTexts py rules projectId codeModel.files).Nodup := by
  have hids : (report.findings.map CandidateFinding.id).Perm
      ((flowTexts py rules projectId codeModel.files).map py.sha256) := by
    refine ((findings_scan h).map _).trans ?_
    rw [flowTexts, List.map_map, List.map_map, List.map_congr_left]
    intro f hf
    exact congrFun (sha256_of_mem_scanFlows hf) f.text
  rw [hids.nodup_iff]
  constructor
  · exact List.Nodup.of_map py.sha256
  · exact List.Nodup.map_on fun x hx y hy => hhash hx hy

variable {stores : ScanStores} {codeModel : CodeModel} {projectCreatedAt : Option DateTime}
  {stamps : ScanStamps}

/-- A scan run that returns has scanned. -/
lemma scan_of_executeScan {run : ScanRun} {report : ScanReport}
    (h : (executeScan py rules stores projectId codeModel projectCreatedAt stamps).2
      = .ok (run, report)) : scan py rules codeModel (some projectId) = .ok report := by
  cases hscan : scan py rules codeModel (some projectId) with
  | error exc =>
      rw [(executeScan_error hscan).1] at h
      cases h
  | ok report' =>
      simp only [executeScan, runScanStage_ok hscan, Except.ok.injEq, Prod.mk.injEq] at h
      rw [h.2]

/-- The three counts agree iff the report has no repeated id. -/
lemma counts_iff {report : ScanReport}
    (hscan : scan py rules codeModel (some projectId) = .ok report)
    (hfresh : stores.runs.findingIdsForRun stamps.scanRunId = []) :
    let after := (executeScan py rules stores projectId codeModel projectCreatedAt stamps).1
    (∃ recorded, after.runs.getRun stamps.scanRunId = some recorded
      ∧ recorded.totalFindings = some (storedCount after.findings report.findings)
      ∧ (after.runs.findingIdsForRun stamps.scanRunId).dedup.length
        = storedCount after.findings report.findings)
    ↔ (report.findings.map CandidateFinding.id).Nodup := by
  obtain ⟨hfindings, hnodup, hmem, run, -, hrun, -, htotal⟩ :=
    @executeScan_ok py rules stores projectId codeModel projectCreatedAt stamps report hscan hfresh
  have hlineage : (((executeScan py rules stores projectId codeModel projectCreatedAt
      stamps).1.runs.findingIdsForRun stamps.scanRunId).dedup).length
        = (report.findings.map CandidateFinding.id).dedup.length := by
    refine List.Perm.length_eq ((List.perm_ext_iff_of_nodup (List.nodup_dedup _)
      (List.nodup_dedup _)).2 fun id => ?_)
    rw [List.mem_dedup, List.mem_dedup, hmem]
  simp only [hfindings, storedCount_addReport, hlineage, hrun]
  rw [← length_dedup_eq_iff, List.length_map]
  constructor
  · rintro ⟨recorded, hrecorded, hcount, -⟩
    obtain rfl := Option.some.inj hrecorded
    rw [htotal] at hcount
    exact (Option.some.inj hcount).symm
  · intro hcount
    exact ⟨run, rfl, by rw [htotal, hcount], trivial⟩

/-- **A scan counts every flow iff no two of them look alike.**  For every code model, rule set,
project and state of the stores, in a new run and up to collisions of the hash: the stored
findings, the lineage and the recorded total agree and different flows are stored as two findings,
if and only if no two flows agree in type, file, source line and sink line (or the scan raises,
because a file is not parsed again). -/
theorem countsEveryFlow_iff
    (hhash : Set.InjOn py.sha256 {text | text ∈ flowTexts py rules projectId codeModel.files})
    (hfresh : stores.runs.findingIdsForRun stamps.scanRunId = []) :
    CountsEveryFlow py rules stores projectId codeModel projectCreatedAt stamps
      ↔ (Reparses py codeModel.files →
        (flowTexts py rules projectId codeModel.files).Nodup) := by
  constructor
  · intro hcounts hparses
    obtain ⟨report, hscan⟩ := exists_scan.2 (Or.inr hparses)
    obtain ⟨-, -, -, run, houtcome, -⟩ :=
      @executeScan_ok py rules stores projectId codeModel projectCreatedAt stamps report hscan
        hfresh
    exact (nodup_ids_iff hscan hhash).1
      ((counts_iff hscan hfresh).1 (hcounts run report houtcome).1)
  · intro htexts run report houtcome
    have hscan := scan_of_executeScan houtcome
    have hnodup : (flowTexts py rules projectId codeModel.files).Nodup := by
      rcases exists_scan.1 ⟨report, hscan⟩ with rfl | hparses
      · exact List.nodup_nil
      · exact htexts hparses
    have hids := (nodup_ids_iff hscan hhash).2 hnodup
    refine ⟨(counts_iff hscan hfresh).2 hids, fun f hf g hg hdiffers => ?_⟩
    have hstored : ∀ f ∈ scanFlows py rules projectId codeModel.files,
        (executeScan py rules stores projectId codeModel projectCreatedAt
          stamps).1.findings.get f.finding.id = some f.finding := by
      intro f hf
      rw [(executeScan_ok hscan hfresh).1]
      have hreported : f.finding ∈ report.findings :=
        (findings_scan hscan).mem_iff.2 (List.mem_map_of_mem hf)
      obtain ⟨f', hf', hid, hget⟩ :=
        stores.findings.exists_get_addReport (List.mem_map_of_mem hreported)
      rw [hget, List.inj_on_of_nodup_map hids hf' hreported hid]
    refine ⟨hstored f hf, hstored g hg, ?_⟩
    intro hid
    rw [f.id_finding, g.id_finding, sha256_of_mem_scanFlows hf, sha256_of_mem_scanFlows hg] at hid
    have htext := hhash (List.mem_map_of_mem hf) (List.mem_map_of_mem hg) hid
    obtain rfl := List.inj_on_of_nodup_map hnodup hf hg htext
    simp [ReportedFlow.Differs] at hdiffers

/-- The ids and clock readings of a scan. -/
def sampleStamps : ScanStamps where
  scanRunId := "run"
  prepareExecutionId := "prepare"
  scanExecution := ⟨"scan", ⟨1, some 0⟩, ⟨2, some 0⟩⟩
  now := ⟨0, some 0⟩
  closedAt := ⟨3, some 0⟩

/-- The one flow of a file with one sink call is counted. -/
theorem countsEveryFlow_statementFile :
    CountsEveryFlow statementPython (defaultRules statementPython) .empty "p"
      ⟨"p", [statementFile]⟩ none sampleStamps := by
  refine (countsEveryFlow_iff (fun _ _ _ _ h => h) rfl).2 fun _ => ?_
  decide +kernel

/-! ## Two sinks on one line -/

/-- A file with two sink calls, of different functions, on one line. -/
def twoSinksFile : SourceFile :=
  ⟨"app.py", "import os\ndef run(cmd):\n    os.system(cmd); os.popen(cmd)\n", none⟩

/-- The tree of that file. -/
def twoSinksTree : Module where
  body := [importAt 1 "os", functionAt 2 "run" "cmd"
    [.expr (spanOf 3 4 18) (callAt 3 4 "os" "system" (nameAt 3 14 "cmd")),
      .expr (spanOf 3 20 33) (callAt 3 20 "os" "popen" (nameAt 3 29 "cmd"))]]

/-- An interpreter that knows that file. -/
def twoSinksPython : Stdlib := tabulatedPython [(twoSinksFile.source, twoSinksTree)] []

/-- Both flows are reported and counted in the total; one of them is stored. -/
theorem not_countsEveryFlow :
    ¬ CountsEveryFlow twoSinksPython (defaultRules twoSinksPython) .empty "p"
      ⟨"p", [twoSinksFile]⟩ none sampleStamps := by
  let outcome := executeScan twoSinksPython (defaultRules twoSinksPython) .empty "p"
    ⟨"p", [twoSinksFile]⟩ none sampleStamps
  have hoff : ∃ result, outcome.2 = .ok result
      ∧ storedCount outcome.1.findings result.2.findings = 1
      ∧ (outcome.1.runs.getRun "run").bind ScanRun.totalFindings = some 2 := by
    have hmatch : (match outcome.2 with
        | .error _ => false
        | .ok result => decide (storedCount outcome.1.findings result.2.findings = 1
            ∧ (outcome.1.runs.getRun "run").bind ScanRun.totalFindings = some 2)) = true := by
      decide +kernel
    cases hresult : outcome.2 with
    | error exc =>
        rw [hresult] at hmatch
        cases hmatch
    | ok result =>
        rw [hresult] at hmatch
        exact ⟨result, rfl, of_decide_eq_true hmatch⟩
  obtain ⟨⟨run, report⟩, hresult, hstored, htotal⟩ := hoff
  intro hcounts
  obtain ⟨⟨recorded, hrecorded, hcount, -⟩, -⟩ := hcounts run report hresult
  have hrun : outcome.1.runs.getRun "run" = some recorded := hrecorded
  rw [hrun] at htotal
  have hsame : some 2 = some 1 := htotal.symm.trans (hcount.trans (congrArg some hstored))
  cases hsame

end Sast
