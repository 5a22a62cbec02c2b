import Mathlib.Data.Set.BooleanAlgebra
import Mathlib.Data.Set.Function
import Mathlib.Order.CompletePartialOrder
import SastEngine.Scan.Counting

/-!
# Finding ids across projects

The id of a finding names its project, type, file and two lines in one text with `|` between the
fields.  Files may contain `|`; project ids, types and numbers do not, so the fields are read off
from both ends.  Equal ids then mean equal fields, whatever projects were scanned.
-/

namespace Sast

/-! ## Reading off the project -/

/-- All fields can be read off the text: projects and types contain no separator. -/
lemma findingText_inj_project {p q t t' file file' : String} {n n' m m' : Nat}
    (hp : '|' ∉ p.toList) (hq : '|' ∉ q.toList) (ht : '|' ∉ t.toList) (ht' : '|' ∉ t'.toList)
    (h : findingText p t file n m = findingText q t' file' n' m') :
    p = q ∧ t = t' ∧ file = file' ∧ n = n' ∧ m = m' := by
  have hlists := congrArg String.toList h
  rw [toList_findingText, toList_findingText] at hlists
  obtain rfl : p = q := String.toList_injective (append_sep_left hp hq hlists).1
  exact ⟨rfl, findingText_inj ht ht' h⟩

/-! ## Scans -/

/-- `effective_project_id`: the project a scan is asked for, or else that of the code model. -/
def CodeModel.effectiveProjectId (codeModel : CodeModel) (projectId : Option String) : String :=
  projectId.getD codeModel.projectId

/-- The ids of the findings in a report. -/
def ScanReport.ids (report : ScanReport) : Set String :=
  {id | ∃ f ∈ report.findings, f.id = id}

/-- The texts that are hashed for the findings of a report. -/
def ScanReport.texts (report : ScanReport) (projectId : String) : Set String :=
  {text | ∃ f ∈ report.findings, f.text projectId = text}

/-- The two code models hold the same files, in any order. -/
def CodeModel.SameFiles (codeModel codeModel' : CodeModel) : Prop :=
  ∀ file, file ∈ codeModel.files ↔ file ∈ codeModel'.files

variable {py : Stdlib} {rules : List ScanRule} {codeModel codeModel' : CodeModel}
  {projectId projectId' : Option String} {report report' : ScanReport}

lemma scan_effectiveProjectId : scan py rules codeModel projectId
    = scan py rules codeModel (some (codeModel.effectiveProjectId projectId)) := by
  cases projectId <;> rfl

/-- Scans of the same files for the same project find the same. -/
lemma mem_findings_of_sameFiles (h : scan py rules codeModel projectId = .ok report)
    (h' : scan py rules codeModel' projectId' = .ok report')
    (hproject : codeModel.effectiveProjectId projectId
      = codeModel'.effectiveProjectId projectId')
    (hfiles : codeModel.SameFiles codeModel') (f : CandidateFinding) :
    f ∈ report.findings ↔ f ∈ report'.findings := by
  rw [scan_effectiveProjectId] at h h'
  rw [hproject] at h
  have hflows : ∀ flow, flow ∈ scanFlows py rules (codeModel'.effectiveProjectId projectId')
        codeModel.files
      ↔ flow ∈ scanFlows py rules (codeModel'.effectiveProjectId projectId')
        codeModel'.files := by
    intro flow
    simp only [scanFlows, List.mem_flatMap, hfiles _]
  rw [(findings_scan h).mem_iff, (findings_scan h').mem_iff, List.mem_map, List.mem_map]
  exact exists_congr fun flow => and_congr_left fun _ => hflows flow

/-- The ids of two findings in reports of two scans are equal iff project and place are. -/
lemma id_eq_iff_project {p q : String} {f g : CandidateFinding} (hp : '|' ∉ p.toList)
    (hq : '|' ∉ q.toList) (hf : Identified py (defaultRules py) p f)
    (hg : Identified py (defaultRules py) q g)
    (hhash : py.sha256 (f.text p) = py.sha256 (g.text q) → f.text p = g.text q) :
    f.id = g.id ↔ p = q ∧ SamePlace f g := by
  obtain ⟨hfid, frule, hfrule, hftype⟩ := hf
  obtain ⟨hgid, grule, hgrule, hgtype⟩ := hg
  constructor
  · intro hid
    rw [hfid, hgid] at hid
    exact findingText_inj_project hp hq (hftype ▸ bar_notMem_type hfrule)
      (hgtype ▸ bar_notMem_type hgrule) (hhash hid)
  · rintro ⟨rfl, htype, hfile, hsource, hsink⟩
    rw [hfid, hgid, htype, hfile, hsource, hsink]

/-- **Finding identity is exact.**  Two findings that scans under the default rules report have
one id iff project, type, file, source line and sink line agree.  The ids of different projects
are disjoint, and those of a project depend on its files only. -/
theorem findingIds_exact
    (h : scan py (defaultRules py) codeModel projectId = .ok report)
    (h' : scan py (defaultRules py) codeModel' projectId' = .ok report')
    (hbar : '|' ∉ (codeModel.effectiveProjectId projectId).toList)
    (hbar' : '|' ∉ (codeModel'.effectiveProjectId projectId').toList)
    (hhash : Set.InjOn py.sha256 (report.texts (codeModel.effectiveProjectId projectId)
      ∪ report'.texts (codeModel'.effectiveProjectId projectId'))) :
    (∀ f ∈ report.findings, ∀ g ∈ report'.findings, f.id = g.id
      ↔ codeModel.effectiveProjectId projectId = codeModel'.effectiveProjectId projectId'
        ∧ SamePlace f g)
    ∧ (codeModel.effectiveProjectId projectId ≠ codeModel'.effectiveProjectId projectId' →
        Disjoint report.ids report'.ids)
    ∧ (codeModel.effectiveProjectId projectId = codeModel'.effectiveProjectId projectId' →
        codeModel.SameFiles codeModel' → report.ids = report'.ids) := by
  have hexact : ∀ f ∈ report.findings, ∀ g ∈ report'.findings, f.id = g.id
      ↔ codeModel.effectiveProjectId projectId = codeModel'.effectiveProjectId projectId'
        ∧ SamePlace f g := by
    intro f hf g hg
    rw [scan_effectiveProjectId] at h h'
    refine id_eq_iff_project hbar hbar' (identified_scan located_defaultRules h f hf)
      (identified_scan located_defaultRules h' g hg) fun heq => ?_
    exact hhash (Or.inl ⟨f, hf, rfl⟩) (Or.inr ⟨g, hg, rfl⟩) heq
  refine ⟨hexact, fun hne => ?_, fun hproject hfiles => ?_⟩
  · rw [Set.disjoint_left]
    rintro id ⟨f, hf, rfl⟩ ⟨g, hg, hid⟩
    exact hne ((hexact f hf g hg).1 hid.symm).1
  · ext id
    exact exists_congr fun f =>
      and_congr_left fun _ => mem_findings_of_sameFiles h h' hproject hfiles f

/-- The file with one sink call, under a path with separators. -/
def barFile : SourceFile := { statementFile with path := "a|3|3.py" }

/-- The findings of that file in two projects have different ids. -/
theorem findingIds_exact_barFile : ∃ report report',
    scan statementPython (defaultRules statementPython) ⟨"p", [barFile]⟩ none = .ok report
    ∧ scan statementPython (defaultRules statementPython) ⟨"p", [barFile]⟩ (some "q") = .ok report'
    ∧ report.findings.length = 1 ∧ Disjoint report.ids report'.ids := by
  have hparses : Reparses statementPython [barFile] := by
    intro file hfile _
    obtain rfl := List.mem_singleton.1 hfile
    exact ⟨statementTree, parse_tabulatedPython ..⟩
  obtain ⟨report, h⟩ := @exists_scan statementPython (defaultRules statementPython) "p"
    ⟨"p", [barFile]⟩ |>.2 (Or.inr hparses)
  obtain ⟨report', h'⟩ := @exists_scan statementPython (defaultRules statementPython) "q"
    ⟨"p", [barFile]⟩ |>.2 (Or.inr hparses)
  refine ⟨report, report', h, h', ?_, ?_⟩
  · rw [(findings_scan h).length_eq, List.length_map]
    decide +kernel
  · exact (findingIds_exact h h' (by decide) (by decide) fun _ _ _ _ heq => heq).2.1 (by decide)

end Sast
