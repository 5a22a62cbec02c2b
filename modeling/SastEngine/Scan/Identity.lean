import SastEngine.Lib.Except
import SastEngine.Lib.Separators
import SastEngine.Scan.Service
import SastEngine.Scan.Sites

/-!
# The identity of findings

The id of a finding is the hash of its project, type, file, and the absolute line numbers of its
source and sink.  Up to collisions of the hash, two findings of one project have the same id iff
these fields agree.
-/

namespace Sast

/-! ## The text of an id -/

/-- The text that is hashed into the id of a finding. -/
def findingText (projectId vulnerabilityType file : String) (sourceLine sinkLine : Nat) : String :=
  projectId ++ "|" ++ vulnerabilityType ++ "|" ++ file ++ "|" ++ toString sourceLine ++ "|"
    ++ toString sinkLine

lemma toList_findingText (p t file : String) (n m : Nat) :
    (findingText p t file n m).toList = p.toList ++ '|' :: (t.toList ++ '|' :: (file.toList
      ++ '|' :: ((toString n).toList ++ '|' :: (toString m).toList))) := by
  simp [findingText, String.toList_append]

/-- The fields can be read off the text: types contain no separator. -/
lemma findingText_inj {p t t' file file' : String} {n n' m m' : Nat} (ht : '|' ∉ t.toList)
    (ht' : '|' ∉ t'.toList) (h : findingText p t file n m = findingText p t' file' n' m') :
    t = t' ∧ file = file' ∧ n = n' ∧ m = m' := by
  have hlists := congrArg String.toList h
  rw [toList_findingText, toList_findingText] at hlists
  have hfields := (List.cons.inj (List.append_cancel_left hlists)).2
  obtain ⟨htype, hfields⟩ := append_sep_left ht ht' hfields
  -- the two numbers are read from the right
  rw [← List.cons_append, ← List.cons_append, ← List.append_assoc, ← List.append_assoc] at hfields
  obtain ⟨hfields, hsink⟩ := append_sep_right (notMem_toString rfl m) (notMem_toString rfl m') hfields
  obtain ⟨hfile, hsource⟩ := append_sep_right (notMem_toString rfl n) (notMem_toString rfl n') hfields
  exact ⟨String.toList_injective htype, String.toList_injective hfile,
    eq_of_toList_toString hsource, eq_of_toList_toString hsink⟩

/-! ## Findings are emitted at sinks -/

variable {ctx : FileContext}

/-- Every finding is what `_emit_finding` makes of a tainted sink. -/
def Emitted (ctx : FileContext) (findings : List CandidateFinding) : Prop :=
  ∀ f ∈ findings, ∃ call tainted sink taint,
    taintedSink ctx tainted call = some (sink, taint) ∧ f = emitFinding ctx sink taint

lemma emitted_analyzeTree (tree : Module) : Emitted ctx (analyzeTree ctx tree).findings := by
  intro f hf
  obtain ⟨flow, hflow, rfl⟩ := List.mem_map.1 ((findings_analyzeTree ctx tree).mem_iff.1 hf)
  obtain ⟨scope, -, hflow⟩ := List.mem_flatMap.1 hflow
  obtain ⟨site, -, hflow⟩ := List.mem_flatMap.1 hflow
  obtain ⟨e, -, hflow⟩ := List.mem_flatMap.1 hflow
  exact ⟨flow.call, site.taints, flow.sink, flow.taint, (mem_exprFlows.1 hflow).2, rfl⟩

/-! ## The findings of a scan -/

variable {py : Stdlib} {projectId : String}

/-- What a rule reports lies in the file it was given. -/
def ScanRule.Located (rule : ScanRule) : Prop :=
  ∀ call file source sink, rule.matchSink call file source = some sink → sink.file = file

/-- The id of the finding is the hash of its text, under a rule of the list. -/
def Identified (py : Stdlib) (rules : List ScanRule) (projectId : String)
    (f : CandidateFinding) : Prop :=
  f.id = py.sha256 (findingText projectId f.vulnerabilityType f.sink.file f.source.line f.sink.line)
    ∧ ∃ rule ∈ rules, f.vulnerabilityType = rule.vulnerabilityType

lemma identified_analyzeFile {rule : ScanRule} (hloc : rule.Located) {file : SourceFile}
    {found : List CandidateFinding × List FunctionSummary}
    (h : analyzeFile py rule projectId file = .ok found) :
    ∀ f ∈ found.1, Identified py [rule] projectId f := by
  unfold analyzeFile at h
  split_ifs at h with herror
  · obtain rfl := Except.ok.inj h
    simp
  · obtain ⟨tree, -, htree⟩ := bind_eq_ok.1 h
    obtain rfl := pure_eq_ok.1 htree
    intro f hf
    obtain ⟨call, tainted, sink, taint, hhit, rfl⟩ := emitted_analyzeTree tree f hf
    have hfile : sink.file = file.path := by
      unfold taintedSink at hhit
      split at hhit
      · simp at hhit
      · rename_i found hmatch
        split_ifs at hhit
        split at hhit
        · simp at hhit
        · obtain ⟨taint', -, heq⟩ := Option.map_eq_some_iff.1 hhit
          obtain ⟨rfl, -⟩ := Prod.mk.inj heq
          exact hloc _ _ _ _ hmatch
    refine ⟨?_, rule, List.mem_singleton_self _, rfl⟩
    simp only [emitFinding, hfile]
    rfl

lemma Identified.mono {rules rules' : List ScanRule} (h : rules ⊆ rules') {f : CandidateFinding}
    (hf : Identified py rules projectId f) : Identified py rules' projectId f := by
  obtain ⟨hid, rule, hrule, htype⟩ := hf
  exact ⟨hid, rule, h hrule, htype⟩

lemma identified_scanFiles {rule : ScanRule} (hloc : rule.Located) (files : List SourceFile) :
    ∀ {found : List CandidateFinding × List FunctionSummary},
      scanFiles py rule projectId files = .ok found →
        ∀ f ∈ found.1, Identified py [rule] projectId f := by
  induction files with
  | nil =>
      intro found h
      obtain rfl := Except.ok.inj h
      simp
  | cons file files ih =>
      intro found h
      obtain ⟨first, hfirst, h⟩ := bind_eq_ok.1 h
      obtain ⟨rest, hrest, h⟩ := bind_eq_ok.1 h
      obtain rfl := pure_eq_ok.1 h
      intro f hf
      rcases List.mem_append.1 hf with hf | hf
      · exact identified_analyzeFile hloc hfirst f hf
      · exact ih hrest f hf

lemma identified_scanRules (files : List SourceFile) (rules : List ScanRule)
    (hloc : ∀ rule ∈ rules, rule.Located) :
    ∀ {found : List CandidateFinding × List FunctionSummary},
      scanRules py projectId files rules = .ok found →
        ∀ f ∈ found.1, Identified py rules projectId f := by
  induction rules with
  | nil =>
      intro found h
      obtain rfl := Except.ok.inj h
      simp
  | cons rule rules ih =>
      intro found h
      obtain ⟨first, hfirst, h⟩ := bind_eq_ok.1 h
      obtain ⟨rest, hrest, h⟩ := bind_eq_ok.1 h
      obtain rfl := pure_eq_ok.1 h
      intro f hf
      rcases List.mem_append.1 hf with hf | hf
      · exact (identified_scanFiles (hloc rule (by simp)) files hfirst f hf).mono (by simp)
      · exact (ih (fun r hr => hloc r (by simp [hr])) hrest f hf).mono (by simp)

/-- **The findings of a scan are identified by their place.** -/
theorem identified_scan {rules : List ScanRule} (hloc : ∀ rule ∈ rules, rule.Located)
    {codeModel : CodeModel} {report : ScanReport}
    (h : scan py rules codeModel (some projectId) = .ok report) :
    ∀ f ∈ report.findings, Identified py rules projectId f := by
  obtain ⟨found, hfound, h⟩ := bind_eq_ok.1 h
  obtain rfl := pure_eq_ok.1 h
  intro f hf
  exact identified_scanRules codeModel.files rules hloc hfound f ((List.mem_insertionSort _).1 hf)

/-- The default rules report sinks in the file they were given. -/
lemma located_defaultRules : ∀ rule ∈ defaultRules py, rule.Located := by
  intro rule hrule call file source sink h
  simp only [defaultRules, List.mem_cons, List.not_mem_nil, or_false] at hrule
  rcases hrule with rfl | rfl | rfl | rfl
  · simp only [sqlInjectionRule, sqlMatchSink] at h
    grind [sinkAt]
  · simp only [commandInjectionRule, commandMatchSink] at h
    grind [sinkAt]
  · simp only [ssrfRule, ssrfMatchSink] at h
    grind [sinkAt]
  · simp only [deserializationRule, deserializationMatchSink] at h
    grind [sinkAt]

/-- The types of the default rules contain no separator. -/
lemma bar_notMem_type {rule : ScanRule} (hrule : rule ∈ defaultRules py) :
    '|' ∉ rule.vulnerabilityType.toList := by
  simp only [defaultRules, List.mem_cons, List.not_mem_nil, or_false] at hrule
  rcases hrule with rfl | rfl | rfl | rfl
  · show '|' ∉ "sql_injection".toList
    decide
  · show '|' ∉ "command_injection".toList
    decide
  · show '|' ∉ "ssrf".toList
    decide
  · show '|' ∉ "deserialization".toList
    decide

/-- Two findings agree in type, file, source line and sink line. -/
def SamePlace (f g : CandidateFinding) : Prop :=
  f.vulnerabilityType = g.vulnerabilityType ∧ f.sink.file = g.sink.file
    ∧ f.source.line = g.source.line ∧ f.sink.line = g.sink.line

/-- The text of a finding in a project. -/
def CandidateFinding.text (f : CandidateFinding) (projectId : String) : String :=
  findingText projectId f.vulnerabilityType f.sink.file f.source.line f.sink.line

/-- **Equal ids, equal places**, for findings of one project whose texts do not collide. -/
theorem id_eq_iff {f g : CandidateFinding} (hf : Identified py (defaultRules py) projectId f)
    (hg : Identified py (defaultRules py) projectId g)
    (hhash : py.sha256 (g.text projectId) = py.sha256 (f.text projectId) →
      g.text projectId = f.text projectId) : g.id = f.id ↔ SamePlace f g := by
  obtain ⟨hfid, frule, hfrule, hftype⟩ := hf
  obtain ⟨hgid, grule, hgrule, hgtype⟩ := hg
  constructor
  · intro hid
    rw [hfid, hgid] at hid
    have htext := hhash hid
    obtain ⟨htype, hfile, hsource, hsink⟩ := findingText_inj
      (hgtype ▸ bar_notMem_type hgrule) (hftype ▸ bar_notMem_type hfrule) htext
    exact ⟨htype.symm, hfile.symm, hsource.symm, hsink.symm⟩
  · rintro ⟨htype, hfile, hsource, hsink⟩
    rw [hfid, hgid, htype, hfile, hsource, hsink]

end Sast
