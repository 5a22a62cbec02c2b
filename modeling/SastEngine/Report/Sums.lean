import SastEngine.Report.Service
import Mathlib.Algebra.BigOperators.Group.List.Basic
import Mathlib.Algebra.Ring.Nat
import Mathlib.Data.Finset.Card

/-!
# Whether the report adds up

The breakdowns by verdict, proof status, approval status and SLA status partition their totals.
That of the remediations counts words that no remediation status is, so it never does unless the
total is zero.  The pending figure is a difference of sizes, which is right when one of the two
sets of finding ids contains the other.
-/

namespace Sast

/-! ## Partitions -/

lemma sum_indicator (a : String) (words : List String) :
    (words.map fun word => if a = word then 1 else 0).sum = words.count a := by
  induction words with
  | nil => rfl
  | cons word words ih =>
      rw [List.map_cons, List.sum_cons, ih, List.count_cons, Nat.add_comm]
      by_cases h : word = a <;> simp [h, Ne.symm]

/-- Counting by every value of a function counts everything once. -/
lemma sum_countP_eq_length {α : Type} {text : α → String} {words : List String}
    (hn : words.Nodup) {xs : List α} (h : ∀ x ∈ xs, text x ∈ words) :
    (words.map fun word => xs.countP fun x => text x = word).sum = xs.length := by
  induction xs with
  | nil => simp
  | cons x xs ih =>
      have hx : (words.map fun word => if text x = word then 1 else 0).sum = 1 := by
        rw [sum_indicator]
        exact List.count_eq_one_of_mem hn (h x List.mem_cons_self)
      have hrest := ih fun y hy => h y (List.mem_cons_of_mem x hy)
      simp only [List.countP_cons, decide_eq_true_eq, List.sum_map_add, hrest, hx,
        List.length_cons]

/-- The size of a difference of sets is the difference of their sizes exactly when one contains
the other. -/
lemma card_sdiff_eq_iff (s t : Finset String) :
    (s \ t).card = s.card - t.card ↔ t ⊆ s ∨ s ⊆ t := by
  have hsplit := Finset.card_sdiff_add_card_inter s t
  have hs : (s ∩ t).card ≤ s.card := Finset.card_le_card Finset.inter_subset_left
  have ht : (s ∩ t).card ≤ t.card := Finset.card_le_card Finset.inter_subset_right
  constructor
  · intro h
    by_cases hcard : (s ∩ t).card = s.card
    · exact Or.inr (Finset.inter_eq_left.1 (Finset.eq_of_subset_of_card_le
        Finset.inter_subset_left hcard.ge))
    · refine Or.inl (Finset.inter_eq_right.1 (Finset.eq_of_subset_of_card_le
        Finset.inter_subset_right ?_))
      omega
  · rintro (h | h)
    · rw [Finset.inter_eq_right.2 h] at hsplit
      omega
    · rw [Finset.inter_eq_left.2 h] at hsplit
      have := Finset.card_le_card h
      omega

/-! ## Maps by finding id -/

section ByFinding

variable {ρ : Type} {scope : ReportScope} {findingId : ρ → String} {records : List ρ}

lemma mem_keys_byFinding {k : String} :
    k ∈ (byFinding scope findingId records).keys
      ↔ scope.has k = true ∧ ∃ r ∈ records, findingId r = k := by
  rw [← Dict.get?_isSome_iff, byFinding, Dict.get?_groupInto, List.filter_filter]
  cases h : records.filter fun r => findingId r = k && scope.has (findingId r) with
  | nil =>
      rw [List.filter_eq_nil_iff] at h
      simp only [Dict.gathered, Option.isSome_none, Bool.false_eq_true, false_iff, not_and,
        not_exists]
      intro hscope r hr hk
      exact h r hr (by simp [hk, hscope])
  | cons r rs =>
      have hr : r ∈ records.filter fun r => findingId r = k && scope.has (findingId r) := by
        rw [h]
        exact List.mem_cons_self
      obtain ⟨hmem, hk, hscope⟩ : r ∈ records ∧ findingId r = k
          ∧ scope.has (findingId r) = true := by simpa using hr
      subst hk
      simp only [Dict.gathered, Option.isSome_some, true_iff]
      exact ⟨hscope, r, hmem, rfl⟩

/-- Nothing of a list is in the scope exactly when its map is empty. -/
lemma dictLength_byFinding_eq_zero :
    dictLength (byFinding scope findingId records) = 0
      ↔ ∀ r ∈ records, scope.has (findingId r) = false := by
  have hkeys : dictLength (byFinding scope findingId records)
      = (byFinding scope findingId records).keys.length := by
    simp [dictLength, Dict.values, Dict.keys]
  rw [hkeys, List.length_eq_zero_iff, List.eq_nil_iff_forall_not_mem]
  constructor
  · intro h r hr
    by_contra hscope
    exact h (findingId r) (mem_keys_byFinding.2 ⟨by simpa using hscope, r, hr, rfl⟩)
  · intro h k hk
    obtain ⟨hscope, r, hr, rfl⟩ := mem_keys_byFinding.1 hk
    rw [h r hr] at hscope
    exact Bool.false_ne_true hscope

/-- The size of a dictionary is the number of its keys. -/
lemma dictLength_eq_card (d : Dict String ρ) : dictLength d = d.keys.toFinset.card := by
  have hcard : d.keys.toFinset.card = d.keys.length := List.toFinset_card_of_nodup d.nodup
  rw [hcard, dictLength, Dict.values, Dict.keys, List.length_map, List.length_map]

end ByFinding

/-- A breakdown by a text with values in `words` partitions its total. -/
lemma sum_countStatus {ρ : Type} (text : ρ → String) (words : List String) (hn : words.Nodup)
    (h : ∀ r, text r ∈ words) (d : Dict String ρ) :
    (words.map fun word => countStatus text word d).sum = dictLength d :=
  sum_countP_eq_length hn fun r _ => h r

/-- A breakdown by four words. -/
lemma dictLength_eq_of_four {ρ : Type} {text : ρ → String} {w₁ w₂ w₃ w₄ : String}
    (hn : [w₁, w₂, w₃, w₄].Nodup) (h : ∀ r, text r ∈ [w₁, w₂, w₃, w₄]) (d : Dict String ρ) :
    dictLength d = countStatus text w₁ d + countStatus text w₂ d + countStatus text w₃ d
      + countStatus text w₄ d := by
  have hsum := sum_countStatus text _ hn h d
  simp only [List.map_cons, List.map_nil, List.sum_cons, List.sum_nil] at hsum
  omega

/-! ## The report -/

/-- The findings of a scope without a validation result. -/
def unvalidated (stores : ReportStores) (scope : ReportScope) : List CandidateFinding :=
  stores.findings.findings.values.filter fun f =>
    scope.has f.id && stores.validations.values.all fun v => v.findingId ≠ f.id

/-- Every breakdown partitions its total, and the pending figure is exact. -/
structure AddsUp (stores : ReportStores) (scope : ReportScope) (report : SecurityReport) : Prop where
  validations : report.validationSummary.totalValidated
    = report.validationSummary.truePositive + report.validationSummary.falsePositive
      + report.validationSummary.uncertain
  proofs : report.proofSummary.totalProven
    = report.proofSummary.verified + report.proofSummary.notVerified + report.proofSummary.blocked
      + report.proofSummary.error
  approvals : report.approvalSummary.totalRequests
    = report.approvalSummary.approved + report.approvalSummary.rejected
      + report.approvalSummary.pending + report.approvalSummary.changesRequested
  remediations : report.remediationSummary.totalRemediations
    = report.remediationSummary.pending + report.remediationSummary.inProgress
      + report.remediationSummary.completed
  slaRecords : report.slaSummary.totalRecords
    = report.slaSummary.active + report.slaSummary.breached + report.slaSummary.resolved
      + report.slaSummary.notApplicable
  pending : report.validationSummary.pendingValidation = (unvalidated stores scope).length

variable {stores : ReportStores} {scope : ReportScope}

lemma validations_partition (findings : Dict String CandidateFinding)
    (validations : Dict String ValidationResult) :
    let s := buildValidationSummary findings validations
    s.totalValidated = s.truePositive + s.falsePositive + s.uncertain := by
  have h := sum_countStatus (fun v : ValidationResult => v.verdict.text)
    ["true_positive", "false_positive", "uncertain"] (by decide)
    (fun v => by cases v.verdict <;> decide) validations
  simp only [List.map_cons, List.map_nil, List.sum_cons, List.sum_nil] at h
  simp only [buildValidationSummary]
  omega

lemma proofs_partition (proofs : Dict String ProofResult) :
    let s := buildProofSummary proofs
    s.totalProven = s.verified + s.notVerified + s.blocked + s.error := by
  have htext : ∀ p : ProofResult, p.status.text ∈ ["verified", "not_verified", "blocked", "error"] :=
    fun p => by cases p.status <;> decide
  exact dictLength_eq_of_four (by decide) htext proofs

lemma approvals_partition (approvals : Dict String ApprovalRequest) :
    let s := buildApprovalSummary approvals
    s.totalRequests = s.approved + s.rejected + s.pending + s.changesRequested := by
  have htext : ∀ a : ApprovalRequest,
      a.status.text ∈ ["approved", "rejected", "pending", "changes_requested"] :=
    fun a => by cases a.status <;> decide
  exact dictLength_eq_of_four (by decide) htext approvals

lemma slaRecords_partition (slaRecords : Dict String SLARecord) :
    let s := buildSlaSummary slaRecords
    s.totalRecords = s.active + s.breached + s.resolved + s.notApplicable := by
  have htext : ∀ r : SLARecord,
      r.status.text ∈ ["active", "breached", "resolved", "not_applicable"] :=
    fun r => by cases r.status <;> decide
  exact dictLength_eq_of_four (by decide) htext slaRecords

/-- No remediation status is one of the words that the report counts. -/
lemma remediations_uncounted (remediations : Dict String RemediationRecord) :
    let s := buildRemediationSummary remediations
    s.pending + s.inProgress + s.completed = 0 := by
  have hzero : ∀ word : String, (∀ status : RemediationStatus, status.text ≠ word) →
      countStatus (fun r : RemediationRecord => r.status.text) word remediations = 0 := by
    intro word h
    rw [countStatus, List.countP_eq_zero]
    intro r _
    simpa using h r.status
  simp only [buildRemediationSummary]
  rw [hzero "pending" fun status => by cases status <;> decide,
    hzero "in_progress" fun status => by cases status <;> decide,
    hzero "completed" fun status => by cases status <;> decide]

/-- The unvalidated findings are those whose id is a key of one map and not of the other. -/
lemma length_unvalidated (stores : ReportStores) (scope : ReportScope) :
    (unvalidated stores scope).length
      = ((stores.getFindings scope).keys.toFinset
          \ (stores.getValidations scope).keys.toFinset).card := by
  have hids : ((unvalidated stores scope).map CandidateFinding.id).Nodup :=
    stores.findings.nodup_ids.sublist (List.filter_sublist.map _)
  rw [← List.length_map CandidateFinding.id, ← List.toFinset_card_of_nodup hids]
  congr 1
  ext id
  simp only [List.mem_toFinset, List.mem_map, unvalidated, List.mem_filter, Bool.and_eq_true,
    List.all_eq_true, decide_eq_true_eq, Finset.mem_sdiff, ReportStores.getFindings,
    ReportStores.getValidations, mem_keys_byFinding, not_and, not_exists]
  constructor
  · rintro ⟨f, ⟨hf, hscope, hnone⟩, rfl⟩
    exact ⟨⟨hscope, f, hf, rfl⟩, fun _ v hv hid => hnone v hv hid⟩
  · rintro ⟨⟨hscope, f, hf, rfl⟩, hnone⟩
    exact ⟨f, ⟨hf, hscope, fun v hv hid => hnone hscope v hv hid⟩, rfl⟩

/-- A generated report adds up exactly when no remediation is in its scope, and every validation
in scope is of a stored finding or every finding in scope is validated. -/
theorem addsUp_iff {projectId : Option String} {report : SecurityReport}
    (hscope : stores.scopedFindingIds projectId = .ok scope)
    (hreport : stores.generateReport projectId = .ok report) :
    AddsUp stores scope report
      ↔ (∀ r ∈ stores.remediations.values, scope.has r.findingId = false)
        ∧ ((∀ v ∈ stores.validations.values, scope.has v.findingId = true →
              ∃ f ∈ stores.findings.findings.values, f.id = v.findingId)
          ∨ ∀ f ∈ stores.findings.findings.values, scope.has f.id = true →
              ∃ v ∈ stores.validations.values, v.findingId = f.id) := by
  have hrep : report = stores.reportOn projectId scope := by
    rw [ReportStores.generateReport, hscope] at hreport
    exact (Except.ok.inj hreport).symm
  subst hrep
  have hremediations : ((stores.reportOn projectId scope).remediationSummary.totalRemediations
      = (stores.reportOn projectId scope).remediationSummary.pending
        + (stores.reportOn projectId scope).remediationSummary.inProgress
        + (stores.reportOn projectId scope).remediationSummary.completed)
      ↔ ∀ r ∈ stores.remediations.values, scope.has r.findingId = false := by
    rw [show (stores.reportOn projectId scope).remediationSummary
      = buildRemediationSummary (stores.getRemediations scope) from rfl, remediations_uncounted]
    exact dictLength_byFinding_eq_zero
  have hpending : ((stores.reportOn projectId scope).validationSummary.pendingValidation
      = (unvalidated stores scope).length)
      ↔ (stores.getValidations scope).keys.toFinset ⊆ (stores.getFindings scope).keys.toFinset
        ∨ (stores.getFindings scope).keys.toFinset
          ⊆ (stores.getValidations scope).keys.toFinset := by
    rw [← card_sdiff_eq_iff, ← length_unvalidated, ← dictLength_eq_card, ← dictLength_eq_card]
    exact eq_comm
  have hsubsets : ((stores.getValidations scope).keys.toFinset
        ⊆ (stores.getFindings scope).keys.toFinset
      ↔ ∀ v ∈ stores.validations.values, scope.has v.findingId = true →
        ∃ f ∈ stores.findings.findings.values, f.id = v.findingId)
    ∧ ((stores.getFindings scope).keys.toFinset ⊆ (stores.getValidations scope).keys.toFinset
      ↔ ∀ f ∈ stores.findings.findings.values, scope.has f.id = true →
        ∃ v ∈ stores.validations.values, v.findingId = f.id) := by
    simp only [Finset.subset_iff, List.mem_toFinset, ReportStores.getFindings,
      ReportStores.getValidations, mem_keys_byFinding]
    constructor
    · exact ⟨fun h v hv hs => (h ⟨hs, v, hv, rfl⟩).2,
        fun h id ⟨hs, v, hv, hid⟩ => ⟨hs, hid ▸ h v hv (hid ▸ hs)⟩⟩
    · exact ⟨fun h f hf hs => (h ⟨hs, f, hf, rfl⟩).2,
        fun h id ⟨hs, f, hf, hid⟩ => ⟨hs, hid ▸ h f hf (hid ▸ hs)⟩⟩
  rw [← hremediations, ← hsubsets.1, ← hsubsets.2, ← hpending]
  constructor
  · intro h
    exact ⟨h.remediations, h.pending⟩
  · rintro ⟨hrem, hpen⟩
    exact ⟨validations_partition _ _, proofs_partition _, approvals_partition _, hrem,
      slaRecords_partition _, hpen⟩

/-! ## One finding -/

/-- A finding that the report counts. -/
def countedFinding : CandidateFinding where
  id := "finding-1"
  vulnerabilityType := "sql_injection"
  severity := "high"
  confidence := 0
  source := ⟨"app.py", 1, "", "request_param"⟩
  sink := ⟨"app.py", 2, "", "sql_execute"⟩
  taintPath := []
  evidence := ⟨"", "", [], [], []⟩

/-- The finding, validated, with or without a remediation. -/
def countedStores (remediations : Dict String RemediationRecord) : ReportStores where
  runs := .empty
  findings := FindingStore.empty.add countedFinding
  validations := ValidationStore.record Dict.empty ⟨"finding-1", .truePositive, ⟨0, some 0⟩⟩
  proofs := .empty
  approvals := .empty
  slaRecords := .empty
  remediations := remediations

/-- An applied remediation of the finding. -/
def appliedRemediation : RemediationRecord where
  findingId := "finding-1"
  approvalId := "approval-1"
  status := .applied
  createdAt := ⟨0, some 0⟩

/-- One remediation is applied, and it is counted under no status. -/
theorem not_addsUp_applied : ¬ AddsUp (countedStores (Dict.empty.set "finding-1" appliedRemediation))
    none ((countedStores (Dict.empty.set "finding-1" appliedRemediation)).reportOn none none) := by
  intro h
  have hone : ((countedStores (Dict.empty.set "finding-1" appliedRemediation)).reportOn none
      none).remediationSummary = ⟨1, 0, 0, 0⟩ := by decide +kernel
  have hsum := h.remediations
  rw [hone] at hsum
  exact absurd hsum (by decide)

/-- The report on the finding without remediation adds up. -/
theorem addsUp_validated : AddsUp (countedStores .empty) none
    ((countedStores .empty).reportOn none none) :=
  (@addsUp_iff (countedStores .empty) none none _ rfl rfl).2
    ⟨by decide +kernel, Or.inl (by decide +kernel)⟩

end Sast
