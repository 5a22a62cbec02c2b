import SastEngine.Approval.Store
import SastEngine.Remediation.Models
import SastEngine.Risk.Models
import SastEngine.Scan.RunStore
import SastEngine.Validate.Results
import SastEngine.Validate.Store

/-!
# The security report

`report/service.py`: the records of every stage are put into maps by finding id, cut to the scope,
and counted status by status.  Projects, benchmarks and the details of single findings are left
out.
-/

namespace Sast

/-- The stores that a report reads. -/
structure ReportStores where
  runs : ScanRunStore
  findings : FindingStore
  validations : ValidationStore
  proofs : ProofStore
  approvals : ApprovalStore
  slaRecords : Dict String SLARecord
  remediations : Dict String RemediationRecord

/-- `ReportFindingSummary`. -/
structure ReportFindingSummary where
  total : Nat
  bySeverity : Dict String Nat
  byType : Dict String Nat
  byStatus : Dict String Nat

/-- `ReportValidationSummary`. -/
structure ReportValidationSummary where
  totalValidated : Nat
  truePositive : Nat
  falsePositive : Nat
  uncertain : Nat
  pendingValidation : Nat
deriving DecidableEq

/-- `ReportProofSummary`. -/
structure ReportProofSummary where
  totalProven : Nat
  verified : Nat
  notVerified : Nat
  blocked : Nat
  error : Nat
deriving DecidableEq

/-- `ReportApprovalSummary`. -/
structure ReportApprovalSummary where
  totalRequests : Nat
  approved : Nat
  rejected : Nat
  pending : Nat
  changesRequested : Nat
deriving DecidableEq

/-- `ReportRemediationSummary`. -/
structure ReportRemediationSummary where
  totalRemediations : Nat
  pending : Nat
  inProgress : Nat
  completed : Nat
deriving DecidableEq

/-- `ReportSlaSummary`. -/
structure ReportSlaSummary where
  totalRecords : Nat
  active : Nat
  breached : Nat
  resolved : Nat
  notApplicable : Nat
deriving DecidableEq

/-- `SecurityReport`. -/
structure SecurityReport where
  reportType : String
  totalFindings : Nat
  findingsSummary : ReportFindingSummary
  validationSummary : ReportValidationSummary
  proofSummary : ReportProofSummary
  approvalSummary : ReportApprovalSummary
  remediationSummary : ReportRemediationSummary
  slaSummary : ReportSlaSummary
  limitations : List String

/-- The finding ids of a scope; `none` is no scoping. -/
abbrev ReportScope := Option (List String)

/-- Whether a scope has a finding id. -/
def ReportScope.has : ReportScope → String → Bool
  | none, _ => true
  | some ids, id => id ∈ ids

/-- The records of a scope by finding id, the last one of each id: the dictionary of `_get_findings`
and its siblings. -/
def byFinding {ρ : Type} (scope : ReportScope) (findingId : ρ → String) (records : List ρ) :
    Dict String ρ :=
  Dict.groupInto findingId id (fun _ r => r) (records.filter fun r => scope.has (findingId r))

/-- How many values have the status. -/
def countStatus {ρ : Type} (text : ρ → String) (status : String) (records : Dict String ρ) : Nat :=
  records.values.countP fun r => text r = status

/-- How many findings have each value of a field. -/
def breakdown (field : CandidateFinding → String) (findings : Dict String CandidateFinding) :
    Dict String Nat :=
  Dict.groupInto field (fun _ => 1) (fun n _ => n + 1) findings.values

/-- `len` of a dictionary. -/
def dictLength {ρ : Type} (records : Dict String ρ) : Nat := records.values.length

/-- `_build_findings_summary`; the status of a finding is always `"candidate"`. -/
def buildFindingsSummary (findings : Dict String CandidateFinding) : ReportFindingSummary where
  total := dictLength findings
  bySeverity := breakdown (·.severity) findings
  byType := breakdown (·.vulnerabilityType) findings
  byStatus := breakdown (fun _ => "candidate") findings

/-- `_build_validation_summary`. -/
def buildValidationSummary (findings : Dict String CandidateFinding)
    (validations : Dict String ValidationResult) : ReportValidationSummary :=
  let count := fun verdict => countStatus (·.verdict.text) verdict validations
  { totalValidated := dictLength validations
    truePositive := count "true_positive"
    falsePositive := count "false_positive"
    uncertain := count "uncertain"
    pendingValidation := dictLength findings - dictLength validations }

/-- `_build_proof_summary`. -/
def buildProofSummary (proofs : Dict String ProofResult) : ReportProofSummary :=
  let count := fun status => countStatus (·.status.text) status proofs
  { totalProven := dictLength proofs
    verified := count "verified"
    notVerified := count "not_verified"
    blocked := count "blocked"
    error := count "error" }

/-- `_build_approval_summary`. -/
def buildApprovalSummary (approvals : Dict String ApprovalRequest) : ReportApprovalSummary :=
  let count := fun status => countStatus (·.status.text) status approvals
  { totalRequests := dictLength approvals
    approved := count "approved"
    rejected := count "rejected"
    pending := count "pending"
    changesRequested := count "changes_requested" }

/-- `_build_remediation_summary`. -/
def buildRemediationSummary (remediations : Dict String RemediationRecord) :
    ReportRemediationSummary :=
  let count := fun status => countStatus (·.status.text) status remediations
  { totalRemediations := dictLength remediations
    pending := count "pending"
    inProgress := count "in_progress"
    completed := count "completed" }

/-- `_build_sla_summary`. -/
def buildSlaSummary (slaRecords : Dict String SLARecord) : ReportSlaSummary :=
  let count := fun status => countStatus (·.status.text) status slaRecords
  { totalRecords := dictLength slaRecords
    active := count "active"
    breached := count "breached"
    resolved := count "resolved"
    notApplicable := count "not_applicable" }

/-- `_build_limitations`. -/
def buildLimitations (findings : Dict String CandidateFinding)
    (validations : Dict String ValidationResult) (proofs : Dict String ProofResult)
    (approvals : Dict String ApprovalRequest) (slaRecords : Dict String SLARecord) :
    List String :=
  let whenNone := fun (n : Nat) (text : String) => if n = 0 then [text] else []
  let unvalidated : Int := dictLength findings - dictLength validations
  whenNone (dictLength findings) "No findings available for analysis."
    ++ whenNone (dictLength validations)
      "No validation results available - findings are unvalidated candidates."
    ++ whenNone (dictLength proofs)
      "No proof results available - vulnerabilities not dynamically confirmed."
    ++ whenNone (dictLength approvals)
      "No approval records available - findings pending human review."
    ++ whenNone (dictLength slaRecords) "No SLA tracking data available."
    ++ (if 0 < unvalidated then
        [toString unvalidated ++ " finding(s) have not been validated by LLM triage."] else [])
    ++ ["This report is generated from automated analysis and should be reviewed by security "
      ++ "professionals."]

namespace ReportStores

variable (stores : ReportStores)

/-- `_get_scoped_finding_ids`. -/
def scopedFindingIds : Option String → Except ScanRunStore.ReadError ReportScope
  | none => .ok none
  | some projectId => do
      let runs ← stores.runs.runsForProject projectId
      return some (runs.flatMap fun run => stores.runs.findingIdsForRun run.scanRunId)

/-- `_get_findings`. -/
def getFindings (scope : ReportScope) : Dict String CandidateFinding :=
  byFinding scope CandidateFinding.id stores.findings.findings.values

/-- `_get_validations`. -/
def getValidations (scope : ReportScope) : Dict String ValidationResult :=
  byFinding scope ValidationResult.findingId stores.validations.values

/-- `_get_proofs`. -/
def getProofs (scope : ReportScope) : Dict String ProofResult :=
  byFinding scope ProofResult.findingId stores.proofs.values

/-- `_get_approvals`. -/
def getApprovals (scope : ReportScope) : Dict String ApprovalRequest :=
  byFinding scope ApprovalRequest.findingId stores.approvals.all

/-- `_get_sla_records`. -/
def getSlaRecords (scope : ReportScope) : Dict String SLARecord :=
  byFinding scope SLARecord.findingId stores.slaRecords.values

/-- `_get_remediations`. -/
def getRemediations (scope : ReportScope) : Dict String RemediationRecord :=
  byFinding scope RemediationRecord.findingId stores.remediations.values

/-- `generate_report`, once the scope is known. -/
def reportOn (projectId : Option String) (scope : ReportScope) : SecurityReport :=
  let findings := stores.getFindings scope
  let validations := stores.getValidations scope
  let proofs := stores.getProofs scope
  let approvals := stores.getApprovals scope
  let slaRecords := stores.getSlaRecords scope
  { reportType := if projectId.getD "" = "" then "aggregated" else "single_project"
    totalFindings := dictLength findings
    findingsSummary := buildFindingsSummary findings
    validationSummary := buildValidationSummary findings validations
    proofSummary := buildProofSummary proofs
    approvalSummary := buildApprovalSummary approvals
    remediationSummary := buildRemediationSummary (stores.getRemediations scope)
    slaSummary := buildSlaSummary slaRecords
    limitations := buildLimitations findings validations proofs approvals slaRecords }

/-- `generate_report`. -/
def generateReport (projectId : Option String) :
    Except ScanRunStore.ReadError SecurityReport := do
  let scope ← stores.scopedFindingIds projectId
  return stores.reportOn projectId scope

end ReportStores

end Sast
