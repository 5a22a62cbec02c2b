import SastEngine.Api.Repositories
import SastEngine.Approval.Store
import SastEngine.Dedup.Service
import SastEngine.DefectDojo.Service
import SastEngine.Remediation.Models
import SastEngine.Risk.Service
import SastEngine.Scan.RunTables

/-!
# The stores of the pipeline and their tables

The stores that `configure_stores` wires to the database, and the tables that they and the projects
are kept in.  A table is a dictionary from its primary key to its other columns; payloads are the
records themselves.
-/

namespace Sast

/-- The stores, in memory. -/
structure PipelineStores where
  findings : FindingStore
  validations : ValidationStore
  proofs : ProofStore
  risk : RiskStores
  approvals : ApprovalStore
  remediation : Dict String RemediationRecord
  groups : GroupRegistry
  runs : ScanRunStore
  tickets : Dict String DefectDojoTicket

/-- No records. -/
def PipelineStores.empty : PipelineStores :=
  ⟨.empty, .empty, .empty, .empty, .empty, .empty, .empty, .empty, .empty⟩

/-- The columns of `SlaEventRow`, beside its key. -/
structure SlaEventRow where
  findingId : String
  payload : EscalationEvent

/-- The columns of `ApprovalRequestRow`, beside its key. -/
structure RequestRow where
  findingId : String
  payload : ApprovalRequest

/-- The columns of `ApprovalEventRow`, beside its key. -/
structure EventRow where
  approvalId : String
  payload : ApprovalEvent

/-- The tables; those of the run store are `ScanTables`. -/
structure PipelineTables where
  projects : Dict String ProjectRow
  findings : Dict String CandidateFinding
  validations : Dict String ValidationResult
  proofs : Dict String ProofResult
  assessments : Dict String RiskAssessment
  slaRecords : Dict String SLARecord
  slaEvents : Dict Nat SlaEventRow
  requests : Dict String RequestRow
  events : Dict String EventRow
  remediation : Dict String RemediationRecord
  groups : Dict String DeduplicationGroup
  runs : ScanTables
  tickets : Dict String DefectDojoTicket

/-- No rows. -/
def PipelineTables.empty : PipelineTables :=
  ⟨.empty, .empty, .empty, .empty, .empty, .empty, .empty, .empty, .empty, .empty, .empty, .empty,
    .empty⟩

/-- Both copies. -/
abbrev Pipeline : Type := PipelineStores × PipelineTables

/-- Nothing stored. -/
def Pipeline.empty : Pipeline := (.empty, .empty)

/-- `db_delete`: nothing is committed where there is no row. -/
def dbDelete {β : Type} (rows : Dict String β) (key : String) : Option (Dict String β) :=
  if (rows.get? key).isSome then some (rows.erase key) else none

/-- Whether or not there was a row, the others remain. -/
lemma getD_dbDelete {β : Type} (rows : Dict String β) (key : String) :
    (dbDelete rows key).getD rows = rows.without [key] := by
  rw [dbDelete]
  split_ifs with hrow
  · exact rows.erase_eq_without key
  · refine (Dict.without_of_get?_eq_none fun k hk => ?_).symm
    rw [List.mem_singleton.1 hk]
    exact Option.not_isSome_iff_eq_none.1 hrow

end Sast
