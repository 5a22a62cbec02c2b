import SastEngine.Core.Time

/-!
# Approval contracts

The records of `approval/models.py` and the policy of `approval/policies.py`.
-/

namespace Sast

/-- `ApprovalStatus`. -/
inductive ApprovalStatus where
  | pending
  | approved
  | rejected
  | changesRequested
deriving DecidableEq

/-- `ApprovalAction`. -/
inductive ApprovalAction where
  | remediation
  | other
deriving DecidableEq

/-- The literal a status is written as. -/
def ApprovalStatus.text : ApprovalStatus → String
  | .pending => "pending"
  | .approved => "approved"
  | .rejected => "rejected"
  | .changesRequested => "changes_requested"

/-- The literal an action is written as. -/
def ApprovalAction.text : ApprovalAction → String
  | .remediation => "remediation"
  | .other => "other"

/-- `ApprovalRequest`. -/
structure ApprovalRequest where
  id : String
  findingId : String
  status : ApprovalStatus
  requestedAt : DateTime
  requestedBy : String
  reviewedAt : Option DateTime
  reviewedBy : Option String
  reason : Option String
  action : ApprovalAction
  version : Nat
  scanRunId : Option String
deriving DecidableEq

/-- `ApprovalEvent`. -/
structure ApprovalEvent where
  id : String
  approvalId : String
  findingId : String
  previousStatus : Option ApprovalStatus
  newStatus : ApprovalStatus
  actor : String
  reason : Option String
  createdAt : DateTime
deriving DecidableEq

/-- `ApprovalPolicy`. -/
structure ApprovalPolicy where
  requireValidation : Bool := true
  requireProof : Bool := true
  allowedActions : List ApprovalAction := [.remediation]
  allowReRequestAfterTerminal : Bool := false

/-- `ApprovalPolicy()`. -/
def defaultPolicy : ApprovalPolicy := {}

/-- `ALLOWED_TRANSITIONS`. -/
def allowedTransitions : ApprovalStatus → List ApprovalStatus
  | .pending => [.approved, .rejected, .changesRequested]
  | .changesRequested => [.pending]
  | .approved => []
  | .rejected => []

/-- `ACTIVE_STATUSES`. -/
def activeStatuses : List ApprovalStatus := [.pending, .changesRequested]

/-- `TERMINAL_STATUSES`. -/
def terminalStatuses : List ApprovalStatus := [.approved, .rejected]

/-- Every status is either active or terminal. -/
lemma mem_activeStatuses_iff (s : ApprovalStatus) : s ∈ activeStatuses ↔ s ∉ terminalStatuses := by
  cases s <;> decide

/-- No transition leaves a terminal status. -/
lemma allowedTransitions_terminal {s : ApprovalStatus} (h : s ∈ terminalStatuses) :
    allowedTransitions s = [] := by
  cases s with
  | pending => simp [terminalStatuses] at h
  | changesRequested => simp [terminalStatuses] at h
  | approved => rfl
  | rejected => rfl

end Sast
