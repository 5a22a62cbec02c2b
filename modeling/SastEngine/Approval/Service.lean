import SastEngine.Lib.Run
import SastEngine.Approval.Store

/-!
# The approval service

`approval/service.py`.  A call reads the clock, draws a fresh id for the request or event it
creates (`_new_id` ends in a random `uuid4`), and reads the VALIDATE and PROVE stores; these are
its inputs.  A refused call raises one of three exceptions and leaves the store as it was.
-/

namespace Sast

/-- The exceptions of the approval service, with their texts. -/
inductive ApprovalError where
  | gate (message : String)
  | invalidTransition (message : String)
  | value (message : String)
deriving DecidableEq

/-- What the service reads from other stores: the VALIDATE verdict and the PROVE status of a
finding. -/
structure Gates where
  verdict : String → Option String
  proofStatus : String → Option String

/-- The clock and the generated ids of one call. -/
structure Moment where
  utcnow : DateTime
  requestId : String
  eventId : String

/-- `_ensure_aware_utc`. -/
def ensureAwareUtc (value : DateTime) (what : String) : Except ApprovalError DateTime :=
  if value.isAware then .ok value.asAwareUtc
  else .error (.value (what
    ++ " must be a timezone-aware datetime (naive datetimes are not allowed)"))

/-- The VALIDATE half of `_check_eligibility`. -/
def checkValidation (gates : Gates) (findingId : String) : Except ApprovalError Unit :=
  match gates.verdict findingId with
  | none => .error (.gate (s!"finding {findingId} has not been validated; "
      ++ "approval requires VALIDATE verdict true_positive"))
  | some verdict =>
      if verdict = "true_positive" then .ok ()
      else .error (.gate (s!"finding {findingId} is not eligible for approval: "
        ++ s!"VALIDATE verdict is {verdict} (requires true_positive)"))

/-- The PROVE half of `_check_eligibility`. -/
def checkProof (gates : Gates) (findingId : String) : Except ApprovalError Unit :=
  match gates.proofStatus findingId with
  | none => .error (.gate (s!"finding {findingId} has not been proven; "
      ++ "approval requires PROVE status verified"))
  | some status =>
      if status = "verified" then .ok ()
      else .error (.gate (s!"finding {findingId} is not eligible for approval: "
        ++ s!"PROVE status is {status} (requires verified)"))

/-- `_check_eligibility`. -/
def checkEligibility (policy : ApprovalPolicy) (gates : Gates) (findingId : String) :
    Except ApprovalError Unit := do
  if policy.requireValidation then checkValidation gates findingId
  if policy.requireProof then checkProof gates findingId

/-- The refusal of a request for a finding whose newest request is terminal. -/
def reRequestMessage (findingId : String) (status : ApprovalStatus) : String :=
  s!"finding {findingId} already has a terminal approval "
    ++ "(" ++ status.text ++ "); re-request not permitted by policy"

/-- The request that `request_approval` creates. -/
def newRequest (moment : Moment) (findingId : String) (action : ApprovalAction)
    (requestedBy : String) (now : DateTime) (scanRunId : Option String) : ApprovalRequest where
  id := moment.requestId
  findingId := findingId
  status := .pending
  requestedAt := now
  requestedBy := requestedBy
  reviewedAt := none
  reviewedBy := none
  reason := none
  action := action
  version := 1
  scanRunId := scanRunId

/-- The event recorded with a new request. -/
def creationEvent (moment : Moment) (request : ApprovalRequest) : ApprovalEvent where
  id := moment.eventId
  approvalId := request.id
  findingId := request.findingId
  previousStatus := none
  newStatus := .pending
  actor := request.requestedBy
  reason := none
  createdAt := request.requestedAt

/-- The newest request of the finding, over all its actions, is terminal. -/
def newestTerminal (store : ApprovalStore) (findingId : String) : Option ApprovalStatus :=
  match store.findForFinding findingId with
  | some r => if r.status ∈ terminalStatuses then some r.status else none
  | none => none

/-- The second half of `request_approval`: eligibility, time stamp, and the two writes. -/
def createRequest (policy : ApprovalPolicy) (gates : Gates) (moment : Moment)
    (store : ApprovalStore) (findingId : String) (action : ApprovalAction) (requestedBy : String)
    (requestedAt : Option DateTime) (scanRunId : Option String) :
    Except ApprovalError (ApprovalRequest × ApprovalStore) := do
  checkEligibility policy gates findingId
  let now ← ensureAwareUtc (requestedAt.getD moment.utcnow) "requested_at"
  let request := newRequest moment findingId action requestedBy now scanRunId
  return (request, (store.save request).recordEvent (creationEvent moment request))

/-- `request_approval`. -/
def requestApproval (policy : ApprovalPolicy) (gates : Gates) (moment : Moment)
    (store : ApprovalStore) (findingId : String) (action : ApprovalAction) (requestedBy : String)
    (requestedAt : Option DateTime) (scanRunId : Option String) :
    Except ApprovalError (ApprovalRequest × ApprovalStore) :=
  match store.findActive findingId action activeStatuses with
  | some existing => .ok (existing, store)
  | none =>
      match newestTerminal store findingId, policy.allowReRequestAfterTerminal with
      | some status, false => .error (.gate (reRequestMessage findingId status))
      | _, _ => createRequest policy gates moment store findingId action requestedBy requestedAt
          scanRunId

/-- The request after a transition. -/
def reviewed (request : ApprovalRequest) (newStatus : ApprovalStatus) (actor : String)
    (reason : Option String) (now : DateTime) : ApprovalRequest :=
  { request with
    status := newStatus
    reviewedAt := some now
    reviewedBy := some actor
    reason := reason
    version := if request.status = .changesRequested ∧ newStatus = .pending
      then request.version + 1 else request.version }

/-- The event recorded with a transition. -/
def transitionEvent (moment : Moment) (request : ApprovalRequest) (newStatus : ApprovalStatus)
    (actor : String) (reason : Option String) (now : DateTime) : ApprovalEvent where
  id := moment.eventId
  approvalId := request.id
  findingId := request.findingId
  previousStatus := some request.status
  newStatus := newStatus
  actor := actor
  reason := reason
  createdAt := now

/-- `_transition`. -/
def transition (moment : Moment) (store : ApprovalStore) (approvalId : String)
    (newStatus : ApprovalStatus) (actor : String) (reason : Option String)
    (reviewedAt : Option DateTime) : Except ApprovalError (ApprovalRequest × ApprovalStore) :=
  match store.get approvalId with
  | none => .error (.invalidTransition s!"unknown approval request: {approvalId}")
  | some request =>
      if newStatus ∈ allowedTransitions request.status then do
        let now ← ensureAwareUtc (reviewedAt.getD moment.utcnow) "reviewed_at"
        let updated := reviewed request newStatus actor reason now
        return (updated, (store.save updated).recordEvent
          (transitionEvent moment request newStatus actor reason now))
      else .error (.invalidTransition ("invalid approval transition: " ++ request.status.text
        ++ " -> " ++ newStatus.text ++ " is not allowed"))

/-- The four decisions of a reviewer. -/
inductive Decision where
  | approve
  | reject
  | requestChanges
  | resubmit
deriving DecidableEq

/-- The status a decision asks for. -/
def Decision.target : Decision → ApprovalStatus
  | .approve => .approved
  | .reject => .rejected
  | .requestChanges => .changesRequested
  | .resubmit => .pending

/-- `approve`, `reject`, `request_changes` and `resubmit`. -/
def decideApproval (moment : Moment) (store : ApprovalStore) (decision : Decision)
    (approvalId reviewedBy : String) (reason : Option String) (reviewedAt : Option DateTime) :
    Except ApprovalError (ApprovalRequest × ApprovalStore) :=
  transition moment store approvalId decision.target reviewedBy reason reviewedAt

/-- `is_action_allowed`. -/
def isActionAllowed (policy : ApprovalPolicy) (store : ApprovalStore) (approvalId : String) :
    Bool :=
  match store.get approvalId with
  | none => false
  | some request => request.status = .approved ∧ request.action ∈ policy.allowedActions

/-! ## Calls -/

/-- One call of the service's public methods. -/
inductive ApprovalOp where
  | request (findingId : String) (action : ApprovalAction) (requestedBy : String)
      (requestedAt : Option DateTime) (scanRunId : Option String)
  | decide (decision : Decision) (approvalId reviewedBy : String) (reason : Option String)
      (reviewedAt : Option DateTime)

/-- A call together with what it reads from its surroundings. -/
structure ApprovalCall where
  op : ApprovalOp
  gates : Gates
  moment : Moment

variable (policy : ApprovalPolicy)

/-- The outcome of a call. -/
def ApprovalCall.run (store : ApprovalStore) (call : ApprovalCall) :
    Except ApprovalError (ApprovalRequest × ApprovalStore) :=
  match call.op with
  | .request findingId action requestedBy requestedAt scanRunId =>
      requestApproval policy call.gates call.moment store findingId action requestedBy
        requestedAt scanRunId
  | .decide decision approvalId reviewedBy reason reviewedAt =>
      decideApproval call.moment store decision approvalId reviewedBy reason reviewedAt

/-- The store after a call; a refused call changes nothing. -/
def approvalStep (store : ApprovalStore) (call : ApprovalCall) : ApprovalStore :=
  match call.run policy store with
  | .ok (_, store') => store'
  | .error _ => store

/-- The generated request id is new: `uuid4` does not repeat. -/
def FreshId (store : ApprovalStore) (call : ApprovalCall) : Prop :=
  store.get call.moment.requestId = none

end Sast
