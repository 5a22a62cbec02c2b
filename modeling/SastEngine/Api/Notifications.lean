import SastEngine.Approval.Models
import SastEngine.Lib.Except
import SastEngine.Lib.Run
import SastEngine.Lib.Sorting
import SastEngine.Risk.Models
import SastEngine.Validate.Results

/-!
# Notifications

`api/routes/notifications.py`: notifications are derived from the recorded events, and the table
`notification_reads` keeps which of them have been read.  Its primary key is the id of the
notification alone.
-/

namespace Sast

/-! ## Derived notifications -/

/-- An event that a notification is derived from. -/
inductive SourceEvent where
  | escalation (event : EscalationEvent)
  | approval (event : ApprovalEvent)
  | validation (result : ValidationResult)
  | proof (result : ProofResult)
deriving DecidableEq

/-- `Notification`. -/
structure Notification where
  id : String
  type : String
  title : String
  message : String
  findingId : String
  createdAt : DateTime
  read : Bool
deriving DecidableEq

/-- `status.replace("_", " ")`. -/
def spaced (status : String) : String :=
  String.ofList (status.toList.map fun c => if c = '_' then ' ' else c)

/-- The notification of an event, unread. -/
def SourceEvent.notification : SourceEvent → Notification
  | .escalation event =>
      { id := s!"sla_{event.findingId}_{event.newLevel}"
        type := "sla_breached", title := "SLA Breached", message := event.reason
        findingId := event.findingId, createdAt := event.createdAt, read := false }
  | .approval event =>
      { id := s!"approval_{event.id}"
        type := "approval_updated", title := "Approval Updated"
        message := s!"Approval moved to {spaced event.newStatus.text} by "
          ++ (if event.actor = "" then "system" else event.actor)
        findingId := event.findingId, createdAt := event.createdAt, read := false }
  | .validation result =>
      { id := s!"validation_{result.findingId}"
        type := "finding_validated", title := "Finding Validated"
        message := s!"Finding {String.ofList (result.findingId.toList.take 8)} validated as "
          ++ spaced result.verdict.text
        findingId := result.findingId, createdAt := result.validatedAt, read := false }
  | .proof result =>
      { id := s!"proof_{result.findingId}"
        type := "proof_completed", title := "Proof Completed"
        message := s!"Proof {spaced result.status.text} for {result.vulnerabilityType}"
        findingId := result.findingId, createdAt := result.createdAt, read := false }

/-- The id of the notification of an event. -/
def SourceEvent.notificationId (event : SourceEvent) : String := event.notification.id

/-- The stores that events are read from; every service stamps its records with aware times. -/
structure EventStores where
  escalations : Dict String (List EscalationEvent)
  approvals : Dict String (List ApprovalEvent)
  validations : ValidationStore
  proofs : ProofStore
  aware : (∀ events ∈ escalations.values, ∀ e ∈ events, e.createdAt.isAware)
    ∧ (∀ events ∈ approvals.values, ∀ e ∈ events, e.createdAt.isAware)
    ∧ (∀ result ∈ validations.values, result.validatedAt.isAware)
    ∧ ∀ result ∈ proofs.values, result.createdAt.isAware

/-- The stores without events. -/
def EventStores.empty : EventStores where
  escalations := .empty
  approvals := .empty
  validations := .empty
  proofs := .empty
  aware := by decide

/-- The events in the order of the loops of `_derive_notifications`. -/
def EventStores.sourceEvents (stores : EventStores) : List SourceEvent :=
  stores.escalations.values.flatten.map .escalation
    ++ stores.approvals.values.flatten.map .approval
    ++ stores.validations.values.map .validation
    ++ stores.proofs.values.map .proof

/-- `_derive_notifications`, newest first. -/
def deriveNotifications (stores : EventStores) : List Notification :=
  sortDown (fun item => item.createdAt.instant) (stores.sourceEvents.map SourceEvent.notification)

/-! ## Read marks -/

/-- The columns of `NotificationReadRow`, beside its key. -/
structure ReadRow where
  userId : String
  readAt : DateTime
deriving DecidableEq

/-- `notification_reads`. -/
abbrev ReadTable := Dict String ReadRow

/-- `IntegrityError`: the primary key is taken. -/
structure IntegrityError where
  key : String
deriving DecidableEq

/-- The row of the notification is there, for this user. -/
def ReadTable.has (reads : ReadTable) (notificationId userId : String) : Bool :=
  (reads.get? notificationId).any fun row => row.userId = userId

/-- An `INSERT`. -/
def ReadTable.insert (reads : ReadTable) (notificationId : String) (row : ReadRow) :
    Except IntegrityError ReadTable :=
  match reads.get? notificationId with
  | none => .ok (reads.set notificationId row)
  | some _ => .error ⟨notificationId⟩

/-- The body shared by the two endpoints: a row is added unless the user has one. -/
def ReadTable.mark (reads : ReadTable) (userId : String) (now : DateTime)
    (notificationId : String) : Except IntegrityError ReadTable :=
  if reads.has notificationId userId then .ok reads
  else reads.insert notificationId ⟨userId, now⟩

/-- `mark_notification_read`. -/
def markNotificationRead (reads : ReadTable) (userId notificationId : String) (now : DateTime) :
    Except IntegrityError ReadTable :=
  reads.mark userId now notificationId

/-- `mark_all_notifications_read`: rows are flushed one by one, and committed together. -/
def markAllNotificationsRead (reads : ReadTable) (stores : EventStores) (userId : String)
    (now : DateTime) : Except IntegrityError ReadTable :=
  (deriveNotifications stores).foldlM (fun reads item => reads.mark userId now item.id) reads

/-- `_apply_read_state`. -/
def applyReadState (reads : ReadTable) (userId : String) (notifications : List Notification) :
    List Notification :=
  notifications.map fun item => if reads.has item.id userId then { item with read := true } else item

/-- `NotificationList`. -/
structure NotificationList where
  notifications : List Notification
  unreadCount : Nat
deriving DecidableEq

/-- `list_notifications`. -/
def listNotifications (reads : ReadTable) (stores : EventStores) (userId : String) :
    NotificationList :=
  let notifications := applyReadState reads userId (deriveNotifications stores)
  ⟨notifications, notifications.countP fun item => !item.read⟩

end Sast
