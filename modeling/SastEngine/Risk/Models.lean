import SastEngine.Core.Time
import SastEngine.Lib.Dict

/-!
# Risk and SLA contracts

The records of `risk/models.py` and the deadlines of `risk/policies.py`.
-/

namespace Sast

/-- `Priority`. -/
inductive Priority where
  | p0
  | p1
  | p2
  | p3
  | p4
deriving DecidableEq

/-- The text of a priority. -/
def Priority.text : Priority → String
  | .p0 => "P0"
  | .p1 => "P1"
  | .p2 => "P2"
  | .p3 => "P3"
  | .p4 => "P4"

/-- `SlaStatus`. -/
inductive SlaStatus where
  | notApplicable
  | active
  | breached
  | resolved
deriving DecidableEq

/-- The literal an SLA status is written as. -/
def SlaStatus.text : SlaStatus → String
  | .notApplicable => "not_applicable"
  | .active => "active"
  | .breached => "breached"
  | .resolved => "resolved"

/-- `RiskAssessment`, as far as the SLA services read it. -/
structure RiskAssessment where
  findingId : String
  priority : Priority
deriving DecidableEq

/-- `SLARecord`. -/
structure SLARecord where
  findingId : String
  priority : Priority
  startedAt : DateTime
  dueAt : Option DateTime
  status : SlaStatus
  breachedAt : Option DateTime := none
  escalationLevel : Nat := 0
  lastCheckedAt : Option DateTime := none
  resolvedAt : Option DateTime := none
deriving DecidableEq

/-- `EscalationEvent`. -/
structure EscalationEvent where
  findingId : String
  previousLevel : Nat
  newLevel : Nat
  reason : String
  createdAt : DateTime
deriving DecidableEq

/-- A `timedelta` of so many hours, in microseconds. -/
def hours (n : Int) : Int := n * 3600000000

/-- `SLAPolicy`. -/
structure SLAPolicy where
  deadlines : Dict Priority (Option Int)

/-- `SLAPolicy.duration_for`: no duration for a priority without SLA, or not in the mapping. -/
def SLAPolicy.durationFor (policy : SLAPolicy) (priority : Priority) : Option Int :=
  (policy.deadlines.get? priority).join

/-- `DEFAULT_DEADLINES`. -/
def defaultDeadlines : SLAPolicy where
  deadlines := ⟨[(.p0, some (hours 4)), (.p1, some (hours 24)), (.p2, some (hours 72)),
    (.p3, some (hours 168)), (.p4, none)], by decide⟩

end Sast
