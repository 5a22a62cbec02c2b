import SastEngine.Lib.Except
import SastEngine.Lib.Run
import SastEngine.Risk.Models

/-!
# The SLA service

`risk/service.py` and the unlocked endpoints of `api/routes/risk.py`: creating, checking and
resolving the SLA record of a finding, and the stores that hold records and escalation events.  A
call reads the clock unless it is given a time.
-/

namespace Sast

/-- `ValueError`, with its text. -/
structure ValueError where
  message : String
deriving DecidableEq

/-! ## The service -/

namespace SLAService

/-- `_ensure_aware_utc`. -/
def ensureAware (value : DateTime) (what : String) : Except ValueError DateTime :=
  if value.isAware then .ok value.asAwareUtc
  else .error ⟨what
    ++ " must be a timezone-aware datetime (naive datetimes are not allowed)"⟩

/-- `started + duration`. -/
def addDuration (started : DateTime) (duration : Int) : DateTime :=
  { started with clock := started.clock + duration }

/-- `create_sla`. -/
def createSla (policy : SLAPolicy) (utcnow : DateTime) (assessment : RiskAssessment)
    (startedAt : Option DateTime) : Except ValueError SLARecord := do
  let started ← ensureAware (startedAt.getD utcnow) "started_at"
  return {
    findingId := assessment.findingId
    priority := assessment.priority
    startedAt := started
    dueAt := (policy.durationFor assessment.priority).map (addDuration started)
    status := if (policy.durationFor assessment.priority).isSome then .active
      else .notApplicable }

/-- The reason given for a breach. -/
def breachReason (record : SLARecord) (due now : DateTime) : String :=
  "SLA breached for " ++ record.priority.text ++ ": due " ++ due.asAwareUtc.isoformat
    ++ " exceeded at " ++ now.isoformat

/-- The escalation event of a breach. -/
def escalation (record : SLARecord) (due now : DateTime) : EscalationEvent where
  findingId := record.findingId
  previousLevel := record.escalationLevel
  newLevel := record.escalationLevel + 1
  reason := breachReason record due now
  createdAt := now

/-- The record after its breach. -/
def breach (record : SLARecord) (now : DateTime) : SLARecord :=
  { record with
    status := .breached, breachedAt := some now,
    escalationLevel := record.escalationLevel + 1, lastCheckedAt := some now }

/-- `check_sla` at an aware UTC time. -/
def checkAt (record : SLARecord) (now : DateTime) : SLARecord × Option EscalationEvent :=
  match record.status, record.dueAt with
  | .resolved, _ => ({ record with lastCheckedAt := some now }, none)
  | _, none => ({ record with status := .notApplicable, lastCheckedAt := some now }, none)
  | .breached, some _ => ({ record with lastCheckedAt := some now }, none)
  | _, some due =>
      if due.instant ≤ now.instant then (breach record now, some (escalation record due now))
      else ({ record with status := .active, lastCheckedAt := some now }, none)

/-- `check_sla`. -/
def checkSla (utcnow : DateTime) (record : SLARecord) (now : Option DateTime) :
    Except ValueError (SLARecord × Option EscalationEvent) := do
  let now ← ensureAware (now.getD utcnow) "now"
  return checkAt record now

/-- `resolve_sla`. -/
def resolveSla (utcnow : DateTime) (record : SLARecord) (resolvedAt : Option DateTime) :
    Except ValueError SLARecord :=
  if record.status = .resolved then .ok record
  else do
    let now ← ensureAware (resolvedAt.getD utcnow) "resolved_at"
    return { record with status := .resolved, resolvedAt := some now }

end SLAService

/-! ## The stores -/

/-- `_risk_store`, `_sla_store` and `_escalation_store`; assessments and records are filed under
their finding. -/
structure RiskStores where
  assessments : Dict String RiskAssessment
  records : Dict String SLARecord
  escalations : Dict String (List EscalationEvent)
  assessed : ∀ findingId assessment, assessments.get? findingId = some assessment →
    assessment.findingId = findingId
  keyed : ∀ findingId record, records.get? findingId = some record → record.findingId = findingId

namespace RiskStores

/-- The stores without entries. -/
def empty : RiskStores where
  assessments := .empty
  records := .empty
  escalations := .empty
  assessed _ _ h := by cases h
  keyed _ _ h := by cases h

/-- `get_risk_assessment`. -/
def getAssessment (stores : RiskStores) (findingId : String) : Option RiskAssessment :=
  stores.assessments.get? findingId

/-- `record_risk_assessment`. -/
def recordAssessment (stores : RiskStores) (assessment : RiskAssessment) : RiskStores :=
  { stores with
    assessments := stores.assessments.set assessment.findingId assessment
    assessed := by
      intro findingId a ha
      rw [Dict.get?_set] at ha
      split_ifs at ha with hid
      · rw [← Option.some.inj ha, hid]
      · exact stores.assessed findingId a ha }

/-- `get_sla_record`. -/
def getSla (stores : RiskStores) (findingId : String) : Option SLARecord :=
  stores.records.get? findingId

/-- `record_sla_record`. -/
def recordSla (stores : RiskStores) (record : SLARecord) : RiskStores :=
  { stores with
    records := stores.records.set record.findingId record
    keyed := by
      intro findingId r hr
      rw [Dict.get?_set] at hr
      split_ifs at hr with hid
      · rw [← Option.some.inj hr, hid]
      · exact stores.keyed findingId r hr }

/-- `get_escalation_events`. -/
def escalationsFor (stores : RiskStores) (findingId : String) : List EscalationEvent :=
  (stores.escalations.get? findingId).getD []

/-- `record_escalation_event`. -/
def recordEscalation (stores : RiskStores) (event : EscalationEvent) : RiskStores :=
  { stores with
    escalations := stores.escalations.set event.findingId
      (stores.escalationsFor event.findingId ++ [event]) }

/-- What `remove_finding_state` takes out of the memory. -/
def removeFindingState (stores : RiskStores) (findingId : String) : RiskStores where
  assessments := stores.assessments.erase findingId
  records := stores.records.erase findingId
  escalations := stores.escalations.erase findingId
  assessed := by
    intro id a ha
    rw [Dict.get?_erase] at ha
    split_ifs at ha
    exact stores.assessed id a ha
  keyed := by
    intro id r hr
    rw [Dict.get?_erase] at hr
    split_ifs at hr
    exact stores.keyed id r hr

/-- The entries of other findings. -/
def without (stores : RiskStores) (findingIds : List String) : RiskStores where
  assessments := stores.assessments.without findingIds
  records := stores.records.without findingIds
  escalations := stores.escalations.without findingIds
  assessed := by
    intro id a ha
    rw [Dict.get?_without] at ha
    split_ifs at ha
    exact stores.assessed id a ha
  keyed := by
    intro id r hr
    rw [Dict.get?_without] at hr
    split_ifs at hr
    exact stores.keyed id r hr

lemma removeFindingState_eq_without (stores : RiskStores) (findingId : String) :
    stores.removeFindingState findingId = stores.without [findingId] := by
  simp only [removeFindingState, without, Dict.erase_eq_without]

lemma without_without (stores : RiskStores) (ids ids' : List String) :
    (stores.without ids).without ids' = stores.without (ids ++ ids') := by
  simp only [without, Dict.without_without]

lemma without_congr {ids ids' : List String} (h : ∀ id, id ∈ ids ↔ id ∈ ids')
    (stores : RiskStores) : stores.without ids = stores.without ids' := by
  simp only [without, Dict.without_congr h]

@[simp] lemma without_nil (stores : RiskStores) : stores.without [] = stores := by
  simp only [without, Dict.without_nil]

/-! ### Reading the stores -/

lemma getSla_recordSla (stores : RiskStores) (record : SLARecord) (findingId : String) :
    (stores.recordSla record).getSla findingId
      = if findingId = record.findingId then some record else stores.getSla findingId :=
  stores.records.get?_set record.findingId record findingId

@[simp] lemma escalationsFor_recordSla (stores : RiskStores) (record : SLARecord)
    (findingId : String) :
    (stores.recordSla record).escalationsFor findingId = stores.escalationsFor findingId := rfl

@[simp] lemma getSla_recordEscalation (stores : RiskStores) (event : EscalationEvent)
    (findingId : String) :
    (stores.recordEscalation event).getSla findingId = stores.getSla findingId := rfl

lemma escalationsFor_recordEscalation (stores : RiskStores) (event : EscalationEvent)
    (findingId : String) :
    (stores.recordEscalation event).escalationsFor findingId
      = stores.escalationsFor findingId
        ++ if findingId = event.findingId then [event] else [] := by
  simp only [escalationsFor, recordEscalation, Dict.get?_set]
  split_ifs with h
  · subst h
    rfl
  · rw [List.append_nil]

@[simp] lemma getSla_recordAssessment (stores : RiskStores) (assessment : RiskAssessment)
    (findingId : String) :
    (stores.recordAssessment assessment).getSla findingId = stores.getSla findingId := rfl

@[simp] lemma escalationsFor_recordAssessment (stores : RiskStores)
    (assessment : RiskAssessment) (findingId : String) :
    (stores.recordAssessment assessment).escalationsFor findingId
      = stores.escalationsFor findingId := rfl

end RiskStores

/-! ## Check and persist -/

/-- What a check writes: the record if it changed, then the event if there is one. -/
def persistCheck (record : SLARecord) (outcome : SLARecord × Option EscalationEvent) :
    List (RiskStores → RiskStores) :=
  (if outcome.1 = record then [] else [(·.recordSla outcome.1)])
    ++ outcome.2.toList.map fun event stores => stores.recordEscalation event

/-- `check_and_persist_sla`. -/
def checkAndPersistSla (stores : RiskStores) (findingId : String) (utcnow : DateTime)
    (now : Option DateTime) :
    Except ValueError ((Option SLARecord × Option EscalationEvent) × RiskStores) :=
  match stores.getSla findingId with
  | none => .ok ((none, none), stores)
  | some record => do
      let outcome ← SLAService.checkSla utcnow record now
      return ((some outcome.1, outcome.2),
        (persistCheck record outcome).foldl (fun stores write => write stores) stores)

/-- The stores after `check_and_persist_sla`. -/
def RiskStores.checked (stores : RiskStores) (findingId : String) (utcnow : DateTime)
    (now : Option DateTime) : RiskStores :=
  match checkAndPersistSla stores findingId utcnow now with
  | .ok (_, stores') => stores'
  | .error _ => stores

/-- `resolve_sla` of the routes, for a finding with a record. -/
def resolveRoute (stores : RiskStores) (findingId : String) (utcnow : DateTime)
    (resolvedAt : Option DateTime) : RiskStores :=
  match stores.getSla findingId with
  | none => stores
  | some record =>
      match SLAService.resolveSla utcnow record resolvedAt with
      | .ok updated => stores.recordSla updated
      | .error _ => stores

/-- `_start_sla`, without its last write: the record to return, and whether it is new. -/
def startSla (utcnow : DateTime) (assessment : RiskAssessment) (existing : Option SLARecord) :
    Except ValueError (SLARecord × Bool) :=
  match existing with
  | some record =>
      if record.priority = assessment.priority then .ok (record, false)
      else (SLAService.createSla defaultDeadlines utcnow assessment none).map (·, true)
  | none => (SLAService.createSla defaultDeadlines utcnow assessment none).map (·, true)

end Sast
