import SastEngine.Lib.WriteThrough
import SastEngine.Risk.Escalation

/-!
# Escalations in the database

A check writes the record and then the event, each to memory first and to the database second.  A
failure on the way leaves a breached record that later checks pass by, without its event.
-/

namespace Sast

/-- The writes of a check, in order. -/
def checkWrites (findingId : String) (stores : RiskStores) (utcnow : DateTime)
    (now : Option DateTime) : List (RiskStores → RiskStores) :=
  match stores.getSla findingId with
  | none => []
  | some record =>
      match SLAService.checkSla utcnow record now with
      | .ok outcome => persistCheck record outcome
      | .error _ => []

/-- Performed on one copy, the writes of a check are `check_and_persist_sla`. -/
lemma writeAll_checkWrites (findingId : String) (stores : RiskStores) (utcnow : DateTime)
    (now : Option DateTime) :
    writeAll (checkWrites findingId stores utcnow now) stores
      = stores.checked findingId utcnow now := by
  simp only [checkWrites, RiskStores.checked, checkAndPersistSla]
  cases stores.getSla findingId with
  | none => rfl
  | some record =>
      simp only
      cases SLAService.checkSla utcnow record now <;> rfl

/-- `set_risk_store_factory`: the events of each finding are sorted by their time. -/
def reloadRisk (database : RiskStores) : RiskStores :=
  { database with
    escalations := database.escalations.mapValues
      (List.insertionSort fun e e' => e.createdAt.instant ≤ e'.createdAt.instant) }

/-- A check, one of whose database writes may fail, or a restart of the process. -/
inductive DurableSlaOp where
  | check (utcnow : DateTime) (now : Option DateTime) (fails : Option Nat)
  | restart

/-- One operation on the mirrored stores. -/
def durableSlaStep (findingId : String) (m : Mirrored RiskStores) :
    DurableSlaOp → Mirrored RiskStores
  | .check utcnow now fails => m.perform (checkWrites findingId m.memory utcnow now) fails
  | .restart => m.restart reloadRisk

/-- A new record, written to both copies. -/
def Mirrored.withSla (m : Mirrored RiskStores) (created : SLARecord) : Mirrored RiskStores :=
  ⟨m.memory.recordSla created, m.database.recordSla created⟩

/-! ## What is expected -/

/-- A breached record has an event that was not there before. -/
def BreachHasEvent (findingId : String) (before : Nat) (stores : RiskStores) : Prop :=
  ∀ record, stores.getSla findingId = some record → record.status = .breached →
    before < (stores.escalationsFor findingId).length

/-- A check at or after the deadline that ends without an error. -/
def SucceedsOverdue (findingId : String) (due : DateTime) (m : Mirrored RiskStores) :
    DurableSlaOp → Prop
  | .check utcnow now fails => Completes (checkWrites findingId m.memory utcnow now) fails
      ∧ ∃ at_, SLAService.ensureAware (now.getD utcnow) "now" = .ok at_
        ∧ due.instant ≤ at_.instant
  | .restart => False

/-- At every point of the run no breach is without its event, in memory and in the database; and
once a check at or after the deadline has succeeded there is exactly one event. -/
def EscalatesOnce (created : SLARecord) (start : Mirrored RiskStores)
    (ops : List DurableSlaOp) : Prop :=
  let findingId := created.findingId
  let before := (start.memory.escalationsFor findingId).length
  ∀ ran rest, ops = ran ++ rest →
    let m := exec (durableSlaStep findingId) start ran
    BreachHasEvent findingId before m.memory ∧ BreachHasEvent findingId before m.database
      ∧ ∀ due ∈ created.dueAt,
        Sometime (durableSlaStep findingId) (SucceedsOverdue findingId due) start ran →
        (m.memory.escalationsFor findingId).length = before + 1
          ∧ (m.database.escalationsFor findingId).length = before + 1

/-- No database write fails in a check that finds the record active and overdue. -/
def BreachPersists (findingId : String) (m : Mirrored RiskStores) : DurableSlaOp → Prop
  | .check utcnow now fails => (breachTime findingId m.memory (.check utcnow now)).isSome →
      Completes (checkWrites findingId m.memory utcnow now) fails
  | .restart => True

instance (findingId : String) (m : Mirrored RiskStores) (op : DurableSlaOp) :
    Decidable (BreachPersists findingId m op) := by
  cases op with
  | check utcnow now fails => exact inferInstanceAs (Decidable (_ → _))
  | restart => exact isTrue trivial

/-! ## Both copies -/

/-- The copy shows the breach, which has its event, and the record is not resolved. -/
structure Copy (findingId : String) (created : SLARecord) (before : Nat)
    (breach : Option DateTime) (stores : RiskStores) : Prop where
  shown : ∃ record, stores.getSla findingId = some record ∧ Shows created breach record
    ∧ record.status ≠ .resolved
  counted : (stores.escalationsFor findingId).length = before + breach.toList.length

variable {findingId : String} {created : SLARecord} {before : Nat} {breach : Option DateTime}
  {stores : RiskStores}

lemma Copy.breachHasEvent (h : Copy findingId created before breach stores) :
    BreachHasEvent findingId before stores := by
  intro record hrecord hbreached
  obtain ⟨record', hrecord', hshows, -⟩ := h.shown
  obtain rfl := Option.some.inj (hrecord.symm.trans hrecord')
  obtain ⟨time, rfl⟩ := Option.isSome_iff_exists.1 (hshows.isBreached hbreached)
  rw [h.counted]
  exact Nat.lt_succ_self before

/-- A new record, on both copies. -/
lemma Copy.of_createSla {policy : SLAPolicy} {utcnow : DateTime} {assessment : RiskAssessment}
    {startedAt : Option DateTime}
    (h : SLAService.createSla policy utcnow assessment startedAt = .ok created)
    (stores : RiskStores) :
    Copy created.findingId created (stores.escalationsFor created.findingId).length none
      (stores.recordSla created) := by
  refine ⟨⟨created, ?_, Shows.of_createSla h, ?_⟩, rfl⟩
  · rw [RiskStores.getSla_recordSla, if_pos rfl]
  · obtain ⟨started, -, h⟩ := bind_eq_ok.1 h
    obtain rfl := pure_eq_ok.1 h
    cases policy.durationFor assessment.priority <;> simp

/-- Reading the database back keeps the record and the number of events. -/
lemma Copy.reload (h : Copy findingId created before breach stores) :
    Copy findingId created before breach (reloadRisk stores) := by
  refine ⟨h.shown, ?_⟩
  rw [← h.counted, reloadRisk, RiskStores.escalationsFor, Dict.get?_mapValues]
  rw [RiskStores.escalationsFor]
  cases stores.escalations.get? findingId with
  | none => rfl
  | some events => exact List.length_insertionSort _ events

/-- A write of the record whose breach has its event. -/
lemma Copy.recordSla (h : Copy findingId created before breach stores) {record : SLARecord}
    (hid : record.findingId = findingId) (hshows : Shows created breach record)
    (hstatus : record.status ≠ .resolved) :
    Copy findingId created before breach (stores.recordSla record) := by
  refine ⟨⟨record, ?_, hshows, hstatus⟩, h.counted⟩
  rw [RiskStores.getSla_recordSla, if_pos hid.symm]

/-- The two writes of a breach. -/
lemma Copy.breached (h : Copy findingId created before none stores) {record : SLARecord}
    {event : EscalationEvent} {time : DateTime} (hid : record.findingId = findingId)
    (hevent : event.findingId = findingId) (hshows : Shows created (some time) record)
    (hstatus : record.status ≠ .resolved) :
    Copy findingId created before (some time)
      ((stores.recordSla record).recordEscalation event) := by
  constructor
  · refine ⟨record, ?_, hshows, hstatus⟩
    rw [RiskStores.getSla_recordEscalation, RiskStores.getSla_recordSla, if_pos hid.symm]
  · rw [RiskStores.escalationsFor_recordEscalation, if_pos hevent.symm, List.length_append,
      RiskStores.escalationsFor_recordSla, h.counted]
    rfl

/-- What a check writes. -/
lemma Copy.checkWrites (h : Copy findingId created before breach stores) (utcnow : DateTime)
    (now : Option DateTime) :
    (∃ at_ due record, SLAService.ensureAware (now.getD utcnow) "now" = .ok at_
        ∧ created.dueAt = some due ∧ due.instant ≤ at_.instant ∧ breach = none
        ∧ record.findingId = findingId
        ∧ Shows created (some at_) (SLAService.breach record at_)
        ∧ breachTime findingId stores (.check utcnow now) = some at_
        ∧ Sast.checkWrites findingId stores utcnow now
          = [(·.recordSla (SLAService.breach record at_)),
            (·.recordEscalation (SLAService.escalation record due at_))])
      ∨ breachTime findingId stores (.check utcnow now) = none
        ∧ (∀ at_, SLAService.ensureAware (now.getD utcnow) "now" = .ok at_ →
          ∀ due ∈ created.dueAt, due.instant ≤ at_.instant → breach.isSome)
        ∧ (Sast.checkWrites findingId stores utcnow now = []
          ∨ ∃ record, record.findingId = findingId ∧ Shows created breach record
            ∧ record.status ≠ .resolved
            ∧ Sast.checkWrites findingId stores utcnow now = [(·.recordSla record)]) := by
  obtain ⟨record, hrecord, hshows, hstatus⟩ := h.shown
  have hkey := stores.keyed findingId record hrecord
  have htime : breachTime findingId stores (.check utcnow now)
      = (SLAService.ensureAware (now.getD utcnow) "now").toOption.bind (breachAt record) := by
    rw [breachTime, hrecord]
    rfl
  rw [htime]
  simp only [Sast.checkWrites, hrecord, SLAService.checkSla]
  cases haware : SLAService.ensureAware (now.getD utcnow) "now" with
  | error e => exact Or.inr ⟨rfl, fun at_ hat => (by cases hat), Or.inl rfl⟩
  | ok at_ =>
      rcases hshows.checkAt_eq at_ with ⟨due, hdue, rfl, hactive, hbreach, hcheck⟩ | ⟨hnone, hcheck⟩
      · refine Or.inl ⟨at_, due, record, rfl, hdue, ?_, rfl, hkey, hshows.breached hdue at_,
          hbreach, ?_⟩
        · simp only [breachAt, hactive, hshows.due.trans hdue] at hbreach
          split_ifs at hbreach with hover
          exact hover
        · have hne : SLAService.breach record at_ ≠ record := by
            intro heq
            have hbreached := congrArg SLARecord.status heq
            rw [hactive] at hbreached
            cases hbreached
          simp [bind, Except.bind, pure, Except.pure, hcheck, persistCheck, hne]
      · refine Or.inr ⟨hnone, ?_, ?_⟩
        · intro at' hat due hdue hover
          obtain rfl := Except.ok.inj hat
          cases hrecordStatus : record.status with
          | resolved => exact absurd hrecordStatus hstatus
          | notApplicable =>
              have := hshows.noDue hrecordStatus
              rw [this] at hdue
              cases hdue
          | breached => exact hshows.isBreached hrecordStatus
          | active =>
              simp [breachAt, hrecordStatus, hshows.due.trans hdue, hover] at hnone
        · by_cases hsame : { record with lastCheckedAt := some at_ } = record
          · left
            simp [bind, Except.bind, pure, Except.pure, hcheck, persistCheck, hsame]
          · right
            refine ⟨{ record with lastCheckedAt := some at_ }, hkey, hshows.checked at_, hstatus, ?_⟩
            simp [bind, Except.bind, pure, Except.pure, hcheck, persistCheck, hsame]

/-- Both copies show the breach, and a check that succeeded after the deadline has led to it. -/
def Synced (findingId : String) (created : SLARecord) (before : Nat) (m : Mirrored RiskStores)
    (checkedOverdue : Prop) : Prop :=
  ∃ breach, Copy findingId created before breach m.memory
    ∧ Copy findingId created before breach m.database
    ∧ (created.dueAt.isSome → checkedOverdue → breach.isSome)

/-- What a succeeding check or a harmless failure leaves. -/
lemma Synced.step {m : Mirrored RiskStores} {earlier : Prop}
    (h : Synced findingId created before m earlier) {op : DurableSlaOp}
    (hpersists : BreachPersists findingId m op) :
    Synced findingId created before (durableSlaStep findingId m op)
      (earlier ∨ ∃ due ∈ created.dueAt, SucceedsOverdue findingId due m op) := by
  obtain ⟨breach, hmemory, hdatabase, hearlier⟩ := h
  cases op with
  | restart =>
      refine ⟨breach, hdatabase.reload, hdatabase, ?_⟩
      rintro hdue (hchecked | ⟨due, -, hsucceeds⟩)
      · exact hearlier hdue hchecked
      · exact hsucceeds.elim
  | check utcnow now fails =>
      rcases hmemory.checkWrites utcnow now with
        ⟨at_, due, record, -, -, -, rfl, hid, hshows, htime, hwrites⟩ | ⟨-, hlate, hwrites⟩
      · have hcompletes : Completes (checkWrites findingId m.memory utcnow now) fails :=
          hpersists (by rw [htime]; rfl)
        rw [durableSlaStep, Mirrored.perform_completes hcompletes, hwrites]
        refine ⟨some at_, ?_, ?_, fun _ _ => rfl⟩
        · exact hmemory.breached hid hid hshows (by simp [SLAService.breach])
        · exact hdatabase.breached hid hid hshows (by simp [SLAService.breach])
      · have hchecked : created.dueAt.isSome →
            (earlier ∨ ∃ due ∈ created.dueAt,
              SucceedsOverdue findingId due m (.check utcnow now fails)) → breach.isSome := by
          rintro hdue (hchecked | ⟨due, hmem, -, at_, haware, hover⟩)
          · exact hearlier hdue hchecked
          · exact hlate at_ haware due hmem hover
        rcases hwrites with hnone | ⟨record, hid, hshows, hstatus, hwrite⟩
        · rw [durableSlaStep, hnone]
          cases fails <;> exact ⟨breach, hmemory, hdatabase, hchecked⟩
        · rw [durableSlaStep, hwrite]
          have hmemory' := hmemory.recordSla hid hshows hstatus
          have hdatabase' := hdatabase.recordSla hid hshows hstatus
          rcases fails with - | - | n
          · exact ⟨breach, hmemory', hdatabase', hchecked⟩
          · exact ⟨breach, hmemory', hdatabase, hchecked⟩
          · exact ⟨breach, hmemory', hdatabase', hchecked⟩

/-- A failure during a breach leaves it without its event in one of the copies. -/
lemma breachPersists_of_hasEvent {m : Mirrored RiskStores} {earlier : Prop}
    (h : Synced findingId created before m earlier) {op : DurableSlaOp}
    (hmemory' : BreachHasEvent findingId before (durableSlaStep findingId m op).memory)
    (hdatabase' : BreachHasEvent findingId before (durableSlaStep findingId m op).database) :
    BreachPersists findingId m op := by
  obtain ⟨breach, hmemory, hdatabase, -⟩ := h
  cases op with
  | restart => trivial
  | check utcnow now fails =>
      intro htime
      rcases hmemory.checkWrites utcnow now with
        ⟨at_, due, record, -, -, -, rfl, hid, hshows, -, hwrites⟩ | ⟨hnone, -⟩
      · rw [durableSlaStep, hwrites] at hmemory' hdatabase'
        rw [hwrites]
        have hsilent : ∀ stores : RiskStores, Copy findingId created before none stores →
            ¬ BreachHasEvent findingId before
              (stores.recordSla (SLAService.breach record at_)) := by
          intro stores hcopy hevent
          have hless := hevent (SLAService.breach record at_)
            ((RiskStores.getSla_recordSla _ _ _).trans (if_pos hid.symm)) rfl
          rw [RiskStores.escalationsFor_recordSla, hcopy.counted] at hless
          exact Nat.lt_irrefl _ hless
        rcases fails with - | - | - | n
        · trivial
        · exact absurd hmemory' (hsilent _ hmemory)
        · exact absurd hdatabase' (hsilent _ hdatabase)
        · exact Nat.le_add_left 2 n
      · rw [hnone] at htime
        cases htime

/-! ## Runs -/

lemma Synced.exec {start : Mirrored RiskStores}
    (h : Synced findingId created before start False) (ops : List DurableSlaOp)
    (hpersists : Throughout (durableSlaStep findingId) (BreachPersists findingId) start ops) :
    Synced findingId created before (exec (durableSlaStep findingId) start ops)
      (∃ due ∈ created.dueAt,
        Sometime (durableSlaStep findingId) (SucceedsOverdue findingId due) start ops) := by
  induction ops using List.reverseRecOn with
  | nil =>
      obtain ⟨breach, hmemory, hdatabase, -⟩ := h
      exact ⟨breach, hmemory, hdatabase, by rintro - ⟨due, -, hnever⟩; exact hnever.elim⟩
  | append_singleton ops op ih =>
      obtain ⟨hbefore, hlast, -⟩ := throughout_append.1 hpersists
      obtain ⟨breach, hmemory, hdatabase, hchecked⟩ := (ih hbefore).step hlast
      rw [exec_concat]
      refine ⟨breach, hmemory, hdatabase, ?_⟩
      rintro hdue ⟨due, hmem, hsometime⟩
      refine hchecked hdue ?_
      rcases sometime_append.1 hsometime with hran | hlate | hnever
      · exact Or.inl ⟨due, hmem, hran⟩
      · exact Or.inr ⟨due, hmem, hlate⟩
      · exact hnever.elim

/-- **A breach is escalated once, whatever the database does**, in exactly the runs in which no
database write fails in the check that finds the active record overdue. -/
theorem escalatesOnce_iff (policy : SLAPolicy) (utcnow : DateTime) (assessment : RiskAssessment)
    (startedAt : Option DateTime) (created : SLARecord)
    (hcreated : SLAService.createSla policy utcnow assessment startedAt = .ok created)
    (m : Mirrored RiskStores)
    (hmirrored : (m.memory.escalationsFor created.findingId).length
      = (m.database.escalationsFor created.findingId).length) (ops : List DurableSlaOp) :
    EscalatesOnce created (m.withSla created) ops
      ↔ Throughout (durableSlaStep created.findingId) (BreachPersists created.findingId)
        (m.withSla created) ops := by
  have hstart : Synced created.findingId created
      ((m.withSla created).memory.escalationsFor created.findingId).length
      (m.withSla created) False := by
    refine ⟨none, Copy.of_createSla hcreated m.memory, ?_, fun _ hfalse => hfalse.elim⟩
    have hcopy := Copy.of_createSla hcreated m.database
    rw [← hmirrored] at hcopy
    exact hcopy
  constructor
  · intro honce
    induction ops using List.reverseRecOn with
    | nil => trivial
    | append_singleton ops op ih =>
        have hbefore := ih fun ran rest heq => honce ran (rest ++ [op]) (by simp [heq])
        refine throughout_append.2 ⟨hbefore, ?_, trivial⟩
        obtain ⟨hmemory, hdatabase, -⟩ := honce (ops ++ [op]) [] (List.append_nil _).symm
        rw [exec_concat] at hmemory hdatabase
        exact breachPersists_of_hasEvent (hstart.exec ops hbefore) hmemory hdatabase
  · intro hpersists ran rest heq
    rw [heq] at hpersists
    obtain ⟨breach, hmemory, hdatabase, hchecked⟩ :=
      hstart.exec ran (throughout_append.1 hpersists).1
    refine ⟨hmemory.breachHasEvent, hdatabase.breachHasEvent, ?_⟩
    intro due hdue hsometime
    have hbreach := hchecked (Option.isSome_iff_exists.2 ⟨due, hdue⟩) ⟨due, hdue, hsometime⟩
    obtain ⟨time, rfl⟩ := Option.isSome_iff_exists.1 hbreach
    exact ⟨hmemory.counted, hdatabase.counted⟩

/-- The stores without entries, in memory and in the database. -/
def emptyRisk : Mirrored RiskStores := ⟨.empty, .empty⟩

/-- A check in time whose write fails, a restart, and two checks after the deadline. -/
def failureInTime : List DurableSlaOp :=
  [.check (atHour 1) none (some 0), .restart, .check (atHour 25) none none,
    .check (atHour 26) none (some 0), .restart]

theorem escalatesOnce_failureInTime :
    EscalatesOnce daySla (emptyRisk.withSla daySla) failureInTime :=
  (escalatesOnce_iff defaultDeadlines (atHour 0) ⟨"f", .p1⟩ none daySla (by decide +kernel) emptyRisk
    rfl failureInTime).2 (by decide +kernel)

/-- The record of a breach reaches memory only; the next check, which succeeds, passes by. -/
def failureOfBreach : List DurableSlaOp :=
  [.check (atHour 25) none (some 0), .check (atHour 26) none none]

/-- **A breach stays without its event** when the database fails during the check that finds it. -/
theorem not_escalatesOnce :
    ¬ EscalatesOnce daySla (emptyRisk.withSla daySla) failureOfBreach := by
  intro honce
  obtain ⟨-, -, hone⟩ := honce failureOfBreach [] rfl
  have hsucceeds : Sometime (durableSlaStep daySla.findingId)
      (SucceedsOverdue daySla.findingId (atHour 24)) (emptyRisk.withSla daySla) failureOfBreach := by
    refine Or.inr (Or.inl ⟨trivial, atHour 26, rfl, by decide⟩)
  have hnone : ((exec (durableSlaStep "f") (emptyRisk.withSla daySla)
      failureOfBreach).memory.escalationsFor "f").length = 0 := by
    decide +kernel
  have hmemory := (hone (atHour 24) rfl hsucceeds).1
  rw [show daySla.findingId = "f" from rfl, hnone] at hmemory
  cases hmemory

end Sast
