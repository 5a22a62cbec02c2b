import SastEngine.Lib.Interleaving
import SastEngine.Risk.Escalation

/-!
# Interleaved SLA operations

Only checks take the lock.  Creating an SLA reads the assessment and the stored record before it
writes; resolving one reads the record before it writes; so other operations on the finding come
in between.  Resolutions and breaches survive as long as no such write overwrites one that it has
not read.
-/

namespace Sast

/-- An operation on the SLA of the finding: the endpoints, and a cycle of the evaluator. -/
inductive SlaCall where
  | assess (priority : Priority)
  | create (utcnow : DateTime)
  | check (utcnow : DateTime) (now : Option DateTime)
  | resolve (utcnow : DateTime) (resolvedAt : Option DateTime)
  | evaluate (utcnow : DateTime) (now : Option DateTime)

/-- Where an operation stands between two accesses.  A write keeps the record that was read. -/
inductive SlaPhase where
  | start
  | assessed (assessment : RiskAssessment)
  | seenActive
  | writing (read : Option SLARecord) (record : SLARecord)
  | returned (record : Option SLARecord) (event : Option EscalationEvent)
  | raised

/-- An operation in progress. -/
structure SlaTask where
  call : SlaCall
  phase : SlaPhase

variable (findingId : String)

/-- The end of a check. -/
def SlaPhase.ofCheck (stores : RiskStores) (utcnow : DateTime) (now : Option DateTime) :
    SlaPhase :=
  match checkAndPersistSla stores findingId utcnow now with
  | .ok ((some record, event), _) => .returned (some record) event
  | .ok ((none, _), _) => .raised
  | .error _ => .raised

/-- The phase of an operation after its next access. -/
def SlaTask.next (stores : RiskStores) (task : SlaTask) : SlaPhase :=
  match task.phase, task.call with
  | .start, .assess _ => .returned none none
  | .start, .create _ =>
      match stores.getAssessment findingId with
      | none => .raised
      | some assessment => .assessed assessment
  | .start, .check utcnow now => .ofCheck findingId stores utcnow now
  | .start, .resolve utcnow resolvedAt =>
      match stores.getSla findingId with
      | none => .raised
      | some record =>
          match SLAService.resolveSla utcnow record resolvedAt with
          | .ok updated => .writing (some record) updated
          | .error _ => .raised
  | .start, .evaluate _ _ =>
      if (stores.getSla findingId).map SLARecord.status = some .active then .seenActive
      else .returned none none
  | .assessed assessment, .create utcnow =>
      match startSla utcnow assessment (stores.getSla findingId) with
      | .ok (record, true) => .writing (stores.getSla findingId) record
      | .ok (record, false) => .returned (some record) none
      | .error _ => .raised
  | .seenActive, .evaluate utcnow now =>
      .ofCheck findingId stores utcnow (some (now.getD utcnow))
  | .writing _ record, _ => .returned (some record) none
  | phase, _ => phase

/-- What the next access writes. -/
def SlaTask.write (stores : RiskStores) (task : SlaTask) : RiskStores :=
  match task.phase, task.call with
  | .start, .assess priority => stores.recordAssessment ⟨findingId, priority⟩
  | .start, .check utcnow now => stores.checked findingId utcnow now
  | .seenActive, .evaluate utcnow now =>
      stores.checked findingId utcnow (some (now.getD utcnow))
  | .writing _ record, _ => stores.recordSla record
  | _, _ => stores

/-- The next access of an operation. -/
def slaAccess (stores : RiskStores) (task : SlaTask) : RiskStores × SlaTask :=
  (task.write findingId stores, { task with phase := task.next findingId stores })

/-- One move of an interleaving of SLA operations. -/
abbrev slaPoolStep : Pool RiskStores SlaTask → Move SlaTask → Pool RiskStores SlaTask :=
  Pool.step (slaAccess findingId)

/-- No operations, and stores without entries. -/
def Pool.noSla : Pool RiskStores SlaTask := ⟨.empty, []⟩

/-! ## What is expected -/

/-- The operation is a resolution. -/
def SlaCall.isResolve : SlaCall → Bool
  | .resolve .. => true
  | _ => false

/-- A resolution that has returned is the stored one; and a breach that a check has recorded is
seen in the record once that is resolved, and has its event. -/
structure KeepsUpdates (p : Pool RiskStores SlaTask) : Prop where
  resolved : ∀ t ∈ p.tasks, t.call.isResolve → ∀ record event,
    t.phase = .returned (some record) event → ∃ stored, p.shared.getSla findingId = some stored
      ∧ stored.status = .resolved ∧ stored.resolvedAt = record.resolvedAt
  breached : ∀ t ∈ p.tasks, ∀ record event, t.phase = .returned record (some event) →
    event ∈ p.shared.escalationsFor findingId
      ∧ ∀ stored, p.shared.getSla findingId = some stored → stored.status = .resolved →
        stored.breachedAt = some event.createdAt ∧ stored.escalationLevel = event.newLevel

/-- The records agree on their status, their breach and their resolution. -/
def SameStanding (a b : SLARecord) : Prop :=
  a.status = b.status ∧ a.breachedAt = b.breachedAt ∧ a.escalationLevel = b.escalationLevel
    ∧ a.resolvedAt = b.resolvedAt

instance (a b : SLARecord) : Decidable (SameStanding a b) :=
  inferInstanceAs (Decidable (_ ∧ _ ∧ _ ∧ _))

/-- A new record does not overwrite a resolved or breached one, and a resolution overwrites a
record whose standing it has read. -/
def OverwritesKnown (stores : RiskStores) (task : SlaTask) : Prop :=
  match task.phase, task.call with
  | .writing _ _, .create _ => ∀ stored ∈ stores.getSla findingId,
      stored.status ≠ .resolved ∧ stored.breachedAt = none
  | .writing read _, _ => ∀ stored ∈ stores.getSla findingId, ∀ old ∈ read,
      SameStanding stored old
  | _, _ => True

/-- Operations start at their beginning. -/
def StartsSla (_ : Pool RiskStores SlaTask) (task : SlaTask) : Prop := task.phase = .start

/-! ## Records and checks -/

/-- Only a breached or resolved record shows a breach. -/
structure SLARecord.WellFormed (record : SLARecord) : Prop where
  unbreached : record.status = .active ∨ record.status = .notApplicable → record.breachedAt = none
  hasDue : record.status = .breached → record.dueAt.isSome

/-- The later record keeps the resolution and the breach of the earlier one. -/
structure Keeps (old new : SLARecord) : Prop where
  resolved : old.status = .resolved → new.status = .resolved ∧ new.resolvedAt = old.resolvedAt
  breached : ∀ time, old.breachedAt = some time →
    new.breachedAt = some time ∧ new.escalationLevel = old.escalationLevel

/-- A record that shows nothing can become any record. -/
lemma Keeps.of_unbreached {old : SLARecord} (h : old.WellFormed)
    (hstatus : old.status = .active ∨ old.status = .notApplicable) (new : SLARecord) :
    Keeps old new := by
  constructor
  · intro hresolved
    rcases hstatus with hstatus | hstatus <;> rw [hstatus] at hresolved <;> cases hresolved
  · intro time hbreached
    rw [h.unbreached hstatus] at hbreached
    cases hbreached

/-- What the record and the event of a check are good for. -/
structure SoundCheck (record : SLARecord) (outcome : SLARecord × Option EscalationEvent) :
    Prop where
  wellFormed : outcome.1.WellFormed
  keeps : Keeps record outcome.1
  shown : ∀ event, outcome.2 = some event →
    outcome.1.breachedAt = some event.createdAt ∧ outcome.1.escalationLevel = event.newLevel

/-- Only `last_checked_at` changes. -/
lemma SoundCheck.checked {record : SLARecord} (h : record.WellFormed) (now : DateTime) :
    SoundCheck record ({ record with lastCheckedAt := some now }, none) :=
  ⟨⟨h.unbreached, h.hasDue⟩,
    ⟨fun hresolved => ⟨hresolved, rfl⟩, fun _ hbreached => ⟨hbreached, rfl⟩⟩,
    fun _ hevent => (by cases hevent)⟩

/-- A record that shows nothing, without a deadline or before it. -/
lemma SoundCheck.unbreached {record : SLARecord} (h : record.WellFormed)
    (hopen : record.status = .active ∨ record.status = .notApplicable) (status : SlaStatus)
    (hstatus : status = .active ∨ status = .notApplicable) (now : DateTime) :
    SoundCheck record ({ record with status := status, lastCheckedAt := some now }, none) := by
  refine ⟨⟨fun _ => h.unbreached hopen, ?_⟩, Keeps.of_unbreached h hopen _,
    fun _ hevent => (by cases hevent)⟩
  rintro hbreached
  rcases hstatus with rfl | rfl <;> cases hbreached

/-- A check at or after the deadline. -/
lemma SoundCheck.overdue {record : SLARecord} (h : record.WellFormed)
    (hopen : record.status = .active ∨ record.status = .notApplicable) {due : DateTime}
    (hdue : record.dueAt = some due) (now : DateTime) :
    SoundCheck record
      (SLAService.breach record now, some (SLAService.escalation record due now)) := by
  refine ⟨⟨?_, fun _ => ?_⟩, Keeps.of_unbreached h hopen _, ?_⟩
  · rintro (hactive | hna)
    · cases hactive
    · cases hna
  · exact Option.isSome_iff_exists.2 ⟨due, hdue⟩
  · intro event hevent
    obtain rfl := Option.some.inj hevent
    exact ⟨rfl, rfl⟩

/-- **A check keeps what the record shows**, and shows the event that it yields. -/
lemma SoundCheck.checkAt {record : SLARecord} (h : record.WellFormed) (now : DateTime) :
    SoundCheck record (SLAService.checkAt record now) := by
  cases hstatus : record.status with
  | resolved =>
      simpa only [SLAService.checkAt, hstatus] using SoundCheck.checked h now
  | breached =>
      obtain ⟨due, hdue⟩ := Option.isSome_iff_exists.1 (h.hasDue hstatus)
      simpa only [SLAService.checkAt, hstatus, hdue] using SoundCheck.checked h now
  | active | notApplicable =>
      have hopen : record.status = .active ∨ record.status = .notApplicable := by simp [hstatus]
      cases hdue : record.dueAt with
      | none =>
          simpa only [SLAService.checkAt, hstatus, hdue] using
            SoundCheck.unbreached h hopen .notApplicable (Or.inr rfl) now
      | some due =>
          simp only [SLAService.checkAt, hstatus, hdue]
          split_ifs
          · exact SoundCheck.overdue h hopen hdue now
          · simpa only [hstatus, hdue] using
              SoundCheck.unbreached h hopen .active (Or.inl rfl) now

/-! ## The invariant -/

variable {findingId}

/-- The later stores keep the record and the events of the finding. -/
structure StoresKeep (findingId : String) (before after : RiskStores) : Prop where
  record : ∀ old, before.getSla findingId = some old →
    ∃ new, after.getSla findingId = some new ∧ Keeps old new
  events : ∀ event ∈ before.escalationsFor findingId, event ∈ after.escalationsFor findingId

lemma StoresKeep.refl (stores : RiskStores) : StoresKeep findingId stores stores :=
  ⟨fun old hold => ⟨old, hold, fun hresolved => ⟨hresolved, rfl⟩, fun _ htime => ⟨htime, rfl⟩⟩,
    fun _ hevent => hevent⟩

/-- A record about to be written is a new one, or resolves the one that was read. -/
def DraftedSla (findingId : String) (call : SlaCall) (read : Option SLARecord)
    (record : SLARecord) : Prop :=
  record.findingId = findingId ∧ record.WellFormed ∧ match call with
    | .create _ => True
    | .resolve .. => ∃ old, read = some old ∧ record.status = .resolved ∧ Keeps old record
    | _ => False

/-- What the stores show of an operation. -/
structure Stands (findingId : String) (stores : RiskStores) (task : SlaTask) : Prop where
  resolved : task.call.isResolve → ∀ record event, task.phase = .returned (some record) event →
    ∃ stored, stores.getSla findingId = some stored
      ∧ stored.status = .resolved ∧ stored.resolvedAt = record.resolvedAt
  breached : ∀ record event, task.phase = .returned record (some event) →
    event ∈ stores.escalationsFor findingId ∧ ∃ stored, stores.getSla findingId = some stored
      ∧ stored.breachedAt = some event.createdAt ∧ stored.escalationLevel = event.newLevel
  drafted : ∀ read record, task.phase = .writing read record →
    DraftedSla findingId task.call read record
  assessed : ∀ assessment, task.phase = .assessed assessment → assessment.findingId = findingId

/-- An operation stands as long as its record and events are kept. -/
lemma Stands.mono {before after : RiskStores} {task : SlaTask}
    (h : Stands findingId before task) (hkeep : StoresKeep findingId before after) :
    Stands findingId after task := by
  refine ⟨?_, ?_, h.drafted, h.assessed⟩
  · intro hresolve record event hphase
    obtain ⟨stored, hstored, hstatus, htime⟩ := h.resolved hresolve record event hphase
    obtain ⟨new, hnew, hkeeps⟩ := hkeep.record stored hstored
    obtain ⟨hstatus', htime'⟩ := hkeeps.resolved hstatus
    exact ⟨new, hnew, hstatus', htime'.trans htime⟩
  · intro record event hphase
    obtain ⟨hevent, stored, hstored, htime, hlevel⟩ := h.breached record event hphase
    obtain ⟨new, hnew, hkeeps⟩ := hkeep.record stored hstored
    obtain ⟨htime', hlevel'⟩ := hkeeps.breached _ htime
    exact ⟨hkeep.events event hevent, new, hnew, htime', hlevel'.trans hlevel⟩

/-- An operation that has raised. -/
lemma Stands.of_raised {stores : RiskStores} {call : SlaCall} :
    Stands findingId stores ⟨call, .raised⟩ :=
  ⟨fun _ _ _ heq => (by cases heq), fun _ _ heq => (by cases heq), fun _ _ heq => (by cases heq),
    fun _ heq => (by cases heq)⟩

/-- An operation other than a resolution that has returned without an event. -/
lemma Stands.of_returned {stores : RiskStores} {call : SlaCall} {record : Option SLARecord}
    (hcall : call.isResolve = false) : Stands findingId stores ⟨call, .returned record none⟩ := by
  refine ⟨fun hresolve => ?_, fun _ _ heq => ?_, fun _ _ heq => (by cases heq),
    fun _ heq => (by cases heq)⟩
  · rw [hcall] at hresolve
    cases hresolve
  · cases (SlaPhase.returned.inj heq).2

/-- An operation that has drafted a record. -/
lemma Stands.of_drafted {stores : RiskStores} {call : SlaCall} {read : Option SLARecord}
    {record : SLARecord} (h : DraftedSla findingId call read record) :
    Stands findingId stores ⟨call, .writing read record⟩ := by
  refine ⟨fun _ _ _ heq => (by cases heq), fun _ _ heq => (by cases heq), ?_,
    fun _ heq => (by cases heq)⟩
  intro read' record' heq
  obtain ⟨rfl, rfl⟩ := SlaPhase.writing.inj heq
  exact h

/-- Every operation stands, and the record is well formed. -/
structure SlaInv (findingId : String) (stores : RiskStores) (tasks : List SlaTask) : Prop where
  stands : ∀ t ∈ tasks, Stands findingId stores t
  wellFormed : ∀ stored, stores.getSla findingId = some stored → stored.WellFormed

/-! ## One access -/

/-- What an access has to guarantee. -/
structure SoundAccess (findingId : String) (before after : RiskStores) (task : SlaTask) :
    Prop where
  keep : StoresKeep findingId before after
  stands : Stands findingId after task
  wellFormed : ∀ stored, after.getSla findingId = some stored → stored.WellFormed

variable {stores : RiskStores}

/-- A check under the lock. -/
lemma SoundAccess.check (h : ∀ stored, stores.getSla findingId = some stored → stored.WellFormed)
    (call : SlaCall) (hcall : call.isResolve = false) (utcnow : DateTime) (now : Option DateTime) :
    SoundAccess findingId stores (stores.checked findingId utcnow now)
      ⟨call, .ofCheck findingId stores utcnow now⟩ := by
  have hraised : stores.checked findingId utcnow now = stores →
      SlaPhase.ofCheck findingId stores utcnow now = .raised →
      SoundAccess findingId stores (stores.checked findingId utcnow now)
        ⟨call, .ofCheck findingId stores utcnow now⟩ := by
    intro hsame hphase
    rw [hsame, hphase]
    exact ⟨StoresKeep.refl stores, Stands.of_raised, h⟩
  cases hget : stores.getSla findingId with
  | none =>
      refine hraised ?_ ?_
      · simp only [RiskStores.checked, checkAndPersistSla, hget]
      · simp only [SlaPhase.ofCheck, checkAndPersistSla, hget]
  | some record =>
      cases haware : SLAService.ensureAware (now.getD utcnow) "now" with
      | error e =>
          refine hraised ?_ ?_
          · simp [RiskStores.checked, checkAndPersistSla, hget, SLAService.checkSla, haware, bind,
              Except.bind]
          · simp [SlaPhase.ofCheck, checkAndPersistSla, hget, SLAService.checkSla, haware, bind,
              Except.bind]
      | ok at_ =>
          obtain ⟨hafter, hevents⟩ := checked_of_aware hget haware
          have hsound := SoundCheck.checkAt (h record hget) at_
          have hphase : SlaPhase.ofCheck findingId stores utcnow now
              = .returned (some (SLAService.checkAt record at_).1)
                (SLAService.checkAt record at_).2 := by
            simp [SlaPhase.ofCheck, checkAndPersistSla, hget, SLAService.checkSla, haware, bind,
              Except.bind, pure, Except.pure]
          rw [hphase]
          refine ⟨⟨?_, ?_⟩, ⟨?_, ?_, fun _ _ heq => (by cases heq), fun _ heq => (by cases heq)⟩, ?_⟩
          · intro old hold
            obtain rfl := Option.some.inj (hget.symm.trans hold)
            exact ⟨_, hafter, hsound.keeps⟩
          · intro event hevent
            rw [hevents]
            exact List.mem_append_left _ hevent
          · intro hresolve
            rw [hcall] at hresolve
            cases hresolve
          · intro result event heq
            obtain ⟨-, hevent⟩ := SlaPhase.returned.inj heq
            refine ⟨?_, _, hafter, hsound.shown event hevent⟩
            rw [hevents, hevent]
            exact List.mem_append_right _ List.mem_cons_self
          · intro stored hstored
            obtain rfl := Option.some.inj (hafter.symm.trans hstored)
            exact hsound.wellFormed

/-- The write of a new record or of a resolution. -/
lemma SoundAccess.write {call : SlaCall} {read : Option SLARecord} {record : SLARecord}
    (hdrafted : DraftedSla findingId call read record)
    (hknown : OverwritesKnown findingId stores ⟨call, .writing read record⟩) :
    SoundAccess findingId stores (stores.recordSla record)
      ⟨call, .returned (some record) none⟩ := by
  obtain ⟨hid, hwellFormed, hcall⟩ := hdrafted
  have hafter : (stores.recordSla record).getSla findingId = some record := by
    rw [RiskStores.getSla_recordSla, if_pos hid.symm]
  refine ⟨⟨?_, fun event hevent => hevent⟩,
    ⟨?_, ?_, fun _ _ heq => (by cases heq), fun _ heq => (by cases heq)⟩, ?_⟩
  · intro stored hstored
    refine ⟨record, hafter, ?_⟩
    cases call with
    | create utcnow =>
        obtain ⟨hstatus, hnone⟩ := hknown stored hstored
        refine ⟨fun hresolved => absurd hresolved hstatus, ?_⟩
        intro time htime
        cases hnone.symm.trans htime
    | resolve utcnow resolvedAt =>
        obtain ⟨old, rfl, -, hkeeps⟩ := hcall
        obtain ⟨hstatus, hbreach, hlevel, hresolvedAt⟩ := hknown stored hstored old rfl
        constructor
        · intro hresolved
          rw [hresolvedAt]
          exact hkeeps.resolved (hstatus.symm.trans hresolved)
        · intro time htime
          rw [hlevel]
          exact hkeeps.breached time (hbreach.symm.trans htime)
    | assess | check | evaluate => exact hcall.elim
  · intro hresolve result event heq
    obtain ⟨hresult, -⟩ := SlaPhase.returned.inj heq
    obtain rfl := Option.some.inj hresult
    cases call with
    | resolve utcnow resolvedAt =>
        obtain ⟨old, -, hstatus, -⟩ := hcall
        exact ⟨record, hafter, hstatus, rfl⟩
    | _ => cases hresolve
  · intro result event heq
    cases (SlaPhase.returned.inj heq).2
  · intro stored hstored
    obtain rfl := Option.some.inj (hafter.symm.trans hstored)
    exact hwellFormed

/-- An access that writes nothing that concerns the SLA. -/
lemma SoundAccess.of_read
    (h : ∀ stored, stores.getSla findingId = some stored → stored.WellFormed) {task : SlaTask}
    (hstands : Stands findingId stores task) : SoundAccess findingId stores stores task :=
  ⟨StoresKeep.refl stores, hstands, h⟩

/-- A new record is well formed, and belongs to the assessed finding. -/
lemma createSla_wellFormed {policy : SLAPolicy} {utcnow : DateTime} {assessment : RiskAssessment}
    {startedAt : Option DateTime} {record : SLARecord}
    (h : SLAService.createSla policy utcnow assessment startedAt = .ok record) :
    record.findingId = assessment.findingId ∧ record.WellFormed := by
  obtain ⟨started, -, h⟩ := bind_eq_ok.1 h
  obtain rfl := pure_eq_ok.1 h
  refine ⟨rfl, fun _ => rfl, ?_⟩
  cases policy.durationFor assessment.priority <;> simp

/-- A resolved record keeps what the record shows. -/
lemma resolveSla_keeps {utcnow : DateTime} {record updated : SLARecord}
    {resolvedAt : Option DateTime}
    (h : SLAService.resolveSla utcnow record resolvedAt = .ok updated) :
    updated.findingId = record.findingId ∧ updated.WellFormed ∧ updated.status = .resolved
      ∧ Keeps record updated := by
  have hwellFormed : ∀ r : SLARecord, r.status = .resolved → r.WellFormed := by
    intro r hr
    constructor <;> simp [hr]
  unfold SLAService.resolveSla at h
  split_ifs at h with hresolved
  · obtain rfl := Except.ok.inj h
    exact ⟨rfl, hwellFormed record hresolved, hresolved, fun _ => ⟨hresolved, rfl⟩,
      fun _ htime => ⟨htime, rfl⟩⟩
  · obtain ⟨now, -, h⟩ := bind_eq_ok.1 h
    obtain rfl := pure_eq_ok.1 h
    exact ⟨rfl, hwellFormed _ rfl, rfl, fun hstatus => absurd hstatus hresolved,
      fun _ htime => ⟨htime, rfl⟩⟩

/-- What `_start_sla` is about to do once it has read the record. -/
lemma startSla_stands {utcnow : DateTime} {assessment : RiskAssessment}
    (hid : assessment.findingId = findingId) (stores : RiskStores) (existing : Option SLARecord) :
    Stands findingId stores ⟨.create utcnow,
      match startSla utcnow assessment existing with
      | .ok (record, true) => .writing existing record
      | .ok (record, false) => .returned (some record) none
      | .error _ => .raised⟩ := by
  cases hstart : startSla utcnow assessment existing with
  | error e => exact Stands.of_raised
  | ok started =>
      obtain ⟨record, new⟩ := started
      cases new with
      | false => exact Stands.of_returned rfl
      | true =>
          refine Stands.of_drafted ?_
          have hcreated : ∀ {x : Except ValueError SLARecord},
              (x.map fun r => (r, true)) = .ok (record, true) → x = .ok record := by
            rintro (e | r) hmap
            · cases hmap
            · rw [← (Prod.mk.inj (Except.ok.inj hmap)).1]
          unfold startSla at hstart
          cases existing with
          | none =>
              obtain ⟨hrecord, hwellFormed⟩ := createSla_wellFormed (hcreated hstart)
              exact ⟨hrecord.trans hid, hwellFormed, trivial⟩
          | some old =>
              simp only at hstart
              split_ifs at hstart
              · cases hstart
              · obtain ⟨hrecord, hwellFormed⟩ := createSla_wellFormed (hcreated hstart)
                exact ⟨hrecord.trans hid, hwellFormed, trivial⟩

/-- **Every access that overwrites only what it knows is sound.** -/
lemma SoundAccess.access {task : SlaTask} (hstands : Stands findingId stores task)
    (h : ∀ stored, stores.getSla findingId = some stored → stored.WellFormed)
    (hknown : OverwritesKnown findingId stores task) :
    SoundAccess findingId stores (slaAccess findingId stores task).1
      (slaAccess findingId stores task).2 := by
  obtain ⟨call, phase⟩ := task
  cases phase with
  | start =>
      cases call with
      | assess priority =>
          have hkeep : StoresKeep findingId stores stores := StoresKeep.refl stores
          exact ⟨⟨hkeep.record, hkeep.events⟩, Stands.of_returned rfl, h⟩
      | create utcnow =>
          refine SoundAccess.of_read h ?_
          simp only [slaAccess, SlaTask.next]
          cases hget : stores.getAssessment findingId with
          | none => exact Stands.of_raised
          | some assessment =>
              refine ⟨fun hresolve => (by cases hresolve), fun _ _ heq => (by cases heq),
                fun _ _ heq => (by cases heq), ?_⟩
              intro assessment' heq
              obtain rfl := SlaPhase.assessed.inj heq
              exact stores.assessed findingId assessment hget
      | check utcnow now => exact SoundAccess.check h _ rfl utcnow now
      | resolve utcnow resolvedAt =>
          refine SoundAccess.of_read h ?_
          simp only [slaAccess, SlaTask.next]
          cases hget : stores.getSla findingId with
          | none => exact Stands.of_raised
          | some record =>
              simp only
              cases hresolve : SLAService.resolveSla utcnow record resolvedAt with
              | error e => exact Stands.of_raised
              | ok updated =>
                  obtain ⟨hid, hwellFormed, hstatus, hkeeps⟩ := resolveSla_keeps hresolve
                  exact Stands.of_drafted ⟨hid.trans (stores.keyed findingId record hget),
                    hwellFormed, record, rfl, hstatus, hkeeps⟩
      | evaluate utcnow now =>
          refine SoundAccess.of_read h ?_
          simp only [slaAccess, SlaTask.next]
          split_ifs
          · exact ⟨fun hresolve => (by cases hresolve), fun _ _ heq => (by cases heq),
              fun _ _ heq => (by cases heq), fun _ heq => (by cases heq)⟩
          · exact Stands.of_returned rfl
  | assessed assessment =>
      cases call with
      | create utcnow =>
          exact SoundAccess.of_read h
            (startSla_stands (hstands.assessed assessment rfl) stores (stores.getSla findingId))
      | _ => exact SoundAccess.of_read h hstands
  | seenActive =>
      cases call with
      | evaluate utcnow now => exact SoundAccess.check h _ rfl utcnow _
      | _ => exact SoundAccess.of_read h hstands
  | writing read record =>
      have hwrite := SoundAccess.write (hstands.drafted read record rfl) hknown
      cases call <;> exact hwrite
  | returned record event =>
      cases call <;> exact SoundAccess.of_read h hstands
  | raised =>
      cases call <;> exact SoundAccess.of_read h hstands

/-! ## Interleavings -/

lemma SlaInv.start {tasks : List SlaTask} {task : SlaTask} (h : SlaInv findingId stores tasks)
    (hstart : task.phase = .start) : SlaInv findingId stores (tasks ++ [task]) := by
  refine ⟨?_, h.wellFormed⟩
  intro t ht
  rcases List.mem_append.1 ht with ht | ht
  · exact h.stands t ht
  · obtain rfl := List.mem_singleton.1 ht
    refine ⟨?_, ?_, ?_, ?_⟩
    · intro _ record event heq
      cases hstart.symm.trans heq
    · intro record event heq
      cases hstart.symm.trans heq
    · intro read record heq
      cases hstart.symm.trans heq
    · intro assessment heq
      cases hstart.symm.trans heq

lemma SlaInv.access {pre post : List SlaTask} {task : SlaTask}
    (h : SlaInv findingId stores (pre ++ task :: post))
    (hknown : OverwritesKnown findingId stores task) :
    SlaInv findingId (slaAccess findingId stores task).1
      (pre ++ (slaAccess findingId stores task).2 :: post) := by
  have hsound := SoundAccess.access (h.stands task (by simp)) h.wellFormed hknown
  refine ⟨?_, hsound.wellFormed⟩
  intro t ht
  rw [List.mem_append, List.mem_cons] at ht
  rcases ht with ht | rfl | ht
  · exact (h.stands t (by simp [ht])).mono hsound.keep
  · exact hsound.stands
  · exact (h.stands t (by simp [ht])).mono hsound.keep

lemma SlaInv.keepsUpdates {p : Pool RiskStores SlaTask}
    (h : SlaInv findingId p.shared p.tasks) : KeepsUpdates findingId p := by
  refine ⟨fun t ht => (h.stands t ht).resolved, ?_⟩
  intro t ht record event hphase
  obtain ⟨hevent, stored, hstored, hshown⟩ := (h.stands t ht).breached record event hphase
  refine ⟨hevent, ?_⟩
  intro stored' hstored' _
  obtain rfl := Option.some.inj (hstored.symm.trans hstored')
  exact hshown

variable (findingId)

/-- **Resolutions and breaches survive** every interleaving in which new records do not overwrite
resolved or breached ones and resolutions overwrite what they have read. -/
theorem keepsUpdates_of_overwritesKnown (moves rest : List (Move SlaTask))
    (hallowed : Throughout (slaPoolStep findingId)
      (Pool.Allows StartsSla (OverwritesKnown findingId)) .noSla (moves ++ rest)) :
    KeepsUpdates findingId (exec (slaPoolStep findingId) .noSla moves) := by
  have hinv := Pool.exec_invariant (SlaInv findingId)
    (fun _ _ _ h hstart => h.start hstart) (fun _ _ _ _ h hknown => h.access hknown)
    ⟨fun t ht => (by cases ht), fun stored hstored => (by cases hstored)⟩
    (throughout_append.1 hallowed).1
  exact hinv.keepsUpdates

/-! ## One after another, and at the same time -/

instance (p : Pool RiskStores SlaTask) (task : SlaTask) : Decidable (StartsSla p task) := by
  obtain ⟨call, phase⟩ := task
  cases phase with
  | start => exact isTrue rfl
  | _ => exact isFalse (fun h => by cases h)

instance (stores : RiskStores) (task : SlaTask) :
    Decidable (OverwritesKnown findingId stores task) := by
  unfold OverwritesKnown
  split <;> infer_instance

/-- The start of an operation. -/
def startSlaCall (call : SlaCall) : Move SlaTask := .start ⟨call, .start⟩

/-- A finding is assessed and gets an SLA of a day. -/
def daySlaMoves : List (Move SlaTask) :=
  [startSlaCall (.assess .p1), .advance 0, startSlaCall (.create (atHour 0)), .advance 1, .advance 1,
    .advance 1]

/-- The SLA is checked after its deadline, and then resolved, twice. -/
def resolvedAfterBreach : List (Move SlaTask) :=
  daySlaMoves ++ [startSlaCall (.check (atHour 25) none), .advance 2,
    startSlaCall (.resolve (atHour 26) none), .advance 3, .advance 3,
    startSlaCall (.resolve (atHour 27) none), .advance 4, .advance 4]

theorem keepsUpdates_resolvedAfterBreach :
    KeepsUpdates "f" (exec (slaPoolStep "f") .noSla resolvedAfterBreach) :=
  keepsUpdates_of_overwritesKnown "f" resolvedAfterBreach [] (by decide +kernel)

/-- A breach is recorded while a resolution, which has read the active record, is going on. -/
def breachWhileResolving : List (Move SlaTask) :=
  daySlaMoves ++ [startSlaCall (.resolve (atHour 26) none), .advance 2,
    startSlaCall (.check (atHour 25) none), .advance 3, .advance 2]

/-- A resolved SLA is started again after its finding has got another priority. -/
def restartedAfterResolution : List (Move SlaTask) :=
  daySlaMoves ++ [startSlaCall (.resolve (atHour 1) none), .advance 2, .advance 2,
    startSlaCall (.assess .p0), .advance 3, startSlaCall (.create (atHour 2)), .advance 4,
    .advance 4, .advance 4]

/-- The operations of an interleaving start at their beginning. -/
def ProperSlaMoves (moves : List (Move SlaTask)) : Prop :=
  Throughout (slaPoolStep "f") (Pool.Allows StartsSla fun _ _ => True) .noSla moves

instance (moves : List (Move SlaTask)) : Decidable (ProperSlaMoves moves) :=
  inferInstanceAs (Decidable (Throughout _ _ _ _))

/-- **Breaches and resolutions get lost**: a recorded breach is not seen in the record that is
resolved after it, and a resolved SLA becomes active again. -/
theorem not_keepsUpdates :
    (ProperSlaMoves breachWhileResolving
        ∧ ¬ KeepsUpdates "f" (exec (slaPoolStep "f") .noSla breachWhileResolving))
      ∧ ProperSlaMoves restartedAfterResolution
        ∧ ¬ KeepsUpdates "f" (exec (slaPoolStep "f") .noSla restartedAfterResolution) := by
  refine ⟨⟨by decide +kernel, fun hkeeps => ?_⟩, by decide +kernel, fun hkeeps => ?_⟩
  · have hrecord : ((exec (slaPoolStep "f") .noSla breachWhileResolving).shared.getSla "f").map
        (fun r => (r.status, r.breachedAt)) = some (.resolved, none) := by
      decide +kernel
    have hcheck : ∃ t ∈ (exec (slaPoolStep "f") .noSla breachWhileResolving).tasks,
        ∃ record event, t.phase = .returned record (some event) := by
      refine ⟨_, List.mem_of_getElem? (i := 3) rfl, _, _, rfl⟩
    obtain ⟨t, ht, record, event, hphase⟩ := hcheck
    obtain ⟨stored, hstored, heq⟩ := Option.map_eq_some_iff.1 hrecord
    obtain ⟨hstatus, hnone⟩ := Prod.mk.inj heq
    have hshown := ((hkeeps.breached t ht record event hphase).2 stored hstored hstatus).1
    rw [hnone] at hshown
    cases hshown
  · have hrecord : ((exec (slaPoolStep "f") .noSla restartedAfterResolution).shared.getSla "f").map
        SLARecord.status = some .active := by
      decide +kernel
    have hresolve : ∃ t ∈ (exec (slaPoolStep "f") .noSla restartedAfterResolution).tasks,
        t.call.isResolve ∧ ∃ record event, t.phase = .returned (some record) event := by
      refine ⟨_, List.mem_of_getElem? (i := 2) rfl, rfl, _, _, rfl⟩
    obtain ⟨t, ht, hcall, record, event, hphase⟩ := hresolve
    obtain ⟨stored, hstored, hstatus, -⟩ := hkeeps.resolved t ht hcall record event hphase
    rw [hstored, Option.map_some, hstatus] at hrecord
    cases hrecord

end Sast
