import SastEngine.Risk.Evaluator

/-!
# One escalation per breach

Runs of checks, evaluation cycles and resolutions on the SLA record of a finding.  The times that
callers supply may repeat, go backwards, or lack a timezone.  The first check that finds the
record active and overdue decides everything: the one event, the level and the time of the breach.
-/

namespace Sast

/-- The operations on the SLA record of a finding. -/
inductive SlaOp where
  | check (utcnow : DateTime) (now : Option DateTime)
  | evaluate (utcnow : DateTime) (now : Option DateTime)
  | resolve (utcnow : DateTime) (resolvedAt : Option DateTime)

/-- The stores after an operation. -/
def slaStep (findingId : String) (stores : RiskStores) : SlaOp → RiskStores
  | .check utcnow now => stores.checked findingId utcnow now
  | .evaluate utcnow now => (evaluateOnce stores utcnow now).1
  | .resolve utcnow resolvedAt => resolveRoute stores findingId utcnow resolvedAt

/-- The time at which an operation checks records. -/
def SlaOp.checkTime : SlaOp → Option DateTime
  | .check utcnow now | .evaluate utcnow now =>
      (SLAService.ensureAware (now.getD utcnow) "now").toOption
  | .resolve .. => none

/-- The time of a check that finds the record active and overdue. -/
def breachAt (record : SLARecord) (now : DateTime) : Option DateTime :=
  match record.status, record.dueAt with
  | .active, some due => if due.instant ≤ now.instant then some now else none
  | _, _ => none

/-- The time of the operation, if it checks the record of the finding while that is active and
overdue. -/
def breachTime (findingId : String) (stores : RiskStores) (op : SlaOp) : Option DateTime := do
  let record ← stores.getSla findingId
  let now ← op.checkTime
  breachAt record now

/-- The time of the first check of a run that finds the record active and overdue. -/
def firstBreach (findingId : String) (stores : RiskStores) (ops : List SlaOp) : Option DateTime :=
  firstSeen (slaStep findingId) (breachTime findingId) stores ops

/-! ## What the record shows -/

/-- The record shows the first breach, if there was one. -/
structure Shows (created : SLARecord) (breach : Option DateTime) (record : SLARecord) : Prop where
  due : record.dueAt = created.dueAt
  level : record.escalationLevel = breach.toList.length
  time : record.breachedAt = breach
  unbreached : record.status = .active → breach = none
  isBreached : record.status = .breached → breach.isSome
  hasDue : record.status = .active ∨ record.status = .breached → created.dueAt.isSome
  noDue : record.status = .notApplicable → created.dueAt = none

variable {created record : SLARecord} {before : List EscalationEvent} {breach : Option DateTime}

namespace Shows

/-- A new record shows no breach. -/
lemma of_createSla {policy : SLAPolicy} {utcnow : DateTime} {assessment : RiskAssessment}
    {startedAt : Option DateTime}
    (h : SLAService.createSla policy utcnow assessment startedAt = .ok created) :
    Shows created none created := by
  obtain ⟨started, -, h⟩ := bind_eq_ok.1 h
  obtain rfl := pure_eq_ok.1 h
  refine ⟨rfl, rfl, rfl, fun _ => rfl, ?_, ?_, ?_⟩
  · cases policy.durationFor assessment.priority <;> simp
  · cases policy.durationFor assessment.priority <;> simp
  · cases policy.durationFor assessment.priority <;> simp

/-- Only `last_checked_at` changes. -/
lemma checked (h : Shows created breach record) (now : DateTime) :
    Shows created breach { record with lastCheckedAt := some now } :=
  ⟨h.due, h.level, h.time, h.unbreached, h.isBreached, h.hasDue, h.noDue⟩

/-- The breach of the record. -/
lemma breached (h : Shows created none record) {due : DateTime} (hdue : created.dueAt = some due)
    (now : DateTime) : Shows created (some now) (SLAService.breach record now) := by
  refine ⟨h.due, ?_, rfl, ?_, fun _ => rfl, ?_, ?_⟩
  · simp [SLAService.breach, h.level]
  · intro hactive
    cases hactive
  · intro _
    simp [hdue]
  · intro hna
    cases hna

/-- What a check does: it breaches the record, or leaves all but the time of the check. -/
lemma checkAt_eq (h : Shows created breach record) (now : DateTime) :
    (∃ due, created.dueAt = some due ∧ breach = none ∧ record.status = .active
        ∧ breachAt record now = some now ∧ SLAService.checkAt record now
          = (SLAService.breach record now, some (SLAService.escalation record due now)))
      ∨ breachAt record now = none
        ∧ SLAService.checkAt record now = ({ record with lastCheckedAt := some now }, none) := by
  cases hstatus : record.status with
  | resolved => exact Or.inr (by simp [SLAService.checkAt, breachAt, hstatus])
  | notApplicable =>
      have hdue : record.dueAt = none := h.due.trans (h.noDue hstatus)
      exact Or.inr (by simp [SLAService.checkAt, breachAt, hstatus, hdue])
  | breached =>
      obtain ⟨due, hdue⟩ := Option.isSome_iff_exists.1 (h.hasDue (Or.inr hstatus))
      exact Or.inr (by simp [SLAService.checkAt, breachAt, hstatus, h.due.trans hdue])
  | active =>
      obtain ⟨due, hdue⟩ := Option.isSome_iff_exists.1 (h.hasDue (Or.inl hstatus))
      by_cases hover : due.instant ≤ now.instant
      · refine Or.inl ⟨due, hdue, h.unbreached hstatus, rfl, ?_, ?_⟩
        · simp [breachAt, hstatus, h.due.trans hdue, hover]
        · simp [SLAService.checkAt, hstatus, h.due.trans hdue, hover]
      · exact Or.inr (by simp [SLAService.checkAt, breachAt, hstatus, h.due.trans hdue, hover])

/-- A check. -/
lemma check (h : Shows created breach record) (now : DateTime) :
    Shows created (breach.or (breachAt record now)) (SLAService.checkAt record now).1 := by
  rcases h.checkAt_eq now with ⟨due, hdue, rfl, -, hbreach, hcheck⟩ | ⟨hnone, hcheck⟩
  · rw [hbreach, hcheck]
    exact h.breached hdue now
  · rw [hnone, hcheck, Option.or_none]
    exact h.checked now

/-- A check yields an event exactly when it is the first to find the record overdue. -/
lemma check_event (h : Shows created breach record) (now : DateTime) :
    breach.toList.length + (SLAService.checkAt record now).2.toList.length
      = (breach.or (breachAt record now)).toList.length := by
  rcases h.checkAt_eq now with ⟨due, -, rfl, -, hbreach, hcheck⟩ | ⟨hnone, hcheck⟩
  · simp [hbreach, hcheck]
  · simp [hnone, hcheck]

/-- A resolution. -/
lemma resolve (h : Shows created breach record) {utcnow : DateTime}
    {resolvedAt : Option DateTime} {updated : SLARecord}
    (hresolve : SLAService.resolveSla utcnow record resolvedAt = .ok updated) :
    Shows created breach updated := by
  unfold SLAService.resolveSla at hresolve
  split_ifs at hresolve
  · obtain rfl := Except.ok.inj hresolve
    exact h
  · obtain ⟨now, -, hresolve⟩ := bind_eq_ok.1 hresolve
    obtain rfl := pure_eq_ok.1 hresolve
    refine ⟨h.due, h.level, h.time, ?_, ?_, ?_, ?_⟩
    · intro hactive
      cases hactive
    · intro hbreached
      cases hbreached
    · rintro (hactive | hbreached)
      · cases hactive
      · cases hbreached
    · intro hna
      cases hna

end Shows

/-! ## Runs -/

/-- The record of the finding shows the breach, and the breach has its event. -/
def ShowsFor (findingId : String) (created : SLARecord) (before : List EscalationEvent)
    (breach : Option DateTime) (stores : RiskStores) : Prop :=
  ∃ record new, stores.getSla findingId = some record ∧ Shows created breach record
    ∧ stores.escalationsFor findingId = before ++ new ∧ new.length = breach.toList.length

/-- What a check of the record at some time leaves. -/
lemma ShowsFor.afterCheck {findingId : String} {stores stores' : RiskStores} {utcnow : DateTime}
    {now : Option DateTime} (h : ShowsFor findingId created before breach stores)
    (hrecord : stores.getSla findingId = some record)
    (hview : stores'.view findingId = checkView utcnow now (stores.view findingId)) :
    ShowsFor findingId created before
      (breach.or ((SLAService.ensureAware (now.getD utcnow) "now").toOption.bind (breachAt record)))
      stores' := by
  obtain ⟨record', new, hrecord', hshows, hevents, hlength⟩ := h
  obtain rfl := Option.some.inj (hrecord.symm.trans hrecord')
  simp only [checkView, RiskStores.view, hrecord, hevents, SLAService.checkSla] at hview
  cases haware : SLAService.ensureAware (now.getD utcnow) "now" with
  | error e =>
      rw [haware] at hview
      obtain ⟨hafter, heventsAfter⟩ := Prod.mk.inj hview
      have hsame : breach.or (Option.bind none (breachAt record)) = breach := Option.or_none
      exact ⟨record, new, hafter, hsame.symm ▸ hshows, heventsAfter, hsame.symm ▸ hlength⟩
  | ok at_ =>
      rw [haware] at hview
      obtain ⟨hafter, heventsAfter⟩ := Prod.mk.inj hview
      refine ⟨_, new ++ (SLAService.checkAt record at_).2.toList, hafter, hshows.check at_, ?_, ?_⟩
      · rw [heventsAfter, List.append_assoc]
        rfl
      · rw [List.length_append, hlength]
        exact hshows.check_event at_

/-- **One operation.** -/
lemma ShowsFor.step {findingId : String} {stores : RiskStores}
    (h : ShowsFor findingId created before breach stores) (op : SlaOp) :
    ShowsFor findingId created before (breach.or (breachTime findingId stores op))
      (slaStep findingId stores op) := by
  obtain ⟨record, new, hrecord, hshows, hevents, hlength⟩ := id h
  cases op with
  | check utcnow now =>
      have hview : (stores.checked findingId utcnow now).view findingId
          = checkView utcnow now (stores.view findingId) := by
        rw [view_checked, if_pos rfl]
      have hafter := h.afterCheck hrecord hview
      rw [breachTime, hrecord]
      exact hafter
  | evaluate utcnow now =>
      have hview := view_evaluateOnce stores utcnow now findingId
      rw [evaluateView, RiskStores.view, RiskStores.view, hrecord] at hview
      rw [breachTime, hrecord]
      by_cases hactive : record.status = .active
      · rw [if_pos (by rw [← hactive]; rfl), ← hrecord] at hview
        exact h.afterCheck hrecord hview
      · have hnone : ∀ time, breachAt record time = none := by
          intro time
          unfold breachAt
          split
          · next hstatus _ => exact absurd hstatus hactive
          · rfl
        rw [if_neg (by simpa using hactive)] at hview
        obtain ⟨hafter, heventsAfter⟩ := Prod.mk.inj hview
        have hsame : breach.or (do
            let record ← some record; let now ← (SlaOp.evaluate utcnow now).checkTime
            breachAt record now) = breach := by
          simp [hnone]
        rw [hsame]
        exact ⟨record, new, hafter, hshows, heventsAfter.trans hevents, hlength⟩
  | resolve utcnow resolvedAt =>
      have hnone : breachTime findingId stores (.resolve utcnow resolvedAt) = none := by
        rw [breachTime, hrecord]
        rfl
      rw [hnone, Option.or_none]
      simp only [slaStep, resolveRoute, hrecord]
      cases hresolve : SLAService.resolveSla utcnow record resolvedAt with
      | error e => exact ⟨record, new, hrecord, hshows, hevents, hlength⟩
      | ok updated =>
          have hid : findingId = updated.findingId := by
            have hkey := stores.keyed findingId record hrecord
            unfold SLAService.resolveSla at hresolve
            split_ifs at hresolve
            · rw [← Except.ok.inj hresolve, hkey]
            · obtain ⟨now, -, hresolve⟩ := bind_eq_ok.1 hresolve
              rw [← pure_eq_ok.1 hresolve, hkey]
          refine ⟨updated, new, ?_, hshows.resolve hresolve, hevents, hlength⟩
          rw [RiskStores.getSla_recordSla, if_pos hid]

/-- **A run.** -/
lemma ShowsFor.exec {findingId : String} {stores : RiskStores}
    (h : ShowsFor findingId created before none stores) (ops : List SlaOp) :
    ShowsFor findingId created before (firstBreach findingId stores ops)
      (exec (slaStep findingId) stores ops) := by
  induction ops using List.reverseRecOn with
  | nil => exact h
  | append_singleton ops op ih =>
      rw [exec_concat, firstBreach, firstSeen_concat]
      exact ih.step op

/-- **A breach is escalated exactly once.**  After any run on a new record there is one event more
than before if some check found the record active and overdue, and none more otherwise; the level
is the number of new events; `breached_at` is the time of the first such check and stays; and a
record without a deadline is never active or breached. -/
theorem escalates_exactly_once (policy : SLAPolicy) (utcnow : DateTime)
    (assessment : RiskAssessment) (startedAt : Option DateTime) (created : SLARecord)
    (hcreated : SLAService.createSla policy utcnow assessment startedAt = .ok created)
    (stores : RiskStores) (ops rest : List SlaOp) :
    let findingId := created.findingId
    let start := stores.recordSla created
    let breach := firstBreach findingId start ops
    ∃ record new, (exec (slaStep findingId) start ops).getSla findingId = some record
      ∧ (exec (slaStep findingId) start ops).escalationsFor findingId
        = stores.escalationsFor findingId ++ new
      ∧ new.length = (if breach.isSome then 1 else 0)
      ∧ record.escalationLevel = new.length
      ∧ record.breachedAt = breach
      ∧ (created.dueAt = none → record.status ≠ .active ∧ record.status ≠ .breached)
      ∧ (∀ time, record.breachedAt = some time →
        ((exec (slaStep findingId) start (ops ++ rest)).getSla findingId).bind SLARecord.breachedAt
          = some time) := by
  intro findingId start breach
  have hstart : ShowsFor findingId created (stores.escalationsFor findingId) none start := by
    refine ⟨created, [], ?_, Shows.of_createSla hcreated, (List.append_nil _).symm, rfl⟩
    rw [RiskStores.getSla_recordSla, if_pos rfl]
  obtain ⟨record, new, hrecord, hshows, hnew, hlength⟩ := hstart.exec ops
  refine ⟨record, new, hrecord, hnew, ?_, hshows.level.trans hlength.symm, hshows.time, ?_, ?_⟩
  · rw [hlength]
    show _ = if (firstBreach findingId start ops).isSome then 1 else 0
    cases firstBreach findingId start ops <;> rfl
  · intro hnone
    have hnot : ¬ (record.status = .active ∨ record.status = .breached) := by
      intro hor
      simpa [hnone] using hshows.hasDue hor
    exact not_or.1 hnot
  · intro time htime
    obtain ⟨later, -, hlater, hshows', -, -⟩ := hstart.exec (ops ++ rest)
    rw [hlater, Option.bind_some, hshows'.time, firstBreach, firstSeen_append]
    have hfirst : firstSeen (slaStep findingId) (breachTime findingId) start ops = some time :=
      hshows.time.symm.trans htime
    rw [hfirst]
    rfl

/-- A time so many hours after the epoch. -/
def atHour (n : Int) : DateTime := ⟨hours n, some 0⟩

/-- An SLA of a day. -/
def daySla : SLARecord where
  findingId := "f"
  priority := .p1
  startedAt := atHour 0
  dueAt := some (atHour 24)
  status := .active

/-- Checked in time, overdue twice, then with an earlier time, resolved, and checked again. -/
def checkedOverdue : List SlaOp :=
  [.check (atHour 1) none, .evaluate (atHour 25) none, .check (atHour 26) none,
    .check (atHour 26) (some (atHour 2)), .resolve (atHour 27) none, .check (atHour 28) none]

theorem escalates_exactly_once_daySla :
    ∃ record event,
      (exec (slaStep "f") (RiskStores.empty.recordSla daySla) checkedOverdue).getSla "f"
        = some record
      ∧ (exec (slaStep "f") (RiskStores.empty.recordSla daySla) checkedOverdue).escalationsFor "f"
        = [event]
      ∧ record.escalationLevel = 1 ∧ record.breachedAt = some (atHour 25) := by
  have hbreach : firstBreach "f" (RiskStores.empty.recordSla daySla) checkedOverdue
      = some (atHour 25) := by
    decide +kernel
  obtain ⟨record, new, hrecord, hevents, hlength, hlevel, htime, -⟩ :=
    escalates_exactly_once defaultDeadlines (atHour 0) ⟨"f", .p1⟩ none daySla (by decide +kernel)
      RiskStores.empty checkedOverdue []
  have hone : new.length = 1 := by
    rw [hlength]
    exact if_pos (by rw [show daySla.findingId = "f" from rfl, hbreach]; rfl)
  obtain ⟨event, rfl⟩ := List.length_eq_one_iff.1 hone
  exact ⟨record, event, hrecord, hevents, hlevel, htime.trans hbreach⟩

end Sast
