import SastEngine.Approval.Durability
import SastEngine.Lib.Sorting
import SastEngine.Risk.Durability

/-!
# The order of the trails after a restart

Approval events and escalations are kept in the order in which they were recorded.  A restart reads
their rows, in the order of insertion, and sorts them by time; and the time of an event may be
given by the caller.
-/

namespace Sast

/-! ## Operations -/

/-- The approval store and the risk stores, each with its database copy. -/
structure AuditStores where
  approvals : Mirrored ApprovalStore
  risk : Mirrored RiskStores

/-- The stores of a new process on an empty database. -/
def AuditStores.empty : AuditStores := ⟨⟨.empty, .empty⟩, ⟨.empty, .empty⟩⟩

/-- Operations on approvals and on SLA records, and a restart. -/
inductive AuditOp where
  | approval (call : ApprovalCall)
  | assess (assessment : RiskAssessment)
  | start (findingId : String) (utcnow : DateTime)
  | check (findingId : String) (utcnow : DateTime) (now : Option DateTime)
  | resolve (findingId : String) (utcnow : DateTime) (resolvedAt : Option DateTime)
  | restart

/-- The write of `_start_sla`. -/
def startWrites (findingId : String) (stores : RiskStores) (utcnow : DateTime) :
    List (RiskStores → RiskStores) :=
  match stores.getAssessment findingId with
  | none => []
  | some assessment =>
      match startSla utcnow assessment (stores.getSla findingId) with
      | .ok (record, true) => [(·.recordSla record)]
      | _ => []

/-- The write of `resolve_sla`. -/
def resolveWrites (findingId : String) (stores : RiskStores) (utcnow : DateTime)
    (resolvedAt : Option DateTime) : List (RiskStores → RiskStores) :=
  match stores.getSla findingId with
  | none => []
  | some record =>
      match SLAService.resolveSla utcnow record resolvedAt with
      | .ok updated => [(·.recordSla updated)]
      | .error _ => []

/-- What an operation writes to the risk stores. -/
def AuditOp.riskWrites (stores : RiskStores) : AuditOp → List (RiskStores → RiskStores)
  | .approval _ | .restart => []
  | .assess assessment => [(·.recordAssessment assessment)]
  | .start findingId utcnow => startWrites findingId stores utcnow
  | .check findingId utcnow now => checkWrites findingId stores utcnow now
  | .resolve findingId utcnow resolvedAt => resolveWrites findingId stores utcnow resolvedAt

variable (policy : ApprovalPolicy)

/-- What an operation writes to the approval store. -/
def AuditOp.approvalWrites (store : ApprovalStore) : AuditOp → List (ApprovalStore → ApprovalStore)
  | .approval call => call.writes policy store
  | _ => []

/-- One operation, all of whose database writes succeed. -/
def auditStep (s : AuditStores) : AuditOp → AuditStores
  | .restart => ⟨s.approvals.restart reloadApprovals, s.risk.restart reloadRisk⟩
  | op =>
      { approvals := s.approvals.perform (op.approvalWrites policy s.approvals.memory) none
        risk := s.risk.perform (op.riskWrites s.risk.memory) none }

/-! ## What is expected -/

/-- After the operation a reload gives the trails that the process has, and those of the approval
requests are linked. -/
structure TrailsSurvive (s : AuditStores) (op : AuditOp) : Prop where
  events : ∀ approvalId, (auditStep policy s op).approvals.memory.eventsFor approvalId
    = (reloadApprovals (auditStep policy s op).approvals.database).eventsFor approvalId
  escalations : ∀ findingId, (auditStep policy s op).risk.memory.escalationsFor findingId
    = (reloadRisk (auditStep policy s op).risk.database).escalationsFor findingId
  linked : ∀ approvalId request,
    (reloadApprovals (auditStep policy s op).approvals.database).get approvalId = some request →
    TrailLinked ((reloadApprovals (auditStep policy s op).approvals.database).eventsFor approvalId)
      request.status

/-- No earlier time than that of the last event, if there is one. -/
def NotBefore (last : Option DateTime) (time : DateTime) : Prop :=
  ∀ t ∈ last, t.instant ≤ time.instant

instance (last : Option DateTime) (time : DateTime) : Decidable (NotBefore last time) :=
  inferInstanceAs (Decidable (∀ t ∈ last, t.instant ≤ time.instant))

/-- A decision that goes through is not stamped earlier than the last event of its request. -/
def DecidedInOrder (store : ApprovalStore) (call : ApprovalCall) : Prop :=
  match call.op with
  | .request .. => True
  | .decide decision approvalId _ _ reviewedAt =>
      ∀ request ∈ store.get approvalId, decision.target ∈ allowedTransitions request.status →
        StampAware call.moment reviewedAt →
          NotBefore ((store.eventsFor approvalId).getLast?.map ApprovalEvent.createdAt)
            (reviewedAt.getD call.moment.utcnow)

/-- A check that breaches the SLA is not made at an earlier time than the last escalation. -/
def CheckedInOrder (stores : RiskStores) (findingId : String) (now : DateTime) : Prop :=
  ∀ record ∈ stores.getSla findingId, record.status ∉ [.resolved, .breached] →
    ∀ due ∈ record.dueAt, now.isAware → due.instant ≤ now.instant →
      NotBefore ((stores.escalationsFor findingId).getLast?.map EscalationEvent.createdAt) now

/-- The operation records no event earlier than the last one of the same trail. -/
def StampedInOrder (s : AuditStores) : AuditOp → Prop
  | .approval call => DecidedInOrder s.approvals.memory call
  | .check findingId utcnow now => CheckedInOrder s.risk.memory findingId (now.getD utcnow)
  | _ => True

/-- The id generated for an approval call is new. -/
def FreshAuditOp (s : AuditStores) : AuditOp → Prop
  | .approval call => FreshId s.approvals.memory call
  | _ => True

/-! ## Reloading -/

/-- The events are in the order of their times. -/
def InTimeOrder {α : Type} (time : α → DateTime) (events : List α) : Prop :=
  events.Pairwise fun e e' => (time e).instant ≤ (time e').instant

lemma inTimeOrder_concat_iff {α : Type} {time : α → DateTime} {events : List α} {e : α} :
    InTimeOrder time (events ++ [e])
      ↔ InTimeOrder time events ∧ NotBefore (events.getLast?.map time) (time e) := by
  rw [InTimeOrder, sorted_concat_iff (fun e => (time e).instant)]
  refine and_congr Iff.rfl ?_
  cases events.getLast? with
  | none => simp [NotBefore]
  | some last => simp [NotBefore]

lemma eventsFor_reload (database : ApprovalStore) (approvalId : String) :
    (reloadApprovals database).eventsFor approvalId
      = sortUp (fun e => e.createdAt.instant) (database.eventsFor approvalId) := by
  rw [ApprovalStore.eventsFor, reloadApprovals, Dict.get?_mapValues, ApprovalStore.eventsFor]
  cases database.events.get? approvalId with
  | none => rfl
  | some events => rfl

lemma escalationsFor_reload (database : RiskStores) (findingId : String) :
    (reloadRisk database).escalationsFor findingId
      = sortUp (fun e => e.createdAt.instant) (database.escalationsFor findingId) := by
  rw [RiskStores.escalationsFor, reloadRisk, Dict.get?_mapValues, RiskStores.escalationsFor]
  cases database.escalations.get? findingId with
  | none => rfl
  | some events => rfl

/-- Trails in the order of their times are reloaded as they are. -/
lemma reloadApprovals_eq_self {store : ApprovalStore}
    (h : ∀ approvalId, InTimeOrder ApprovalEvent.createdAt (store.eventsFor approvalId)) :
    reloadApprovals store = store := by
  have hevents : store.events.mapValues
      (List.insertionSort fun e e' => e.createdAt.instant ≤ e'.createdAt.instant)
        = store.events := by
    refine Dict.mapValues_eq_self fun events hmem => ?_
    obtain ⟨approvalId, hget⟩ := store.events.mem_values_iff.1 hmem
    have hsorted := h approvalId
    rw [ApprovalStore.eventsFor, hget] at hsorted
    exact (sortUp_eq_self_iff _ events).2 hsorted
  rw [reloadApprovals, hevents]

lemma reloadRisk_eq_self {stores : RiskStores}
    (h : ∀ findingId, InTimeOrder EscalationEvent.createdAt (stores.escalationsFor findingId)) :
    reloadRisk stores = stores := by
  have hevents : stores.escalations.mapValues
      (List.insertionSort fun e e' => e.createdAt.instant ≤ e'.createdAt.instant)
        = stores.escalations := by
    refine Dict.mapValues_eq_self fun events hmem => ?_
    obtain ⟨findingId, hget⟩ := stores.escalations.mem_values_iff.1 hmem
    have hsorted := h findingId
    rw [RiskStores.escalationsFor, hget] at hsorted
    exact (sortUp_eq_self_iff _ events).2 hsorted
  rw [reloadRisk, hevents]

/-! ## One operation -/

/-- Both copies are equal, requests are audited by their events, and no trail goes back in time. -/
structure TrailsOrdered (s : AuditStores) : Prop where
  approvals : s.approvals.database = s.approvals.memory
  risk : s.risk.database = s.risk.memory
  audited : s.approvals.memory.Audited
  events : ∀ approvalId,
    InTimeOrder ApprovalEvent.createdAt (s.approvals.memory.eventsFor approvalId)
  escalations : ∀ findingId,
    InTimeOrder EscalationEvent.createdAt (s.risk.memory.escalationsFor findingId)

variable {policy} {s : AuditStores} {op : AuditOp}

lemma instant_asAwareUtc (d : DateTime) : d.asAwareUtc.instant = d.instant := by
  unfold DateTime.instant DateTime.asAwareUtc
  cases d.utcoffset with
  | none => simp
  | some offset => simp

/-- An operation on equal copies is performed on both. -/
lemma auditStep_eq (h : TrailsOrdered s) (hop : op ≠ .restart) :
    auditStep policy s op
      = { approvals :=
            ⟨writeAll (op.approvalWrites policy s.approvals.memory) s.approvals.memory,
              writeAll (op.approvalWrites policy s.approvals.memory) s.approvals.memory⟩
          risk :=
            ⟨writeAll (op.riskWrites s.risk.memory) s.risk.memory,
              writeAll (op.riskWrites s.risk.memory) s.risk.memory⟩ } := by
  have happrovals : Completes (op.approvalWrites policy s.approvals.memory) none := trivial
  have hrisk : Completes (op.riskWrites s.risk.memory) none := trivial
  have hstep : auditStep policy s op
      = { approvals := s.approvals.perform (op.approvalWrites policy s.approvals.memory) none
          risk := s.risk.perform (op.riskWrites s.risk.memory) none } := by
    cases op with
    | restart => exact absurd rfl hop
    | _ => rfl
  rw [hstep, Mirrored.perform_completes happrovals, Mirrored.perform_completes hrisk,
    h.approvals, h.risk]

/-- A restart finds what the process had. -/
lemma auditStep_restart (h : TrailsOrdered s) : auditStep policy s .restart = s := by
  obtain ⟨⟨memory, database⟩, ⟨riskMemory, riskDatabase⟩⟩ := s
  obtain rfl : database = memory := h.approvals
  obtain rfl : riskDatabase = riskMemory := h.risk
  show AuditStores.mk ⟨reloadApprovals database, database⟩ ⟨reloadRisk riskDatabase, riskDatabase⟩
    = _
  rw [reloadApprovals_eq_self h.events, reloadRisk_eq_self h.escalations]

/-- A decision keeps the trails in order exactly if it is stamped so. -/
lemma events_inOrder_iff {store : ApprovalStore} (haudited : store.Audited)
    (hordered : ∀ approvalId, InTimeOrder ApprovalEvent.createdAt (store.eventsFor approvalId))
    {call : ApprovalCall} (hfresh : FreshId store call) :
    (∀ approvalId, InTimeOrder ApprovalEvent.createdAt
        ((approvalStep policy store call).eventsFor approvalId))
      ↔ DecidedInOrder store call := by
  cases hop : call.op with
  | request findingId action requestedBy requestedAt scanRunId =>
      simp only [DecidedInOrder, hop, iff_true]
      intro approvalId
      rw [approvalStep_request policy store call hop]
      split_ifs with hcreate
      · rw [ApprovalStore.eventsFor_recordEvent, ApprovalStore.eventsFor_save]
        split_ifs with hid
        · have hnone := haudited call.moment.requestId
          rw [hfresh] at hnone
          have hempty : store.eventsFor approvalId = [] := hid.symm ▸ hnone
          rw [hempty]
          exact List.pairwise_singleton _ _
        · exact hordered approvalId
      · exact hordered approvalId
  | decide decision approvalId reviewedBy reason reviewedAt =>
      simp only [DecidedInOrder, hop]
      cases hget : store.get approvalId with
      | none =>
          rw [approvalStep_decide_unknown policy store call hop hget]
          simp [hordered]
      | some request =>
          rw [approvalStep_decide_known policy store call hop hget]
          simp only [Option.mem_some_iff, forall_eq']
          split_ifs with hgoes
          · have hid : request.id = approvalId := haudited.wellKeyed approvalId request hget
            have hevents : ∀ id, (((store.save (decided call request decision reviewedBy reason
                reviewedAt)).recordEvent (transitionEvent call.moment request decision.target
                  reviewedBy reason (reviewedAt.getD call.moment.utcnow).asAwareUtc)).eventsFor id)
                = if id = approvalId then store.eventsFor id ++ [transitionEvent call.moment request
                    decision.target reviewedBy reason
                      (reviewedAt.getD call.moment.utcnow).asAwareUtc]
                  else store.eventsFor id := by
              intro id
              rw [ApprovalStore.eventsFor_recordEvent, ApprovalStore.eventsFor_save,
                show (transitionEvent call.moment request decision.target reviewedBy reason
                  (reviewedAt.getD call.moment.utcnow).asAwareUtc).approvalId = request.id from rfl,
                hid]
            have htime : NotBefore ((store.eventsFor approvalId).getLast?.map
                ApprovalEvent.createdAt) (reviewedAt.getD call.moment.utcnow).asAwareUtc
                ↔ NotBefore ((store.eventsFor approvalId).getLast?.map ApprovalEvent.createdAt)
                  (reviewedAt.getD call.moment.utcnow) := by
              rw [NotBefore, NotBefore, instant_asAwareUtc]
            constructor
            · intro hafter _ _
              have hlast := hafter approvalId
              rw [hevents, if_pos rfl] at hlast
              exact htime.1 (inTimeOrder_concat_iff.1 hlast).2
            · intro hlast id
              rw [hevents]
              split_ifs with heq
              · subst heq
                exact inTimeOrder_concat_iff.2 ⟨hordered id, htime.2 (hlast hgoes.1 hgoes.2)⟩
              · exact hordered id
          · constructor
            · intro _ hallowed haware
              exact absurd ⟨hallowed, haware⟩ hgoes
            · intro _
              exact hordered

/-- The event of a check. -/
lemma event_checkAt (record : SLARecord) (now : DateTime) :
    (SLAService.checkAt record now).2 = none
        ∧ ¬ (record.status ∉ [.resolved, .breached] ∧ ∃ due ∈ record.dueAt,
          due.instant ≤ now.instant)
      ∨ ∃ event, (SLAService.checkAt record now).2 = some event ∧ event.createdAt = now
        ∧ record.status ∉ [.resolved, .breached] ∧ ∃ due ∈ record.dueAt,
          due.instant ≤ now.instant := by
  cases hdue : record.dueAt with
  | none =>
      left
      cases hstatus : record.status <;> simp [SLAService.checkAt, hstatus, hdue]
  | some due =>
      by_cases hover : due.instant ≤ now.instant
      · cases hstatus : record.status with
        | resolved | breached =>
            left
            simp [SLAService.checkAt, hstatus, hdue]
        | active | notApplicable =>
            right
            exact ⟨SLAService.escalation record due now,
              by simp [SLAService.checkAt, hstatus, hdue, hover], rfl, by simp, due, rfl, hover⟩
      · left
        cases hstatus : record.status <;> simp [SLAService.checkAt, hstatus, hdue, hover]

/-- A check keeps the escalations in order exactly if it is made so. -/
lemma escalations_inOrder_iff {stores : RiskStores}
    (hordered : ∀ findingId,
      InTimeOrder EscalationEvent.createdAt (stores.escalationsFor findingId))
    (findingId : String) (utcnow : DateTime) (now : Option DateTime) :
    (∀ other, InTimeOrder EscalationEvent.createdAt
        ((stores.checked findingId utcnow now).escalationsFor other))
      ↔ CheckedInOrder stores findingId (now.getD utcnow) := by
  have hview : ∀ other, (stores.checked findingId utcnow now).escalationsFor other
      = if other = findingId then (checkView utcnow now (stores.view findingId)).2
        else stores.escalationsFor other := by
    intro other
    have h := congrArg Prod.snd (view_checked stores findingId utcnow now other)
    split_ifs at h ⊢ with hother
    · exact h
    · exact h
  have hown : (∀ other, InTimeOrder EscalationEvent.createdAt
        ((stores.checked findingId utcnow now).escalationsFor other))
      ↔ InTimeOrder EscalationEvent.createdAt (checkView utcnow now (stores.view findingId)).2 := by
    constructor
    · intro h
      have hfinding := h findingId
      rw [hview, if_pos rfl] at hfinding
      exact hfinding
    · intro h other
      rw [hview]
      split_ifs
      · exact h
      · exact hordered other
  rw [hown]
  cases hget : stores.getSla findingId with
  | none =>
      have hsame : (checkView utcnow now (stores.view findingId)).2
          = stores.escalationsFor findingId := by
        simp [checkView, RiskStores.view, hget]
      rw [hsame, CheckedInOrder, hget]
      simp [hordered]
  | some record =>
      rw [CheckedInOrder, hget]
      simp only [Option.mem_some_iff, forall_eq']
      by_cases haware : (now.getD utcnow).isAware
      · have hevents : (checkView utcnow now (stores.view findingId)).2
            = stores.escalationsFor findingId
              ++ (SLAService.checkAt record (now.getD utcnow).asAwareUtc).2.toList := by
          simp [checkView, RiskStores.view, hget, SLAService.checkSla, SLAService.ensureAware,
            haware, bind, Except.bind, pure, Except.pure]
        rw [hevents]
        rcases event_checkAt record (now.getD utcnow).asAwareUtc with
          ⟨hnone, hnot⟩ | ⟨event, hevent, htime, hstatus, due, hdue, hover⟩
        · rw [hnone, Option.toList_none, List.append_nil]
          rw [instant_asAwareUtc] at hnot
          constructor
          · intro _ hstatus due hdue _ hover
            exact absurd ⟨hstatus, due, hdue, hover⟩ hnot
          · intro _
            exact hordered findingId
        · rw [hevent, Option.toList_some, inTimeOrder_concat_iff, htime]
          rw [instant_asAwareUtc] at hover
          constructor
          · rintro ⟨-, hlast⟩ _ _ _ _ _ t ht
            have := hlast t ht
            rwa [instant_asAwareUtc] at this
          · intro h
            refine ⟨hordered findingId, fun t ht => ?_⟩
            rw [instant_asAwareUtc]
            exact h hstatus due hdue haware hover t ht
      · have hsame : (checkView utcnow now (stores.view findingId)).2
            = stores.escalationsFor findingId := by
          simp [checkView, RiskStores.view, hget, SLAService.checkSla, SLAService.ensureAware,
            haware, bind, Except.bind]
        rw [hsame]
        constructor
        · intro _ _ _ _ hisAware
          exact absurd hisAware haware
        · intro _
          exact hordered findingId

/-- Only a check records an escalation. -/
lemma escalationsFor_riskWrites (stores : RiskStores) (hop : ∀ f u n, op ≠ .check f u n)
    (findingId : String) :
    (writeAll (op.riskWrites stores) stores).escalationsFor findingId
      = stores.escalationsFor findingId := by
  cases op with
  | approval call => rfl
  | restart => rfl
  | assess assessment => rfl
  | check f utcnow now => exact absurd rfl (hop f utcnow now)
  | start f utcnow =>
      simp only [AuditOp.riskWrites, startWrites]
      split
      · rfl
      · split <;> rfl
  | resolve f utcnow resolvedAt =>
      simp only [AuditOp.riskWrites, resolveWrites]
      split
      · rfl
      · split <;> rfl

/-- The trails of an operation are in order after it exactly if its stamps are. -/
lemma trails_inOrder_iff (policy : ApprovalPolicy) (h : TrailsOrdered s)
    (hfresh : FreshAuditOp s op) :
    ((∀ approvalId, InTimeOrder ApprovalEvent.createdAt
        ((auditStep policy s op).approvals.memory.eventsFor approvalId))
      ∧ ∀ findingId, InTimeOrder EscalationEvent.createdAt
        ((auditStep policy s op).risk.memory.escalationsFor findingId))
      ↔ StampedInOrder s op := by
  by_cases hrestart : op = .restart
  · subst hrestart
    rw [auditStep_restart h]
    simp only [StampedInOrder, iff_true]
    exact ⟨h.events, h.escalations⟩
  · rw [auditStep_eq h hrestart]
    cases op with
    | restart => exact absurd rfl hrestart
    | approval call =>
        have hwrites : writeAll (AuditOp.approvalWrites policy s.approvals.memory (.approval call))
            s.approvals.memory = approvalStep policy s.approvals.memory call :=
          writeAll_writes policy s.approvals.memory call
        rw [hwrites]
        exact (and_iff_left h.escalations).trans (events_inOrder_iff h.audited h.events hfresh)
    | check findingId utcnow now =>
        have hwrites : writeAll (AuditOp.riskWrites s.risk.memory (.check findingId utcnow now))
            s.risk.memory = s.risk.memory.checked findingId utcnow now :=
          writeAll_checkWrites findingId s.risk.memory utcnow now
        rw [hwrites]
        exact (and_iff_right h.events).trans
          (escalations_inOrder_iff h.escalations findingId utcnow now)
    | assess | start | resolve =>
        simp only [StampedInOrder, iff_true]
        refine ⟨h.events, fun findingId => ?_⟩
        rw [escalationsFor_riskWrites s.risk.memory (by simp)]
        exact h.escalations findingId

/-- What holds after every operation: the copies stay equal, and the requests audited. -/
lemma copies_step (policy : ApprovalPolicy) (h : TrailsOrdered s) (hfresh : FreshAuditOp s op) :
    (auditStep policy s op).approvals.database = (auditStep policy s op).approvals.memory
      ∧ (auditStep policy s op).risk.database = (auditStep policy s op).risk.memory
      ∧ (auditStep policy s op).approvals.memory.Audited := by
  by_cases hrestart : op = .restart
  · subst hrestart
    rw [auditStep_restart h]
    exact ⟨h.approvals, h.risk, h.audited⟩
  · rw [auditStep_eq h hrestart]
    refine ⟨rfl, rfl, ?_⟩
    cases op with
    | approval call =>
        show (writeAll (call.writes policy s.approvals.memory) s.approvals.memory).Audited
        rw [writeAll_writes]
        exact audited_step h.audited hfresh
    | _ => exact h.audited

/-- **One operation.**  A reload agrees with the process exactly if the operation records no event
earlier than the last one of its trail. -/
lemma trailsSurvive_iff (h : TrailsOrdered s) (hfresh : FreshAuditOp s op) :
    TrailsSurvive policy s op ↔ StampedInOrder s op := by
  obtain ⟨happrovals, hrisk, haudited⟩ := copies_step policy h hfresh
  rw [← trails_inOrder_iff policy h hfresh]
  constructor
  · rintro ⟨hevents, hescalations, -⟩
    rw [happrovals] at hevents
    rw [hrisk] at hescalations
    constructor
    · intro approvalId
      refine (sortUp_eq_self_iff (fun e : ApprovalEvent => e.createdAt.instant) _).1 ?_
      rw [← eventsFor_reload]
      exact (hevents approvalId).symm
    · intro findingId
      refine (sortUp_eq_self_iff (fun e : EscalationEvent => e.createdAt.instant) _).1 ?_
      rw [← escalationsFor_reload]
      exact (hescalations findingId).symm
  · rintro ⟨hevents, hescalations⟩
    have hreload := reloadApprovals_eq_self hevents
    refine ⟨?_, ?_, ?_⟩
    · intro approvalId
      rw [happrovals, hreload]
    · intro findingId
      rw [hrisk, reloadRisk_eq_self hescalations]
    · rw [happrovals, hreload]
      intro approvalId request hget
      have hid := haudited approvalId
      rw [hget] at hid
      exact trailLinked_of_journal hid.2.journal

lemma TrailsOrdered.step (h : TrailsOrdered s) (hfresh : FreshAuditOp s op)
    (hstamped : StampedInOrder s op) : TrailsOrdered (auditStep policy s op) := by
  obtain ⟨happrovals, hrisk, haudited⟩ := copies_step policy h hfresh
  obtain ⟨hevents, hescalations⟩ := (trails_inOrder_iff policy h hfresh).2 hstamped
  exact ⟨happrovals, hrisk, haudited, hevents, hescalations⟩

/-! ## Runs -/

lemma trailsOrdered_empty : TrailsOrdered .empty where
  approvals := rfl
  risk := rfl
  audited := ApprovalStore.audited_empty
  events _ := List.Pairwise.nil
  escalations _ := List.Pairwise.nil

/-- **Audit order survives restarts** throughout exactly the runs in which no decision and no
breach is stamped earlier than the last event of the same request or finding. -/
theorem throughout_trailsSurvive_iff (policy : ApprovalPolicy) (ops : List AuditOp)
    (hfresh : Throughout (auditStep policy) FreshAuditOp .empty ops) :
    Throughout (auditStep policy) (TrailsSurvive policy) .empty ops
      ↔ Throughout (auditStep policy) StampedInOrder .empty ops := by
  refine throughout_congr TrailsOrdered (fun s op h hop => trailsSurvive_iff h hop) ?_
    trailsOrdered_empty hfresh
  intro s op h hop hsurvive
  exact h.step hop ((trailsSurvive_iff h hop).1 hsurvive)

/-! ## A backdated decision -/

instance (store : ApprovalStore) (call : ApprovalCall) : Decidable (DecidedInOrder store call) :=
  match call with
  | ⟨.request .., _, _⟩ => isTrue trivial
  | ⟨.decide decision approvalId _ _ reviewedAt, _, moment⟩ => inferInstanceAs (Decidable
      (∀ request ∈ store.get approvalId, decision.target ∈ allowedTransitions request.status →
        StampAware moment reviewedAt →
          NotBefore ((store.eventsFor approvalId).getLast?.map ApprovalEvent.createdAt)
            (reviewedAt.getD moment.utcnow)))

instance (stores : RiskStores) (findingId : String) (now : DateTime) :
    Decidable (CheckedInOrder stores findingId now) :=
  inferInstanceAs (Decidable (∀ record ∈ stores.getSla findingId,
    record.status ∉ [.resolved, .breached] →
      ∀ due ∈ record.dueAt, now.isAware → due.instant ≤ now.instant →
        NotBefore ((stores.escalationsFor findingId).getLast?.map EscalationEvent.createdAt) now))

instance (s : AuditStores) (op : AuditOp) : Decidable (StampedInOrder s op) :=
  match op with
  | .approval call => inferInstanceAs (Decidable (DecidedInOrder s.approvals.memory call))
  | .check findingId utcnow now =>
      inferInstanceAs (Decidable (CheckedInOrder s.risk.memory findingId (now.getD utcnow)))
  | .assess _ | .start .. | .resolve .. | .restart => isTrue trivial

instance (s : AuditStores) (op : AuditOp) : Decidable (FreshAuditOp s op) :=
  match op with
  | .approval call => inferInstanceAs (Decidable (FreshId s.approvals.memory call))
  | .assess _ | .start .. | .check .. | .resolve .. | .restart => isTrue trivial

/-- A request that is approved, an SLA that is breached, and a restart. -/
def timelyTrails : List AuditOp :=
  [.approval (confirmedCall (.request "f" .remediation "dev" none none) 1 "a"),
    .assess ⟨"f", .p1⟩, .start "f" (atHour 0),
    .approval (confirmedCall (.decide .approve "a" "lead" none (some ⟨3, some 2⟩)) 2 "b"),
    .check "f" (atHour 25) none, .restart]

theorem throughout_trailsSurvive_timely :
    Throughout (auditStep defaultPolicy) (TrailsSurvive defaultPolicy) .empty timelyTrails :=
  (throughout_trailsSurvive_iff defaultPolicy timelyTrails (by decide +kernel)).2
    (by decide +kernel)

/-- An approval dated before its request. -/
def backdatedApproval : List AuditOp :=
  [.approval (confirmedCall (.request "f" .remediation "dev" none none) 5 "a"),
    .approval (confirmedCall (.decide .approve "a" "lead" none (some ⟨2, some 0⟩)) 6 "b")]

/-- The reloaded trail of a backdated approval starts with the approval. -/
theorem not_throughout_trailsSurvive :
    ¬ ∀ policy ops, Throughout (auditStep policy) FreshAuditOp .empty ops →
      Throughout (auditStep policy) (TrailsSurvive policy) .empty ops := by
  intro h
  obtain ⟨-, hsurvive, -⟩ := h defaultPolicy backdatedApproval (by decide +kernel)
  have hevents := congrArg (List.map ApprovalEvent.newStatus) (hsurvive.events "a")
  revert hevents
  decide +kernel

end Sast
