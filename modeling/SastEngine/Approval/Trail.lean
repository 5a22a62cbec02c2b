import SastEngine.Approval.PerAction
import SastEngine.Lib.Journal

/-!
# The audit trail

The events of a request are a journal of its status, and its version counts the review cycles the
journal records.  Both writes of a call keep this for calls made one after another.
-/

namespace Sast

/-- The moves of an approval request, as its events record them. -/
def approvalMoves : Moves ApprovalEvent ApprovalStatus where
  start := .pending
  allowed s s' := s' ∈ allowedTransitions s
  before := ApprovalEvent.previousStatus
  after := ApprovalEvent.newStatus

/-- The event starts a new review cycle. -/
def ApprovalEvent.resubmits (e : ApprovalEvent) : Bool :=
  e.previousStatus = some .changesRequested ∧ e.newStatus = .pending

/-- The events are a chain from the creation of a request to its status. -/
structure TrailLinked (events : List ApprovalEvent) (status : ApprovalStatus) : Prop where
  opens : ∃ e rest, events = e :: rest ∧ e.previousStatus = none ∧ e.newStatus = .pending
  linked : events.IsChain fun e e' =>
    e'.previousStatus = some e.newStatus ∧ e'.newStatus ∈ allowedTransitions e.newStatus
  ends : events.getLast?.map ApprovalEvent.newStatus = some status

/-- The events are the exact history of the request. -/
structure TrailExact (events : List ApprovalEvent) (request : ApprovalRequest) : Prop
    extends TrailLinked events request.status where
  version : request.version = 1 + events.countP ApprovalEvent.resubmits
  closed : ∀ pre e post, events = pre ++ e :: post → e.newStatus ∈ terminalStatuses → post = []

/-- The events are a journal that ends in the status of the request and counts its versions. -/
structure Audits (events : List ApprovalEvent) (request : ApprovalRequest) : Prop where
  journal : Journal approvalMoves events request.status
  version : request.version = 1 + events.countP ApprovalEvent.resubmits

lemma final_of_terminal {s : ApprovalStatus} (h : s ∈ terminalStatuses) :
    approvalMoves.Final s := by
  intro s' hallowed
  have hmem : s' ∈ allowedTransitions s := hallowed
  rw [allowedTransitions_terminal h] at hmem
  cases hmem

/-- A journal of the status is linked. -/
lemma trailLinked_of_journal {events : List ApprovalEvent} {status : ApprovalStatus}
    (h : Journal approvalMoves events status) : TrailLinked events status where
  opens := h.head
  linked := h.linked
  ends := h.last

lemma Audits.exact {events : List ApprovalEvent} {request : ApprovalRequest}
    (h : Audits events request) : TrailExact events request where
  toTrailLinked := trailLinked_of_journal h.journal
  version := h.version
  closed _ _ _ heq hterminal := h.journal.eq_nil_of_final heq (final_of_terminal hterminal)

/-- Every stored request is audited by its events, and there are no other events. -/
def ApprovalStore.Audited (store : ApprovalStore) : Prop :=
  ∀ id, match store.get id with
    | some r => r.id = id ∧ Audits (store.eventsFor id) r
    | none => store.eventsFor id = []

namespace ApprovalStore

@[simp] lemma eventsFor_save (store : ApprovalStore) (r : ApprovalRequest) (id : String) :
    (store.save r).eventsFor id = store.eventsFor id := rfl

lemma eventsFor_recordEvent (store : ApprovalStore) (e : ApprovalEvent) (id : String) :
    (store.recordEvent e).eventsFor id
      = if id = e.approvalId then store.eventsFor id ++ [e] else store.eventsFor id := by
  simp only [eventsFor, recordEvent, Dict.get?_set]
  split_ifs with h
  · rw [h]
    rfl
  · rfl

lemma audited_empty : Audited empty := by
  intro id
  rfl

lemma Audited.wellKeyed {store : ApprovalStore} (h : store.Audited) : store.WellKeyed := by
  intro id r hget
  have hid := h id
  rw [hget] at hid
  exact hid.1

/-- Saving a request and recording its event keeps the store audited, if the trail of that request
with the event audits it. -/
lemma Audited.write {store : ApprovalStore} (h : store.Audited) {r : ApprovalRequest}
    {e : ApprovalEvent} (hid : e.approvalId = r.id)
    (haudits : Audits (store.eventsFor r.id ++ [e]) r) : ((store.save r).recordEvent e).Audited := by
  intro id
  rw [get_recordEvent, get_save, eventsFor_recordEvent, eventsFor_save, hid]
  by_cases heq : id = r.id
  · rw [if_pos heq, if_pos heq, heq]
    exact ⟨rfl, haudits⟩
  · rw [if_neg heq, if_neg heq]
    exact h id

/-- A request saved under a new id with its creation event. -/
lemma Audited.create {store : ApprovalStore} (h : store.Audited) {r : ApprovalRequest}
    (hnew : store.get r.id = none) (moment : Moment) (hstatus : r.status = .pending)
    (hversion : r.version = 1) :
    ((store.save r).recordEvent (creationEvent moment r)).Audited := by
  have hnone := h r.id
  rw [hnew] at hnone
  refine h.write rfl ?_
  rw [hnone]
  refine ⟨?_, ?_⟩
  · rw [hstatus]
    exact .opened rfl rfl
  · rw [hversion]
    rfl

/-- A stored request moved along an allowed transition, with the event of the transition. -/
lemma Audited.move {store : ApprovalStore} (h : store.Audited) {id : String}
    {old : ApprovalRequest} (hget : store.get id = some old) {newStatus : ApprovalStatus}
    (hallowed : newStatus ∈ allowedTransitions old.status) (moment : Moment) (actor : String)
    (reason : Option String) (now : DateTime) :
    ((store.save (reviewed old newStatus actor reason now)).recordEvent
      (transitionEvent moment old newStatus actor reason now)).Audited := by
  have hold := h id
  rw [hget] at hold
  obtain ⟨rfl, haudits⟩ := hold
  refine h.write rfl ⟨.moved haudits.journal rfl hallowed, ?_⟩
  rw [List.countP_append, List.countP_singleton]
  have hversion := haudits.version
  simp only [reviewed, ApprovalEvent.resubmits, transitionEvent, Option.some.injEq,
    decide_eq_true_eq]
  split_ifs
  · omega
  · exact hversion

end ApprovalStore

variable {policy : ApprovalPolicy} {store : ApprovalStore}

/-- **Every call keeps the store audited.** -/
lemma audited_step (h : store.Audited) {call : ApprovalCall} (hfresh : FreshId store call) :
    (approvalStep policy store call).Audited := by
  cases hop : call.op with
  | request findingId action requestedBy requestedAt scanRunId =>
      rw [approvalStep_request policy store call hop]
      split_ifs with hcreate
      · exact h.create (r := requested call findingId action requestedBy requestedAt scanRunId)
          hfresh call.moment rfl rfl
      · exact h
  | decide decision approvalId reviewedBy reason reviewedAt =>
      rcases approvalStep_decide policy store call hop with hsame | ⟨old, hget, hallowed, hmove⟩
      · rw [hsame]
        exact h
      · rw [hmove]
        exact h.move hget hallowed call.moment reviewedBy reason _

/-- No call changes or removes a recorded event. -/
lemma events_kept (policy : ApprovalPolicy) (store : ApprovalStore) (call : ApprovalCall)
    (id : String) : store.eventsFor id <+: (approvalStep policy store call).eventsFor id := by
  have hwrite : ∀ (r : ApprovalRequest) (e : ApprovalEvent),
      store.eventsFor id <+: ((store.save r).recordEvent e).eventsFor id := by
    intro r e
    rw [ApprovalStore.eventsFor_recordEvent, ApprovalStore.eventsFor_save]
    split_ifs
    · exact List.prefix_append _ _
    · exact List.prefix_rfl
  cases hop : call.op with
  | request findingId action requestedBy requestedAt scanRunId =>
      rw [approvalStep_request policy store call hop]
      split_ifs with hcreate
      · exact hwrite _ _
      · exact List.prefix_rfl
  | decide decision approvalId reviewedBy reason reviewedAt =>
      rcases approvalStep_decide policy store call hop with hsame | ⟨old, -, -, hmove⟩
      · have heq : (approvalStep policy store call).eventsFor id = store.eventsFor id := by
          rw [hsame]
        exact heq.symm ▸ List.prefix_rfl
      · rw [hmove]
        exact hwrite _ _

/-- **The audit trail is exact.**  After every run of calls, made one after another from the empty
store, the events of every stored request are its exact history; and every call of the run leaves
the recorded events in place, and changes nothing at all if it is refused. -/
theorem auditTrail_exact (policy : ApprovalPolicy) (calls : List ApprovalCall)
    (hfresh : Throughout (approvalStep policy) FreshId .empty calls) :
    (∀ id r, (exec (approvalStep policy) .empty calls).get id = some r →
        TrailExact ((exec (approvalStep policy) .empty calls).eventsFor id) r)
      ∧ Throughout (approvalStep policy) (fun store call =>
          (∀ id, store.eventsFor id <+: (approvalStep policy store call).eventsFor id)
            ∧ ∀ e, call.run policy store = .error e → approvalStep policy store call = store)
          .empty calls := by
  constructor
  · intro id r hget
    have haudited : (exec (approvalStep policy) .empty calls).Audited :=
      exec_invariant ApprovalStore.Audited (fun _ _ h hf => audited_step h hf)
        ApprovalStore.audited_empty hfresh
    have hid := haudited id
    rw [hget] at hid
    exact hid.2.exact
  · rw [throughout_iff]
    intro pre call post _
    refine ⟨events_kept policy _ call, fun e he => ?_⟩
    simp only [approvalStep, he]

/-- A request that is sent back once, resubmitted with a naive time and then properly, approved,
and rejected too late. -/
def reviewCycle : List ApprovalCall :=
  [confirmedCall (.request "f" .remediation "dev" none none) 1 "a",
    confirmedCall (.decide .requestChanges "a" "lead" (some "tests") none) 2 "b",
    confirmedCall (.decide .resubmit "a" "dev" none (some ⟨3, none⟩)) 3 "c",
    confirmedCall (.decide .resubmit "a" "dev" none none) 4 "d",
    confirmedCall (.decide .approve "a" "lead" none none) 5 "e",
    confirmedCall (.decide .reject "a" "lead" none none) 6 "g"]

/-- The trail of that request: approved in its second version, by the fourth event. -/
theorem auditTrail_reviewCycle :
    ∃ r, (exec (approvalStep defaultPolicy) .empty reviewCycle).get "a" = some r
      ∧ (r.status, r.version) = (.approved, 2)
      ∧ TrailExact ((exec (approvalStep defaultPolicy) .empty reviewCycle).eventsFor "a") r := by
  have hget : ((exec (approvalStep defaultPolicy) .empty reviewCycle).get "a").map
      (fun r => (r.status, r.version)) = some (.approved, 2) := by decide +kernel
  obtain ⟨r, hr, hstatus⟩ := Option.map_eq_some_iff.1 hget
  exact ⟨r, hr, hstatus, (auditTrail_exact defaultPolicy reviewCycle (by decide +kernel)).1 "a" r hr⟩

end Sast
