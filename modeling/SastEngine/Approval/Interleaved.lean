import SastEngine.Approval.Trail
import SastEngine.Lib.Except
import SastEngine.Lib.Interleaving

/-!
# Interleaved approval calls

Each call makes its store accesses one by one: `find_active` or `get`, the check of the newest
request, `save`, `record_event`.  Nothing spans them, so the accesses of several calls interleave.
The guarantees of sequential calls survive as long as no call writes over a status it did not read
and the events of a request are recorded in the order of the saves.
-/

namespace Sast

/-- Where a call stands between two accesses. -/
inductive Phase where
  | start
  | inactive
  | writing (request : ApprovalRequest) (event : ApprovalEvent)
  | recording (request : ApprovalRequest) (event : ApprovalEvent)
  | returned (request : ApprovalRequest)
  | raised (e : ApprovalError)

/-- A call in progress. -/
structure Task where
  call : ApprovalCall
  phase : Phase

/-- The store, with the events of saved changes that are not recorded yet, in the order of the
saves. -/
structure Desk where
  store : ApprovalStore
  unrecorded : List ApprovalEvent

/-- What `request_approval` is about to write once it has found no obstacle. -/
def draftRequest (policy : ApprovalPolicy) (call : ApprovalCall) (findingId : String)
    (action : ApprovalAction) (requestedBy : String) (requestedAt : Option DateTime)
    (scanRunId : Option String) : Except ApprovalError (ApprovalRequest × ApprovalEvent) := do
  checkEligibility policy call.gates findingId
  let now ← ensureAwareUtc (requestedAt.getD call.moment.utcnow) "requested_at"
  let request := newRequest call.moment findingId action requestedBy now scanRunId
  return (request, creationEvent call.moment request)

/-- What `_transition` is about to write for the request it has read. -/
def draftDecision (call : ApprovalCall) (request : ApprovalRequest) (newStatus : ApprovalStatus)
    (actor : String) (reason : Option String) (reviewedAt : Option DateTime) :
    Except ApprovalError (ApprovalRequest × ApprovalEvent) :=
  if newStatus ∈ allowedTransitions request.status then do
    let now ← ensureAwareUtc (reviewedAt.getD call.moment.utcnow) "reviewed_at"
    return (reviewed request newStatus actor reason now,
      transitionEvent call.moment request newStatus actor reason now)
  else .error (.invalidTransition ("invalid approval transition: " ++ request.status.text
    ++ " -> " ++ newStatus.text ++ " is not allowed"))

/-- A call goes on to write its draft, or raises. -/
def Phase.ofDraft : Except ApprovalError (ApprovalRequest × ApprovalEvent) → Phase
  | .ok (request, event) => .writing request event
  | .error e => .raised e

/-- The phase of a call after its next access. -/
def Task.next (policy : ApprovalPolicy) (store : ApprovalStore) (task : Task) : Phase :=
  match task.phase, task.call.op with
  | .start, .request findingId action _ _ _ =>
      match store.findActive findingId action activeStatuses with
      | some existing => .returned existing
      | none => .inactive
  | .start, .decide decision approvalId reviewedBy reason reviewedAt =>
      match store.get approvalId with
      | none => .raised (.invalidTransition s!"unknown approval request: {approvalId}")
      | some request =>
          .ofDraft (draftDecision task.call request decision.target reviewedBy reason reviewedAt)
  | .inactive, .request findingId action requestedBy requestedAt scanRunId =>
      match newestTerminal store findingId, policy.allowReRequestAfterTerminal with
      | some status, false => .raised (.gate (reRequestMessage findingId status))
      | _, _ => .ofDraft (draftRequest policy task.call findingId action requestedBy requestedAt
          scanRunId)
  | .writing request event, _ => .recording request event
  | .recording request _, _ => .returned request
  | phase, _ => phase

/-- What the next access writes. -/
def Desk.write (desk : Desk) : Phase → Desk
  | .writing request event => ⟨desk.store.save request, desk.unrecorded ++ [event]⟩
  | .recording _ event => ⟨desk.store.recordEvent event, desk.unrecorded.erase event⟩
  | _ => desk

/-- The next access of a call. -/
def access (policy : ApprovalPolicy) (desk : Desk) (task : Task) : Desk × Task :=
  (desk.write task.phase, { task with phase := task.next policy desk.store })

/-- One move of an interleaving of approval calls. -/
abbrev deskStep (policy : ApprovalPolicy) : Pool Desk Task → Move Task → Pool Desk Task :=
  Pool.step (access policy)

/-- No calls, and an empty store. -/
def Pool.idle : Pool Desk Task := ⟨⟨.empty, []⟩, []⟩

/-! ## Calls on their own -/

/-- How a finished call ended. -/
def Task.outcome (task : Task) : Option (Except ApprovalError ApprovalRequest) :=
  match task.phase with
  | .returned request => some (.ok request)
  | .raised e => some (.error e)
  | _ => none

lemma createRequest_eq_draft (policy : ApprovalPolicy) (store : ApprovalStore)
    (call : ApprovalCall) (findingId : String) (action : ApprovalAction) (requestedBy : String)
    (requestedAt : Option DateTime) (scanRunId : Option String) :
    createRequest policy call.gates call.moment store findingId action requestedBy requestedAt
        scanRunId
      = (draftRequest policy call findingId action requestedBy requestedAt scanRunId).map
        fun draft => (draft.1, (store.save draft.1).recordEvent draft.2) := by
  simp only [createRequest, draftRequest]
  cases checkEligibility policy call.gates findingId with
  | error e => rfl
  | ok u =>
      cases ensureAwareUtc (requestedAt.getD call.moment.utcnow) "requested_at" with
      | error e => rfl
      | ok now => rfl

lemma transition_eq_draft (call : ApprovalCall) (store : ApprovalStore) (approvalId : String)
    (newStatus : ApprovalStatus) (actor : String) (reason : Option String)
    (reviewedAt : Option DateTime) {request : ApprovalRequest}
    (hget : store.get approvalId = some request) :
    transition call.moment store approvalId newStatus actor reason reviewedAt
      = (draftDecision call request newStatus actor reason reviewedAt).map
        fun draft => (draft.1, (store.save draft.1).recordEvent draft.2) := by
  simp only [transition, hget, draftDecision]
  split_ifs
  · cases ensureAwareUtc (reviewedAt.getD call.moment.utcnow) "reviewed_at" with
    | error e => rfl
    | ok now => rfl
  · rfl

/-- The desk and the task after a call's accesses, made one after another. -/
def alone (policy : ApprovalPolicy) : Nat → Desk × Task → Desk × Task
  | 0, state => state
  | n + 1, state => alone policy n (access policy state.1 state.2)

lemma alone_returned (policy : ApprovalPolicy) (desk : Desk) (call : ApprovalCall)
    (request : ApprovalRequest) (n : Nat) :
    alone policy n (desk, ⟨call, .returned request⟩) = (desk, ⟨call, .returned request⟩) := by
  induction n with
  | zero => rfl
  | succ n ih => simpa [alone, access, Desk.write, Task.next] using ih

lemma alone_raised (policy : ApprovalPolicy) (desk : Desk) (call : ApprovalCall)
    (e : ApprovalError) (n : Nat) :
    alone policy n (desk, ⟨call, .raised e⟩) = (desk, ⟨call, .raised e⟩) := by
  induction n with
  | zero => rfl
  | succ n ih => simpa [alone, access, Desk.write, Task.next] using ih

/-- The end of a call on its own: the store it leaves and how it ends. -/
def Ends (state : Desk × Task)
    (result : Except ApprovalError (ApprovalRequest × ApprovalStore)) (store : ApprovalStore) :
    Prop :=
  state.1 = ⟨(result.map Prod.snd).toOption.getD store, []⟩
    ∧ state.2.outcome = some (result.map Prod.fst)

/-- The two writes of a call on its own, or its refusal. -/
lemma ends_ofDraft (policy : ApprovalPolicy) (store : ApprovalStore) (call : ApprovalCall)
    (draft : Except ApprovalError (ApprovalRequest × ApprovalEvent)) (n : Nat) :
    Ends (alone policy (n + 2) (⟨store, []⟩, ⟨call, .ofDraft draft⟩))
      (draft.map fun d => (d.1, (store.save d.1).recordEvent d.2)) store := by
  cases draft with
  | error e =>
      rw [Phase.ofDraft, alone_raised]
      exact ⟨rfl, rfl⟩
  | ok d =>
      obtain ⟨request, event⟩ := d
      have hwrites : alone policy (n + 2) (⟨store, []⟩, ⟨call, .writing request event⟩)
          = alone policy n (⟨(store.save request).recordEvent event, []⟩,
            ⟨call, .returned request⟩) := by
        simp [alone, access, Desk.write, Task.next]
      rw [Phase.ofDraft, hwrites, alone_returned]
      exact ⟨rfl, rfl⟩

/-- **A call whose accesses nobody interrupts** is a call of the sequential service. -/
theorem alone_eq_run (policy : ApprovalPolicy) (store : ApprovalStore) (call : ApprovalCall) :
    Ends (alone policy 4 (⟨store, []⟩, ⟨call, .start⟩)) (call.run policy store) store := by
  rw [alone]
  cases hop : call.op with
  | request findingId action requestedBy requestedAt scanRunId =>
      simp only [access, Desk.write, Task.next, hop, ApprovalCall.run, requestApproval]
      cases store.findActive findingId action activeStatuses with
      | some existing =>
          rw [alone_returned]
          exact ⟨rfl, rfl⟩
      | none =>
          rw [alone]
          simp only [access, Desk.write, Task.next, hop]
          rw [createRequest_eq_draft]
          cases newestTerminal store findingId with
          | none => exact ends_ofDraft policy store call _ 0
          | some status =>
              cases policy.allowReRequestAfterTerminal with
              | true => exact ends_ofDraft policy store call _ 0
              | false =>
                  rw [alone_raised]
                  exact ⟨rfl, rfl⟩
  | decide decision approvalId reviewedBy reason reviewedAt =>
      simp only [access, Desk.write, Task.next, hop, ApprovalCall.run, decideApproval]
      cases hget : store.get approvalId with
      | none =>
          rw [alone_raised, transition, hget]
          exact ⟨rfl, rfl⟩
      | some request =>
          rw [transition_eq_draft call store approvalId decision.target reviewedBy reason
            reviewedAt hget]
          exact ends_ofDraft policy store call _ 1

/-! ## What interleavings should keep -/

/-- A successful decision to a terminal status on the request. -/
def Task.succeeded (id : String) (task : Task) : Bool :=
  match task.call.op, task.phase with
  | .decide decision approvalId _ _ _, .returned _ =>
      approvalId = id && decision.target ∈ terminalStatuses
  | _, _ => false

/-- At most one active request for each pair, at most one decision that approves or rejects a
request, and linked trails wherever every saved change has been recorded. -/
structure KeepsGuarantees (p : Pool Desk Task) : Prop where
  oneActive : ∀ r ∈ p.shared.store.all, ∀ r' ∈ p.shared.store.all, r.findingId = r'.findingId →
    r.action = r'.action → r.status ∈ activeStatuses → r'.status ∈ activeStatuses → r.id = r'.id
  oneDecision : ∀ id, p.tasks.countP (Task.succeeded id) ≤ 1
  linked : ∀ id r, p.shared.store.get id = some r →
    (∀ e ∈ p.shared.unrecorded, e.approvalId ≠ id) → TrailLinked (p.shared.store.eventsFor id) r.status

/-- Calls start at their beginning, with a generated id that is not in use. -/
def StartsFresh (p : Pool Desk Task) (task : Task) : Prop :=
  task.phase = .start ∧ p.shared.store.get task.call.moment.requestId = none
    ∧ ∀ other ∈ p.tasks, other.call.moment.requestId ≠ task.call.moment.requestId

/-- The access is undisturbed by other calls: a new request is saved while no request of its pair
is active, a decision while the stored status is the one it read, and an event is recorded once
the events of all earlier saves of its request are. -/
def Undisturbed (desk : Desk) (task : Task) : Prop :=
  match task.phase with
  | .writing request event =>
      match event.previousStatus with
      | none => desk.store.findActive request.findingId request.action activeStatuses = none
      | some read => (desk.store.get request.id).map ApprovalRequest.status = some read
  | .recording _ event =>
      (desk.unrecorded.filter fun e => e.approvalId = event.approvalId).head? = some event
  | _ => True

/-! ## The invariant -/

/-- The events of a request, recorded or not. -/
def Desk.trail (desk : Desk) (id : String) : List ApprovalEvent :=
  desk.store.eventsFor id ++ desk.unrecorded.filter fun e => e.approvalId = id

/-- The call may still create a request under its generated id. -/
def Task.creates (task : Task) : Bool :=
  match task.call.op, task.phase with
  | .request .., .start | .request .., .inactive | .request .., .writing .. => true
  | _, _ => false

/-- A decision to a terminal status that has been saved. -/
def Task.decided (id : String) (task : Task) : Bool :=
  match task.call.op, task.phase with
  | .decide decision approvalId _ _ _, .returned _
  | .decide decision approvalId _ _ _, .recording .. =>
      approvalId = id && decision.target ∈ terminalStatuses
  | _, _ => false

/-- The event ends in a terminal status. -/
def ApprovalEvent.isTerminal (e : ApprovalEvent) : Bool := e.newStatus ∈ terminalStatuses

/-- What a call is about to write is a new pending request, or an allowed transition of a stored
one. -/
structure Drafted (store : ApprovalStore) (task : Task) (request : ApprovalRequest)
    (event : ApprovalEvent) : Prop where
  owned : event.approvalId = request.id
  status : event.newStatus = request.status
  origin : match task.call.op with
    | .request .. => event.previousStatus = none ∧ request.status = .pending
        ∧ request.id = task.call.moment.requestId
    | .decide decision approvalId _ _ _ => request.id = approvalId
        ∧ request.status = decision.target
        ∧ (∃ read, event.previousStatus = some read ∧ request.status ∈ allowedTransitions read)
        ∧ ∃ old, store.get approvalId = some old ∧ old.findingId = request.findingId
          ∧ old.action = request.action

/-- The invariant of undisturbed interleavings. -/
structure DeskInv (desk : Desk) (tasks : List Task) : Prop where
  trails : ∀ id, match desk.store.get id with
    | some r => r.id = id ∧ Journal approvalMoves (desk.trail id) r.status
    | none => desk.trail id = []
  oneActive : ∀ r ∈ desk.store.all, ∀ r' ∈ desk.store.all, r.findingId = r'.findingId →
    r.action = r'.action → r.status ∈ activeStatuses → r'.status ∈ activeStatuses → r.id = r'.id
  fresh : ∀ task ∈ tasks, task.creates = true → desk.store.get task.call.moment.requestId = none
  distinct : (tasks.map fun task => task.call.moment.requestId).Nodup
  drafted : ∀ task ∈ tasks, ∀ request event, task.phase = .writing request event →
    Drafted desk.store task request event
  decided : ∀ id, tasks.countP (Task.decided id) = (desk.trail id).countP ApprovalEvent.isTerminal

/-! ## Trails -/

lemma trail_save (desk : Desk) (request : ApprovalRequest) (event : ApprovalEvent) (id : String) :
    (Desk.mk (desk.store.save request) (desk.unrecorded ++ [event])).trail id
      = if event.approvalId = id then desk.trail id ++ [event] else desk.trail id := by
  simp only [Desk.trail, ApprovalStore.eventsFor_save, List.filter_append]
  split_ifs with h
  · rw [List.filter_cons_of_pos (by simpa using h), List.filter_nil, List.append_assoc]
  · rw [List.filter_cons_of_neg (by simpa using h), List.filter_nil, List.append_nil]

/-- Recording the oldest unrecorded event of a request leaves every trail as it was. -/
lemma trail_record (desk : Desk) {event : ApprovalEvent}
    (h : (desk.unrecorded.filter fun e => e.approvalId = event.approvalId).head? = some event)
    (id : String) :
    (Desk.mk (desk.store.recordEvent event) (desk.unrecorded.erase event)).trail id
      = desk.trail id := by
  simp only [Desk.trail, ApprovalStore.eventsFor_recordEvent, ← List.erase_filter]
  by_cases hid : id = event.approvalId
  · subst hid
    obtain ⟨rest, hrest⟩ := List.head?_eq_some_iff.1 h
    rw [if_pos rfl, hrest, List.erase_cons_head, List.append_assoc, List.singleton_append]
  · rw [if_neg hid, List.erase_of_not_mem]
    intro hmem
    exact hid (by simpa [eq_comm] using (List.mem_filter.1 hmem).2)

lemma trail_eq_events {desk : Desk} {id : String}
    (h : ∀ e ∈ desk.unrecorded, e.approvalId ≠ id) : desk.trail id = desk.store.eventsFor id := by
  rw [Desk.trail, List.filter_eq_nil_iff.2 (by simpa using h), List.append_nil]

/-! ## Steps -/

namespace DeskInv

variable {desk : Desk} {pre post : List Task} {task task' : Task}

lemma wellKeyed {tasks : List Task} (h : DeskInv desk tasks) : desk.store.WellKeyed := by
  intro id r hget
  have hid := h.trails id
  rw [hget] at hid
  exact hid.1

/-- A call that moves on without writing. -/
lemma read (h : DeskInv desk (pre ++ task :: post)) (hcall : task'.call = task.call)
    (hcreates : task'.creates = true → task.creates = true)
    (hdecided : ∀ id, task'.decided id = task.decided id)
    (hdrafted : ∀ request event, task'.phase = .writing request event →
      Drafted desk.store task' request event) : DeskInv desk (pre ++ task' :: post) where
  trails := h.trails
  oneActive := h.oneActive
  fresh t ht hc := by
    rw [List.mem_append, List.mem_cons] at ht
    rcases ht with ht | rfl | ht
    · exact h.fresh t (by simp [ht]) hc
    · rw [hcall]
      exact h.fresh task (by simp) (hcreates hc)
    · exact h.fresh t (by simp [ht]) hc
  distinct := by simpa [hcall] using h.distinct
  drafted t ht request event hphase := by
    rw [List.mem_append, List.mem_cons] at ht
    rcases ht with ht | rfl | ht
    · exact h.drafted t (by simp [ht]) request event hphase
    · exact hdrafted request event hphase
    · exact h.drafted t (by simp [ht]) request event hphase
  decided id := by
    rw [← h.decided id]
    simp [List.countP_append, List.countP_cons, hdecided]

/-- What saving a draft needs: its event continues the trail, no other request of the pair is
active beside it, it keeps the pair of the stored request, and no other call is about to create a
request under its id. -/
structure Saveable (desk : Desk) (others : List Task) (call : ApprovalCall)
    (request : ApprovalRequest) (event : ApprovalEvent) : Prop where
  owned : event.approvalId = request.id
  journal : Journal approvalMoves (desk.trail request.id ++ [event]) request.status
  alone : ∀ r ∈ desk.store.all, r.id ≠ request.id → r.findingId = request.findingId →
    r.action = request.action → r.status ∈ activeStatuses → request.status ∉ activeStatuses
  pair : ∀ old, desk.store.get request.id = some old →
    old.findingId = request.findingId ∧ old.action = request.action
  unclaimed : ∀ t ∈ others, t.creates = true → t.call.moment.requestId ≠ request.id
  decided : ∀ id, (Task.mk call (.recording request event)).decided id
    = (decide (event.approvalId = id) && event.isTerminal)

lemma saveable_request {call : ApprovalCall} {request : ApprovalRequest} {event : ApprovalEvent}
    {findingId : String} {action : ApprovalAction} {requestedBy : String}
    {requestedAt : Option DateTime} {scanRunId : Option String}
    (h : DeskInv desk (pre ++ ⟨call, .writing request event⟩ :: post))
    (hop : call.op = .request findingId action requestedBy requestedAt scanRunId)
    (hundisturbed : Undisturbed desk ⟨call, .writing request event⟩) :
    Saveable desk (pre ++ post) call request event := by
  have hdraft := h.drafted ⟨call, .writing request event⟩ (by simp) request event rfl
  obtain ⟨howned, hstatus, horigin⟩ := hdraft
  simp only [hop] at horigin
  obtain ⟨hprevious, hpending, hid⟩ := horigin
  have hnone : desk.store.get request.id = none := by
    rw [hid]
    exact h.fresh ⟨call, .writing request event⟩ (by simp) (by simp [Task.creates, hop])
  have htrail := h.trails request.id
  rw [hnone] at htrail
  simp only [Undisturbed, hprevious] at hundisturbed
  refine ⟨howned, ?_, ?_, ?_, ?_, ?_⟩
  · rw [htrail, hpending]
    exact .opened hprevious (hstatus.trans hpending)
  · intro r hr _ hfinding haction hactive
    exact absurd hactive (ApprovalStore.findActive_none.1 hundisturbed r hr hfinding haction)
  · intro old hget
    rw [hnone] at hget
    cases hget
  · intro t ht _ hclaim
    have hdistinct := h.distinct
    rw [List.map_append, List.map_cons, List.nodup_middle, List.nodup_cons] at hdistinct
    refine hdistinct.1 ?_
    rw [← List.map_append]
    exact List.mem_map.2 ⟨t, ht, hclaim.trans hid⟩
  · intro id
    simp [Task.decided, hop, ApprovalEvent.isTerminal, hstatus, hpending, terminalStatuses]

lemma saveable_decide {call : ApprovalCall} {request : ApprovalRequest} {event : ApprovalEvent}
    {decision : Decision} {approvalId reviewedBy : String} {reason : Option String}
    {reviewedAt : Option DateTime}
    (h : DeskInv desk (pre ++ ⟨call, .writing request event⟩ :: post))
    (hop : call.op = .decide decision approvalId reviewedBy reason reviewedAt)
    (hundisturbed : Undisturbed desk ⟨call, .writing request event⟩) :
    Saveable desk (pre ++ post) call request event := by
  have hdraft := h.drafted ⟨call, .writing request event⟩ (by simp) request event rfl
  obtain ⟨howned, hstatus, horigin⟩ := hdraft
  simp only [hop] at horigin
  obtain ⟨rfl, htarget, ⟨read, hread, hallowed⟩, old, hget, hfinding, haction⟩ := horigin
  simp only [Undisturbed, hread, hget, Option.map_some, Option.some.injEq] at hundisturbed
  subst hundisturbed
  have htrail := h.trails request.id
  rw [hget] at htrail
  obtain ⟨hid, hjournal⟩ := htrail
  refine ⟨howned, ?_, ?_, ?_, ?_, ?_⟩
  · rw [← hstatus] at hallowed ⊢
    exact .moved hjournal hread hallowed
  · intro r hr hne hfinding' haction' hactive hactive'
    have hold : old ∈ desk.store.all := (ApprovalStore.mem_all_iff _ _).2 ⟨request.id, hget⟩
    have holdActive : old.status ∈ activeStatuses := by
      rw [mem_activeStatuses_iff]
      intro hterminal
      rw [allowedTransitions_terminal hterminal] at hallowed
      cases hallowed
    exact hne ((h.oneActive r hr old hold (hfinding'.trans hfinding.symm)
      (haction'.trans haction.symm) hactive holdActive).trans hid)
  · intro old' hget'
    obtain rfl := Option.some.inj (hget.symm.trans hget')
    exact ⟨hfinding, haction⟩
  · intro t ht hcreates hclaim
    have hmem : t ∈ pre ++ ⟨call, .writing request event⟩ :: post := by
      simp only [List.mem_append, List.mem_cons] at ht ⊢
      tauto
    have hnone := h.fresh t hmem hcreates
    rw [hclaim, hget] at hnone
    cases hnone
  · intro id
    simp [Task.decided, hop, ApprovalEvent.isTerminal, hstatus, htarget, howned]

/-- A call that saves its draft. -/
lemma save {call : ApprovalCall} {request : ApprovalRequest} {event : ApprovalEvent}
    (h : DeskInv desk (pre ++ ⟨call, .writing request event⟩ :: post))
    (hundisturbed : Undisturbed desk ⟨call, .writing request event⟩) :
    DeskInv ⟨desk.store.save request, desk.unrecorded ++ [event]⟩
      (pre ++ ⟨call, .recording request event⟩ :: post) := by
  have hs : Saveable desk (pre ++ post) call request event := by
    cases hop : call.op with
    | request findingId action requestedBy requestedAt scanRunId =>
        exact saveable_request h hop hundisturbed
    | decide decision approvalId reviewedBy reason reviewedAt =>
        exact saveable_decide h hop hundisturbed
  have hmem : ∀ t ∈ pre ++ ⟨call, .recording request event⟩ :: post,
      t = ⟨call, .recording request event⟩ ∨ t ∈ pre ++ post := by
    intro t ht
    simp only [List.mem_append, List.mem_cons] at ht ⊢
    tauto
  have hother : ∀ t ∈ pre ++ post, t ∈ pre ++ ⟨call, .writing request event⟩ :: post := by
    intro t ht
    simp only [List.mem_append, List.mem_cons] at ht ⊢
    tauto
  refine ⟨?_, ?_, ?_, ?_, ?_, ?_⟩
  · intro id
    rw [trail_save, ApprovalStore.get_save, hs.owned]
    by_cases hid : id = request.id
    · subst hid
      rw [if_pos rfl, if_pos rfl]
      exact ⟨rfl, hs.journal⟩
    · rw [if_neg hid, if_neg (Ne.symm hid)]
      exact h.trails id
  · intro r hr r' hr' hfinding haction hactive hactive'
    rw [h.wellKeyed.mem_all_save] at hr hr'
    rcases hr with rfl | ⟨hr, hne⟩ <;> rcases hr' with rfl | ⟨hr', hne'⟩
    · rfl
    · exact absurd hactive (hs.alone r' hr' hne' hfinding.symm haction.symm hactive')
    · exact absurd hactive' (hs.alone r hr hne hfinding haction hactive)
    · exact h.oneActive r hr r' hr' hfinding haction hactive hactive'
  · intro t ht hcreates
    rcases hmem t ht with rfl | ht
    · simp [Task.creates] at hcreates
    · rw [ApprovalStore.get_save, if_neg (hs.unclaimed t ht hcreates)]
      exact h.fresh t (hother t ht) hcreates
  · simpa using h.distinct
  · intro t ht request' event' hphase
    rcases hmem t ht with rfl | ht
    · cases hphase
    · obtain ⟨howned, hstatus, horigin⟩ := h.drafted t (hother t ht) request' event' hphase
      refine ⟨howned, hstatus, ?_⟩
      cases hop : t.call.op with
      | request => simpa [hop] using horigin
      | decide decision approvalId reviewedBy reason reviewedAt =>
          simp only [hop] at horigin ⊢
          obtain ⟨hid, htarget, hread, old, hget, hfinding, haction⟩ := horigin
          refine ⟨hid, htarget, hread, ?_⟩
          rw [ApprovalStore.get_save]
          split_ifs with hsaved
          · subst hsaved
            obtain ⟨hfinding', haction'⟩ := hs.pair old hget
            exact ⟨request, rfl, hfinding'.symm.trans hfinding, haction'.symm.trans haction⟩
          · exact ⟨old, hget, hfinding, haction⟩
  · intro id
    have hcount := h.decided id
    have hbefore : (Task.mk call (.writing request event)).decided id = false := by
      unfold Task.decided
      split <;> simp_all
    rw [trail_save]
    simp only [List.countP_append, List.countP_cons, hbefore, hs.decided] at hcount ⊢
    by_cases hid : event.approvalId = id
    · simp only [hid, if_true, decide_true, Bool.true_and, Bool.false_eq_true, if_false,
        List.countP_append, List.countP_singleton] at hcount ⊢
      omega
    · simpa [hid] using hcount

/-- A call that records its event. -/
lemma record {call : ApprovalCall} {request : ApprovalRequest} {event : ApprovalEvent}
    (h : DeskInv desk (pre ++ ⟨call, .recording request event⟩ :: post))
    (hundisturbed : Undisturbed desk ⟨call, .recording request event⟩) :
    DeskInv ⟨desk.store.recordEvent event, desk.unrecorded.erase event⟩
      (pre ++ ⟨call, .returned request⟩ :: post) := by
  have htrail := trail_record desk hundisturbed
  have hread : DeskInv desk (pre ++ ⟨call, .returned request⟩ :: post) := by
    refine h.read rfl ?_ ?_ ?_
    · intro hcreates
      simp [Task.creates] at hcreates
    · intro id
      unfold Task.decided
      cases call.op <;> rfl
    · intro request' event' hphase
      cases hphase
  refine ⟨?_, hread.oneActive, hread.fresh, hread.distinct, ?_, ?_⟩
  · intro id
    rw [htrail]
    exact hread.trails id
  · intro t ht request' event' hphase
    obtain ⟨howned, hstatus, horigin⟩ := hread.drafted t ht request' event' hphase
    exact ⟨howned, hstatus, horigin⟩
  · intro id
    rw [htrail]
    exact hread.decided id

/-- A call that starts. -/
lemma start {tasks : List Task} (h : DeskInv desk tasks) (hstart : StartsFresh ⟨desk, tasks⟩ task) :
    DeskInv desk (tasks ++ [task]) := by
  obtain ⟨hphase, hnone, hothers⟩ := hstart
  refine ⟨h.trails, h.oneActive, ?_, ?_, ?_, ?_⟩
  · intro t ht hcreates
    rcases List.mem_append.1 ht with ht | ht
    · exact h.fresh t ht hcreates
    · rw [List.mem_singleton.1 ht]
      exact hnone
  · rw [List.map_append, List.map_singleton, List.nodup_append]
    refine ⟨h.distinct, List.nodup_singleton _, ?_⟩
    intro a ha b hb
    obtain ⟨t, ht, rfl⟩ := List.mem_map.1 ha
    rw [List.mem_singleton.1 hb]
    exact hothers t ht
  · intro t ht request event hwriting
    rcases List.mem_append.1 ht with ht | ht
    · exact h.drafted t ht request event hwriting
    · rw [List.mem_singleton.1 ht, hphase] at hwriting
      cases hwriting
  · intro id
    have hnew : task.decided id = false := by
      unfold Task.decided
      rw [hphase]
      cases task.call.op <;> rfl
    rw [List.countP_append, List.countP_singleton, hnew]
    simpa using h.decided id

/-- A call that raises or hands back a request after a read. -/
lemma finish (h : DeskInv desk (pre ++ task :: post)) {phase : Phase}
    (hbefore : ∀ id, task.decided id = false)
    (hafter : phase = .inactive ∧ task.creates = true ∨ (∃ e, phase = .raised e)
      ∨ (∃ r, phase = .returned r) ∧ ∃ f a b d c, task.call.op = .request f a b d c) :
    DeskInv desk (pre ++ { task with phase := phase } :: post) := by
  refine h.read rfl ?_ ?_ ?_
  · intro hcreates
    rcases hafter with ⟨-, hc⟩ | ⟨e, rfl⟩ | ⟨⟨r, rfl⟩, -⟩
    · exact hc
    · simp [Task.creates] at hcreates
    · simp [Task.creates] at hcreates
  · intro id
    rw [hbefore]
    rcases hafter with ⟨rfl, -⟩ | ⟨e, rfl⟩ | ⟨⟨r, rfl⟩, f, a, b, d, c, hop⟩
    · cases hop : task.call.op <;> simp [Task.decided, hop]
    · cases hop : task.call.op <;> simp [Task.decided, hop]
    · simp [Task.decided, hop]
  · intro request event hphase
    rcases hafter with ⟨rfl, -⟩ | ⟨e, rfl⟩ | ⟨⟨r, rfl⟩, -⟩ <;> cases hphase

/-- A call that has drafted what it will write. -/
lemma draft (h : DeskInv desk (pre ++ task :: post)) (hbefore : ∀ id, task.decided id = false)
    (hcreates : ∀ f a b d c, task.call.op = .request f a b d c → task.creates = true)
    {result : Except ApprovalError (ApprovalRequest × ApprovalEvent)}
    (hdrafted : ∀ request event, result = .ok (request, event) →
      Drafted desk.store task request event) :
    DeskInv desk (pre ++ { task with phase := .ofDraft result } :: post) := by
  cases result with
  | error e => exact h.finish hbefore (Or.inr (Or.inl ⟨e, rfl⟩))
  | ok d =>
      obtain ⟨request, event⟩ := d
      refine h.read rfl ?_ ?_ ?_
      · intro hwriting
        cases hop : task.call.op with
        | request f a b d c => exact hcreates f a b d c hop
        | decide => simp [Task.creates, Phase.ofDraft, hop] at hwriting
      · intro id
        rw [hbefore]
        cases hop : task.call.op <;> simp [Task.decided, Phase.ofDraft, hop]
      · intro request' event' hphase
        injection hphase with hrequest hevent
        subst hrequest hevent
        obtain ⟨howned, hstatus, horigin⟩ := hdrafted request event rfl
        exact ⟨howned, hstatus, horigin⟩

end DeskInv

lemma draftRequest_ok {policy : ApprovalPolicy} {call : ApprovalCall} {findingId : String}
    {action : ApprovalAction} {requestedBy : String} {requestedAt : Option DateTime}
    {scanRunId : Option String} {request : ApprovalRequest} {event : ApprovalEvent}
    (h : draftRequest policy call findingId action requestedBy requestedAt scanRunId
      = .ok (request, event)) :
    request.status = .pending ∧ request.id = call.moment.requestId ∧ request.version = 1
      ∧ event = creationEvent call.moment request := by
  obtain ⟨-, -, h⟩ := bind_eq_ok.1 h
  obtain ⟨now, -, h⟩ := bind_eq_ok.1 h
  obtain ⟨rfl, rfl⟩ := Prod.mk.inj (pure_eq_ok.1 h)
  exact ⟨rfl, rfl, rfl, rfl⟩

lemma draftDecision_ok {call : ApprovalCall} {old request : ApprovalRequest}
    {newStatus : ApprovalStatus} {actor : String} {reason : Option String}
    {reviewedAt : Option DateTime} {event : ApprovalEvent}
    (h : draftDecision call old newStatus actor reason reviewedAt = .ok (request, event)) :
    newStatus ∈ allowedTransitions old.status ∧ ∃ now,
      request = reviewed old newStatus actor reason now
        ∧ event = transitionEvent call.moment old newStatus actor reason now := by
  unfold draftDecision at h
  split_ifs at h with hallowed
  obtain ⟨now, -, h⟩ := bind_eq_ok.1 h
  obtain ⟨rfl, rfl⟩ := Prod.mk.inj (pure_eq_ok.1 h)
  exact ⟨hallowed, now, rfl, rfl⟩

/-- **Every undisturbed access keeps the invariant.** -/
lemma deskInv_access (policy : ApprovalPolicy) {desk : Desk} {pre post : List Task} {task : Task}
    (h : DeskInv desk (pre ++ task :: post)) (hundisturbed : Undisturbed desk task) :
    DeskInv (access policy desk task).1 (pre ++ (access policy desk task).2 :: post) := by
  obtain ⟨call, phase⟩ := task
  cases phase with
  | start =>
      have hbefore : ∀ id, (Task.mk call .start).decided id = false := by
        intro id
        cases hop : call.op <;> simp [Task.decided, hop]
      cases hop : call.op with
      | request findingId action requestedBy requestedAt scanRunId =>
          simp only [access, Desk.write, Task.next, hop]
          cases desk.store.findActive findingId action activeStatuses with
          | some existing =>
              exact h.finish hbefore (Or.inr (Or.inr ⟨⟨existing, rfl⟩, _, _, _, _, _, hop⟩))
          | none => exact h.finish hbefore (Or.inl ⟨rfl, by simp [Task.creates, hop]⟩)
      | decide decision approvalId reviewedBy reason reviewedAt =>
          simp only [access, Desk.write, Task.next, hop]
          cases hget : desk.store.get approvalId with
          | none => exact h.finish hbefore (Or.inr (Or.inl ⟨_, rfl⟩))
          | some old =>
              refine h.draft hbefore (fun f a b d c hreq => ?_) ?_
              · cases hop.symm.trans hreq
              · intro request event hdraft
                obtain ⟨hallowed, now, rfl, rfl⟩ := draftDecision_ok hdraft
                refine ⟨rfl, rfl, ?_⟩
                simp only [hop]
                exact ⟨h.wellKeyed approvalId old hget, rfl, ⟨old.status, rfl, hallowed⟩, old,
                  hget, rfl, rfl⟩
  | inactive =>
      have hbefore : ∀ id, (Task.mk call .inactive).decided id = false := by
        intro id
        cases hop : call.op <;> simp [Task.decided, hop]
      cases hop : call.op with
      | request findingId action requestedBy requestedAt scanRunId =>
          have hwrites : DeskInv desk (pre ++ ⟨call, .ofDraft (draftRequest policy call findingId
              action requestedBy requestedAt scanRunId)⟩ :: post) := by
            refine h.draft hbefore (fun f a b d c hreq => by simp [Task.creates, hop]) ?_
            intro request event hdraft
            obtain ⟨hpending, hid, -, rfl⟩ := draftRequest_ok hdraft
            refine ⟨rfl, hpending.symm, ?_⟩
            simp only [hop]
            exact ⟨rfl, hpending, hid⟩
          simp only [access, Desk.write, Task.next, hop]
          split
          · exact h.finish hbefore (Or.inr (Or.inl ⟨_, rfl⟩))
          · exact hwrites
      | decide decision approvalId reviewedBy reason reviewedAt =>
          simpa [access, Desk.write, Task.next, hop] using h
  | writing request event => exact h.save hundisturbed
  | recording request event => exact h.record hundisturbed
  | returned request => exact h
  | raised e => exact h

lemma deskInv_empty : DeskInv ⟨.empty, []⟩ [] := by
  refine ⟨fun id => rfl, by simp, by simp, List.nodup_nil, by simp, fun id => rfl⟩

lemma DeskInv.keeps {desk : Desk} {tasks : List Task} (h : DeskInv desk tasks) :
    KeepsGuarantees ⟨desk, tasks⟩ where
  oneActive := h.oneActive
  oneDecision id := by
    have hsaved : tasks.countP (Task.succeeded id) ≤ tasks.countP (Task.decided id) := by
      refine List.countP_mono_left ?_
      intro t _ hsucceeded
      unfold Task.succeeded at hsucceeded
      unfold Task.decided
      split at hsucceeded
      · next hop hphase => simpa [hop, hphase] using hsucceeded
      · cases hsucceeded
    refine hsaved.trans ?_
    rw [h.decided id]
    have htrail := h.trails id
    cases hget : desk.store.get id with
    | none =>
        rw [hget] at htrail
        rw [htrail]
        exact Nat.zero_le _
    | some r =>
        rw [hget] at htrail
        refine htrail.2.countP_final_le_one ?_
        intro e he
        have hterminal : e.newStatus ∈ terminalStatuses := by
          simpa [ApprovalEvent.isTerminal] using he
        exact final_of_terminal hterminal
  linked id r hget hrecorded := by
    have htrail := h.trails id
    rw [hget] at htrail
    have hjournal := htrail.2
    rw [trail_eq_events hrecorded] at hjournal
    exact trailLinked_of_journal hjournal

/-- **Undisturbed calls keep the sequential guarantees**, in every state that their interleaving
reaches. -/
theorem keepsGuarantees_of_undisturbed (policy : ApprovalPolicy) (moves rest : List (Move Task))
    (hallowed : Throughout (deskStep policy) (Pool.Allows StartsFresh Undisturbed) .idle
      (moves ++ rest)) : KeepsGuarantees (exec (deskStep policy) .idle moves) :=
  (Pool.exec_invariant DeskInv (fun _ _ _ h hstart => h.start hstart)
    (fun _ _ _ _ h hundisturbed => deskInv_access policy h hundisturbed) deskInv_empty
    (throughout_append.1 hallowed).1).keeps

/-! ## Two reviewers, two requesters -/

instance (p : Pool Desk Task) (task : Task) : Decidable (StartsFresh p task) := by
  have : Decidable (task.phase = .start) := by
    cases task.phase with
    | start => exact isTrue rfl
    | _ => exact isFalse (by simp)
  unfold StartsFresh
  infer_instance

instance (desk : Desk) (task : Task) : Decidable (Undisturbed desk task) := by
  unfold Undisturbed
  split
  · split <;> infer_instance
  · infer_instance
  · infer_instance

/-- The start of a call on a confirmed finding. -/
def startCall (op : ApprovalOp) (second : Int) (requestId : String) : Move Task :=
  .start ⟨confirmedCall op second requestId, .start⟩

/-- A remediation request for the finding, with all its accesses. -/
def firstRequest : List (Move Task) :=
  [startCall (.request "f" .remediation "dev" none none) 1 "a", .advance 0, .advance 0, .advance 0,
    .advance 0]

/-- Two reviewers decide at the same time: both read the pending request before either saves. -/
def twoReviewers : List (Move Task) :=
  firstRequest ++ [startCall (.decide .approve "a" "lead" none none) 2 "b",
    startCall (.decide .reject "a" "owner" none none) 2 "c", .advance 1, .advance 2, .advance 1,
    .advance 1, .advance 2, .advance 2]

/-- Two requesters ask at the same time: both find no active request before either saves. -/
def twoRequesters : List (Move Task) :=
  [startCall (.request "f" .remediation "dev" none none) 1 "a",
    startCall (.request "f" .remediation "owner" none none) 1 "b", .advance 0, .advance 1,
    .advance 0, .advance 1, .advance 0, .advance 1, .advance 0, .advance 1]

/-- The calls of an interleaving start properly. -/
def ProperlyStarted (moves : List (Move Task)) : Prop :=
  Throughout (deskStep defaultPolicy) (Pool.Allows StartsFresh fun _ _ => True) .idle moves

/-- **Interleaved calls lose the guarantees**: a request is both approved and rejected, with two
events that continue the same pending status; and a finding gets two active requests. -/
theorem not_keepsGuarantees :
    (ProperlyStarted twoReviewers
        ∧ ¬ KeepsGuarantees (exec (deskStep defaultPolicy) .idle twoReviewers))
      ∧ ProperlyStarted twoRequesters
        ∧ ¬ KeepsGuarantees (exec (deskStep defaultPolicy) .idle twoRequesters) := by
  have hreviewers : ProperlyStarted twoReviewers
      ∧ (exec (deskStep defaultPolicy) .idle twoReviewers).tasks.countP (Task.succeeded "a") = 2 := by
    unfold ProperlyStarted
    decide +kernel
  have hrequesters : ProperlyStarted twoRequesters
      ∧ ((exec (deskStep defaultPolicy) .idle twoRequesters).shared.store.all.map fun r =>
        (r.id, r.findingId, r.action, r.status))
        = [("a", "f", .remediation, .pending), ("b", "f", .remediation, .pending)] := by
    unfold ProperlyStarted
    decide +kernel
  refine ⟨⟨hreviewers.1, fun hkeeps => ?_⟩, hrequesters.1, fun hkeeps => ?_⟩
  · have hone := hkeeps.oneDecision "a"
    rw [hreviewers.2] at hone
    omega
  · have hmem : ∀ entry ∈ [("a", "f", ApprovalAction.remediation, ApprovalStatus.pending),
        ("b", "f", .remediation, .pending)],
        ∃ r ∈ (exec (deskStep defaultPolicy) .idle twoRequesters).shared.store.all,
          (r.id, r.findingId, r.action, r.status) = entry := by
      intro entry hentry
      rw [← hrequesters.2] at hentry
      exact List.mem_map.1 hentry
    obtain ⟨r, hr, heq⟩ := hmem _ List.mem_cons_self
    obtain ⟨r', hr', heq'⟩ := hmem _ (List.mem_cons_of_mem _ List.mem_cons_self)
    simp only [Prod.mk.injEq] at heq heq'
    have hsame := hkeeps.oneActive r hr r' hr' (heq.2.1.trans heq'.2.1.symm)
      (heq.2.2.1.trans heq'.2.2.1.symm) (by simp [heq.2.2.2, activeStatuses])
      (by simp [heq'.2.2.2, activeStatuses])
    rw [heq.1, heq'.1] at hsame
    exact absurd hsame (by decide)

/-- A reviewer who decides after the request is complete, and one who comes too late. -/
theorem keepsGuarantees_oneAfterAnother :
    KeepsGuarantees (exec (deskStep defaultPolicy) .idle (firstRequest
      ++ [startCall (.decide .approve "a" "lead" none none) 2 "b", .advance 1, .advance 1,
        startCall (.decide .reject "a" "owner" none none) 2 "c", .advance 2, .advance 1])) :=
  keepsGuarantees_of_undisturbed defaultPolicy _ [] (by decide +kernel)

end Sast
