import SastEngine.Approval.Service

/-!
# What one approval call can do

A call leaves the store alone, adds one new request, or moves one stored request along
`allowedTransitions` (`approvalStep_cases`).  Everything proved about runs of approval calls is
derived from this case distinction, over stores in which every request is kept under its own id
(`WellKeyed`).
-/

namespace Sast

namespace ApprovalStore

/-- Every request is stored under its id. -/
def WellKeyed (store : ApprovalStore) : Prop :=
  ∀ id r, store.get id = some r → r.id = id

lemma wellKeyed_empty : WellKeyed empty := by
  intro id r h
  simp [empty, get] at h

lemma WellKeyed.get_id {store : ApprovalStore} (hk : store.WellKeyed) {r : ApprovalRequest}
    (h : r ∈ store.all) : store.get r.id = some r := by
  obtain ⟨id, hid⟩ := (mem_all_iff store r).1 h
  rw [hk id r hid]
  exact hid

/-- Saving a request replaces the one with its id. -/
lemma WellKeyed.mem_all_save {store : ApprovalStore} (hk : store.WellKeyed)
    (x r : ApprovalRequest) :
    r ∈ (store.save x).all ↔ r = x ∨ (r ∈ store.all ∧ r.id ≠ x.id) := by
  rw [mem_all_iff]
  constructor
  · rintro ⟨id, h⟩
    rw [get_save] at h
    split_ifs at h with hid
    · exact Or.inl (Option.some.inj h).symm
    · refine Or.inr ⟨(mem_all_iff store r).2 ⟨id, h⟩, ?_⟩
      rw [hk id r h]
      exact hid
  · rintro (rfl | ⟨hmem, hne⟩)
    · exact ⟨r.id, by rw [get_save, if_pos rfl]⟩
    · exact ⟨r.id, by rw [get_save, if_neg hne]; exact hk.get_id hmem⟩

lemma WellKeyed.save {store : ApprovalStore} (hk : store.WellKeyed) (x : ApprovalRequest) :
    (store.save x).WellKeyed := by
  intro id r h
  rw [get_save] at h
  split_ifs at h with hid
  · rw [← Option.some.inj h, hid]
  · exact hk id r h

end ApprovalStore

variable {policy : ApprovalPolicy}

/-! ## Requesting -/

/-- `_check_eligibility` passes. -/
def Eligible (policy : ApprovalPolicy) (gates : Gates) (findingId : String) : Prop :=
  checkEligibility policy gates findingId = .ok ()

/-- The time a request is stamped with is timezone-aware. -/
def StampAware (moment : Moment) (requestedAt : Option DateTime) : Prop :=
  (requestedAt.getD moment.utcnow).isAware

instance (policy : ApprovalPolicy) (gates : Gates) (findingId : String) :
    Decidable (Eligible policy gates findingId) := by
  unfold Eligible
  cases h : checkEligibility policy gates findingId with
  | ok u => exact isTrue rfl
  | error e => exact isFalse (by simp)

instance (moment : Moment) (requestedAt : Option DateTime) :
    Decidable (StampAware moment requestedAt) := by
  unfold StampAware; infer_instance

/-- The request a successful call stores. -/
def requested (call : ApprovalCall) (findingId : String) (action : ApprovalAction)
    (requestedBy : String) (requestedAt : Option DateTime) (scanRunId : Option String) :
    ApprovalRequest :=
  newRequest call.moment findingId action requestedBy
    (requestedAt.getD call.moment.utcnow).asAwareUtc scanRunId

/-- Past the two lookups, a request is created exactly when the finding is eligible and the time
is aware. -/
lemma createRequest_eq (policy : ApprovalPolicy) (store : ApprovalStore) (call : ApprovalCall) (findingId : String)
    (action : ApprovalAction) (requestedBy : String) (requestedAt : Option DateTime)
    (scanRunId : Option String) :
    (Eligible policy call.gates findingId ∧ StampAware call.moment requestedAt ∧
      createRequest policy call.gates call.moment store findingId action requestedBy requestedAt
          scanRunId
        = .ok (requested call findingId action requestedBy requestedAt scanRunId,
          (store.save (requested call findingId action requestedBy requestedAt scanRunId)
            ).recordEvent (creationEvent call.moment
              (requested call findingId action requestedBy requestedAt scanRunId)))) ∨
    (¬ (Eligible policy call.gates findingId ∧ StampAware call.moment requestedAt) ∧
      ∃ e, createRequest policy call.gates call.moment store findingId action requestedBy
        requestedAt scanRunId = .error e) := by
  cases hel : checkEligibility policy call.gates findingId with
  | error e =>
      right
      refine ⟨fun h => ?_, e, by simp [createRequest, hel, bind, Except.bind]⟩
      simp [Eligible, hel] at h
  | ok u =>
      by_cases haw : (requestedAt.getD call.moment.utcnow).isAware
      · left
        refine ⟨hel, haw, ?_⟩
        simp [createRequest, hel, haw, ensureAwareUtc, requested, bind, Except.bind, pure,
          Except.pure]
      · right
        refine ⟨fun h => haw h.2, ?_⟩
        simp [createRequest, hel, haw, ensureAwareUtc, bind, Except.bind]

/-- Nothing stands in the way of a new request for the pair: none is active, and no terminal one
is the newest of the finding (or the policy permits re-requests). -/
def Unblocked (policy : ApprovalPolicy) (store : ApprovalStore) (findingId : String)
    (action : ApprovalAction) : Prop :=
  store.findActive findingId action activeStatuses = none
    ∧ (newestTerminal store findingId = none ∨ policy.allowReRequestAfterTerminal = true)

instance (store : ApprovalStore) (findingId : String) (action : ApprovalAction) :
    Decidable (Unblocked policy store findingId action) := by
  unfold Unblocked; infer_instance

/-- An active request of the pair is handed back. -/
lemma requestApproval_active {gates : Gates} {moment : Moment} {store : ApprovalStore}
    {findingId : String} {action : ApprovalAction} {requestedBy : String}
    {requestedAt : Option DateTime} {scanRunId : Option String} {existing : ApprovalRequest}
    (hact : store.findActive findingId action activeStatuses = some existing) :
    requestApproval policy gates moment store findingId action requestedBy requestedAt scanRunId
      = .ok (existing, store) := by
  simp only [requestApproval, hact]

/-- A blocked request is refused, an unblocked one goes on to `createRequest`. -/
lemma requestApproval_inactive {gates : Gates} {moment : Moment} {store : ApprovalStore}
    {findingId : String} {action : ApprovalAction} {requestedBy : String}
    {requestedAt : Option DateTime} {scanRunId : Option String}
    (hact : store.findActive findingId action activeStatuses = none) :
    requestApproval policy gates moment store findingId action requestedBy requestedAt scanRunId
      = if Unblocked policy store findingId action then
          createRequest policy gates moment store findingId action requestedBy requestedAt
            scanRunId
        else .error (.gate (reRequestMessage findingId
          ((newestTerminal store findingId).getD .pending))) := by
  simp only [requestApproval, Unblocked, hact]
  cases newestTerminal store findingId with
  | none => simp
  | some status =>
      cases policy.allowReRequestAfterTerminal with
      | true => simp
      | false => simp

/-- **What `request_approval` does**: it creates a request exactly when nothing stands in the way,
the finding is eligible and the time is aware; otherwise the store keeps its contents. -/
lemma approvalStep_request (policy : ApprovalPolicy) (store : ApprovalStore) (call : ApprovalCall) {findingId : String}
    {action : ApprovalAction} {requestedBy : String} {requestedAt : Option DateTime}
    {scanRunId : Option String}
    (hop : call.op = .request findingId action requestedBy requestedAt scanRunId) :
    approvalStep policy store call
      = if Unblocked policy store findingId action ∧ Eligible policy call.gates findingId
            ∧ StampAware call.moment requestedAt then
          (store.save (requested call findingId action requestedBy requestedAt scanRunId)
            ).recordEvent (creationEvent call.moment
              (requested call findingId action requestedBy requestedAt scanRunId))
        else store := by
  simp only [approvalStep, ApprovalCall.run, hop]
  cases hact : store.findActive findingId action activeStatuses with
  | some r =>
      rw [requestApproval_active hact, if_neg (fun h => by simp [Unblocked, hact] at h)]
  | none =>
      rw [requestApproval_inactive hact]
      by_cases hun : Unblocked policy store findingId action
      · rw [if_pos hun]
        rcases createRequest_eq policy store call findingId action requestedBy
          requestedAt scanRunId with ⟨hel, haw, heq⟩ | ⟨hnot, e, heq⟩
        · rw [heq, if_pos ⟨hun, hel, haw⟩]
        · rw [heq, if_neg (fun h => hnot h.2)]
      · rw [if_neg hun, if_neg (fun h => hun h.1)]

/-! ## Deciding -/

/-- The request a successful decision stores. -/
def decided (call : ApprovalCall) (request : ApprovalRequest) (decision : Decision)
    (reviewedBy : String) (reason : Option String) (reviewedAt : Option DateTime) :
    ApprovalRequest :=
  reviewed request decision.target reviewedBy reason
    (reviewedAt.getD call.moment.utcnow).asAwareUtc

section Decide

variable (policy : ApprovalPolicy) (store : ApprovalStore) (call : ApprovalCall)
  {decision : Decision} {approvalId reviewedBy : String} {reason : Option String}
  {reviewedAt : Option DateTime}

/-- A decision on an unknown request is refused. -/
lemma approvalStep_decide_unknown
    (hop : call.op = .decide decision approvalId reviewedBy reason reviewedAt)
    (hget : store.get approvalId = none) : approvalStep policy store call = store := by
  simp only [approvalStep, ApprovalCall.run, hop, decideApproval, transition, hget]

/-- **What a decision does**: it moves the request exactly when the transition is allowed and the
time is aware. -/
lemma approvalStep_decide_known
    (hop : call.op = .decide decision approvalId reviewedBy reason reviewedAt)
    {request : ApprovalRequest} (hget : store.get approvalId = some request) :
    approvalStep policy store call
      = if decision.target ∈ allowedTransitions request.status
            ∧ StampAware call.moment reviewedAt then
          (store.save (decided call request decision reviewedBy reason reviewedAt)).recordEvent
            (transitionEvent call.moment request decision.target reviewedBy reason
              (reviewedAt.getD call.moment.utcnow).asAwareUtc)
        else store := by
  simp only [approvalStep, ApprovalCall.run, hop, decideApproval, transition, hget, StampAware]
  by_cases hall : decision.target ∈ allowedTransitions request.status
  · by_cases haw : (reviewedAt.getD call.moment.utcnow).isAware
    · simp [hall, ensureAwareUtc, haw, bind, Except.bind, pure, Except.pure, decided]
    · simp [hall, ensureAwareUtc, haw, bind, Except.bind]
  · simp [hall]

/-- **The inversion lemma of a decision**: the store is unchanged, or one stored request moved
along an allowed transition. -/
lemma approvalStep_decide
    (hop : call.op = .decide decision approvalId reviewedBy reason reviewedAt) :
    approvalStep policy store call = store ∨
      ∃ request, store.get approvalId = some request
        ∧ decision.target ∈ allowedTransitions request.status
        ∧ approvalStep policy store call
          = (store.save (decided call request decision reviewedBy reason reviewedAt)).recordEvent
            (transitionEvent call.moment request decision.target reviewedBy reason
              (reviewedAt.getD call.moment.utcnow).asAwareUtc) := by
  cases hget : store.get approvalId with
  | none => exact Or.inl (approvalStep_decide_unknown policy store call hop hget)
  | some request =>
      have h := approvalStep_decide_known policy store call hop hget
      split_ifs at h with hcond
      · exact Or.inr ⟨request, rfl, hcond.1, h⟩
      · exact Or.inl h

end Decide

/-! ## Any call -/

/-- How the stored requests can change in one call. -/
inductive Change (store : ApprovalStore) : ApprovalStore → Prop
  | same {store' : ApprovalStore} : store'.requests = store.requests → Change store store'
  | created {store' : ApprovalStore} (r : ApprovalRequest) :
      store.get r.id = none → r.status = .pending →
      store.findActive r.findingId r.action activeStatuses = none →
      store'.requests = (store.save r).requests → Change store store'
  | moved {store' : ApprovalStore} (old new : ApprovalRequest) :
      store.get new.id = some old → new.findingId = old.findingId → new.action = old.action →
      new.requestedAt = old.requestedAt → new.status ∈ allowedTransitions old.status →
      store'.requests = (store.save new).requests → Change store store'

/-- **What one call can do to the requests**: nothing, add a pending one under the fresh id, or
change the status of a stored one along an allowed transition. -/
theorem approvalStep_change {store : ApprovalStore} (hk : store.WellKeyed) {call : ApprovalCall}
    (hfresh : FreshId store call) : Change store (approvalStep policy store call) := by
  cases hop : call.op with
  | request findingId action requestedBy requestedAt scanRunId =>
      rw [approvalStep_request policy store call hop]
      split_ifs with h
      · exact .created (requested call findingId action requestedBy requestedAt scanRunId)
          hfresh rfl h.1.1 rfl
      · exact .same rfl
  | decide decision approvalId reviewedBy reason reviewedAt =>
      rcases approvalStep_decide policy store call hop with h | ⟨old, hget, hall, h⟩
      · exact .same (by rw [h])
      · have hid : old.id = approvalId := hk approvalId old hget
        rw [h]
        refine .moved old (decided call old decision reviewedBy reason reviewedAt) ?_ rfl rfl rfl
          hall rfl
        show store.get old.id = some old
        rw [hid]
        exact hget

lemma Change.wellKeyed {store store' : ApprovalStore} (hk : store.WellKeyed)
    (h : Change store store') : store'.WellKeyed := by
  have key : ∀ r : ApprovalRequest, store'.requests = (store.save r).requests →
      store'.WellKeyed := by
    intro r hr id x hx
    refine hk.save r id x ?_
    rw [← hx]
    simp only [ApprovalStore.get, hr]
  cases h with
  | same h =>
      intro id x hx
      refine hk id x ?_
      rw [← hx]
      simp only [ApprovalStore.get, h]
  | created r _ _ _ h => exact key r h
  | moved old new _ _ _ _ _ h => exact key new h

end Sast
