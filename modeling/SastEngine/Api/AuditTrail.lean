import SastEngine.Api.Requests
import SastEngine.Approval.Removal

/-!
# The audit trail

An approval event names its actor, its time and its reason, and nothing in the store says whether
they are true.  Over runs of requests they are, and nothing is missing: an event stands in the trail
exactly if a request of its actor recorded it, and its finding has not been deleted since
(`inTrail_iff`).
-/

namespace Sast

variable {crypto : Crypto} {rt : Runtime} {s : Platform} {request : Request}
  {event : ApprovalEvent}

/-! ## What a call of the service appends -/

section Approvals

variable {policy : ApprovalPolicy} {store : ApprovalStore} {call : ApprovalCall}

/-- The event that the call appends. -/
def Appends (policy : ApprovalPolicy) (store : ApprovalStore) (call : ApprovalCall)
    (event : ApprovalEvent) : Prop :=
  match call.op with
  | .request findingId action requestedBy requestedAt scanRunId =>
      (Unblocked policy store findingId action ∧ Eligible policy call.gates findingId
          ∧ StampAware call.moment requestedAt)
        ∧ event = creationEvent call.moment
          (requested call findingId action requestedBy requestedAt scanRunId)
  | .decide decision approvalId reviewedBy reason reviewedAt =>
      ∃ r, store.get approvalId = some r
        ∧ (decision.target ∈ allowedTransitions r.status ∧ StampAware call.moment reviewedAt)
        ∧ event = transitionEvent call.moment r decision.target reviewedBy reason
          (reviewedAt.getD call.moment.utcnow).asAwareUtc

/-- A new event goes to the end of its own trail. -/
lemma mem_recordEvent (store : ApprovalStore) (x : ApprovalRequest) (new event : ApprovalEvent) :
    event ∈ ((store.save x).recordEvent new).eventsFor event.approvalId
      ↔ event ∈ store.eventsFor event.approvalId ∨ event = new := by
  rw [ApprovalStore.eventsFor_recordEvent, ApprovalStore.eventsFor_save]
  split_ifs with hid
  · rw [List.mem_append, List.mem_singleton]
  · refine (or_iff_left fun heq => ?_).symm
    exact hid (congrArg ApprovalEvent.approvalId heq)

lemma mem_eventsFor_approvalStep :
    event ∈ (approvalStep policy store call).eventsFor event.approvalId
      ↔ event ∈ store.eventsFor event.approvalId ∨ Appends policy store call event := by
  cases hop : call.op with
  | request findingId action requestedBy requestedAt scanRunId =>
      rw [approvalStep_request policy store call hop]
      simp only [Appends, hop]
      split_ifs with hcreates
      · rw [mem_recordEvent, and_iff_right hcreates]
      · exact (or_iff_left fun h => hcreates h.1).symm
  | decide decision approvalId reviewedBy reason reviewedAt =>
      simp only [Appends, hop]
      cases hget : store.get approvalId with
      | none =>
          rw [approvalStep_decide_unknown policy store call hop hget]
          simp
      | some r =>
          rw [approvalStep_decide_known policy store call hop hget]
          simp only [Option.some.injEq, exists_eq_left']
          split_ifs with hmoves
          · rw [mem_recordEvent, and_iff_right hmoves]
          · exact (or_iff_left fun h => hmoves h.1).symm

end Approvals

/-! ## What a request records and removes -/

/-- **The request has recorded the event**, for a user who is logged in and has the permission: it
asks for the approval of a stored finding that is eligible and has no request in the way, or it
decides, as the transitions allow, on a stored request. -/
inductive Records (crypto : Crypto) (event : ApprovalEvent) (s : Platform) (request : Request) :
    Prop
  | asks (user : User) (findingId : String) (action : ApprovalAction) (scanRunId : Option String)
      (env : RequestEnv) :
      Calls crypto user (.requestApproval findingId action scanRunId) env s request →
      s.Admits (.requestApproval findingId action scanRunId) →
      Unblocked defaultPolicy s.world.approvals findingId action →
      Eligible defaultPolicy s.gates findingId → env.moment.utcnow.isAware = true →
      event =
        { id := env.moment.eventId
          approvalId := env.moment.requestId
          findingId := findingId
          previousStatus := none
          newStatus := .pending
          actor := user.username
          reason := none
          createdAt := env.moment.utcnow.asAwareUtc } →
      Records crypto event s request
  | decides (user : User) (decision : Decision) (approvalId : String) (reason : Option String)
      (env : RequestEnv) (r : ApprovalRequest) :
      Calls crypto user (.decide decision approvalId reason) env s request →
      s.Admits (.decide decision approvalId reason) →
      s.world.approvals.get approvalId = some r →
      decision.target ∈ allowedTransitions r.status → env.moment.utcnow.isAware = true →
      event =
        { id := env.moment.eventId
          approvalId := approvalId
          findingId := r.findingId
          previousStatus := some r.status
          newStatus := decision.target
          actor := user.username
          reason := reason
          createdAt := env.moment.utcnow.asAwareUtc } →
      Records crypto event s request

/-- The event is in the trail of its approval request. -/
def InTrail (event : ApprovalEvent) (s : Platform) : Prop :=
  event ∈ s.world.approvals.eventsFor event.approvalId

/-- The request deletes a project with the finding of the approval request. -/
def Deletes (crypto : Crypto) (approvalId : String) (s : Platform) (request : Request) : Prop :=
  ∃ user projectId env project found r, Calls crypto user (.deleteProject projectId) env s request
    ∧ env.surroundings.project projectId = some project
    ∧ projectFindingIds s.scans.runs projectId = .ok found
    ∧ s.world.approvals.get approvalId = some r ∧ r.findingId ∈ found

/-! ## What one request does to a trail -/

/-- A request that is authorized is handled. -/
lemma platformStep_calls {user : User} {endpoint : Endpoint} {env : RequestEnv}
    (h : Calls crypto user endpoint env s request) :
    platformStep crypto rt s request = (s.handle rt env user endpoint).1 := by
  obtain ⟨cookie, rfl, hpermits⟩ := h
  rw [platformStep, Platform.respond, hpermits]

/-- Recording an action concerns the runs alone. -/
lemma world_answer_recorded {ε α : Type} (http : ε → HttpError) (reply : α → Reply)
    (stageName : String) (stamp : ExecutionStamp) (text : ε → String)
    (errorCondition : Option (α → Bool × String)) (scanRunId : Option String)
    (result : Platform × Except ε α) :
    (answer http reply (recorded stageName stamp text errorCondition scanRunId result)).1.world
      = result.1.world := by
  obtain ⟨runs, hrecorded⟩ := recorded_eq stageName stamp text errorCondition scanRunId result
  rw [hrecorded]
  rfl

lemma approvals_of_asks {user : User} {findingId : String} {action : ApprovalAction}
    {scanRunId : Option String} {env : RequestEnv}
    (hcalls : Calls crypto user (.requestApproval findingId action scanRunId) env s request)
    (hadmits : s.Admits (.requestApproval findingId action scanRunId)) :
    (platformStep crypto rt s request).world.approvals
      = approvalStep defaultPolicy s.world.approvals
        ⟨.request findingId action user.username none scanRunId, s.gates, env.moment⟩ := by
  obtain ⟨⟨finding, hfinding⟩, hcontext⟩ := hadmits
  rw [platformStep_calls hcalls, Platform.handle, Platform.requestApproval, Platform.onFinding]
  simp only [hfinding, hcontext, world_answer_recorded]
  rfl

lemma approvals_of_decides {user : User} {decision : Decision} {approvalId : String}
    {reason : Option String} {env : RequestEnv} {r : ApprovalRequest}
    (hcalls : Calls crypto user (.decide decision approvalId reason) env s request)
    (hadmits : s.Admits (.decide decision approvalId reason))
    (hget : s.world.approvals.get approvalId = some r)
    (hallowed : decision.target ∈ allowedTransitions r.status) :
    (platformStep crypto rt s request).world.approvals
      = approvalStep defaultPolicy s.world.approvals
        ⟨.decide decision approvalId user.username reason none, s.gates, env.moment⟩ := by
  have hblank : Platform.blankReason reason = false := hadmits
  have hpassed : ¬ (r.scanRunId.isSome ∧ decision.target ∉ allowedTransitions r.status) :=
    fun h => h.2 hallowed
  rw [platformStep_calls hcalls, Platform.handle, Platform.decideApproval, hblank, hget]
  simp only [if_neg hpassed, Bool.false_eq_true, if_false, world_answer_recorded]
  rfl

/-- Findings are deleted one after the other as if together. -/
lemma approvals_foldl_removeFinding (s : Platform) (hk : s.world.approvals.WellKeyed)
    (findingIds : List String) :
    (findingIds.foldl Platform.removeFinding s).world.approvals
      = s.world.approvals.without findingIds := by
  induction findingIds generalizing s with
  | nil => exact (s.world.approvals.without_nil).symm
  | cons id ids ih =>
      have hfirst : (s.removeFinding id).world.approvals = s.world.approvals.without [id] :=
        s.world.approvals.removeFinding_eq_without id
      rw [List.foldl_cons, ih _ (hfirst ▸ hk.without [id]), hfirst, hk.without_without]
      rfl

lemma approvals_of_deletes {user : User} {projectId : String} {env : RequestEnv}
    {project : Project} {found : List String} (hk : s.world.approvals.WellKeyed)
    (hcalls : Calls crypto user (.deleteProject projectId) env s request)
    (hproject : env.surroundings.project projectId = some project)
    (hfound : projectFindingIds s.scans.runs projectId = .ok found) :
    (platformStep crypto rt s request).world.approvals = s.world.approvals.without found := by
  rw [platformStep_calls hcalls, Platform.handle, Platform.deleteProject, Platform.onProject]
  simp only [hproject, hfound]
  rw [Platform.removeProject]
  dsimp only
  rw [approvals_foldl_removeFinding s hk]
  exact ApprovalStore.without_congr (fun id => env.order.mem found id) s.world.approvals

/-- The deletion of a finding removes the trails of its requests. -/
lemma not_mem_of_deletes (hsound : s.Sound) (h : Deletes crypto event.approvalId s request) :
    ¬ InTrail event (platformStep crypto rt s request) := by
  obtain ⟨user, projectId, env, project, found, r, hcalls, hproject, hfound, hget, hmem⟩ := h
  have hgone : event.approvalId ∈ s.world.approvals.requestIds found :=
    (hsound.approvals.mem_requestIds found _).2 ⟨r, hget, hmem⟩
  rw [InTrail, approvals_of_deletes hsound.approvals hcalls hproject hfound,
    ApprovalStore.eventsFor_without, if_pos hgone]
  exact List.not_mem_nil

/-- A new event is one that the request has recorded. -/
lemma records_of_appends (hsound : s.Sound) {user : User} {endpoint : Endpoint} {env : RequestEnv}
    (hcalls : Calls crypto user endpoint env s request) (hadmits : s.Admits endpoint)
    {op : ApprovalOp} (hop : endpoint.op user = some (.approval op))
    (h : Appends defaultPolicy s.world.approvals ⟨op, s.gates, env.moment⟩ event) :
    Records crypto event s request := by
  cases endpoint with
  | requestApproval findingId action scanRunId =>
      cases hop
      obtain ⟨⟨hunblocked, heligible, haware⟩, rfl⟩ := h
      exact .asks user findingId action scanRunId env hcalls hadmits hunblocked heligible haware rfl
  | decide decision approvalId reason =>
      cases hop
      obtain ⟨r, hget, ⟨hallowed, haware⟩, rfl⟩ := h
      refine .decides user decision approvalId reason env r hcalls hadmits hget hallowed haware ?_
      rw [transitionEvent, hsound.approvals approvalId r hget]
      rfl
  | _ => cases hop

/-- What a request records is in the trail. -/
lemma Records.mem (hsound : s.Sound) (h : Records crypto event s request) :
    InTrail event (platformStep crypto rt s request) := by
  rw [InTrail]
  cases h with
  | asks user findingId action scanRunId env hcalls hadmits hunblocked heligible haware hevent =>
      rw [approvals_of_asks hcalls hadmits]
      exact mem_eventsFor_approvalStep.2 (Or.inr ⟨⟨hunblocked, heligible, haware⟩, hevent⟩)
  | decides user decision approvalId reason env r hcalls hadmits hget hallowed haware hevent =>
      rw [approvals_of_decides hcalls hadmits hget hallowed]
      refine mem_eventsFor_approvalStep.2 (Or.inr ⟨r, hget, ⟨hallowed, haware⟩, ?_⟩)
      rw [transitionEvent, hsound.approvals approvalId r hget]
      exact hevent

/-- **What one request does to a trail**: the trail has a new event, or keeps what it had unless the
finding is deleted. -/
lemma inTrail_step (hsound : s.Sound) (request : Request) :
    InTrail event (platformStep crypto rt s request)
      ↔ Records crypto event s request
        ∨ (InTrail event s ∧ ¬ Deletes crypto event.approvalId s request) := by
  constructor
  · intro h
    have hkept : ¬ Deletes crypto event.approvalId s request := fun hdeletes =>
      not_mem_of_deletes hsound hdeletes h
    have hchange := platformStep_change crypto rt s request
    generalize platformStep crypto rt s request = s' at hchange h
    cases hchange with
    | worked user endpoint env op runs hcalls hadmits hop =>
        rcases approvals_workflowStep defaultPolicy rt s.world (s.workflowCall env op)
          with heq | ⟨called, hcalled, heq⟩
        · rw [InTrail, heq] at h
          exact Or.inr ⟨h, hkept⟩
        · rw [InTrail, heq] at h
          obtain rfl : op = .approval called := hcalled
          exact (mem_eventsFor_approvalStep.1 h).elim (fun hold => Or.inr ⟨hold, hkept⟩)
            fun happends => Or.inl (records_of_appends hsound hcalls hadmits hop happends)
    | deleted user projectId env project found _ _ _ =>
        exact Or.inr ⟨(s.within_deleted env projectId _).events _ _ h, hkept⟩
    | _ => exact Or.inr ⟨h, hkept⟩
  · rintro (hrecords | ⟨hold, hkept⟩)
    · exact hrecords.mem hsound
    · have hchange := platformStep_change crypto rt s request
      obtain ⟨s', hstep⟩ : ∃ s', platformStep crypto rt s request = s' := ⟨_, rfl⟩
      rw [hstep] at hchange ⊢
      rw [InTrail] at hold ⊢
      cases hchange with
      | worked user endpoint env op runs _ _ _ =>
          rcases approvals_workflowStep defaultPolicy rt s.world (s.workflowCall env op)
            with heq | ⟨called, _, heq⟩
          · dsimp only
            rw [heq]
            exact hold
          · dsimp only
            rw [heq]
            exact (events_kept defaultPolicy s.world.approvals _ event.approvalId).subset hold
      | deleted user projectId env project found hcalls hproject hfound =>
          have hleft : event.approvalId ∉ s.world.approvals.requestIds found := by
            intro hgone
            obtain ⟨r, hget, hmem⟩ := (hsound.approvals.mem_requestIds found _).1 hgone
            exact hkept ⟨user, projectId, env, project, found, r, hcalls, hproject, hfound, hget,
              hmem⟩
          rw [← hstep, approvals_of_deletes hsound.approvals hcalls hproject hfound,
            ApprovalStore.eventsFor_without, if_neg hleft]
          exact hold
      | _ => exact hold

/-- **The audit trail is true and complete.**  In every run of requests, whoever makes them and in
whatever order: an event is in the trail of its approval request exactly if an earlier request of
its actor, who was logged in and had the permission, asked for that approval or took that decision
at the time and with the reason that the event names, and the finding has not been deleted since. -/
theorem inTrail_iff (crypto : Crypto) (rt : Runtime) (users : UserTable)
    (files : Path → Option (List UInt8)) (requests : List Request) (event : ApprovalEvent) :
    InTrail event (exec (platformStep crypto rt) (.start users files) requests)
      ↔ ∃ pre request post, requests = pre ++ request :: post
        ∧ Records crypto event (exec (platformStep crypto rt) (.start users files) pre) request
        ∧ Throughout (platformStep crypto rt)
          (fun s later => ¬ Deletes crypto event.approvalId s later)
          (platformStep crypto rt (exec (platformStep crypto rt) (.start users files) pre) request)
          post :=
  exec_since Platform.Sound (fun _ request hs => hs.step request)
    (fun _ request hs => inTrail_step hs request) (Platform.sound_start users files)
    (show ¬ InTrail event (.start users files) from List.not_mem_nil) requests

end Sast
