import SastEngine.Approval.Newest
import SastEngine.Approval.PerAction
import SastEngine.Remediation.Service

/-!
# The approval gate

`propose` and `apply` ask for the newest request of the finding, over all actions, and pass only
if that one is an approved remediation request.  A finding may meanwhile have an approved
remediation request that is not its newest.  The gate follows the approvals exactly in the runs
that never approve an older remediation request, and never add a later request to a finding whose
gate stands open.
-/

namespace Sast

variable {policy : ApprovalPolicy} {store : ApprovalStore} {call : ApprovalCall}

/-- `_require_approved_approval` passes. -/
def GatePasses (store : ApprovalStore) (findingId : String) : Prop :=
  ∃ approval, requireApprovedApproval store findingId = .ok approval

/-- An approved remediation request. -/
def IsAuthorization (r : ApprovalRequest) : Prop := r.action = .remediation ∧ r.status = .approved

instance (r : ApprovalRequest) : Decidable (IsAuthorization r) := by
  unfold IsAuthorization; infer_instance

/-- Some remediation request of the finding is currently approved. -/
def Authorized (policy : ApprovalPolicy) (store : ApprovalStore) (findingId : String) : Prop :=
  ∃ r ∈ store.all, r.findingId = findingId ∧ r.action = .remediation
    ∧ isActionAllowed policy store r.id = true

/-- The call is about a request for another action than remediation. -/
def ConcernsOther (store : ApprovalStore) (call : ApprovalCall) : Prop :=
  match call.op with
  | .request _ action _ _ _ => action ≠ .remediation
  | .decide _ approvalId _ _ _ => ∃ r, store.get approvalId = some r ∧ r.action ≠ .remediation

/-- The gate follows the approvals over this call: afterwards it is open for exactly the findings
with an approved remediation request, and a call about another action opened or closed it for
none. -/
def GateFollows (policy : ApprovalPolicy) (store : ApprovalStore) (call : ApprovalCall) : Prop :=
  (∀ findingId, GatePasses (approvalStep policy store call) findingId
      ↔ Authorized policy (approvalStep policy store call) findingId)
    ∧ (ConcernsOther store call →
      ∀ findingId, GatePasses (approvalStep policy store call) findingId
        ↔ GatePasses store findingId)

/-- The call keeps authorizations newest: a request that is created while the gate of its finding
is open is not stamped later than the newest one, and a pending remediation request is approved
only if it is the newest request of its finding or the gate is open already. -/
def KeepsNewest (policy : ApprovalPolicy) (store : ApprovalStore) (call : ApprovalCall) : Prop :=
  match call.op with
  | .request findingId action _ requestedAt _ =>
      Unblocked policy store findingId action → Eligible policy call.gates findingId →
        StampAware call.moment requestedAt → GatePasses store findingId →
        ∀ r ∈ store.findForFinding findingId,
          (requestedAt.getD call.moment.utcnow).instant ≤ r.requestedAt.instant
  | .decide decision approvalId _ _ reviewedAt =>
      decision = .approve → StampAware call.moment reviewedAt →
        ∀ r ∈ store.get approvalId, r.status = .pending → r.action = .remediation →
          store.findForFinding r.findingId = some r ∨ GatePasses store r.findingId

/-- Whether the gate passes is decided by running it. -/
instance (store : ApprovalStore) (findingId : String) : Decidable (GatePasses store findingId) :=
  match h : requireApprovedApproval store findingId with
  | .ok approval => isTrue ⟨approval, h⟩
  | .error e => isFalse fun ⟨_, h'⟩ => by simp [h] at h'

instance (store : ApprovalStore) (findingId : String) :
    Decidable (Authorized policy store findingId) := by
  unfold Authorized; infer_instance

instance (store : ApprovalStore) (call : ApprovalCall) :
    Decidable (KeepsNewest policy store call) :=
  match call with
  | ⟨.request findingId action _ requestedAt _, gates, moment⟩ => inferInstanceAs (Decidable
      (Unblocked policy store findingId action → Eligible policy gates findingId →
        StampAware moment requestedAt → GatePasses store findingId →
        ∀ r ∈ store.findForFinding findingId,
          (requestedAt.getD moment.utcnow).instant ≤ r.requestedAt.instant))
  | ⟨.decide decision approvalId _ _ reviewedAt, _, moment⟩ => inferInstanceAs (Decidable
      (decision = .approve → StampAware moment reviewedAt →
        ∀ r ∈ store.get approvalId, r.status = .pending → r.action = .remediation →
          store.findForFinding r.findingId = some r ∨ GatePasses store r.findingId))

/-! ## The gate and the authorizations -/

lemma gatePasses_iff (store : ApprovalStore) (findingId : String) :
    GatePasses store findingId
      ↔ ∃ r, store.findForFinding findingId = some r ∧ IsAuthorization r := by
  unfold GatePasses requireApprovedApproval IsAuthorization
  cases store.findForFinding findingId with
  | none => simp
  | some r =>
      by_cases ha : r.action = .remediation
      · by_cases hs : r.status = .approved
        · simp [ha, hs]
        · simp [ha, hs]
      · simp [ha]

lemma isActionAllowed_iff (hk : store.WellKeyed)
    (hallow : ApprovalAction.remediation ∈ policy.allowedActions) {r : ApprovalRequest}
    (hr : r ∈ store.all) (ha : r.action = .remediation) :
    isActionAllowed policy store r.id = true ↔ r.status = .approved := by
  simp [isActionAllowed, hk.get_id hr, ha, hallow]

lemma authorized_iff (hk : store.WellKeyed)
    (hallow : ApprovalAction.remediation ∈ policy.allowedActions) (findingId : String) :
    Authorized policy store findingId
      ↔ ∃ r ∈ store.all, r.findingId = findingId ∧ IsAuthorization r := by
  unfold Authorized IsAuthorization
  constructor
  · rintro ⟨r, hr, hf, ha, hallowed⟩
    exact ⟨r, hr, hf, ha, (isActionAllowed_iff hk hallow hr ha).1 hallowed⟩
  · rintro ⟨r, hr, hf, ha, hs⟩
    exact ⟨r, hr, hf, ha, (isActionAllowed_iff hk hallow hr ha).2 hs⟩

/-! ## A new request -/

/-- A new pending request leaves the gate as it is, unless it is later than an authorization. -/
lemma gatePasses_save_new {x : ApprovalRequest} (hnew : store.get x.id = none)
    (hpend : x.status = .pending) (findingId : String) :
    GatePasses (store.save x) findingId
      ↔ GatePasses store findingId ∧ (x.findingId = findingId →
        ∀ r, store.findForFinding findingId = some r →
          x.requestedAt.instant ≤ r.requestedAt.instant) := by
  have hx : ¬ IsAuthorization x := fun h => by simp [IsAuthorization, hpend] at h
  rw [gatePasses_iff, gatePasses_iff, ApprovalStore.findForFinding_save_new hnew]
  by_cases hf : x.findingId = findingId
  · rw [if_pos hf]
    cases hnewest : store.findForFinding findingId with
    | none => simpa [ApprovalStore.laterOf] using hx
    | some best =>
        by_cases hlt : best.requestedAt.instant < x.requestedAt.instant
        · simp only [ApprovalStore.laterOf, if_pos hlt, Option.some.injEq, exists_eq_left']
          exact iff_of_false hx fun h => absurd (h.2 hf best rfl) (not_le.2 hlt)
        · simp only [ApprovalStore.laterOf, if_neg hlt, Option.some.injEq, exists_eq_left',
            forall_eq']
          exact ⟨fun h => ⟨h, fun _ => not_lt.1 hlt⟩, And.left⟩
  · rw [if_neg hf]
    exact ⟨fun h => ⟨h, fun h' => absurd h' hf⟩, And.left⟩

/-- A new pending request authorizes nothing. -/
lemma exists_authorization_save_new {x : ApprovalRequest} (hnew : store.get x.id = none)
    (hpend : x.status = .pending) (findingId : String) :
    (∃ r ∈ (store.save x).all, r.findingId = findingId ∧ IsAuthorization r)
      ↔ ∃ r ∈ store.all, r.findingId = findingId ∧ IsAuthorization r := by
  rw [ApprovalStore.all_save_new store x hnew]
  constructor
  · rintro ⟨r, hr, hf, ha⟩
    rcases List.mem_append.1 hr with hr | hr
    · exact ⟨r, hr, hf, ha⟩
    · rw [List.mem_singleton.1 hr] at ha
      simp [IsAuthorization, hpend] at ha
  · rintro ⟨r, hr, h⟩
    exact ⟨r, List.mem_append_left _ hr, h⟩

/-! ## A request that moves along -/

section Moved

variable {x old : ApprovalRequest}

lemma get_of_mem_id (hk : store.WellKeyed) (hget : store.get x.id = some old)
    {r : ApprovalRequest} (hr : r ∈ store.all) (hid : r.id = x.id) : r = old := by
  have h := hk.get_id hr
  rw [hid, hget] at h
  exact (Option.some.inj h).symm

/-- Where the move neither grants nor withdraws an authorization, gate and authorizations
stay. -/
lemma move_frame (hk : store.WellKeyed) (hget : store.get x.id = some old)
    (hf : x.findingId = old.findingId) (ht : x.requestedAt = old.requestedAt)
    (hauth : IsAuthorization x ↔ IsAuthorization old) (findingId : String) :
    (GatePasses (store.save x) findingId ↔ GatePasses store findingId)
      ∧ ((∃ r ∈ (store.save x).all, r.findingId = findingId ∧ IsAuthorization r)
        ↔ ∃ r ∈ store.all, r.findingId = findingId ∧ IsAuthorization r) := by
  have hrep : ∀ r ∈ store.all, (ApprovalStore.replaceById x r).findingId = r.findingId
      ∧ (IsAuthorization (ApprovalStore.replaceById x r) ↔ IsAuthorization r) := by
    intro r hr
    unfold ApprovalStore.replaceById
    split_ifs with hid
    · rw [get_of_mem_id hk hget hr hid]
      exact ⟨hf, hauth⟩
    · exact ⟨rfl, Iff.rfl⟩
  constructor
  · rw [gatePasses_iff, gatePasses_iff, hk.findForFinding_save hget hf ht]
    cases hnewest : store.findForFinding findingId with
    | none => simp
    | some r => simpa using (hrep r (ApprovalStore.findForFinding_mem hnewest).1).2
  · rw [hk.all_save_of_mem hget]
    simp only [List.mem_map, exists_exists_and_eq_and]
    refine exists_congr fun r => and_congr_right fun hr => ?_
    rw [(hrep r hr).1, (hrep r hr).2]

/-- Where the move grants an authorization, the gate of its finding opens iff the request is the
newest one or the gate was open. -/
lemma grant_gate (hk : store.WellKeyed) (hget : store.get x.id = some old)
    (hf : x.findingId = old.findingId) (ht : x.requestedAt = old.requestedAt)
    (hx : IsAuthorization x) (findingId : String) :
    GatePasses (store.save x) findingId
      ↔ GatePasses store findingId ∨ store.findForFinding findingId = some old := by
  have hidold : old.id = x.id := hk _ _ hget
  rw [gatePasses_iff, gatePasses_iff, hk.findForFinding_save hget hf ht]
  cases hnewest : store.findForFinding findingId with
  | none => simp
  | some r =>
      have hr := (ApprovalStore.findForFinding_mem hnewest).1
      simp only [Option.map_some, Option.some.injEq, exists_eq_left']
      unfold ApprovalStore.replaceById
      split_ifs with hid
      · have hrold := get_of_mem_id hk hget hr hid
        exact iff_of_true hx (Or.inr hrold)
      · have hne : r ≠ old := fun h => hid (h ▸ hidold)
        simp [hne]

/-- Where the move grants an authorization, its finding becomes authorized. -/
lemma grant_authorization (hk : store.WellKeyed) (hget : store.get x.id = some old)
    (hf : x.findingId = old.findingId) (hx : IsAuthorization x) (hold : ¬ IsAuthorization old)
    (findingId : String) :
    (∃ r ∈ (store.save x).all, r.findingId = findingId ∧ IsAuthorization r)
      ↔ (∃ r ∈ store.all, r.findingId = findingId ∧ IsAuthorization r)
        ∨ old.findingId = findingId := by
  constructor
  · rintro ⟨r, hr, hrf, hra⟩
    rcases (hk.mem_all_save x r).1 hr with rfl | ⟨hr, -⟩
    · exact Or.inr (hf ▸ hrf)
    · exact Or.inl ⟨r, hr, hrf, hra⟩
  · rintro (⟨r, hr, hrf, hra⟩ | hfin)
    · refine ⟨r, (hk.mem_all_save x r).2 (Or.inr ⟨hr, fun hid => hold ?_⟩), hrf, hra⟩
      rw [← get_of_mem_id hk hget hr hid]
      exact hra
    · exact ⟨x, (hk.mem_all_save x x).2 (Or.inl rfl), hf.trans hfin, hx⟩

end Moved

/-! ## One call -/

/-- Gate and authorizations agree. -/
def GateAgrees (policy : ApprovalPolicy) (store : ApprovalStore) : Prop :=
  ∀ findingId, GatePasses store findingId ↔ Authorized policy store findingId

/-- A call that leaves the store alone keeps an agreeing gate. -/
lemma gateFollows_of_same (hagree : GateAgrees policy store)
    (hsame : approvalStep policy store call = store) : GateFollows policy store call := by
  unfold GateFollows
  rw [hsame]
  exact ⟨hagree, fun _ _ => Iff.rfl⟩

/-- A request keeps an agreeing gate iff it keeps authorizations newest. -/
lemma gateFollows_request (hallow : ApprovalAction.remediation ∈ policy.allowedActions)
    (hk : store.WellKeyed) (hagree : GateAgrees policy store) (hfresh : FreshId store call)
    {findingId : String} {action : ApprovalAction} {requestedBy : String}
    {requestedAt : Option DateTime} {scanRunId : Option String}
    (hop : call.op = .request findingId action requestedBy requestedAt scanRunId) :
    GateFollows policy store call ↔ KeepsNewest policy store call := by
  have hstep := approvalStep_request policy store call hop
  have hkeep : KeepsNewest policy store call ↔ (Unblocked policy store findingId action →
      Eligible policy call.gates findingId → StampAware call.moment requestedAt →
      GatePasses store findingId → ∀ r, store.findForFinding findingId = some r →
        (requestedAt.getD call.moment.utcnow).instant ≤ r.requestedAt.instant) := by
    unfold KeepsNewest
    rw [hop]
    exact Iff.rfl
  rw [hkeep]
  by_cases hcond : Unblocked policy store findingId action ∧ Eligible policy call.gates findingId
      ∧ StampAware call.moment requestedAt
  · rw [if_pos hcond] at hstep
    generalize hx : requested call findingId action requestedBy requestedAt scanRunId = x at hstep
    have hxnew : store.get x.id = none := by rw [← hx]; exact hfresh
    have hxpend : x.status = .pending := by rw [← hx]; rfl
    have hxf : x.findingId = findingId := by rw [← hx]; rfl
    have hxt : x.requestedAt.instant = (requestedAt.getD call.moment.utcnow).instant := by
      rw [← hx]
      simp [requested, newRequest, DateTime.instant, DateTime.asAwareUtc]
      cases (requestedAt.getD call.moment.utcnow).utcoffset <;> simp
    have hgate := gatePasses_save_new hxnew hxpend
    have hauth := exists_authorization_save_new hxnew hxpend
    have hagree' := fun f => (hagree f).trans (authorized_iff hk hallow f)
    rw [GateFollows, hstep]
    constructor
    · rintro ⟨hfollow, -⟩ - - - hpass
      have hpass' : GatePasses (store.save x) findingId := by
        refine (hfollow findingId).2 ((authorized_iff (hk.save x) hallow _).2 ?_)
        exact (hauth findingId).2 ((hagree' findingId).1 hpass)
      rw [← hxt]
      exact ((hgate findingId).1 hpass').2 hxf
    · intro hle
      have hsame : ∀ f, GatePasses (store.save x) f ↔ GatePasses store f := by
        intro f
        rw [hgate f]
        refine ⟨And.left, fun hpass => ⟨hpass, fun hff => ?_⟩⟩
        rw [hxt, ← hff, hxf]
        refine hle hcond.1 hcond.2.1 hcond.2.2 ?_
        rw [← hxf, hff]
        exact hpass
      refine ⟨fun f => ?_, fun _ f => hsame f⟩
      have h1 := authorized_iff (hk.save x) hallow f
      exact (hsame f).trans ((hagree' f).trans ((hauth f).symm.trans h1.symm))
  · rw [if_neg hcond] at hstep
    exact iff_of_true (gateFollows_of_same hagree hstep)
      fun hu he ha => absurd ⟨hu, he, ha⟩ hcond

/-- A move keeps an agreeing gate iff it keeps authorizations newest: only an approval can grant
an authorization, and then the two sides are `grant_gate` and `grant_authorization`. -/
lemma gateFollows_moved (hallow : ApprovalAction.remediation ∈ policy.allowedActions)
    (hk : store.WellKeyed) (hagree : GateAgrees policy store) {decision : Decision}
    {approvalId reviewedBy : String} {reason : Option String} {reviewedAt : Option DateTime}
    (hop : call.op = .decide decision approvalId reviewedBy reason reviewedAt)
    {old : ApprovalRequest} (hget : store.get approvalId = some old)
    (hcond : decision.target ∈ allowedTransitions old.status ∧ StampAware call.moment reviewedAt)
    (hstep : approvalStep policy store call
      = (store.save (decided call old decision reviewedBy reason reviewedAt)).recordEvent
        (transitionEvent call.moment old decision.target reviewedBy reason
          (reviewedAt.getD call.moment.utcnow).asAwareUtc)) :
    GateFollows policy store call ↔ (decision = .approve → StampAware call.moment reviewedAt →
      ∀ r, some old = some r → r.status = .pending → r.action = .remediation →
        store.findForFinding r.findingId = some r ∨ GatePasses store r.findingId) := by
  have hid : old.id = approvalId := hk approvalId old hget
  have hagree' := fun f => (hagree f).trans (authorized_iff hk hallow f)
  have hlive : ¬ IsAuthorization old := by
    rintro ⟨-, hs⟩
    simp [hs, allowedTransitions] at hcond
  generalize hx : decided call old decision reviewedBy reason reviewedAt = x at hstep
  have hxget : store.get x.id = some old := by
    rw [← hx]
    exact hid ▸ hget
  have hxf : x.findingId = old.findingId := by rw [← hx]; rfl
  have hxa : x.action = old.action := by rw [← hx]; rfl
  have hxt : x.requestedAt = old.requestedAt := by rw [← hx]; rfl
  have hxs : x.status = decision.target := by rw [← hx]; rfl
  have hafter := fun f => authorized_iff (hk.save x) hallow f
  rw [GateFollows, hstep]
  by_cases hgrant : IsAuthorization x
  · have hgate := grant_gate hk hxget hxf hxt hgrant
    have hauth := grant_authorization hk hxget hxf hgrant hlive
    have happ : decision = .approve := by
      have := hxs.symm.trans hgrant.2
      cases decision <;> simp_all [Decision.target]
    have hpend : old.status = .pending := by
      have := hcond.1
      cases hs : old.status <;> simp_all [allowedTransitions, Decision.target]
    have hrem : old.action = .remediation := hxa ▸ hgrant.1
    constructor
    · rintro ⟨hfollow, -⟩ - - r hr - -
      obtain rfl := Option.some.inj hr
      have hpass := (hfollow old.findingId).2 ((hafter _).2 ((hauth _).2 (Or.inr rfl)))
      exact ((hgate old.findingId).1 hpass).symm
    · intro hnewest
      refine ⟨fun f => ?_, fun hother => ?_⟩
      · refine Iff.trans (hgate f) (Iff.trans ?_ ((hauth f).symm.trans (hafter f).symm))
        constructor
        · rintro (hpass | hnew)
          · exact Or.inl ((hagree' f).1 hpass)
          · exact Or.inr (ApprovalStore.findForFinding_mem hnew).2
        · rintro (hauthd | rfl)
          · exact Or.inl ((hagree' f).2 hauthd)
          · exact (hnewest happ hcond.2 old rfl hpend hrem).symm
      · simp only [ConcernsOther, hop, hget] at hother
        obtain ⟨r, hr, hne⟩ := hother
        exact absurd (Option.some.inj hr ▸ hrem) hne
  · have hframe := move_frame hk hxget hxf hxt (iff_of_false hgrant hlive)
    refine iff_of_true ⟨fun f => ?_, fun _ f => (hframe f).1⟩ ?_
    · exact (hframe f).1.trans ((hagree' f).trans ((hframe f).2.symm.trans (hafter f).symm))
    · intro hd _ r hr _ hrem
      obtain rfl := Option.some.inj hr
      exact absurd ⟨hxa.trans hrem, by rw [hxs, hd]; rfl⟩ hgrant

/-- A decision keeps an agreeing gate iff it keeps authorizations newest. -/
lemma gateFollows_decide (hallow : ApprovalAction.remediation ∈ policy.allowedActions)
    (hk : store.WellKeyed) (hagree : GateAgrees policy store) {decision : Decision}
    {approvalId reviewedBy : String} {reason : Option String} {reviewedAt : Option DateTime}
    (hop : call.op = .decide decision approvalId reviewedBy reason reviewedAt) :
    GateFollows policy store call ↔ KeepsNewest policy store call := by
  have hkeep : KeepsNewest policy store call ↔ (decision = .approve →
      StampAware call.moment reviewedAt → ∀ r, store.get approvalId = some r →
        r.status = .pending → r.action = .remediation →
          store.findForFinding r.findingId = some r ∨ GatePasses store r.findingId) := by
    unfold KeepsNewest
    rw [hop]
    exact Iff.rfl
  rw [hkeep]
  cases hget : store.get approvalId with
  | none =>
      exact iff_of_true (gateFollows_of_same hagree
        (approvalStep_decide_unknown policy store call hop hget)) fun _ _ r hr => by simp at hr
  | some old =>
      have hstep := approvalStep_decide_known policy store call hop hget
      by_cases hcond : decision.target ∈ allowedTransitions old.status
          ∧ StampAware call.moment reviewedAt
      · rw [if_pos hcond] at hstep
        exact gateFollows_moved hallow hk hagree hop hget hcond hstep
      · rw [if_neg hcond] at hstep
        refine iff_of_true (gateFollows_of_same hagree hstep) fun hd ha r hr hpend _ => ?_
        refine absurd ⟨?_, ha⟩ hcond
        rw [Option.some.inj hr, hpend, hd]
        decide

/-! ## Runs -/

/-- **The gate follows the approvals exactly in the runs that keep authorizations newest.**  Over
every run of approval calls from the empty store, on any findings, actions and time stamps: after
every call the gate is open for exactly the findings with an approved remediation request, and
calls about other actions never open or close it, if and only if no call adds a later request
while the gate is open or approves a remediation request that is not the newest one while the gate
is closed. -/
theorem throughout_gateFollows_iff (policy : ApprovalPolicy)
    (hallow : ApprovalAction.remediation ∈ policy.allowedActions) (calls : List ApprovalCall)
    (hfresh : Throughout (approvalStep policy) FreshId .empty calls) :
    Throughout (approvalStep policy) (GateFollows policy) .empty calls
      ↔ Throughout (approvalStep policy) (KeepsNewest policy) .empty calls := by
  refine throughout_congr (fun store => store.WellKeyed ∧ GateAgrees policy store) ?_ ?_ ?_ hfresh
  · rintro store call ⟨hk, hagree⟩ hf
    cases hop : call.op with
    | request findingId action requestedBy requestedAt scanRunId =>
        exact gateFollows_request hallow hk hagree hf hop
    | decide decision approvalId reviewedBy reason reviewedAt =>
        exact gateFollows_decide hallow hk hagree hop
  · rintro store call ⟨hk, -⟩ hf hfollows
    exact ⟨(approvalStep_change hk hf).wellKeyed hk, hfollows.1⟩
  · refine ⟨ApprovalStore.wellKeyed_empty, fun findingId => iff_of_false ?_ ?_⟩
    · rw [gatePasses_iff]
      rintro ⟨r, hr, -⟩
      exact absurd (ApprovalStore.findForFinding_mem hr).1 (by simp)
    · rintro ⟨r, hr, -⟩
      simp at hr

/-- One finding, one action: requesting and approving it keeps the gate in step. -/
theorem oneAction_gateFollows :
    Throughout (approvalStep defaultPolicy) (GateFollows defaultPolicy) .empty
      [confirmedCall (.request "f" .remediation "dev" none none) 1 "a",
        confirmedCall (.decide .approve "a" "lead" none none) 2 "b",
        confirmedCall (.request "f" .other "dev" none none) 3 "c"] :=
  (throughout_gateFollows_iff defaultPolicy (by decide) _ (by decide)).2 (by decide)

/-- Under the default policy no request is added while the gate of its finding is open. -/
lemma not_gatePasses_of_unblocked {findingId : String} {action : ApprovalAction}
    (h : Unblocked defaultPolicy store findingId action) : ¬ GatePasses store findingId := by
  rw [gatePasses_iff]
  rintro ⟨r, hr, -, hs⟩
  have hnone := (unblocked_default.1 h).2
  simp [newestTerminal, hr, hs, terminalStatuses] at hnone

/-- A remediation request, a later request for another action, then the approval of the first. -/
def approvedBelowOther : List ApprovalCall :=
  [confirmedCall (.request "f" .remediation "dev" none none) 1 "a",
    confirmedCall (.request "f" .other "dev" none none) 2 "b",
    confirmedCall (.decide .approve "a" "lead" none none) 3 "c"]

/-- After `approvedBelowOther` the finding has an approved remediation request and a closed
gate. -/
theorem not_throughout_gateFollows :
    Throughout (approvalStep defaultPolicy) FreshId .empty approvedBelowOther
      ∧ Authorized defaultPolicy
        (exec (approvalStep defaultPolicy) .empty approvedBelowOther) "f"
      ∧ ¬ GatePasses (exec (approvalStep defaultPolicy) .empty approvedBelowOther) "f"
      ∧ ¬ Throughout (approvalStep defaultPolicy) (GateFollows defaultPolicy) .empty
        approvedBelowOther := by
  have hauth : Authorized defaultPolicy
      (exec (approvalStep defaultPolicy) .empty approvedBelowOther) "f" := by decide +kernel
  have hclosed : ¬ GatePasses
      (exec (approvalStep defaultPolicy) .empty approvedBelowOther) "f" := by decide +kernel
  refine ⟨by decide +kernel, hauth, hclosed, fun h => ?_⟩
  exact hclosed ((h.2.2.1.1 "f").2 hauth)

end Sast
