import SastEngine.Approval.Steps

/-!
# Approvals per action

An approval belongs to a pair of a finding and an action.  `_find_active` looks a pair up, but
the lookup for a terminal request takes the newest request of the finding over all actions.  The
two agree exactly when that newest request is terminal iff the pair has a request of its own.
-/

namespace Sast

variable {policy : ApprovalPolicy}

/-- The requests of a pair. -/
def ofPair (store : ApprovalStore) (findingId : String) (action : ApprovalAction) :
    List ApprovalRequest :=
  store.all.filter fun r => r.findingId = findingId ∧ r.action = action

/-- Every pair has at most one request. -/
def AtMostOne (store : ApprovalStore) : Prop :=
  ∀ r ∈ store.all, ∀ r' ∈ store.all,
    r.findingId = r'.findingId → r.action = r'.action → r.id = r'.id

/-- Terminal approvals bind per action in this call: a pair with a terminal request gets no new
request, a pair without a request gets one whatever happened to other actions, and afterwards
every pair has at most one request. -/
def BindsPerAction (policy : ApprovalPolicy) (store : ApprovalStore) (call : ApprovalCall) :
    Prop :=
  match call.op with
  | .request findingId action _ requestedAt _ =>
      ((∃ r ∈ ofPair store findingId action, r.status ∈ terminalStatuses) →
          (approvalStep policy store call).all = store.all)
        ∧ (ofPair store findingId action = [] → Eligible policy call.gates findingId →
          StampAware call.moment requestedAt →
          ofPair (approvalStep policy store call) findingId action ≠ [])
        ∧ AtMostOne (approvalStep policy store call)
  | .decide .. => AtMostOne (approvalStep policy store call)

/-- The lookup over all actions answers for the pair: where a request could be created, the newest
request of the finding is terminal iff the pair already has a request. -/
def NewestSpeaksForPair (policy : ApprovalPolicy) (store : ApprovalStore) (call : ApprovalCall) :
    Prop :=
  match call.op with
  | .request findingId action _ requestedAt _ =>
      store.findActive findingId action activeStatuses = none →
        Eligible policy call.gates findingId → StampAware call.moment requestedAt →
        ((newestTerminal store findingId).isSome ↔ ofPair store findingId action ≠ [])
  | .decide .. => True

instance (store : ApprovalStore) : Decidable (AtMostOne store) := by
  unfold AtMostOne; infer_instance

instance (store : ApprovalStore) (call : ApprovalCall) :
    Decidable (BindsPerAction policy store call) := by
  unfold BindsPerAction; split <;> infer_instance

instance (store : ApprovalStore) (call : ApprovalCall) :
    Decidable (NewestSpeaksForPair policy store call) := by
  unfold NewestSpeaksForPair; split <;> infer_instance

instance (store : ApprovalStore) (call : ApprovalCall) : Decidable (FreshId store call) := by
  unfold FreshId; infer_instance

/-! ## Requests of a pair -/

lemma mem_ofPair {store : ApprovalStore} {findingId : String} {action : ApprovalAction}
    {r : ApprovalRequest} :
    r ∈ ofPair store findingId action
      ↔ r ∈ store.all ∧ r.findingId = findingId ∧ r.action = action := by
  simp [ofPair]

lemma ofPair_eq_nil {store : ApprovalStore} {findingId : String} {action : ApprovalAction} :
    ofPair store findingId action = []
      ↔ ∀ r ∈ store.all, r.findingId = findingId → r.action ≠ action := by
  simp [ofPair]

/-- A pair without an active request has only terminal ones. -/
lemma terminal_of_inactive {store : ApprovalStore} {findingId : String} {action : ApprovalAction}
    (hact : store.findActive findingId action activeStatuses = none) {r : ApprovalRequest}
    (hr : r ∈ ofPair store findingId action) : r.status ∈ terminalStatuses := by
  obtain ⟨hmem, hf, ha⟩ := mem_ofPair.1 hr
  have hnot := ApprovalStore.findActive_none.1 hact r hmem hf ha
  by_contra hterm
  exact hnot ((mem_activeStatuses_iff r.status).2 hterm)

/-- A pair without a request has no active one. -/
lemma inactive_of_ofPair_nil {store : ApprovalStore} {findingId : String}
    {action : ApprovalAction} (h : ofPair store findingId action = []) :
    store.findActive findingId action activeStatuses = none := by
  refine ApprovalStore.findActive_none.2 fun r hr hf ha => ?_
  exact absurd ha (ofPair_eq_nil.1 h r hr hf)

/-- Under the default policy a request is created exactly when the pair has no active request, the
newest request of the finding is not terminal, and the call is eligible and aware. -/
lemma unblocked_default {store : ApprovalStore} {findingId : String} {action : ApprovalAction} :
    Unblocked defaultPolicy store findingId action
      ↔ store.findActive findingId action activeStatuses = none
        ∧ newestTerminal store findingId = none := by
  simp [Unblocked, defaultPolicy]

/-! ## One call -/

section Step

variable {store : ApprovalStore} {call : ApprovalCall}

/-- Moving a request along keeps the pairs apart. -/
lemma AtMostOne.moved (hk : store.WellKeyed) (h : AtMostOne store) {old new : ApprovalRequest}
    (hget : store.get new.id = some old) (hf : new.findingId = old.findingId)
    (ha : new.action = old.action) {store' : ApprovalStore}
    (hall : store'.all = (store.save new).all) : AtMostOne store' := by
  have hold : old ∈ store.all := (ApprovalStore.mem_all_iff store old).2 ⟨_, hget⟩
  have hid : old.id = new.id := hk _ _ hget
  intro r hr r' hr' hff haa
  rw [hall, hk.mem_all_save] at hr hr'
  rcases hr with rfl | ⟨hr, -⟩ <;> rcases hr' with rfl | ⟨hr', -⟩
  · rfl
  · rw [← hid]
    exact h old hold r' hr' (hf ▸ hff) (ha ▸ haa)
  · rw [← hid]
    exact h r hr old hold (hf ▸ hff) (ha ▸ haa)
  · exact h r hr r' hr' hff haa

/-- A new request for a pair without one keeps the pairs apart. -/
lemma AtMostOne.created (hk : store.WellKeyed) (h : AtMostOne store) {new : ApprovalRequest}
    (hnil : ofPair store new.findingId new.action = []) {store' : ApprovalStore}
    (hall : store'.all = (store.save new).all) : AtMostOne store' := by
  have hnew : ∀ r ∈ store.all, r.findingId = new.findingId → r.action ≠ new.action :=
    ofPair_eq_nil.1 hnil
  intro r hr r' hr' hff haa
  rw [hall, hk.mem_all_save] at hr hr'
  rcases hr with rfl | ⟨hr, -⟩ <;> rcases hr' with rfl | ⟨hr', -⟩
  · rfl
  · exact absurd haa.symm (hnew r' hr' hff.symm)
  · exact absurd haa (hnew r hr hff)
  · exact h r hr r' hr' hff haa

/-- A decision keeps the pairs apart. -/
lemma AtMostOne.decide (hk : store.WellKeyed) (h : AtMostOne store) {decision : Decision}
    {approvalId reviewedBy : String} {reason : Option String} {reviewedAt : Option DateTime}
    (hop : call.op = .decide decision approvalId reviewedBy reason reviewedAt) :
    AtMostOne (approvalStep policy store call) := by
  rcases approvalStep_decide policy store call hop with hs | ⟨old, hget, -, hs⟩
  · rw [hs]
    exact h
  · have hid : old.id = approvalId := hk approvalId old hget
    rw [hs]
    have hnew : store.get (decided call old decision reviewedBy reason reviewedAt).id
        = some old := by
      show store.get old.id = some old
      rw [hid]
      exact hget
    exact h.moved hk hnew rfl rfl rfl

/-- A created request is a request of its pair. -/
lemma requested_mem (hk : store.WellKeyed) (findingId : String) (action : ApprovalAction)
    (requestedBy : String) (requestedAt : Option DateTime) (scanRunId : Option String) :
    requested call findingId action requestedBy requestedAt scanRunId ∈ ofPair ((store.save
      (requested call findingId action requestedBy requestedAt scanRunId)).recordEvent
        (creationEvent call.moment
          (requested call findingId action requestedBy requestedAt scanRunId)))
      findingId action := by
  refine mem_ofPair.2 ⟨?_, rfl, rfl⟩
  rw [ApprovalStore.all_recordEvent, hk.mem_all_save]
  exact Or.inl rfl

/-- **The two lookups agree.**  From a store with at most one request per pair, a call binds per
action iff the newest request of the finding speaks for the pair. -/
theorem bindsPerAction_iff (hk : store.WellKeyed) (hone : AtMostOne store)
    (hfresh : FreshId store call) :
    BindsPerAction defaultPolicy store call ↔ NewestSpeaksForPair defaultPolicy store call := by
  unfold BindsPerAction NewestSpeaksForPair
  cases hop : call.op with
  | decide decision approvalId reviewedBy reason reviewedAt =>
      exact iff_of_true (hone.decide hk hop) trivial
  | request findingId action requestedBy requestedAt scanRunId =>
      have hstep := approvalStep_request defaultPolicy store call hop
      simp only [unblocked_default] at hstep
      constructor
      · rintro ⟨hterm, hfirst, -⟩ hact hel haw
        constructor
        · intro hnewest hnil
          refine hfirst hnil hel haw ?_
          rw [hstep, if_neg (fun h => by simp [h.1.2] at hnewest)]
          exact hnil
        · intro hpair
          by_contra hnone
          have hnone' : newestTerminal store findingId = none := by simpa using hnone
          rw [if_pos ⟨⟨hact, hnone'⟩, hel, haw⟩] at hstep
          obtain ⟨r, hr⟩ := List.exists_mem_of_ne_nil _ hpair
          have hall := hterm ⟨r, hr, terminal_of_inactive hact hr⟩
          have hnew : store.get (requested call findingId action requestedBy requestedAt
              scanRunId).id = none := hfresh
          rw [hstep, ApprovalStore.all_recordEvent, ApprovalStore.all_save_new _ _ hnew] at hall
          simpa using congrArg List.length hall
      · intro hspeaks
        have hcreated : (store.findActive findingId action activeStatuses = none
            ∧ newestTerminal store findingId = none) ∧ Eligible defaultPolicy call.gates findingId
            ∧ StampAware call.moment requestedAt → ofPair store findingId action = [] := by
          rintro ⟨⟨hact, hnone⟩, hel, haw⟩
          by_contra hpair
          have := (hspeaks hact hel haw).2 hpair
          simp [hnone] at this
        refine ⟨?_, ?_, ?_⟩
        · rintro ⟨r, hr, -⟩
          rw [hstep, if_neg (fun h => by simp [hcreated h] at hr)]
        · intro hnil hel haw
          have hact := inactive_of_ofPair_nil hnil
          have hnone : newestTerminal store findingId = none := by
            by_contra hsome
            exact (hspeaks hact hel haw).1 (Option.isSome_iff_ne_none.2 hsome) hnil
          rw [hstep, if_pos ⟨⟨hact, hnone⟩, hel, haw⟩]
          exact List.ne_nil_of_mem (requested_mem hk ..)
        · rw [hstep]
          split_ifs with h
          · exact hone.created hk (hcreated h) rfl
          · exact hone

end Step

/-! ## Runs -/

/-- **Terminal approvals bind per action, exactly when the newest request speaks for the pair.**
Over every run of the default policy from the empty store, with any actions and any time stamps:
a pair with an approved or rejected request gets no second one, a first request is never blocked
by another action, and every pair has at most one request throughout, if and only if at every
request that could create one the newest request of the finding is terminal iff the pair has a
request. -/
theorem throughout_bindsPerAction_iff (calls : List ApprovalCall)
    (hfresh : Throughout (approvalStep defaultPolicy) FreshId .empty calls) :
    Throughout (approvalStep defaultPolicy) (BindsPerAction defaultPolicy) .empty calls
      ↔ Throughout (approvalStep defaultPolicy) (NewestSpeaksForPair defaultPolicy) .empty
        calls := by
  refine throughout_congr (fun store => store.WellKeyed ∧ AtMostOne store)
    (fun store call h hf => bindsPerAction_iff h.1 h.2 hf) ?_
    ⟨ApprovalStore.wellKeyed_empty, by simp [AtMostOne]⟩ hfresh
  rintro store call ⟨hk, -⟩ hf hbinds
  refine ⟨(approvalStep_change hk hf).wellKeyed hk, ?_⟩
  unfold BindsPerAction at hbinds
  split at hbinds
  · exact hbinds.2.2
  · exact hbinds

/-! ## Two actions on one finding -/

/-- A call on a finding that VALIDATE and PROVE have confirmed, at second `at`. -/
def confirmedCall (op : ApprovalOp) (second : Int) (requestId : String) : ApprovalCall where
  op := op
  gates := { verdict := fun _ => some "true_positive", proofStatus := fun _ => some "verified" }
  moment :=
    { utcnow := { clock := second, utcoffset := some 0 }
      requestId := requestId
      eventId := requestId ++ "-event" }

/-- A remediation request, a later request for another action, the approval of the first, and the
remediation requested again. -/
def twoActions : List ApprovalCall :=
  [confirmedCall (.request "f" .remediation "dev" none none) 1 "a",
    confirmedCall (.request "f" .other "dev" none none) 2 "b",
    confirmedCall (.decide .approve "a" "lead" none none) 3 "c",
    confirmedCall (.request "f" .remediation "dev" none none) 4 "d"]

/-- The same finding with its remediation approved before the other action is first requested. -/
def otherAfterApproval : List ApprovalCall :=
  [confirmedCall (.request "f" .remediation "dev" none none) 1 "a",
    confirmedCall (.decide .approve "a" "lead" none none) 2 "b",
    confirmedCall (.request "f" .other "dev" none none) 3 "c"]

/-- In the run `twoActions` the pair gets a second request after its approval; in
`otherAfterApproval` the approval of one action blocks the first request for the other. -/
theorem not_throughout_bindsPerAction :
    (Throughout (approvalStep defaultPolicy) FreshId .empty twoActions
        ∧ ¬ Throughout (approvalStep defaultPolicy) (BindsPerAction defaultPolicy) .empty
          twoActions
        ∧ (ofPair (exec (approvalStep defaultPolicy) .empty twoActions) "f" .remediation).map
          (·.status) = [.approved, .pending])
      ∧ Throughout (approvalStep defaultPolicy) FreshId .empty otherAfterApproval
        ∧ ¬ Throughout (approvalStep defaultPolicy) (BindsPerAction defaultPolicy) .empty
          otherAfterApproval
        ∧ ofPair (exec (approvalStep defaultPolicy) .empty otherAfterApproval) "f" .other = [] := by
  decide +kernel

/-- A finding with one action: its approval stays its only request. -/
theorem oneAction_bindsPerAction :
    Throughout (approvalStep defaultPolicy) (BindsPerAction defaultPolicy) .empty
      [confirmedCall (.request "f" .remediation "dev" none none) 1 "a",
        confirmedCall (.decide .approve "a" "lead" none none) 2 "b",
        confirmedCall (.request "f" .remediation "dev" none none) 3 "c"] :=
  (throughout_bindsPerAction_iff _ (by decide)).2 (by decide)

end Sast
