import SastEngine.Approval.PerAction

/-!
# The approval of a finding, as shown

The dashboard, the list and detail of findings, and the report each pick one approval request of a
finding: the first one stored, the first of those requested last, and the last one stored.
-/

namespace Sast

/-! ## The views -/

/-- The findings that a view is restricted to, if it is. -/
abbrev ViewScope := Option (List String)

/-- The finding is in the scope. -/
def ViewScope.contains (scope : ViewScope) (findingId : String) : Bool :=
  match scope with
  | none => true
  | some ids => findingId ∈ ids

/-- The approval requests of the findings in scope. -/
def scopedApprovals (scope : ViewScope) (store : ApprovalStore) : List ApprovalRequest :=
  store.all.filter fun r => scope.contains r.findingId

/-- The request that `_finding_status` of the dashboard looks at. -/
def dashboardApproval (approvals : List ApprovalRequest) (findingId : String) :
    Option ApprovalRequest :=
  approvals.find? fun r => r.findingId = findingId

/-- The text of an approval status on the dashboard. -/
def ApprovalStatus.label : ApprovalStatus → String
  | .approved => "approved"
  | .rejected => "rejected"
  | .changesRequested => "changes requested"
  | .pending => "pending approval"

/-- `_finding_status` of the dashboard. -/
def findingStatus (findingId : String) (gates : Gates) (approvals : List ApprovalRequest) :
    String :=
  match dashboardApproval approvals findingId with
  | some approval => approval.status.label
  | none =>
      match gates.proofStatus findingId with
      | some status => status.replace "_" " "
      | none =>
          match gates.verdict findingId with
          | some verdict => verdict.replace "_" " "
          | none => "candidate"

/-- The `approval_status` of the findings list. -/
def listApprovalStatus (store : ApprovalStore) (findingId : String) : Option ApprovalStatus :=
  (store.findForFinding findingId).map ApprovalRequest.status

/-- The `approval` of the finding detail. -/
def detailApproval (store : ApprovalStore) (findingId : String) : Option ApprovalRequest :=
  store.findForFinding findingId

/-- `_get_approvals` of the report: one request per finding. -/
def reportApprovals (scope : ViewScope) (store : ApprovalStore) : Dict String ApprovalRequest :=
  (scopedApprovals scope store).foldl (fun approvals r => approvals.set r.findingId r) .empty

/-- The `status` of a finding in the report. -/
def reportStatus (findingId : String) (gates : Gates) (approvals : Dict String ApprovalRequest) :
    String :=
  match approvals.get? findingId with
  | some approval => approval.status.text
  | none =>
      match gates.proofStatus findingId with
      | some status => status
      | none => (gates.verdict findingId).getD "candidate"

/-- The store whose requests were inserted in the order of the rows, as `set_factory` does it. -/
def ApprovalStore.loadRequests (store : ApprovalStore) (rows : List (String × ApprovalRequest)) :
    ApprovalStore :=
  { store with requests := rows.foldl (fun requests row => requests.set row.1 row.2) .empty }

/-! ## What is expected -/

/-- Every view shows the status of the request, in whatever scope the finding is listed. -/
structure ShowsStatusOf (store : ApprovalStore) (findingId : String)
    (shown : Option ApprovalRequest) : Prop where
  dashboard : ∀ scope : ViewScope, scope.contains findingId →
    (dashboardApproval (scopedApprovals scope store) findingId).map ApprovalRequest.status
      = shown.map ApprovalRequest.status
  list : listApprovalStatus store findingId = shown.map ApprovalRequest.status
  detail : (detailApproval store findingId).map ApprovalRequest.status
    = shown.map ApprovalRequest.status
  report : ∀ scope : ViewScope, scope.contains findingId →
    ((reportApprovals scope store).get? findingId).map ApprovalRequest.status
      = shown.map ApprovalRequest.status

/-- All views show the status of one and the same request of the finding, for the requests in any
order of insertion and after any restart. -/
def ViewsAgree (store : ApprovalStore) (findingId : String) : Prop :=
  ∃ shown : Option ApprovalRequest, (∀ r ∈ shown, r ∈ store.all ∧ r.findingId = findingId)
    ∧ ShowsStatusOf store findingId shown
    ∧ ∀ rows, rows.Perm store.requests.entries →
      ShowsStatusOf (store.loadRequests rows) findingId shown

/-- The requests of the finding have one status. -/
def OneStatus (store : ApprovalStore) (findingId : String) : Prop :=
  ∀ r ∈ store.all, ∀ r' ∈ store.all, r.findingId = findingId → r'.findingId = findingId →
    r.status = r'.status

instance (store : ApprovalStore) (findingId : String) : Decidable (OneStatus store findingId) :=
  inferInstanceAs (Decidable (∀ r ∈ store.all, ∀ r' ∈ store.all, r.findingId = findingId →
    r'.findingId = findingId → r.status = r'.status))

/-! ## What each view picks -/

variable {store : ApprovalStore} {findingId : String} {scope : ViewScope}

/-- A view picks one of the requests of the finding, if there is any. -/
structure Picks (requests : List ApprovalRequest) (findingId : String)
    (picked : Option ApprovalRequest) : Prop where
  mem : ∀ r ∈ picked, r ∈ requests ∧ r.findingId = findingId
  isSome : ∀ r ∈ requests, r.findingId = findingId → picked.isSome

/-- Restricting the requests to the scope of a finding keeps those of the finding. -/
lemma picks_scoped (hscope : scope.contains findingId) {picked : Option ApprovalRequest}
    (h : Picks (scopedApprovals scope store) findingId picked) :
    Picks store.all findingId picked := by
  constructor
  · intro r hr
    obtain ⟨hmem, hid⟩ := h.mem r hr
    exact ⟨(List.mem_filter.1 hmem).1, hid⟩
  · intro r hmem hid
    exact h.isSome r (List.mem_filter.2 ⟨hmem, hid.symm ▸ hscope⟩) hid

lemma picks_dashboard (requests : List ApprovalRequest) (findingId : String) :
    Picks requests findingId (dashboardApproval requests findingId) := by
  constructor
  · intro r hr
    exact ⟨List.mem_of_find?_eq_some hr, of_decide_eq_true
      (@List.find?_some _ (fun r : ApprovalRequest => decide (r.findingId = findingId)) r _ hr)⟩
  · intro r hmem hid
    rw [dashboardApproval, List.find?_isSome]
    exact ⟨r, hmem, decide_eq_true hid⟩

lemma picks_findForFinding (store : ApprovalStore) (findingId : String) :
    Picks store.all findingId (store.findForFinding findingId) := by
  constructor
  · intro r hr
    exact ApprovalStore.findForFinding_mem hr
  · intro r hmem hid
    have hfiltered : r ∈ store.all.filter fun r => r.findingId = findingId :=
      List.mem_filter.2 ⟨hmem, decide_eq_true hid⟩
    unfold ApprovalStore.findForFinding
    cases hrequests : store.all.filter fun r => r.findingId = findingId with
    | nil =>
        rw [hrequests] at hfiltered
        cases hfiltered
    | cons first rest => rfl

lemma picks_foldl_set (requests : List ApprovalRequest) (findingId : String) :
    Picks requests findingId ((requests.foldl
      (fun approvals (r : ApprovalRequest) => approvals.set r.findingId r)
        Dict.empty).get? findingId) := by
  induction requests using List.reverseRecOn with
  | nil =>
      constructor
      · intro r hr
        cases hr
      · intro r hmem
        cases hmem
  | append_singleton requests last ih =>
      rw [List.foldl_append, List.foldl_cons, List.foldl_nil, Dict.get?_set]
      split_ifs with hid
      · constructor
        · intro r hr
          obtain rfl := Option.some.inj hr
          exact ⟨List.mem_append_right _ (List.mem_singleton_self _), hid.symm⟩
        · intro r _ _
          rfl
      · constructor
        · intro r hr
          exact ⟨List.mem_append_left _ (ih.mem r hr).1, (ih.mem r hr).2⟩
        · intro r hmem hrid
          rcases List.mem_append.1 hmem with hmem | hmem
          · exact ih.isSome r hmem hrid
          · obtain rfl := List.mem_singleton.1 hmem
            exact absurd hrid.symm hid

/-- Requests with one status are interchangeable. -/
lemma status_eq_of_picks (hone : OneStatus store findingId)
    {picked picked' : Option ApprovalRequest} (h : Picks store.all findingId picked)
    (h' : Picks store.all findingId picked') :
    picked.map ApprovalRequest.status = picked'.map ApprovalRequest.status := by
  cases picked with
  | none =>
      cases picked' with
      | none => rfl
      | some r' =>
          obtain ⟨hmem, hid⟩ := h'.mem r' rfl
          exact absurd (h.isSome r' hmem hid) Bool.false_ne_true
  | some r =>
      obtain ⟨hmem, hid⟩ := h.mem r rfl
      cases picked' with
      | none => exact absurd (h'.isSome r hmem hid) Bool.false_ne_true
      | some r' =>
          obtain ⟨hmem', hid'⟩ := h'.mem r' rfl
          exact congrArg some (hone r hmem r' hmem' hid hid')

lemma showsStatusOf_of_picks (hone : OneStatus store findingId) {shown : Option ApprovalRequest}
    (hshown : Picks store.all findingId shown) : ShowsStatusOf store findingId shown where
  dashboard _ hscope :=
    status_eq_of_picks hone (picks_scoped hscope (picks_dashboard _ findingId)) hshown
  list := status_eq_of_picks hone (picks_findForFinding store findingId) hshown
  detail := status_eq_of_picks hone (picks_findForFinding store findingId) hshown
  report _ hscope :=
    status_eq_of_picks hone (picks_scoped hscope (picks_foldl_set _ findingId)) hshown

/-! ## Other orders -/

/-- Rows read back are the requests in the order of the rows. -/
lemma all_loadRequests {rows : List (String × ApprovalRequest)}
    (hrows : rows.Perm store.requests.entries) :
    (store.loadRequests rows).all = rows.map Prod.snd := by
  have hnodup : (rows.map Prod.fst).Nodup :=
    ((hrows.map Prod.fst).nodup_iff).2 store.requests.nodup
  have h : ∀ rows : List (String × ApprovalRequest), (rows.map Prod.fst).Nodup →
      (rows.foldl (fun requests row => requests.set row.1 row.2)
        (Dict.empty : Dict String ApprovalRequest)).entries = rows := by
    intro rows hn
    induction rows using List.reverseRecOn with
    | nil => rfl
    | append_singleton rows row ih =>
        rw [List.map_append, List.nodup_append] at hn
        have hrest := ih hn.1
        rw [List.foldl_append, List.foldl_cons, List.foldl_nil, Dict.set]
        show Dict.setEntry row.1 row.2 _ = _
        rw [hrest, Dict.setEntry_of_not_mem]
        intro hmem
        exact hn.2.2 row.1 hmem row.1 (by simp) rfl
  exact congrArg (List.map Prod.snd) (h rows hnodup)

lemma mem_all_loadRequests {rows : List (String × ApprovalRequest)}
    (hrows : rows.Perm store.requests.entries) (r : ApprovalRequest) :
    r ∈ (store.loadRequests rows).all ↔ r ∈ store.all := by
  rw [all_loadRequests hrows]
  exact (hrows.map Prod.snd).mem_iff

lemma Picks.loadRequests {rows : List (String × ApprovalRequest)}
    (hrows : rows.Perm store.requests.entries) {picked : Option ApprovalRequest}
    (h : Picks store.all findingId picked) :
    Picks (store.loadRequests rows).all findingId picked := by
  constructor
  · intro r hr
    exact ⟨(mem_all_loadRequests hrows r).2 (h.mem r hr).1, (h.mem r hr).2⟩
  · intro r hmem
    exact h.isSome r ((mem_all_loadRequests hrows r).1 hmem)

lemma OneStatus.loadRequests {rows : List (String × ApprovalRequest)}
    (hrows : rows.Perm store.requests.entries) (h : OneStatus store findingId) :
    OneStatus (store.loadRequests rows) findingId := by
  intro r hmem r' hmem'
  exact h r ((mem_all_loadRequests hrows r).1 hmem) r' ((mem_all_loadRequests hrows r').1 hmem')

/-- Any request of a finding is on the dashboard if it was inserted first. -/
lemma exists_rows_dashboard {r : ApprovalRequest} (hmem : r ∈ store.all)
    (hid : r.findingId = findingId) :
    ∃ rows, rows.Perm store.requests.entries
      ∧ dashboardApproval (scopedApprovals none (store.loadRequests rows)) findingId = some r := by
  obtain ⟨entry, hentry, rfl⟩ := List.mem_map.1 hmem
  obtain ⟨pre, post, hsplit⟩ := List.append_of_mem hentry
  have hperm : (entry :: (pre ++ post)).Perm store.requests.entries :=
    hsplit ▸ List.perm_middle.symm
  refine ⟨entry :: (pre ++ post), hperm, ?_⟩
  have hall : scopedApprovals none (store.loadRequests (entry :: (pre ++ post)))
      = (entry :: (pre ++ post)).map Prod.snd := by
    rw [scopedApprovals, all_loadRequests hperm]
    exact List.filter_eq_self.2 fun _ _ => rfl
  rw [hall, dashboardApproval, List.map_cons]
  exact List.find?_cons_of_pos (by simpa using hid)

/-- Views that agree in every order leave no choice between the requests. -/
lemma ViewsAgree.oneStatus (h : ViewsAgree store findingId) : OneStatus store findingId := by
  obtain ⟨shown, -, -, horders⟩ := h
  have hshown : ∀ r ∈ store.all, r.findingId = findingId →
      some r.status = shown.map ApprovalRequest.status := by
    intro r hmem hid
    obtain ⟨rows, hrows, hfirst⟩ := exists_rows_dashboard hmem hid
    have hdashboard := (horders rows hrows).dashboard none rfl
    rw [hfirst] at hdashboard
    exact hdashboard
  intro r hmem r' hmem' hid hid'
  exact Option.some.inj ((hshown r hmem hid).trans (hshown r' hmem' hid').symm)

/-- **All views agree on the approval of a finding**, in every order of its requests, exactly when
its requests have one status. -/
theorem viewsAgree_iff (store : ApprovalStore) (findingId : String) :
    ViewsAgree store findingId ↔ OneStatus store findingId := by
  constructor
  · exact ViewsAgree.oneStatus
  · intro hone
    have hpicks := picks_findForFinding store findingId
    refine ⟨store.findForFinding findingId, hpicks.mem, showsStatusOf_of_picks hone hpicks, ?_⟩
    intro rows hrows
    exact showsStatusOf_of_picks (hone.loadRequests hrows) (hpicks.loadRequests hrows)

/-- Where the views agree on a request, the dashboard and the report show the texts of its status. -/
lemma texts_of_showsStatusOf {r : ApprovalRequest} (h : ShowsStatusOf store findingId (some r))
    (hscope : scope.contains findingId) (gates : Gates) :
    findingStatus findingId gates (scopedApprovals scope store) = r.status.label
      ∧ reportStatus findingId gates (reportApprovals scope store) = r.status.text := by
  constructor
  · obtain ⟨approval, happroval, hstatus⟩ := Option.map_eq_some_iff.1 (h.dashboard scope hscope)
    rw [findingStatus, happroval, ← hstatus]
  · obtain ⟨approval, happroval, hstatus⟩ := Option.map_eq_some_iff.1 (h.report scope hscope)
    rw [reportStatus, happroval, ← hstatus]

/-- A finding whose remediation is approved while a request for another action is pending shows
its approval differently. -/
theorem not_viewsAgree :
    ¬ ∀ store findingId, ViewsAgree store findingId := by
  intro h
  have hone := (h (exec (approvalStep defaultPolicy) .empty (twoActions.take 3)) "f").oneStatus
  revert hone
  decide +kernel

end Sast
