import SastEngine.Lib.Dict
import SastEngine.Approval.Models

/-!
# The approval store

The in-memory registry of `approval/store.py`: the requests by id, and the events of each
request in recording order.
-/

namespace Sast

/-- `ApprovalStore`. -/
structure ApprovalStore where
  requests : Dict String ApprovalRequest
  events : Dict String (List ApprovalEvent)

namespace ApprovalStore

/-- The store without requests. -/
def empty : ApprovalStore := ⟨Dict.empty, Dict.empty⟩

/-- `store.all()`. -/
def all (store : ApprovalStore) : List ApprovalRequest := store.requests.values

/-- `store.get(approval_id)`. -/
def get (store : ApprovalStore) (approvalId : String) : Option ApprovalRequest :=
  store.requests.get? approvalId

/-- `store.save(request)`. -/
def save (store : ApprovalStore) (request : ApprovalRequest) : ApprovalStore :=
  { store with requests := store.requests.set request.id request }

/-- `store.events_for(approval_id)`. -/
def eventsFor (store : ApprovalStore) (approvalId : String) : List ApprovalEvent :=
  (store.events.get? approvalId).getD []

/-- `store.record_event(event)`. -/
def recordEvent (store : ApprovalStore) (event : ApprovalEvent) : ApprovalStore :=
  { store with
    events := store.events.set event.approvalId (store.eventsFor event.approvalId ++ [event]) }

/-- The first of the requests with the latest `requested_at`: Python's `max` with a key. -/
def newest : List ApprovalRequest → Option ApprovalRequest
  | [] => none
  | r :: rs => some (rs.foldl (fun best r =>
      if best.requestedAt.instant < r.requestedAt.instant then r else best) r)

/-- `store.find_for_finding(finding_id)`. -/
def findForFinding (store : ApprovalStore) (findingId : String) : Option ApprovalRequest :=
  newest (store.all.filter fun r => r.findingId = findingId)

/-- `store.find_active(finding_id, action, statuses)`. -/
def findActive (store : ApprovalStore) (findingId : String) (action : ApprovalAction)
    (statuses : List ApprovalStatus) : Option ApprovalRequest :=
  store.all.find? fun r => r.findingId = findingId ∧ r.action = action ∧ r.status ∈ statuses

/-- The ids of the requests of some findings. -/
def requestIds (store : ApprovalStore) (findingIds : List String) : List String :=
  (store.all.filter fun r => r.findingId ∈ findingIds).map ApprovalRequest.id

/-- What `store.remove_finding(finding_id)` takes out of the memory. -/
def removeFinding (store : ApprovalStore) (findingId : String) : ApprovalStore where
  requests := store.requests.eraseAll (store.requestIds [findingId])
  events := store.events.eraseAll (store.requestIds [findingId])

/-! ## Reading the store -/

@[simp] lemma all_empty : empty.all = [] := rfl

@[simp] lemma all_recordEvent (store : ApprovalStore) (event : ApprovalEvent) :
    (store.recordEvent event).all = store.all := rfl

@[simp] lemma get_recordEvent (store : ApprovalStore) (event : ApprovalEvent) (id : String) :
    (store.recordEvent event).get id = store.get id := rfl

lemma get_save (store : ApprovalStore) (request : ApprovalRequest) (id : String) :
    (store.save request).get id = if id = request.id then some request else store.get id :=
  Dict.get?_set _ _ _ _

lemma mem_all_iff (store : ApprovalStore) (r : ApprovalRequest) :
    r ∈ store.all ↔ ∃ id, store.get id = some r := Dict.mem_values_iff _

/-- A request with a new id goes to the end of the enumeration. -/
lemma all_save_new (store : ApprovalStore) (request : ApprovalRequest)
    (h : store.get request.id = none) : (store.save request).all = store.all ++ [request] :=
  Dict.values_set_new _ _ _ h

lemma foldl_newest_mem (rs : List ApprovalRequest) (best : ApprovalRequest) :
    rs.foldl (fun best r =>
      if best.requestedAt.instant < r.requestedAt.instant then r else best) best ∈ best :: rs := by
  induction rs generalizing best with
  | nil => simp
  | cons r rs ih =>
      simp only [List.foldl_cons]
      have h := ih (if best.requestedAt.instant < r.requestedAt.instant then r else best)
      rcases List.mem_cons.1 h with h | h
      · rw [h]
        split_ifs
        · exact List.mem_cons_of_mem _ (List.mem_cons_self ..)
        · exact List.mem_cons_self ..
      · exact List.mem_cons_of_mem _ (List.mem_cons_of_mem _ h)

lemma newest_mem {rs : List ApprovalRequest} {r : ApprovalRequest} (h : newest rs = some r) :
    r ∈ rs := by
  cases rs with
  | nil => simp [newest] at h
  | cons a rs =>
      simp only [newest, Option.some.injEq] at h
      rw [← h]
      exact foldl_newest_mem rs a

/-- The newest request of a finding is one of its requests. -/
lemma findForFinding_mem {store : ApprovalStore} {findingId : String} {r : ApprovalRequest}
    (h : store.findForFinding findingId = some r) : r ∈ store.all ∧ r.findingId = findingId := by
  simpa using newest_mem h

lemma findActive_none {store : ApprovalStore} {findingId : String} {action : ApprovalAction}
    {statuses : List ApprovalStatus} :
    store.findActive findingId action statuses = none ↔
      ∀ r ∈ store.all, r.findingId = findingId → r.action = action → r.status ∉ statuses := by
  simp [findActive]

end ApprovalStore

end Sast
