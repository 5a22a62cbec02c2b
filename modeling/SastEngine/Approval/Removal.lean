import SastEngine.Approval.Steps

/-!
# Approvals of deleted findings

`remove_finding` takes the requests of a finding out of the store, with their events.  Taking out
several findings one after another is taking them out together.
-/

namespace Sast

namespace ApprovalStore

/-- The store without the requests of some findings and their events. -/
def without (store : ApprovalStore) (findingIds : List String) : ApprovalStore where
  requests := store.requests.without (store.requestIds findingIds)
  events := store.events.without (store.requestIds findingIds)

lemma removeFinding_eq_without (store : ApprovalStore) (findingId : String) :
    store.removeFinding findingId = store.without [findingId] := by
  simp only [removeFinding, without, Dict.eraseAll_eq_without]

lemma requestIds_congr {ids ids' : List String} (h : ∀ id, id ∈ ids ↔ id ∈ ids')
    (store : ApprovalStore) : store.requestIds ids = store.requestIds ids' := by
  simp only [requestIds, h]

lemma without_congr {ids ids' : List String} (h : ∀ id, id ∈ ids ↔ id ∈ ids')
    (store : ApprovalStore) : store.without ids = store.without ids' := by
  simp only [without, requestIds_congr h]

@[simp] lemma requestIds_nil (store : ApprovalStore) : store.requestIds [] = [] := by
  simp [requestIds]

@[simp] lemma without_nil (store : ApprovalStore) : store.without [] = store := by
  simp only [without, requestIds_nil, Dict.without_nil]

lemma get_without (store : ApprovalStore) (findingIds : List String) (id : String) :
    (store.without findingIds).get id
      = if id ∈ store.requestIds findingIds then none else store.get id :=
  store.requests.get?_without (store.requestIds findingIds) id

lemma eventsFor_without (store : ApprovalStore) (findingIds : List String) (id : String) :
    (store.without findingIds).eventsFor id
      = if id ∈ store.requestIds findingIds then [] else store.eventsFor id := by
  rw [eventsFor, without, Dict.get?_without]
  split_ifs <;> rfl

variable {store : ApprovalStore}

lemma WellKeyed.mem_requestIds (h : store.WellKeyed) (findingIds : List String) (id : String) :
    id ∈ store.requestIds findingIds
      ↔ ∃ r, store.get id = some r ∧ r.findingId ∈ findingIds := by
  rw [requestIds, List.mem_map]
  constructor
  · rintro ⟨r, hr, rfl⟩
    obtain ⟨hall, hfinding⟩ := List.mem_filter.1 hr
    obtain ⟨id, hget⟩ := (mem_all_iff store r).1 hall
    exact ⟨r, (h id r hget).symm ▸ hget, of_decide_eq_true hfinding⟩
  · rintro ⟨r, hget, hfinding⟩
    refine ⟨r, List.mem_filter.2 ⟨(mem_all_iff store r).2 ⟨id, hget⟩, ?_⟩, h id r hget⟩
    exact decide_eq_true hfinding

lemma WellKeyed.requestIds_subset (h : store.WellKeyed) {findingId : String}
    {findingIds : List String} (hid : findingId ∈ findingIds) :
    ∀ id ∈ store.requestIds [findingId], id ∈ store.requestIds findingIds := by
  intro id hmem
  obtain ⟨r, hget, hfinding⟩ := (h.mem_requestIds [findingId] id).1 hmem
  exact (h.mem_requestIds findingIds id).2 ⟨r, hget, (List.mem_singleton.1 hfinding).symm ▸ hid⟩

lemma WellKeyed.requestIds_disjoint (h : store.WellKeyed) {findingId : String}
    {findingIds : List String} (hid : findingId ∉ findingIds) :
    ∀ id ∈ store.requestIds [findingId], id ∉ store.requestIds findingIds := by
  intro id hmem hmem'
  obtain ⟨r, hget, hfinding⟩ := (h.mem_requestIds [findingId] id).1 hmem
  obtain ⟨r', hget', hfinding'⟩ := (h.mem_requestIds findingIds id).1 hmem'
  obtain rfl := Option.some.inj (hget.symm.trans hget')
  exact hid (List.mem_singleton.1 hfinding ▸ hfinding')

lemma WellKeyed.without (h : store.WellKeyed) (findingIds : List String) :
    (store.without findingIds).WellKeyed := by
  intro id r hr
  rw [get_without] at hr
  split_ifs at hr
  exact h id r hr

/-- The requests taken out first, and those taken out then. -/
lemma WellKeyed.mem_requestIds_append (h : store.WellKeyed) (ids ids' : List String)
    (id : String) :
    id ∈ store.requestIds (ids ++ ids')
      ↔ id ∈ store.requestIds ids ∨ id ∈ (store.without ids).requestIds ids' := by
  rw [(h.without ids).mem_requestIds, h.mem_requestIds (ids ++ ids'), get_without]
  simp only [List.mem_append]
  split_ifs with hid
  · obtain ⟨r, hget, hfinding⟩ := (h.mem_requestIds ids id).1 hid
    exact iff_of_true ⟨r, hget, Or.inl hfinding⟩ (Or.inl hid)
  · constructor
    · rintro ⟨r, hget, hfinding | hfinding⟩
      · exact Or.inl ((h.mem_requestIds ids id).2 ⟨r, hget, hfinding⟩)
      · exact Or.inr ⟨r, hget, hfinding⟩
    · rintro (hfirst | ⟨r, hget, hfinding⟩)
      · exact absurd hfirst hid
      · exact ⟨r, hget, Or.inr hfinding⟩

/-- What is taken out first and then, together. -/
lemma WellKeyed.without_without (h : store.WellKeyed) (ids ids' : List String) :
    (store.without ids).without ids' = store.without (ids ++ ids') := by
  have hids : ∀ id, id ∈ store.requestIds ids ++ (store.without ids).requestIds ids'
      ↔ id ∈ store.requestIds (ids ++ ids') := by
    intro id
    rw [List.mem_append, h.mem_requestIds_append]
  have hrequests := (store.requests.without_without (store.requestIds ids)
    ((store.without ids).requestIds ids')).trans (Dict.without_congr hids store.requests)
  have hevents := (store.events.without_without (store.requestIds ids)
    ((store.without ids).requestIds ids')).trans (Dict.without_congr hids store.events)
  exact congrArg₂ ApprovalStore.mk hrequests hevents

end ApprovalStore

end Sast
