import SastEngine.Approval.Steps

/-!
# The newest request of a finding

`find_for_finding` under the two kinds of writes: a request that is added becomes the newest one
only if it is strictly later, and a request that moves along keeps its place in time.
-/

namespace Sast

namespace ApprovalStore

/-- The later of the newest request so far and one that comes after it in the enumeration. -/
def laterOf (x : ApprovalRequest) : Option ApprovalRequest → ApprovalRequest
  | none => x
  | some best => if best.requestedAt.instant < x.requestedAt.instant then x else best

lemma newest_concat (rs : List ApprovalRequest) (x : ApprovalRequest) :
    newest (rs ++ [x]) = some (laterOf x (newest rs)) := by
  cases rs with
  | nil => rfl
  | cons r rs => simp [newest, laterOf]

/-- Changing requests without moving them in time changes the newest one alike. -/
lemma newest_map (g : ApprovalRequest → ApprovalRequest) (rs : List ApprovalRequest)
    (hg : ∀ r ∈ rs, (g r).requestedAt = r.requestedAt) :
    newest (rs.map g) = (newest rs).map g := by
  cases rs with
  | nil => rfl
  | cons a rs =>
      simp only [List.map_cons, newest, Option.map_some, Option.some.injEq, List.foldl_map]
      have ha := hg a (List.mem_cons_self ..)
      have hrs : ∀ r ∈ rs, (g r).requestedAt = r.requestedAt :=
        fun r hr => hg r (List.mem_cons_of_mem _ hr)
      clear hg
      induction rs generalizing a with
      | nil => rfl
      | cons b rs ih =>
          simp only [List.foldl_cons]
          have hb := hrs b (List.mem_cons_self ..)
          rw [ha, hb, ← apply_ite g]
          refine ih _ ?_ fun r hr => hrs r (List.mem_cons_of_mem _ hr)
          split_ifs
          · exact hb
          · exact ha

/-- Replace the request with the same id. -/
def replaceById (x r : ApprovalRequest) : ApprovalRequest := if r.id = x.id then x else r

lemma WellKeyed.all_save_of_mem {store : ApprovalStore} (hk : store.WellKeyed)
    {x old : ApprovalRequest} (hget : store.get x.id = some old) :
    (store.save x).all = store.all.map (replaceById x) := by
  have hsome : (store.requests.get? x.id).isSome := by
    have : store.requests.get? x.id = some old := hget
    simp [this]
  show (store.requests.set x.id x).values = store.requests.values.map (replaceById x)
  rw [Dict.values_set_of_mem _ _ _ hsome, Dict.values, List.map_map]
  refine List.map_congr_left fun e he => ?_
  have hid : e.2.id = e.1 := hk e.1 e.2 ((store.requests.get?_eq_some_iff).2 he)
  simp only [Function.comp, replaceById, hid]

/-- The newest request after a new one is added. -/
lemma findForFinding_save_new {store : ApprovalStore} {x : ApprovalRequest}
    (hnew : store.get x.id = none) (findingId : String) :
    (store.save x).findForFinding findingId
      = if x.findingId = findingId then some (laterOf x (store.findForFinding findingId))
        else store.findForFinding findingId := by
  rw [findForFinding, all_save_new store x hnew, List.filter_append]
  split_ifs with h
  · rw [List.filter_cons_of_pos (by simpa using h), List.filter_nil, newest_concat]
    rfl
  · rw [List.filter_cons_of_neg (by simpa using h), List.filter_nil, List.append_nil]
    rfl

/-- The newest request after a stored one has moved along. -/
lemma WellKeyed.findForFinding_save {store : ApprovalStore} (hk : store.WellKeyed)
    {x old : ApprovalRequest} (hget : store.get x.id = some old)
    (hf : x.findingId = old.findingId) (ht : x.requestedAt = old.requestedAt)
    (findingId : String) :
    (store.save x).findForFinding findingId
      = (store.findForFinding findingId).map (replaceById x) := by
  have hold : ∀ r ∈ store.all, r.id = x.id → r = old := by
    intro r hr hid
    have := hk.get_id hr
    rw [hid, hget] at this
    exact (Option.some.inj this).symm
  have hcomm : (store.all.map (replaceById x)).filter (fun r => r.findingId = findingId)
      = (store.all.filter fun r => r.findingId = findingId).map (replaceById x) := by
    rw [List.filter_map]
    congr 1
    refine List.filter_congr fun r hr => ?_
    simp only [Function.comp, replaceById]
    split_ifs with hid
    · rw [hf, hold r hr hid]
    · rfl
  rw [findForFinding, hk.all_save_of_mem hget, hcomm, newest_map]
  · rfl
  · intro r hr
    simp only [replaceById]
    split_ifs with hid
    · rw [ht, hold r (List.mem_of_mem_filter hr) hid]
    · rfl

@[simp] lemma findForFinding_recordEvent (store : ApprovalStore) (event : ApprovalEvent)
    (findingId : String) :
    (store.recordEvent event).findForFinding findingId = store.findForFinding findingId := rfl

end ApprovalStore

end Sast
