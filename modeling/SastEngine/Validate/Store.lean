import SastEngine.Lib.Dict
import SastEngine.Scan.Models

/-!
# The finding store

The in-memory registry of candidate findings of `validate/store.py`, by id.
-/

namespace Sast

/-- `FindingStore`; findings are filed under their id. -/
structure FindingStore where
  findings : Dict String CandidateFinding
  keyed : ∀ id finding, findings.get? id = some finding → finding.id = id

namespace FindingStore

/-- The store without findings. -/
def empty : FindingStore where
  findings := .empty
  keyed _ _ h := by cases h

/-- `store.get(finding_id)`. -/
def get (store : FindingStore) (findingId : String) : Option CandidateFinding :=
  store.findings.get? findingId

/-- `store.add(finding)`. -/
def add (store : FindingStore) (finding : CandidateFinding) : FindingStore where
  findings := store.findings.set finding.id finding
  keyed := by
    intro id f hf
    rw [Dict.get?_set] at hf
    split_ifs at hf with hid
    · rw [← Option.some.inj hf, hid]
    · exact store.keyed id f hf

/-- `store.add_report(report)`, for the findings of the report. -/
def addReport (store : FindingStore) (findings : List CandidateFinding) : FindingStore :=
  findings.foldl add store

/-- `store.remove(finding_id)`. -/
def remove (store : FindingStore) (findingId : String) : FindingStore where
  findings := store.findings.erase findingId
  keyed := by
    intro id f hf
    rw [Dict.get?_erase] at hf
    split_ifs at hf
    exact store.keyed id f hf

/-- The findings under other ids. -/
def without (store : FindingStore) (findingIds : List String) : FindingStore where
  findings := store.findings.without findingIds
  keyed := by
    intro id f hf
    rw [Dict.get?_without] at hf
    split_ifs at hf
    exact store.keyed id f hf

lemma remove_eq_without (store : FindingStore) (findingId : String) :
    store.remove findingId = store.without [findingId] := by
  simp only [remove, without, Dict.erase_eq_without]

lemma without_without (store : FindingStore) (ids ids' : List String) :
    (store.without ids).without ids' = store.without (ids ++ ids') := by
  simp only [without, Dict.without_without]

lemma without_congr {ids ids' : List String} (h : ∀ id, id ∈ ids ↔ id ∈ ids')
    (store : FindingStore) : store.without ids = store.without ids' := by
  simp only [without, Dict.without_congr h]

@[simp] lemma without_nil (store : FindingStore) : store.without [] = store := by
  simp only [without, Dict.without_nil]

/-! ## Reading the store -/

lemma get_without (store : FindingStore) (findingIds : List String) (findingId : String) :
    (store.without findingIds).get findingId
      = if findingId ∈ findingIds then none else store.get findingId :=
  store.findings.get?_without findingIds findingId

lemma get_id {store : FindingStore} {findingId : String} {finding : CandidateFinding}
    (h : store.get findingId = some finding) : finding.id = findingId :=
  store.keyed findingId finding h

lemma get_add (store : FindingStore) (finding : CandidateFinding) (findingId : String) :
    (store.add finding).get findingId
      = if findingId = finding.id then some finding else store.get findingId :=
  store.findings.get?_set finding.id finding findingId

/-- After a report, the last of its findings with an id is stored under that id. -/
lemma get_addReport (store : FindingStore) (findings : List CandidateFinding)
    (findingId : String) :
    (store.addReport findings).get findingId
      = (findings.reverse.find? fun f => f.id = findingId).or (store.get findingId) := by
  induction findings generalizing store with
  | nil => simp [addReport]
  | cons f fs ih =>
      have hrest : store.addReport (f :: fs) = (store.add f).addReport fs := rfl
      rw [hrest, ih, get_add, List.reverse_cons, List.find?_append, Option.or_assoc]
      by_cases hid : findingId = f.id
      · simp [hid]
      · simp [hid, Ne.symm hid]

/-- Under every id of a report, one of its findings is stored. -/
lemma exists_get_addReport (store : FindingStore) {findings : List CandidateFinding}
    {findingId : String} (h : findingId ∈ findings.map CandidateFinding.id) :
    ∃ f ∈ findings, f.id = findingId ∧ (store.addReport findings).get findingId = some f := by
  obtain ⟨g, hg, hid⟩ := List.mem_map.1 h
  have hfound : (findings.reverse.find? fun f => f.id = findingId).isSome := by
    rw [List.find?_isSome]
    exact ⟨g, List.mem_reverse.2 hg, decide_eq_true hid⟩
  obtain ⟨f, hf⟩ := Option.isSome_iff_exists.1 hfound
  refine ⟨f, List.mem_reverse.1 (List.mem_of_find?_eq_some hf), ?_, ?_⟩
  · simpa using List.find?_some hf
  · rw [get_addReport, hf]
    rfl

/-- The stored findings have different ids. -/
lemma nodup_ids (store : FindingStore) :
    (store.findings.values.map CandidateFinding.id).Nodup := by
  have hids : store.findings.values.map CandidateFinding.id = store.findings.keys := by
    rw [Dict.values, Dict.keys, List.map_map]
    refine List.map_congr_left ?_
    intro e he
    exact store.keyed e.1 e.2 ((store.findings.get?_eq_some_iff).2 he)
  rw [hids]
  exact store.findings.nodup

lemma get_remove (store : FindingStore) (removed findingId : String) :
    (store.remove removed).get findingId
      = if findingId = removed then none else store.get findingId :=
  store.findings.get?_erase removed findingId

end FindingStore

end Sast
