import Mathlib.Data.List.Count
import Mathlib.Data.List.Perm.Subperm
import SastEngine.Dedup.Service
import SastEngine.Lib.Run
import SastEngine.Python.Tabulated

/-!
# One group for every finding

Histories of scans, deletions and deduplication runs.  A finding keeps its id when its content
changes, and a run touches the groups of the submitted fingerprints only; so an id can stay in the
group of an earlier content, and an id that is submitted twice is listed twice.
-/

namespace Sast

/-- The finding store and the registry of groups. -/
structure DedupState where
  store : FindingStore
  groups : GroupRegistry

/-- No findings and no groups. -/
def DedupState.empty : DedupState := ⟨.empty, .empty⟩

/-- What happens to findings and groups. -/
inductive DedupOp where
  | scan (findings : List CandidateFinding)
  | forget (findingId : String)
  | deduplicate (findingIds : List String)
  | remove (findingIds : List String)

variable (build : FingerprintBuilder)

/-- The state after an operation. -/
def dedupStep (s : DedupState) : DedupOp → DedupState
  | .scan findings => { s with store := s.store.addReport findings }
  | .forget findingId => { s with store := s.store.remove findingId }
  | .deduplicate findingIds =>
      match deduplicateFindings build s.store s.groups findingIds with
      | some (_, groups) => { s with groups := groups }
      | none => s
  | .remove findingIds => { s with groups := removeFindings s.store findingIds s.groups }

/-! ## What is expected -/

/-- The ids listed under a fingerprint. -/
def membersOf (groups : GroupRegistry) (value : String) : List String :=
  ((groups.get? value).map DeduplicationGroup.memberFindingIds).getD []

/-- Every id is a member of at most one group and listed once in it, and groups count their
members. -/
structure OneGroupEach (groups : GroupRegistry) : Prop where
  once : ∀ value, (membersOf groups value).Nodup
  one : ∀ value value' id, id ∈ membersOf groups value → id ∈ membersOf groups value' →
    value = value'
  counted : ∀ value group, groups.get? value = some group →
    group.occurrenceCount = group.memberFindingIds.dedup.length

/-- All ids are in the store. -/
def Present (store : FindingStore) (findingIds : List String) : Prop :=
  ∀ id ∈ findingIds, (store.get id).isSome

/-- The fingerprint of the current content of a finding. -/
def valueOf (store : FindingStore) (id : String) : Option String :=
  (store.get id).map fun finding => (build finding).value

/-- Every id is a member of the group of its current content, and of no other. -/
def GroupedByContent (s : DedupState) (findingIds : List String) : Prop :=
  ∀ id ∈ findingIds, ∀ value, id ∈ membersOf s.groups value ↔ valueOf build s.store id = some value

/-- After the operation ids have one group each, and submitted ones that of their content. -/
def KeepsGrouping (s : DedupState) (op : DedupOp) : Prop :=
  OneGroupEach (dedupStep build s op).groups ∧ match op with
    | .deduplicate findingIds => Present s.store findingIds →
        GroupedByContent build (dedupStep build s op) findingIds
    | _ => True

/-- No id is submitted twice; and an id that is listed under another fingerprint than its own is
submitted together with some finding of that fingerprint. -/
def SubmitsCleanly (s : DedupState) : DedupOp → Prop
  | .deduplicate findingIds => Present s.store findingIds → findingIds.Nodup
      ∧ ∀ id ∈ findingIds, ∀ value, id ∈ membersOf s.groups value →
        ∃ id' ∈ findingIds, valueOf build s.store id' = some value
  | _ => True

/-! ## Members after a run -/

variable {build} {store : FindingStore} {groups : GroupRegistry}

/-- The submitted ids of a fingerprint. -/
def submittedUnder (build : FingerprintBuilder) (store : FindingStore) (findingIds : List String)
    (value : String) : List String :=
  findingIds.filter fun id => valueOf build store id = some value

/-- The ids that a merge keeps of a group. -/
def keptUnder (store : FindingStore) (groups : GroupRegistry) (findingIds : List String)
    (value : String) : List String :=
  (membersOf groups value).filter fun id => id ∉ findingIds ∧ (store.get id).isSome

/-- Ids of findings read from the store. -/
lemma map_id_filterMap_get (store : FindingStore) (ids : List String) :
    (ids.filterMap store.get).map CandidateFinding.id = ids.filter fun id => (store.get id).isSome := by
  induction ids with
  | nil => rfl
  | cons id ids ih =>
      cases hget : store.get id with
      | none => simp [hget, ih]
      | some finding => simp [hget, ih, FindingStore.get_id hget]

lemma map_id_of_present {ids : List String} (h : Present store ids) :
    (ids.filterMap store.get).map CandidateFinding.id = ids := by
  rw [map_id_filterMap_get, List.filter_eq_self]
  exact h

/-- Ids of the submitted findings of a fingerprint. -/
lemma map_id_bucket (build : FingerprintBuilder) (store : FindingStore) (ids : List String)
    (value : String) :
    ((ids.filterMap store.get).filter fun f => (build f).value = value).map CandidateFinding.id
      = submittedUnder build store ids value := by
  induction ids with
  | nil => rfl
  | cons id ids ih =>
      rw [submittedUnder] at ih ⊢
      cases hget : store.get id with
      | none =>
          rw [List.filterMap_cons_none hget, ih, List.filter_cons_of_neg]
          simp [valueOf, hget]
      | some finding =>
          rw [List.filterMap_cons_some hget]
          by_cases hvalue : (build finding).value = value
          · rw [List.filter_cons_of_pos (by simpa using hvalue), List.map_cons, ih,
              List.filter_cons_of_pos (by simp [valueOf, hget, hvalue]), FindingStore.get_id hget]
          · rw [List.filter_cons_of_neg (by simpa using hvalue), ih, List.filter_cons_of_neg]
            simp [valueOf, hget, hvalue]

lemma map_id_keptMembers (findingIds : List String) (value : String) :
    (keptMembers store findingIds (groups.get? value)).map CandidateFinding.id
      = keptUnder store groups findingIds value := by
  rw [keptUnder, membersOf]
  cases groups.get? value with
  | none => rfl
  | some group =>
      rw [keptMembers, map_id_filterMap_get, List.filter_filter]
      refine List.filter_congr ?_
      intro id _
      simp [Bool.and_comm]

/-- **The members after a run** on findings of the store. -/
lemma membersOf_nextRegistry {ids : List String} (h : Present store ids) (value : String) :
    (membersOf (nextRegistry build store groups (ids.filterMap store.get)) value).Perm
      (if submittedUnder build store ids value = [] then membersOf groups value
        else submittedUnder build store ids value ++ keptUnder store groups ids value) := by
  have hbucket := map_id_bucket build store ids value
  rw [membersOf, get?_nextRegistry, map_id_of_present h]
  cases hfilter : (ids.filterMap store.get).filter fun f => (build f).value = value with
  | nil =>
      rw [hfilter, List.map_nil] at hbucket
      rw [if_pos hbucket.symm]
      exact List.Perm.refl _
  | cons first rest =>
      rw [hfilter] at hbucket
      rw [if_neg (by rw [← hbucket]; simp), ← hbucket, ← map_id_keptMembers, ← List.map_append]
      exact (sortById_perm _).map _

/-- Membership after a run. -/
lemma mem_membersOf_nextRegistry {ids : List String} (h : Present store ids) {value id : String} :
    id ∈ membersOf (nextRegistry build store groups (ids.filterMap store.get)) value
      ↔ (id ∈ ids ∧ valueOf build store id = some value)
        ∨ id ∈ membersOf groups value ∧ (submittedUnder build store ids value = []
          ∨ id ∉ ids ∧ (store.get id).isSome) := by
  rw [(membersOf_nextRegistry h value).mem_iff]
  split_ifs with hnone
  · have hnot : ¬ (id ∈ ids ∧ valueOf build store id = some value) := by
      intro hmem
      have hin : id ∈ submittedUnder build store ids value := by
        simpa [submittedUnder] using hmem
      rw [hnone] at hin
      cases hin
    simp [hnone, hnot]
  · simp only [List.mem_append, hnone, false_or]
    simp [submittedUnder, keptUnder]

/-! ## One operation -/

/-- A merge leaves every id once in a group, if none is submitted twice. -/
lemma OneGroupEach.nodup_nextRegistry (h : OneGroupEach groups) {ids : List String}
    (hpresent : Present store ids) (hids : ids.Nodup) (value : String) :
    (membersOf (nextRegistry build store groups (ids.filterMap store.get)) value).Nodup := by
  rw [(membersOf_nextRegistry hpresent value).nodup_iff]
  split_ifs
  · exact h.once value
  · refine List.Nodup.append (hids.filter _) ((h.once value).filter _) ?_
    intro id hsubmitted hkept
    have hin := (List.mem_filter.1 hsubmitted).1
    simp [keptUnder, hin] at hkept

/-- A group counts its members. -/
lemma counted_nextRegistry (h : OneGroupEach groups) {ids : List String}
    (hpresent : Present store ids) (hids : ids.Nodup) {value : String}
    {group : DeduplicationGroup}
    (hgroup : (nextRegistry build store groups (ids.filterMap store.get)).get? value = some group) :
    group.occurrenceCount = group.memberFindingIds.dedup.length := by
  have hnodup : (membersOf (nextRegistry build store groups (ids.filterMap store.get)) value).Nodup :=
    h.nodup_nextRegistry hpresent hids value
  rw [membersOf, hgroup, Option.map_some, Option.getD_some] at hnodup
  rw [get?_nextRegistry] at hgroup
  split at hgroup
  · exact h.counted value group hgroup
  · obtain rfl := Option.some.inj hgroup
    rw [List.Nodup.dedup hnodup]
    exact (List.length_map _).symm

/-- **A clean submission** puts every submitted id into the group of its content, and leaves one
group to every other. -/
lemma keepsGrouping_of_clean (h : OneGroupEach groups) {ids : List String}
    (hpresent : Present store ids) (hids : ids.Nodup)
    (hclean : ∀ id ∈ ids, ∀ value, id ∈ membersOf groups value →
      ∃ id' ∈ ids, valueOf build store id' = some value) :
    OneGroupEach (nextRegistry build store groups (ids.filterMap store.get))
      ∧ GroupedByContent build ⟨store, nextRegistry build store groups (ids.filterMap store.get)⟩
        ids := by
  have hcontent : GroupedByContent build
      ⟨store, nextRegistry build store groups (ids.filterMap store.get)⟩ ids := by
    intro id hid value
    rw [mem_membersOf_nextRegistry hpresent]
    constructor
    · rintro (⟨-, hvalue⟩ | ⟨hmember, hnone | ⟨hnot, -⟩⟩)
      · exact hvalue
      · obtain ⟨id', hid', hvalue⟩ := hclean id hid value hmember
        have hin : id' ∈ submittedUnder build store ids value := by
          simp [submittedUnder, hid', hvalue]
        rw [hnone] at hin
        cases hin
      · exact absurd hid hnot
    · intro hvalue
      exact Or.inl ⟨hid, hvalue⟩
  refine ⟨⟨h.nodup_nextRegistry hpresent hids, ?_, ?_⟩, hcontent⟩
  · intro value value' id hmem hmem'
    by_cases hid : id ∈ ids
    · have hvalue := (hcontent id hid value).1 hmem
      have hvalue' := (hcontent id hid value').1 hmem'
      exact Option.some.inj (hvalue.symm.trans hvalue')
    · rw [mem_membersOf_nextRegistry hpresent] at hmem hmem'
      have hbefore : ∀ {v}, (id ∈ ids ∧ valueOf build store id = some v)
          ∨ id ∈ membersOf groups v ∧ (submittedUnder build store ids v = []
            ∨ id ∉ ids ∧ (store.get id).isSome) → id ∈ membersOf groups v := by
        rintro v (⟨hin, -⟩ | ⟨hmember, -⟩)
        · exact absurd hin hid
        · exact hmember
      exact h.one value value' id (hbefore hmem) (hbefore hmem')
  · intro value group hgroup
    exact counted_nextRegistry h hpresent hids hgroup

/-- A submission that leaves every id in one group was clean. -/
lemma clean_of_keepsGrouping {ids : List String} (hpresent : Present store ids)
    (h : OneGroupEach (nextRegistry build store groups (ids.filterMap store.get)))
    (hcontent : GroupedByContent build
      ⟨store, nextRegistry build store groups (ids.filterMap store.get)⟩ ids) :
    ids.Nodup ∧ ∀ id ∈ ids, ∀ value, id ∈ membersOf groups value →
      ∃ id' ∈ ids, valueOf build store id' = some value := by
  constructor
  · rw [List.nodup_iff_count_le_one]
    intro id
    by_cases hid : id ∈ ids
    · obtain ⟨finding, hfinding⟩ := Option.isSome_iff_exists.1 (hpresent id hid)
      have hvalue : valueOf build store id = some (build finding).value := by
        rw [valueOf, hfinding]
        rfl
      have honce := (membersOf_nextRegistry hpresent (build finding).value).nodup_iff.1
        (h.once (build finding).value)
      have hin : id ∈ submittedUnder build store ids (build finding).value := by
        simp [submittedUnder, hid, hvalue]
      rw [if_neg (List.ne_nil_of_mem hin)] at honce
      have hcount := List.nodup_iff_count_le_one.1 (List.Nodup.of_append_left honce) id
      rwa [submittedUnder, List.count_filter (by simpa using hvalue)] at hcount
    · rw [List.count_eq_zero_of_not_mem hid]
      exact Nat.zero_le 1
  · intro id hid value hmember
    by_cases hnone : submittedUnder build store ids value = []
    · have hafter : id ∈ membersOf (nextRegistry build store groups (ids.filterMap store.get))
          value := (mem_membersOf_nextRegistry hpresent).2 (Or.inr ⟨hmember, Or.inl hnone⟩)
      exact ⟨id, hid, (hcontent id hid value).1 hafter⟩
    · obtain ⟨id', hid'⟩ := List.exists_mem_of_ne_nil _ hnone
      have hin := List.mem_filter.1 hid'
      exact ⟨id', hin.1, of_decide_eq_true hin.2⟩

/-- The members of a group after a removal are among its members before, each once. -/
lemma subperm_removeFromGroup {removed : List String} {group group' : DeduplicationGroup}
    (h : removeFromGroup store removed group = some group') :
    group'.memberFindingIds.Subperm group.memberFindingIds
      ∧ (group' = group ∨ group'.occurrenceCount = group'.memberFindingIds.length) := by
  unfold removeFromGroup at h
  simp only at h
  split_ifs at h
  · obtain rfl := Option.some.inj h
    exact ⟨List.Subperm.refl _, Or.inl rfl⟩
  · split at h
    · cases h
    · next canonical rest hsorted =>
        obtain rfl := Option.some.inj h
        refine ⟨?_, Or.inr (List.length_map _).symm⟩
        have hperm := (sortById_perm ((group.memberFindingIds.filter fun id =>
          id ∉ removed).filterMap store.get)).map CandidateFinding.id
        rw [hsorted, map_id_filterMap_get] at hperm
        exact ⟨_, hperm.symm, List.filter_sublist.trans List.filter_sublist⟩

lemma not_mem_of_removeFromGroup {removed : List String} {group group' : DeduplicationGroup}
    (h : removeFromGroup store removed group = some group') :
    ∀ id ∈ group'.memberFindingIds, id ∉ removed := by
  intro id hid
  unfold removeFromGroup at h
  simp only at h
  split_ifs at h with hsame
  · obtain rfl := Option.some.inj h
    exact of_decide_eq_true (List.length_filter_eq_length_iff.1 hsame id hid)
  · split at h
    · cases h
    · next canonical rest hsorted =>
        obtain rfl := Option.some.inj h
        have hperm := (sortById_perm ((group.memberFindingIds.filter fun id =>
          id ∉ removed).filterMap store.get)).map CandidateFinding.id
        rw [hsorted, map_id_filterMap_get] at hperm
        have hmem := List.mem_filter.1 (hperm.mem_iff.1 hid)
        exact of_decide_eq_true (List.mem_filter.1 hmem.1).2

/-- The group has lost the removed members, and no others. -/
structure LosesMembers (removed : List String) (group group' : DeduplicationGroup) : Prop where
  members : group'.memberFindingIds.Perm (group.memberFindingIds.filter fun id => id ∉ removed)
  canonical : group'.canonicalFindingId ∈ group'.memberFindingIds
  representative : group'.representativeFinding.id = group'.canonicalFindingId
  counted : group'.occurrenceCount = group'.memberFindingIds.length
  fingerprint : group'.fingerprint = group.fingerprint
  structuralSignature : group'.structuralSignature = group.structuralSignature
  vulnerabilityType : group'.vulnerabilityType = group.vulnerabilityType

/-- What a removal makes of a group whose other members are all in the store. -/
lemma removeFromGroup_cases {removed : List String} {group : DeduplicationGroup}
    (hpresent : ∀ id ∈ group.memberFindingIds, id ∉ removed → (store.get id).isSome) :
    (removeFromGroup store removed group = some group
        ∧ ∀ id ∈ group.memberFindingIds, id ∉ removed)
      ∨ (∃ id ∈ group.memberFindingIds, id ∈ removed)
        ∧ ((removeFromGroup store removed group = none
            ∧ ∀ id ∈ group.memberFindingIds, id ∈ removed)
          ∨ ∃ group', removeFromGroup store removed group = some group'
            ∧ LosesMembers removed group group') := by
  by_cases hlength : (group.memberFindingIds.filter fun id => id ∉ removed).length
      = group.memberFindingIds.length
  · refine Or.inl ⟨by simp only [removeFromGroup, if_pos hlength], fun id hid => ?_⟩
    exact of_decide_eq_true (List.length_filter_eq_length_iff.1 hlength id hid)
  · right
    have hlost : ∃ id ∈ group.memberFindingIds, id ∈ removed := by
      by_contra hnone
      refine hlength (List.length_filter_eq_length_iff.2 fun id hid => decide_eq_true fun hin => ?_)
      exact hnone ⟨id, hid, hin⟩
    refine ⟨hlost, ?_⟩
    have hremaining : ((group.memberFindingIds.filter fun id => id ∉ removed).filter
        fun id => (store.get id).isSome) = group.memberFindingIds.filter fun id => id ∉ removed := by
      refine List.filter_eq_self.2 fun id hid => ?_
      obtain ⟨hid, hnot⟩ := List.mem_filter.1 hid
      exact hpresent id hid (of_decide_eq_true hnot)
    have hperm := (sortById_perm ((group.memberFindingIds.filter fun id =>
      id ∉ removed).filterMap store.get)).map CandidateFinding.id
    rw [map_id_filterMap_get, hremaining] at hperm
    simp only [removeFromGroup, if_neg hlength]
    cases hsorted : sortById ((group.memberFindingIds.filter fun id =>
        id ∉ removed).filterMap store.get) with
    | nil =>
        refine Or.inl ⟨rfl, fun id hid => ?_⟩
        rw [hsorted] at hperm
        by_contra hnot
        have hmem := hperm.mem_iff.2 (List.mem_filter.2 ⟨hid, decide_eq_true hnot⟩)
        cases hmem
    | cons canonical rest =>
        rw [hsorted] at hperm
        exact Or.inr ⟨_, rfl, hperm, List.mem_cons_self .., rfl, (List.length_map _).symm, rfl,
          rfl, rfl⟩

/-- **A removal** leaves one group to every id. -/
lemma OneGroupEach.remove (h : OneGroupEach groups) (store : FindingStore)
    (removed : List String) : OneGroupEach (removeFindings store removed groups) := by
  have hafter : ∀ value, (membersOf (removeFindings store removed groups) value).Subperm
      (membersOf groups value) := by
    intro value
    rw [membersOf, membersOf, get?_removeFindings]
    cases groups.get? value with
    | none => exact List.Subperm.refl _
    | some group =>
        cases hremove : removeFromGroup store removed group with
        | none => simp [hremove]
        | some group' => simpa [hremove] using (subperm_removeFromGroup hremove).1
  refine ⟨?_, ?_, ?_⟩
  · intro value
    obtain ⟨ids, hperm, hsublist⟩ := hafter value
    exact hperm.nodup_iff.1 ((h.once value).sublist hsublist)
  · intro value value' id hmem hmem'
    exact h.one value value' id ((hafter value).subset hmem) ((hafter value').subset hmem')
  · intro value group' hgroup'
    rw [get?_removeFindings] at hgroup'
    obtain ⟨group, hgroup, hremove⟩ := Option.bind_eq_some_iff.1 hgroup'
    obtain ⟨hsubperm, hsame | hcount⟩ := subperm_removeFromGroup hremove
    · rw [hsame]
      exact h.counted value group hgroup
    · have honce := h.once value
      rw [membersOf, hgroup] at honce
      obtain ⟨ids, hperm, hsublist⟩ := hsubperm
      rw [List.Nodup.dedup (hperm.nodup_iff.1 (honce.sublist hsublist))]
      exact hcount

/-! ## Histories -/

lemma oneGroupEach_empty : OneGroupEach .empty := by
  refine ⟨fun value => List.nodup_nil, ?_, ?_⟩
  · intro value value' id hmem
    cases hmem
  · intro value group hgroup
    cases hgroup

variable (build)

/-- **One operation.** -/
lemma keepsGrouping_iff {s : DedupState} (h : OneGroupEach s.groups) (op : DedupOp) :
    KeepsGrouping build s op ↔ SubmitsCleanly build s op := by
  cases op with
  | scan findings => exact ⟨fun _ => trivial, fun _ => ⟨h, trivial⟩⟩
  | forget findingId => exact ⟨fun _ => trivial, fun _ => ⟨h, trivial⟩⟩
  | remove findingIds => exact ⟨fun _ => trivial, fun _ => ⟨h.remove s.store findingIds, trivial⟩⟩
  | deduplicate ids =>
      by_cases hpresent : Present s.store ids
      · have hstep : dedupStep build s (.deduplicate ids)
            = ⟨s.store, nextRegistry build s.store s.groups (ids.filterMap s.store.get)⟩ := by
          have hall : (ids.all fun id => (s.store.get id).isSome) = true :=
            List.all_eq_true.2 hpresent
          rw [dedupStep, deduplicateFindings, if_pos hall]
          rfl
        simp only [KeepsGrouping, SubmitsCleanly, hstep, hpresent, forall_const]
        constructor
        · rintro ⟨hone, hcontent⟩
          exact clean_of_keepsGrouping hpresent hone hcontent
        · rintro ⟨hids, hclean⟩
          exact keepsGrouping_of_clean h hpresent hids hclean
      · have hstep : dedupStep build s (.deduplicate ids) = s := by
          have hall : ¬ (ids.all fun id => (s.store.get id).isSome) = true :=
            fun hall => hpresent (List.all_eq_true.1 hall)
          rw [dedupStep, deduplicateFindings, if_neg hall]
        simp only [KeepsGrouping, SubmitsCleanly, hstep, hpresent, false_implies, and_true]
        exact ⟨fun _ => trivial, fun _ => h⟩

/-- **Every finding is in one group, that of its current content**, throughout exactly the
histories in which no run submits an id twice, or an id that is still listed under another
fingerprint without a finding of that fingerprint. -/
theorem throughout_keepsGrouping_iff (ops : List DedupOp) :
    Throughout (dedupStep build) (KeepsGrouping build) .empty ops
      ↔ Throughout (dedupStep build) (SubmitsCleanly build) .empty ops := by
  refine throughout_congr (fun s => OneGroupEach s.groups) ?_ ?_ oneGroupEach_empty
    (throughout_true ops)
  · intro s op h _
    exact keepsGrouping_iff build h op
  · intro s op _ _ hkeeps
    exact hkeeps.1

/-! ## Two histories -/

/-- The tokens of the snippets below. -/
def sampleTokens : Tokenizer := fun snippet =>
  if snippet = "cmd" then some [⟨.name, "cmd"⟩, ⟨.other, ""⟩, ⟨.other, ""⟩]
  else if snippet = "os.system(cmd)" then
    some [⟨.name, "os"⟩, ⟨.op, "."⟩, ⟨.name, "system"⟩, ⟨.op, "("⟩, ⟨.name, "cmd"⟩, ⟨.op, ")"⟩,
      ⟨.other, ""⟩, ⟨.other, ""⟩]
  else none

/-- The builder of the service, for these snippets. -/
def sampleBuild : FingerprintBuilder := buildFingerprint (tabulatedPython [] []) sampleTokens

/-- A command injection, with a source of the given kind. -/
def sampleFinding (kind : String) : CandidateFinding where
  id := "f"
  vulnerabilityType := "command_injection"
  severity := "high"
  confidence := 1
  source := ⟨"app/run.py", 3, "cmd", kind⟩
  sink := ⟨"app/run.py", 4, "os.system(cmd)", "os_system"⟩
  taintPath := []
  evidence := ⟨"cmd", "os.system(cmd)", [], [3, 4], []⟩

/-- A request names a finding twice. -/
def submittedTwice : List DedupOp :=
  [.scan [sampleFinding "function_param"], .deduplicate ["f", "f"]]

/-- A finding changes its source between two runs and keeps its lines. -/
def rescanned : List DedupOp :=
  [.scan [sampleFinding "function_param"], .deduplicate ["f"],
    .scan [sampleFinding "request_param"], .deduplicate ["f"]]

/-- **A finding gets into a group twice, and into two groups.** -/
theorem not_keepsGrouping :
    ¬ Throughout (dedupStep sampleBuild) (KeepsGrouping sampleBuild) .empty submittedTwice
      ∧ ¬ Throughout (dedupStep sampleBuild) (KeepsGrouping sampleBuild) .empty rescanned := by
  constructor
  · rintro ⟨-, ⟨hone, -⟩, -⟩
    have htwice : membersOf (exec (dedupStep sampleBuild) .empty submittedTwice).groups
        (sampleBuild (sampleFinding "function_param")).value = ["f", "f"] := by
      decide +kernel
    have hnodup := hone.once (sampleBuild (sampleFinding "function_param")).value
    rw [show (dedupStep sampleBuild _ _) = exec (dedupStep sampleBuild) .empty submittedTwice
      from rfl, htwice] at hnodup
    exact absurd hnodup (by decide)
  · rintro ⟨-, -, -, ⟨hone, -⟩, -⟩
    have hmem : ∀ kind ∈ ["function_param", "request_param"],
        "f" ∈ membersOf (exec (dedupStep sampleBuild) .empty rescanned).groups
          (sampleBuild (sampleFinding kind)).value := by
      decide +kernel
    have hsame := hone.one _ _ "f" (hmem "function_param" (by simp))
      (hmem "request_param" (by simp))
    exact absurd hsame (by decide +kernel)

end Sast
