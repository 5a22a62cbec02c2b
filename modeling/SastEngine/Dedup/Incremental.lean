import Mathlib.Data.Finset.Sort
import SastEngine.Dedup.OneGroup

/-!
# Incremental deduplication

Findings whose content never changes are scanned, submitted in batches and deleted.  After any
such history the registry is the grouping by fingerprint of the findings that were submitted and
not deleted since, however they were split into batches.
-/

namespace Sast

/-- A scan, a deduplication run, or a deletion of findings from both stores. -/
inductive LifecycleOp where
  | scan (findings : List CandidateFinding)
  | deduplicate (findingIds : List String)
  | delete (findingIds : List String)

variable (build : FingerprintBuilder) (content : String → CandidateFinding)

/-- The operations on the stores that make up an operation. -/
def LifecycleOp.ops : LifecycleOp → List DedupOp
  | .scan findings => [.scan findings]
  | .deduplicate findingIds => [.deduplicate findingIds]
  | .delete findingIds => findingIds.map .forget ++ [.remove findingIds]

/-- The state after an operation. -/
def lifecycleStep (s : DedupState) (op : LifecycleOp) : DedupState :=
  exec (dedupStep build) s op.ops

/-- Findings have a fixed content, and a batch names findings of the store, each once. -/
def FixedContent (s : DedupState) : LifecycleOp → Prop
  | .scan findings => ∀ f ∈ findings, f = content f.id
  | .deduplicate findingIds => findingIds.Nodup ∧ Present s.store findingIds
  | .delete _ => True

/-! ## The grouping -/

/-- The ids submitted and not deleted since, after one more operation. -/
def aliveAfter (alive : Finset String) : LifecycleOp → Finset String
  | .scan _ => alive
  | .deduplicate findingIds => alive ∪ findingIds.toFinset
  | .delete findingIds => alive \ findingIds.toFinset

/-- The ids that a history submits and does not delete later. -/
def aliveIds (ops : List LifecycleOp) : Finset String := ops.foldl aliveAfter ∅

/-- A group, apart from the description of its fingerprint. -/
structure GroupListing where
  fingerprint : String
  canonicalFindingId : String
  memberFindingIds : List String
  occurrenceCount : Nat
  repositories : List String
  representativeFinding : CandidateFinding
  matchReasons : List String

/-- What a group lists. -/
def DeduplicationGroup.listing (group : DeduplicationGroup) : GroupListing where
  fingerprint := group.fingerprint
  canonicalFindingId := group.canonicalFindingId
  memberFindingIds := group.memberFindingIds
  occurrenceCount := group.occurrenceCount
  repositories := group.repositories
  representativeFinding := group.representativeFinding
  matchReasons := group.matchReasons

/-- The ids of a fingerprint, in order. -/
def idsUnder (ids : Finset String) (value : String) : List String :=
  (ids.filter fun id => (build (content id)).value = value).sort

/-- The group of a fingerprint in the grouping of a set of findings. -/
def grouping (ids : Finset String) (value : String) : Option GroupListing :=
  match idsUnder build content ids value with
  | [] => none
  | canonical :: rest => some
      { fingerprint := value
        canonicalFindingId := canonical
        memberFindingIds := canonical :: rest
        occurrenceCount := (canonical :: rest).length
        repositories := repositoryLabels ((canonical :: rest).map content)
        representativeFinding := content canonical
        matchReasons := Sast.matchReasons }

variable {build content}

lemma mem_idsUnder {ids : Finset String} {value id : String} :
    id ∈ idsUnder build content ids value ↔ id ∈ ids ∧ (build (content id)).value = value := by
  rw [idsUnder, Finset.mem_sort, Finset.mem_filter]

/-- **The ids of a fingerprint are determined** by their order and their set. -/
lemma eq_idsUnder {ids : Finset String} {value : String} {l : List String}
    (hsorted : l.Pairwise (· ≤ ·)) (hnodup : l.Nodup)
    (hmem : ∀ id, id ∈ l ↔ id ∈ ids ∧ (build (content id)).value = value) :
    l = idsUnder build content ids value := by
  have hids : (idsUnder build content ids value).Nodup := Finset.sort_nodup _ _
  have hperm : l.Perm (idsUnder build content ids value) := by
    rw [List.perm_ext_iff_of_nodup hnodup hids]
    intro id
    rw [hmem, mem_idsUnder]
  exact hperm.eq_of_pairwise' hsorted (Finset.pairwise_sort _ _)

/-- Findings with their fixed content, sorted by id. -/
lemma sortById_eq {members : List CandidateFinding} (hcontent : ∀ f ∈ members, f = content f.id)
    {ids : Finset String} {value : String} (hnodup : (members.map CandidateFinding.id).Nodup)
    (hmem : ∀ id, id ∈ members.map CandidateFinding.id
      ↔ id ∈ ids ∧ (build (content id)).value = value) :
    (sortById members).map CandidateFinding.id = idsUnder build content ids value
      ∧ sortById members = (idsUnder build content ids value).map content := by
  have hperm := sortById_perm members
  have hsorted : (sortById members).Pairwise fun f g => f.id ≤ g.id := by
    have : Std.Total fun f g : CandidateFinding => f.id ≤ g.id := ⟨fun f g => le_total _ _⟩
    have : IsTrans CandidateFinding fun f g => f.id ≤ g.id := ⟨fun _ _ _ => le_trans⟩
    exact List.pairwise_insertionSort _ members
  have hids : (sortById members).map CandidateFinding.id = idsUnder build content ids value := by
    refine eq_idsUnder (List.pairwise_map.2 hsorted) ((hperm.map _).nodup_iff.2 hnodup) ?_
    intro id
    rw [(hperm.map _).mem_iff, hmem]
  have hfixed : (sortById members).map (content ∘ CandidateFinding.id) = sortById members := by
    have hid : ∀ f ∈ sortById members, (content ∘ CandidateFinding.id) f = id f := by
      intro f hf
      exact (hcontent f (hperm.mem_iff.1 hf)).symm
    rw [List.map_congr_left hid, List.map_id]
  refine ⟨hids, ?_⟩
  rw [← hids, List.map_map, hfixed]

/-- What is listed of sorted members. -/
def listingOf (value : String) : List CandidateFinding → Option GroupListing
  | [] => none
  | canonical :: rest => some
      { fingerprint := value
        canonicalFindingId := canonical.id
        memberFindingIds := (canonical :: rest).map CandidateFinding.id
        occurrenceCount := (canonical :: rest).length
        repositories := repositoryLabels (canonical :: rest)
        representativeFinding := canonical
        matchReasons := Sast.matchReasons }

lemma listingOf_eq_grouping {ids : Finset String} {value : String}
    {members : List CandidateFinding}
    (hids : members.map CandidateFinding.id = idsUnder build content ids value)
    (hmembers : members = (idsUnder build content ids value).map content) :
    listingOf value members = grouping build content ids value := by
  rw [grouping]
  cases hunder : idsUnder build content ids value with
  | nil =>
      rw [hmembers, hunder]
      rfl
  | cons canonical rest =>
      rw [hunder] at hids hmembers
      subst hmembers
      obtain ⟨hcanonical, hrest⟩ := List.cons.inj hids
      simp only [List.map_cons, listingOf, hcanonical, List.length_cons, List.length_map]
      rw [hrest]

lemma listing_mergeGroup (store : FindingStore) (submitted : List String)
    (existing : Option DeduplicationGroup) (value : String) (bucket : Bucket) :
    some (mergeGroup store submitted existing value bucket).listing
      = listingOf value
        (sortById (bucket.first :: bucket.rest ++ keptMembers store submitted existing)) := by
  have hne : sortById (bucket.first :: bucket.rest ++ keptMembers store submitted existing) ≠ [] := by
    intro hnil
    have hperm := sortById_perm (bucket.first :: bucket.rest
      ++ keptMembers store submitted existing)
    rw [hnil] at hperm
    cases hperm.nil_eq
  rw [mergeGroup]
  cases hsorted : sortById (bucket.first :: bucket.rest
      ++ keptMembers store submitted existing) with
  | nil => exact absurd hsorted hne
  | cons canonical rest => rfl

/-! ## One operation -/

/-- The registry is the grouping of the ids, all of which are in the store. -/
structure Grouped (build : FingerprintBuilder) (content : String → CandidateFinding)
    (s : DedupState) (alive : Finset String) : Prop where
  fixed : ∀ id f, s.store.get id = some f → f = content id
  present : ∀ id ∈ alive, (s.store.get id).isSome
  listed : ∀ value, (s.groups.get? value).map DeduplicationGroup.listing
    = grouping build content alive value
  described : ∀ value group, s.groups.get? value = some group →
    ∃ f, (build f).value = value ∧ group.structuralSignature = (build f).structuralSignature
      ∧ group.vulnerabilityType = (build f).vulnerabilityType

namespace Grouped

variable {s : DedupState} {alive : Finset String}

lemma membersOf_eq (h : Grouped build content s alive) (value : String) :
    membersOf s.groups value = idsUnder build content alive value := by
  have hlisted := h.listed value
  rw [grouping] at hlisted
  rw [membersOf]
  cases hget : s.groups.get? value with
  | none =>
      rw [hget] at hlisted
      split at hlisted
      · next hunder => simpa using hunder.symm
      · cases hlisted
  | some group =>
      rw [hget] at hlisted
      split at hlisted
      · cases hlisted
      · next canonical rest hunder =>
          rw [hunder]
          exact congrArg GroupListing.memberFindingIds (Option.some.inj hlisted)

/-- Submitted ids by their content. -/
lemma valueOf_eq (h : Grouped build content s alive) {id value : String}
    (hpresent : (s.store.get id).isSome) :
    valueOf build s.store id = some value ↔ (build (content id)).value = value := by
  obtain ⟨f, hf⟩ := Option.isSome_iff_exists.1 hpresent
  rw [valueOf, hf, Option.map_some, h.fixed id f hf, Option.some.injEq]

/-- Findings read from the store have their fixed content. -/
lemma content_of_mem (h : Grouped build content s alive) {ids : List String}
    {f : CandidateFinding} (hf : f ∈ ids.filterMap s.store.get) : f = content f.id := by
  obtain ⟨id, -, hget⟩ := List.mem_filterMap.1 hf
  rw [FindingStore.get_id hget]
  exact h.fixed id f hget

/-- A scan. -/
lemma scan (h : Grouped build content s alive) {findings : List CandidateFinding}
    (hfixed : ∀ f ∈ findings, f = content f.id) :
    Grouped build content ⟨s.store.addReport findings, s.groups⟩ alive := by
  have hstore : ∀ (findings : List CandidateFinding) (store : FindingStore),
      (∀ f ∈ findings, f = content f.id) →
      (∀ id f, store.get id = some f → f = content id) → (∀ id ∈ alive, (store.get id).isSome) →
      (∀ id f, (store.addReport findings).get id = some f → f = content id)
        ∧ ∀ id ∈ alive, ((store.addReport findings).get id).isSome := by
    intro findings
    induction findings with
    | nil => exact fun store _ hcontent hpresent => ⟨hcontent, hpresent⟩
    | cons added findings ih =>
        intro store hall hcontent hpresent
        refine ih (store.add added) (fun f hf => hall f (List.mem_cons_of_mem _ hf)) ?_ ?_
        · intro id f hf
          rw [FindingStore.get_add] at hf
          split_ifs at hf with hid
          · obtain rfl := Option.some.inj hf
            rw [hid]
            exact hall added List.mem_cons_self
          · exact hcontent id f hf
        · intro id hid
          rw [FindingStore.get_add]
          split_ifs
          · rfl
          · exact hpresent id hid
  obtain ⟨hcontent, hpresent⟩ := hstore findings s.store hfixed h.fixed h.present
  exact ⟨hcontent, hpresent, h.listed, h.described⟩

/-- The ids of a fingerprint after a run. -/
lemma mem_after (h : Grouped build content s alive) {ids : List String}
    (hpresent : Present s.store ids) {value id : String} :
    id ∈ submittedUnder build s.store ids value ++ keptUnder s.store s.groups ids value
      ↔ id ∈ alive ∪ ids.toFinset ∧ (build (content id)).value = value := by
  rw [List.mem_append, submittedUnder, keptUnder, List.mem_filter, List.mem_filter,
    h.membersOf_eq, mem_idsUnder, Finset.mem_union, List.mem_toFinset, decide_eq_true_eq,
    decide_eq_true_eq]
  constructor
  · rintro (⟨hid, hvalue⟩ | ⟨⟨hid, hvalue⟩, -⟩)
    · exact ⟨Or.inr hid, (h.valueOf_eq (hpresent id hid)).1 hvalue⟩
    · exact ⟨Or.inl hid, hvalue⟩
  · rintro ⟨hid, hvalue⟩
    by_cases hin : id ∈ ids
    · exact Or.inl ⟨hin, (h.valueOf_eq (hpresent id hin)).2 hvalue⟩
    · have halive := hid.resolve_right hin
      exact Or.inr ⟨⟨halive, hvalue⟩, hin, h.present id halive⟩

/-- A run on a batch. -/
lemma deduplicate (h : Grouped build content s alive) {ids : List String} (hids : ids.Nodup)
    (hpresent : Present s.store ids) :
    Grouped build content
      ⟨s.store, nextRegistry build s.store s.groups (ids.filterMap s.store.get)⟩
      (alive ∪ ids.toFinset) := by
  refine ⟨h.fixed, ?_, ?_, ?_⟩
  · intro id hid
    rcases Finset.mem_union.1 hid with hid | hid
    · exact h.present id hid
    · exact hpresent id (List.mem_toFinset.1 hid)
  · intro value
    have hbucket := map_id_bucket build s.store ids value
    simp only [get?_nextRegistry, map_id_of_present hpresent]
    cases hfilter : (ids.filterMap s.store.get).filter fun f => (build f).value = value with
    | nil =>
        -- no submitted id has the fingerprint
        rw [hfilter, List.map_nil] at hbucket
        have hsame : idsUnder build content (alive ∪ ids.toFinset) value
            = idsUnder build content alive value := by
          refine (eq_idsUnder (Finset.pairwise_sort _ _) (Finset.sort_nodup _ _) ?_).symm
          intro id
          show id ∈ idsUnder build content alive value ↔ _
          rw [mem_idsUnder, ← h.mem_after hpresent, ← hbucket, List.nil_append, keptUnder,
            List.mem_filter, h.membersOf_eq, mem_idsUnder]
          constructor
          · rintro ⟨hid, hvalue⟩
            have hnot : id ∉ ids := by
              intro hin
              have hsubmitted : id ∈ submittedUnder build s.store ids value := by
                simpa [submittedUnder, hin] using (h.valueOf_eq (hpresent id hin)).2 hvalue
              rw [← hbucket] at hsubmitted
              cases hsubmitted
            simpa [hnot, hid, hvalue] using h.present id hid
          · rintro ⟨hid, -⟩
            exact hid
        rw [grouping, hsame]
        exact h.listed value
    | cons first rest =>
        rw [hfilter] at hbucket
        have hmembers : (first :: rest ++ keptMembers s.store ids (s.groups.get? value)).map
            CandidateFinding.id
              = submittedUnder build s.store ids value ++ keptUnder s.store s.groups ids value := by
          rw [List.map_append, hbucket, map_id_keptMembers]
        have hfixed : ∀ f ∈ first :: rest ++ keptMembers s.store ids (s.groups.get? value),
            f = content f.id := by
          intro f hf
          rcases List.mem_append.1 hf with hf | hf
          · rw [← hfilter] at hf
            exact h.content_of_mem (List.mem_filter.1 hf).1
          · unfold keptMembers at hf
            split at hf
            · cases hf
            · exact h.content_of_mem hf
        have hnodup : ((first :: rest ++ keptMembers s.store ids (s.groups.get? value)).map
            CandidateFinding.id).Nodup := by
          rw [hmembers]
          refine List.Nodup.append (hids.filter _) (List.Nodup.filter _ ?_) ?_
          · rw [h.membersOf_eq]
            exact Finset.sort_nodup _ _
          · intro id hsubmitted hkept
            have hin := (List.mem_filter.1 hsubmitted).1
            simp [keptUnder, hin] at hkept
        obtain ⟨hsorted, hcontent⟩ := sortById_eq hfixed hnodup fun id => by
          rw [hmembers]
          exact h.mem_after hpresent
        rw [Option.map_some, listing_mergeGroup]
        exact listingOf_eq_grouping hsorted hcontent
  · intro value group hgroup
    simp only [get?_nextRegistry] at hgroup
    split at hgroup
    · exact h.described value group hgroup
    · next first rest hfilter =>
        obtain rfl := Option.some.inj hgroup
        have hfirst : first ∈ (ids.filterMap s.store.get).filter
            fun f => (build f).value = value := by
          rw [hfilter]
          exact List.mem_cons_self
        exact ⟨first, of_decide_eq_true (List.mem_filter.1 hfirst).2, rfl, rfl⟩

/-- What a removal makes of a group, as a listing. -/
lemma listing_removeFromGroup {store : FindingStore} {removed : List String}
    {group : DeduplicationGroup} {value : String}
    (hgroup : some group.listing = grouping build content alive value)
    (hchanged : ∃ id ∈ group.memberFindingIds, id ∈ removed) :
    (removeFromGroup store removed group).map DeduplicationGroup.listing
      = listingOf value (sortById ((group.memberFindingIds.filter fun id =>
        id ∉ removed).filterMap store.get)) := by
  have hlength : ¬ (group.memberFindingIds.filter fun id => id ∉ removed).length
      = group.memberFindingIds.length := by
    intro heq
    obtain ⟨id, hid, hin⟩ := hchanged
    have hall := List.length_filter_eq_length_iff.1 heq id hid
    simp [hin] at hall
  have hsame : group.fingerprint = value ∧ group.matchReasons = Sast.matchReasons := by
    rw [grouping] at hgroup
    split at hgroup
    · cases hgroup
    · have hlisting := Option.some.inj hgroup
      exact ⟨congrArg GroupListing.fingerprint hlisting,
        congrArg GroupListing.matchReasons hlisting⟩
  simp only [removeFromGroup, if_neg hlength]
  cases sortById ((group.memberFindingIds.filter fun id => id ∉ removed).filterMap store.get) with
  | nil => rfl
  | cons canonical rest =>
      simp only [Option.map_some, DeduplicationGroup.listing, listingOf, hsame]

/-- A removal of ids that have left the store. -/
lemma remove (h : Grouped build content s alive) (removed : List String) {store : FindingStore}
    (hstore : ∀ id, store.get id = if id ∈ removed then none else s.store.get id) :
    Grouped build content ⟨store, removeFindings store removed s.groups⟩
      (alive \ removed.toFinset) := by
  have hpresent : ∀ id ∈ alive \ removed.toFinset, (store.get id).isSome := by
    intro id hid
    obtain ⟨halive, hnot⟩ := Finset.mem_sdiff.1 hid
    rw [hstore, if_neg (by simpa using hnot)]
    exact h.present id halive
  have hfixed : ∀ id f, store.get id = some f → f = content id := by
    intro id f hf
    rw [hstore] at hf
    split_ifs at hf
    exact h.fixed id f hf
  refine ⟨hfixed, hpresent, ?_, ?_⟩
  · intro value
    have hlisted := h.listed value
    have hmembers := h.membersOf_eq value
    rw [membersOf] at hmembers
    rw [get?_removeFindings]
    cases hget : s.groups.get? value with
    | none =>
        -- there is no group, and no id left that could make one
        rw [hget] at hmembers
        have hnone : ([] : List String) = idsUnder build content (alive \ removed.toFinset) value := by
          refine eq_idsUnder List.Pairwise.nil List.nodup_nil ?_
          intro id
          constructor
          · intro hid
            cases hid
          · rintro ⟨hid, hvalue⟩
            have hbefore := mem_idsUnder.2 ⟨(Finset.mem_sdiff.1 hid).1, hvalue⟩
            rw [← hmembers] at hbefore
            cases hbefore
        rw [grouping, ← hnone]
        rfl
    | some group =>
        rw [hget] at hlisted hmembers
        simp only [Option.map_some, Option.getD_some] at hlisted hmembers
        have hmem : ∀ id, id ∈ group.memberFindingIds.filter (fun id => id ∉ removed)
            ↔ id ∈ alive \ removed.toFinset ∧ (build (content id)).value = value := by
          intro id
          rw [List.mem_filter, hmembers, mem_idsUnder, Finset.mem_sdiff, List.mem_toFinset,
            decide_eq_true_eq]
          tauto
        have hnodup : (group.memberFindingIds.filter fun id => id ∉ removed).Nodup := by
          rw [hmembers]
          exact List.Nodup.filter _ (Finset.sort_nodup _ _)
        rw [Option.bind_some]
        by_cases hchanged : ∃ id ∈ group.memberFindingIds, id ∈ removed
        · rw [listing_removeFromGroup hlisted hchanged]
          have hids : ((group.memberFindingIds.filter fun id => id ∉ removed).filterMap
              store.get).map CandidateFinding.id
                = group.memberFindingIds.filter fun id => id ∉ removed := by
            refine map_id_of_present ?_
            intro id hid
            exact hpresent id ((hmem id).1 hid).1
          have hcontent : ∀ f ∈ (group.memberFindingIds.filter fun id => id ∉ removed).filterMap
              store.get, f = content f.id := by
            intro f hf
            obtain ⟨id, -, hid⟩ := List.mem_filterMap.1 hf
            rw [FindingStore.get_id hid]
            exact hfixed id f hid
          obtain ⟨hsorted, hall⟩ := sortById_eq hcontent (hids.symm ▸ hnodup)
            (fun id => by rw [hids]; exact hmem id)
          exact listingOf_eq_grouping hsorted hall
        · -- no member is removed
          have hkeep : group.memberFindingIds.filter (fun id => id ∉ removed)
              = group.memberFindingIds := by
            rw [List.filter_eq_self]
            intro id hid
            exact decide_eq_true fun hin => hchanged ⟨id, hid, hin⟩
          have hsame : idsUnder build content alive value
              = idsUnder build content (alive \ removed.toFinset) value := by
            refine eq_idsUnder (Finset.pairwise_sort _ _) (Finset.sort_nodup _ _) ?_
            intro id
            rw [← hmem, hkeep, hmembers]
          have hunchanged : removeFromGroup store removed group = some group := by
            simp only [removeFromGroup, hkeep, if_true]
          rw [hunchanged, Option.map_some, hlisted, grouping, grouping, hsame]
  · intro value group' hgroup'
    rw [get?_removeFindings] at hgroup'
    obtain ⟨group, hgroup, hremove⟩ := Option.bind_eq_some_iff.1 hgroup'
    obtain ⟨f, hvalue, hsignature, htype⟩ := h.described value group hgroup
    have hsame : group'.structuralSignature = group.structuralSignature
        ∧ group'.vulnerabilityType = group.vulnerabilityType := by
      unfold removeFromGroup at hremove
      simp only at hremove
      split_ifs at hremove
      · obtain rfl := Option.some.inj hremove
        exact ⟨rfl, rfl⟩
      · split at hremove
        · cases hremove
        · obtain rfl := Option.some.inj hremove
          exact ⟨rfl, rfl⟩
    exact ⟨f, hvalue, hsame.1.trans hsignature, hsame.2.trans htype⟩

end Grouped

/-! ## Histories -/

/-- The store after a deletion has lost the deleted ids. -/
lemma exec_forget (build : FingerprintBuilder) (s : DedupState) (ids : List String) :
    (exec (dedupStep build) s (ids.map .forget)).groups = s.groups
      ∧ ∀ id, (exec (dedupStep build) s (ids.map .forget)).store.get id
        = if id ∈ ids then none else s.store.get id := by
  induction ids generalizing s with
  | nil => simp
  | cons forgotten ids ih =>
      obtain ⟨hgroups, hstore⟩ := ih ⟨s.store.remove forgotten, s.groups⟩
      refine ⟨hgroups, ?_⟩
      intro id
      rw [List.map_cons, exec_cons]
      refine (hstore id).trans ?_
      by_cases hid : id = forgotten
      · simp [hid, FindingStore.get_remove]
      · simp [hid, FindingStore.get_remove]

/-- **One operation.** -/
lemma Grouped.step {s : DedupState} {alive : Finset String}
    (h : Grouped build content s alive) {op : LifecycleOp} (hop : FixedContent content s op) :
    Grouped build content (lifecycleStep build s op) (aliveAfter alive op) := by
  cases op with
  | scan findings => exact h.scan hop
  | deduplicate ids =>
      obtain ⟨hids, hpresent⟩ := hop
      have hstep : lifecycleStep build s (.deduplicate ids)
          = ⟨s.store, nextRegistry build s.store s.groups (ids.filterMap s.store.get)⟩ := by
        have hall : (ids.all fun id => (s.store.get id).isSome) = true :=
          List.all_eq_true.2 hpresent
        rw [lifecycleStep, LifecycleOp.ops, exec_cons, exec_nil, dedupStep, deduplicateFindings,
          if_pos hall]
        rfl
      rw [hstep]
      exact h.deduplicate hids hpresent
  | delete ids =>
      obtain ⟨hgroups, hstore⟩ := exec_forget build s ids
      rw [lifecycleStep, LifecycleOp.ops, exec_append, exec_cons, exec_nil, dedupStep, hgroups]
      exact h.remove ids hstore

lemma grouped_empty : Grouped build content .empty ∅ := by
  refine ⟨?_, ?_, ?_, ?_⟩
  · intro id f hf
    cases hf
  · intro id hid
    cases hid
  · intro value
    have hnone : idsUnder build content ∅ value = [] := by
      rw [idsUnder, Finset.filter_empty, Finset.sort_empty]
    rw [grouping, hnone]
    rfl
  · intro value group hgroup
    cases hgroup

/-- **A history.** -/
lemma grouped_exec (ops : List LifecycleOp)
    (hops : Throughout (lifecycleStep build) (FixedContent content) .empty ops) :
    Grouped build content (exec (lifecycleStep build) .empty ops) (aliveIds ops) := by
  induction ops using List.reverseRecOn with
  | nil => exact grouped_empty
  | append_singleton ops op ih =>
      obtain ⟨hbefore, hop, -⟩ := throughout_append.1 hops
      rw [exec_concat, aliveIds, List.foldl_append]
      exact (ih hbefore).step hop

variable (build content)

/-- **Incremental deduplication is batch grouping.**  After any history the registry lists, under
every fingerprint, the group of the submitted and not deleted findings; groups carry the
description of a finding with their fingerprint; and a history with the same such findings leaves
the same groups. -/
theorem incremental_eq_grouping (ops ops' : List LifecycleOp)
    (hops : Throughout (lifecycleStep build) (FixedContent content) .empty ops)
    (hops' : Throughout (lifecycleStep build) (FixedContent content) .empty ops') :
    (∀ value, ((exec (lifecycleStep build) .empty ops).groups.get? value).map
        DeduplicationGroup.listing = grouping build content (aliveIds ops) value)
      ∧ (∀ value group, (exec (lifecycleStep build) .empty ops).groups.get? value = some group →
        ∃ f, (build f).value = value ∧ group.structuralSignature = (build f).structuralSignature
          ∧ group.vulnerabilityType = (build f).vulnerabilityType)
      ∧ (aliveIds ops' = aliveIds ops → ∀ value,
        ((exec (lifecycleStep build) .empty ops').groups.get? value).map
            DeduplicationGroup.listing
          = ((exec (lifecycleStep build) .empty ops).groups.get? value).map
            DeduplicationGroup.listing) := by
  have hgrouped := grouped_exec ops hops
  refine ⟨hgrouped.listed, hgrouped.described, ?_⟩
  intro halive value
  rw [hgrouped.listed, (grouped_exec ops' hops').listed, halive]

instance (s : DedupState) (op : LifecycleOp) : Decidable (FixedContent content s op) :=
  match op with
  | .scan findings => inferInstanceAs (Decidable (∀ f ∈ findings, f = content f.id))
  | .deduplicate ids =>
      inferInstanceAs (Decidable (ids.Nodup ∧ ∀ id ∈ ids, (s.store.get id).isSome))
  | .delete _ => isTrue trivial

/-- The same flaw in several places. -/
def sampleContent (id : String) : CandidateFinding := { sampleFinding "function_param" with id := id }

/-- Three findings in two batches, one of them deleted at the end. -/
def inBatches : List LifecycleOp :=
  [.scan (["a", "b", "c"].map sampleContent), .deduplicate ["b", "a"], .deduplicate ["c"],
    .delete ["a"]]

/-- The two findings that are left, in one batch. -/
def atOnce : List LifecycleOp :=
  [.scan (["c", "b"].map sampleContent), .deduplicate ["c", "b"]]

/-- The fingerprint of the flaw. -/
def sampleValue : String := (sampleBuild (sampleContent "b")).value

theorem incremental_eq_grouping_sample :
    ((exec (lifecycleStep sampleBuild) .empty atOnce).groups.get? sampleValue).map
        DeduplicationGroup.listing
      = ((exec (lifecycleStep sampleBuild) .empty inBatches).groups.get? sampleValue).map
        DeduplicationGroup.listing :=
  (incremental_eq_grouping sampleBuild sampleContent inBatches atOnce (by decide +kernel)
    (by decide +kernel)).2.2 (by decide +kernel) sampleValue

end Sast
