import SastEngine.Api.DeletedProject

/-!
# Deletions that fail and are tried again

A commit of `delete_project` may fail; the request ends there, and the caller sends it again.  Most
changes can be repeated: what has been removed is removed once more.  Three cannot.  The events of
a finding are deleted by the ids of requests that the memory has lost by then, the rows of the
groups are written again only where a group in memory changes, and the rows of the runs are deleted
by the ids of runs in memory.
-/

namespace Sast

/-! ## Attempts -/

/-- `delete_project` until it succeeds: the attempts whose commit of the given number fails, and a
last one. -/
def retryDelete (projectId : String) : List (SetOrder × Nat) → SetOrder → Pipeline → Pipeline
  | [], last, s =>
      let outcome := deleteProject projectId last ⟨s.1, s.2, none⟩
      (outcome.2.memory, outcome.2.database)
  | (order, fuse) :: attempts, last, s =>
      match deleteProject projectId order ⟨s.1, s.2, some fuse⟩ with
      | (.ok _, t) => (t.memory, t.database)
      | (.error _, t) => retryDelete projectId attempts last (t.memory, t.database)

/-- The changes of a deletion that commit something, in order. -/
def deletionCommits (order : SetOrder) (projectId : String) (s : Pipeline) : List DeletionWrite :=
  match projectFindingIds s.1.runs projectId with
  | .error _ => []
  | .ok found =>
      committing DeletionWrite.commit (deletionWrites projectId (order.arrange found) s.1) s

/-- An event is stored for a request of the finding. -/
def EventStored (s : Pipeline) (findingId : String) : Prop :=
  ∃ eventId row, s.2.events.get? eventId = some row
    ∧ row.approvalId ∈ s.1.approvals.requestIds [findingId]

/-- The change can be made again after its commit has failed. -/
def DeletionWrite.Repeatable (s : Pipeline) : DeletionWrite → Prop
  | .approvals findingId => ¬ EventStored s findingId
  | .regroup _ | .insertGroup _ | .runs _ => False
  | _ => True

/-- Every attempt that fails does so at a change that can be repeated. -/
def FailsRepeatably (projectId : String) : List (SetOrder × Nat) → Pipeline → Prop
  | [], _ => True
  | (order, fuse) :: attempts, s =>
      (∀ write ∈ (deletionCommits order projectId s)[fuse]?, write.Repeatable s)
        ∧ match deleteProject projectId order ⟨s.1, s.2, some fuse⟩ with
          | (.ok _, _) => True
          | (.error _, t) => FailsRepeatably projectId attempts (t.memory, t.database)

/-! ## Changes for a finding -/

/-- The finding whose records a change removes. -/
def DeletionWrite.findingId? : DeletionWrite → Option String
  | .finding id | .validation id | .proof id | .assessment id | .slaRecord id | .slaEvents id
  | .approvals id | .remediation id => some id
  | .regroup _ | .insertGroup _ | .runs _ | .project _ => none

lemma mem_findingWrites {findingIds : List String} {write : DeletionWrite} :
    write ∈ findingIds.flatMap findingWrites ↔ ∃ id ∈ findingIds, write.findingId? = some id := by
  rw [List.mem_flatMap]
  refine exists_congr fun id => and_congr_right fun _ => ?_
  cases write <;> simp [findingWrites, DeletionWrite.findingId?, eq_comm]

lemma nodup_findingWrites {findingIds : List String} (h : findingIds.Nodup) :
    (findingIds.flatMap findingWrites).Nodup := by
  refine List.nodup_flatMap.2 ⟨fun id _ => by simp [findingWrites], ?_⟩
  refine h.imp fun {id id'} hne write hwrite hwrite' => hne ?_
  have hid : ∀ id, write ∈ findingWrites id → write.findingId? = some id := by
    intro id hmem
    obtain ⟨id', hid', hwrite⟩ := (@mem_findingWrites [id] write).1 (by simpa using hmem)
    rwa [← List.mem_singleton.1 hid']
  exact Option.some.inj ((hid id hwrite).symm.trans (hid id' hwrite'))

section Changes

variable {findingIds : List String} {findingId : String} {write : DeletionWrite}

lemma mem_cons_append_iff (hid : findingId ∈ findingIds) (id : String) :
    id ∈ [findingId] ++ findingIds ↔ id ∈ findingIds := by
  rw [List.singleton_append, List.mem_cons, or_iff_right_iff_imp]
  rintro rfl
  exact hid

/-- What a change takes out of the memory is taken out with all findings. -/
lemma withoutFindings_remember (hwrite : write.findingId? = some findingId)
    (hid : findingId ∈ findingIds) {stores : PipelineStores} (hkeyed : stores.approvals.WellKeyed) :
    (write.remember stores).withoutFindings findingIds = stores.withoutFindings findingIds := by
  have hids := mem_cons_append_iff hid
  cases write with
  | finding | validation | proof | assessment | remediation =>
      obtain rfl := Option.some.inj hwrite
      simp only [DeletionWrite.remember, PipelineStores.withoutFindings,
        FindingStore.remove_eq_without, FindingStore.without_without, Dict.erase_eq_without,
        Dict.without_without, RiskStores.removeFindingState_eq_without, RiskStores.without_without,
        FindingStore.without_congr hids, Dict.without_congr hids, RiskStores.without_congr hids]
  | approvals =>
      obtain rfl := Option.some.inj hwrite
      simp only [DeletionWrite.remember, PipelineStores.withoutFindings,
        ApprovalStore.removeFinding_eq_without, hkeyed.without_without,
        ApprovalStore.without_congr hids]
  | slaRecord | slaEvents => rfl
  | regroup | insertGroup | runs | project => cases hwrite

lemma wellKeyed_remember {stores : PipelineStores} (hkeyed : stores.approvals.WellKeyed) :
    (write.remember stores).approvals.WellKeyed := by
  cases write with
  | approvals findingId =>
      rw [DeletionWrite.remember, ApprovalStore.removeFinding_eq_without]
      exact hkeyed.without [findingId]
  | finding | validation | proof | assessment | remediation | slaRecord | slaEvents | regroup
  | insertGroup | runs | project => exact hkeyed

/-- The requests of one finding, and those that are left of all findings. -/
lemma mem_requestIds_removeFinding (hid : findingId ∈ findingIds) {approvals : ApprovalStore}
    (hkeyed : approvals.WellKeyed) (id : String) :
    id ∈ approvals.requestIds [findingId]
        ++ (approvals.removeFinding findingId).requestIds findingIds
      ↔ id ∈ approvals.requestIds findingIds := by
  rw [ApprovalStore.removeFinding_eq_without, List.mem_append, ← hkeyed.mem_requestIds_append,
    ApprovalStore.requestIds_congr (mem_cons_append_iff hid)]

/-- A change that is made can be made again. -/
lemma withoutFindings_apply (hwrite : write.findingId? = some findingId)
    (hid : findingId ∈ findingIds) {s : Pipeline} (hkeyed : s.1.approvals.WellKeyed) :
    Pipeline.withoutFindings (write.commit.apply s) findingIds = s.withoutFindings findingIds := by
  have hids := mem_cons_append_iff hid
  rw [apply_commit]
  refine Prod.ext (withoutFindings_remember hwrite hid hkeyed) ?_
  cases write with
  | approvals =>
      obtain rfl := Option.some.inj hwrite
      simp only [Pipeline.withoutFindings, PipelineTables.withoutFindings, DeletionWrite.erased,
        DeletionWrite.remember, Dict.withoutBy_withoutBy, Dict.withoutBy_congr _ hids,
        Dict.withoutBy_congr _ (mem_requestIds_removeFinding hid hkeyed)]
  | finding | validation | proof | assessment | remediation | slaRecord | slaEvents =>
      obtain rfl := Option.some.inj hwrite
      simp only [Pipeline.withoutFindings, PipelineTables.withoutFindings, DeletionWrite.erased,
        DeletionWrite.remember, RiskStores.removeFindingState, Dict.without_without,
        Dict.withoutBy_withoutBy, Dict.without_congr hids, Dict.withoutBy_congr _ hids]
  | regroup | insertGroup | runs | project => cases hwrite

/-- So can a change that is made in memory only, unless the events of a request are left. -/
lemma withoutFindings_remembered (hwrite : write.findingId? = some findingId)
    (hid : findingId ∈ findingIds) {s : Pipeline} (hkeyed : s.1.approvals.WellKeyed)
    (hevents : write = .approvals findingId → ¬ EventStored s findingId) :
    Pipeline.withoutFindings (write.remember s.1, s.2) findingIds
      = s.withoutFindings findingIds := by
  refine Prod.ext (withoutFindings_remember hwrite hid hkeyed) ?_
  cases write with
  | approvals removed =>
      obtain rfl := Option.some.inj hwrite
      have hsame : s.2.events.withoutBy EventRow.approvalId
          ((s.1.approvals.removeFinding removed).requestIds findingIds)
            = s.2.events.withoutBy EventRow.approvalId (s.1.approvals.requestIds findingIds) := by
        refine Dict.filter_congr fun eventId row hrow => decide_eq_decide.2 (not_congr ?_)
        rw [← mem_requestIds_removeFinding hid hkeyed, List.mem_append, or_iff_right]
        exact fun hrequest => hevents rfl ⟨eventId, row, hrow, hrequest⟩
      simp only [Pipeline.withoutFindings, PipelineTables.withoutFindings,
        DeletionWrite.remember, hsame]
  | finding | validation | proof | assessment | remediation | slaRecord | slaEvents => rfl
  | regroup | insertGroup | runs | project => cases hwrite

/-- Another change leaves the requests of a finding and their events. -/
lemma eventStored_apply {id : String} (hwrite : write.findingId? = some id)
    (hne : write ≠ .approvals findingId) {s : Pipeline} (hkeyed : s.1.approvals.WellKeyed) :
    EventStored (write.commit.apply s) findingId ↔ EventStored s findingId := by
  rw [apply_commit]
  cases write with
  | approvals removed =>
      have hid : findingId ∉ [removed] := by
        rw [List.mem_singleton]
        rintro rfl
        exact hne rfl
      have hrequests : ∀ requestId, requestId ∈ (s.1.approvals.without [removed]).requestIds [findingId]
          ↔ requestId ∈ s.1.approvals.requestIds [findingId] := by
        intro requestId
        rw [(hkeyed.without [removed]).mem_requestIds, hkeyed.mem_requestIds,
          ApprovalStore.get_without]
        split_ifs with hmem
        · refine iff_of_false (by rintro ⟨r, hr, -⟩; cases hr) fun hrequest => ?_
          exact hkeyed.requestIds_disjoint hid requestId
            ((hkeyed.mem_requestIds [findingId] requestId).2 hrequest) hmem
        · rfl
      refine exists_congr fun eventId => exists_congr fun row => ?_
      simp only [DeletionWrite.remember, DeletionWrite.erased,
        ApprovalStore.removeFinding_eq_without, hrequests, Dict.get?_withoutBy]
      refine and_congr_left fun hrequest => ?_
      rw [Option.filter_eq_some_iff, and_iff_left_iff_imp]
      exact fun _ => decide_eq_true (hkeyed.requestIds_disjoint hid row.approvalId hrequest)
  | finding | validation | proof | assessment | remediation | slaRecord | slaEvents => rfl
  | regroup | insertGroup | runs | project => cases hwrite

/-- Changes for some of the findings. -/
lemma withoutFindings_applyAll {writes : List DeletionWrite}
    (hwrites : ∀ write ∈ writes, ∃ id ∈ findingIds, write.findingId? = some id) {s : Pipeline}
    (hkeyed : s.1.approvals.WellKeyed) :
    (afterDeletions writes s).1.approvals.WellKeyed
      ∧ Pipeline.withoutFindings (afterDeletions writes s) findingIds
        = s.withoutFindings findingIds
      ∧ ∀ findingId, .approvals findingId ∉ writes →
        (EventStored (afterDeletions writes s) findingId ↔ EventStored s findingId) := by
  induction writes generalizing s with
  | nil => exact ⟨hkeyed, rfl, fun _ _ => Iff.rfl⟩
  | cons write writes ih =>
      obtain ⟨id, hid, hwrite⟩ := hwrites write (List.mem_cons_self ..)
      have hkeyed' : (write.commit.apply s).1.approvals.WellKeyed := wellKeyed_remember hkeyed
      obtain ⟨hafter, hleft, hevents⟩ :=
        ih (fun w hw => hwrites w (List.mem_cons_of_mem _ hw)) hkeyed'
      refine ⟨hafter, hleft.trans (withoutFindings_apply hwrite hid hkeyed), ?_⟩
      intro findingId hnot
      rw [List.mem_cons, not_or] at hnot
      exact (hevents findingId hnot.2).trans (eventStored_apply hwrite (Ne.symm hnot.1) hkeyed)

end Changes

/-! ## What a failing attempt leaves -/

/-- The deletion can go on from here. -/
structure Resumable (projectId : String) (s : Pipeline) : Prop where
  wellKeyed : s.1.approvals.WellKeyed
  groups : ∀ value, s.1.groups.get? value = s.2.groups.get? value
  fingerprint : ∀ value group, s.1.groups.get? value = some group → group.fingerprint = value
  named : ∀ runId run, s.1.runs.getRun runId = some run → run.scanRunId = runId
  stored : ∀ runId ∈ s.1.runs.runIdsOf projectId, (s.2.runs.runs.get? runId).isSome
  deletable : Deletable s projectId

/-- The tables hold what no later attempt deletes: the events of a request that the memory has
lost, the groups as they were, or the runs. -/
inductive Stuck (projectId : String) (goal s : Pipeline) : Prop
  | events (eventId : String) (row : EventRow) (hrow : s.2.events.get? eventId = some row)
      (hrequest : s.1.approvals.get row.approvalId = none)
      (hgoal : goal.2.events.get? eventId = none)
  | groups (findingIds : List String)
      (howned : ∀ id ∈ ownedFindings s.1.runs projectId, id ∈ findingIds)
      (hmembers : regroups s.1.groups findingIds = false) (hrows : s.2.groups ≠ goal.2.groups)
  | runs (hnone : s.1.runs.runIdsOf projectId = []) (hrows : s.2.runs ≠ goal.2.runs)

lemma Stuck.ne {projectId : String} {goal s : Pipeline} (h : Stuck projectId goal s) :
    s ≠ goal := by
  rintro rfl
  cases h with
  | events eventId row hrow hrequest hgoal => rw [hrow] at hgoal; cases hgoal
  | groups findingIds howned hmembers hrows => exact hrows rfl
  | runs hnone hrows => exact hrows rfl

/-- An attempt keeps what every change of a deletion keeps. -/
lemma deleteProject_invariant (I : Pipeline → Prop) {projectId : String} {order : SetOrder}
    {s : Pipeline}
    (happly : ∀ found, projectFindingIds s.1.runs projectId = .ok found →
      ∀ write ∈ deletionWrites projectId (order.arrange found) s.1,
        ∀ t : Pipeline, I t → I (write.remember t.1, write.erased t.1 t.2))
    (hremember : ∀ found, projectFindingIds s.1.runs projectId = .ok found →
      ∀ write ∈ deletionWrites projectId (order.arrange found) s.1,
        ∀ t : Pipeline, I t → I (write.remember t.1, t.2))
    (hkeyed : s.1.approvals.WellKeyed) (h : I s) (fuse : Option Nat) :
    I ((deleteProject projectId order ⟨s.1, s.2, fuse⟩).2.memory,
      (deleteProject projectId order ⟨s.1, s.2, fuse⟩).2.database) := by
  by_cases hdeletable : Deletable s projectId
  · obtain ⟨hrow, found, hfound⟩ := hdeletable
    rw [deleteProject_eq hkeyed hrow hfound]
    refine performAll_invariant DeleteError.database I ?_ (hremember found hfound) h fuse
    intro write hwrite t ht
    rw [apply_commit]
    exact happly found hfound write hwrite t ht
  · obtain ⟨error, herror⟩ := deleteProject_of_not_deletable hdeletable order fuse
    rw [herror]
    exact h

lemma mem_deletionWrites {projectId : String} {findingIds : List String} {stores : PipelineStores}
    {write : DeletionWrite} (h : write ∈ deletionWrites projectId findingIds stores) :
    (∃ id ∈ findingIds, write.findingId? = some id)
      ∨ (regroups stores.groups findingIds = true
        ∧ ((∃ groups, write = .regroup groups) ∨ ∃ group, write = .insertGroup group))
      ∨ write = .runs projectId ∨ write = .project projectId := by
  rcases List.mem_append.1 h with h | h
  · exact Or.inl (mem_findingWrites.1 h)
  rcases List.mem_append.1 h with h | h
  · rw [regroupWrites] at h
    split_ifs at h with hchanged
    · rcases List.mem_cons.1 h with rfl | h
      · exact Or.inr (Or.inl ⟨hchanged, Or.inl ⟨_, rfl⟩⟩)
      · obtain ⟨group, -, rfl⟩ := List.mem_map.1 h
        exact Or.inr (Or.inl ⟨hchanged, Or.inr ⟨group, rfl⟩⟩)
    · cases h
  · rcases List.mem_cons.1 h with rfl | h
    · exact Or.inr (Or.inr (Or.inl rfl))
    · exact Or.inr (Or.inr (Or.inr (List.mem_singleton.1 h)))

lemma ownedFindings_deleteProjectRuns {runs : ScanRunStore} {projectId id : String}
    (h : id ∈ ownedFindings (runs.deleteProjectRuns projectId) projectId) :
    id ∈ ownedFindings runs projectId := by
  obtain ⟨runId, hrun, hid⟩ := List.mem_flatMap.1 h
  refine List.mem_flatMap.2 ⟨runId, ?_, ?_⟩
  · obtain ⟨run, hmem, rfl⟩ := List.mem_map.1 hrun
    refine List.mem_map.2 ⟨run, List.mem_filter.2 ⟨?_, (List.mem_filter.1 hmem).2⟩, rfl⟩
    obtain ⟨key, hget⟩ := (Dict.mem_values_iff _).1 (List.mem_filter.1 hmem).1
    have hget : (runs.runs.eraseAll (runs.runIdsOf projectId)).get? key = some run := hget
    rw [Dict.get?_eraseAll] at hget
    split_ifs at hget
    exact (Dict.mem_values_iff _).2 ⟨key, hget⟩
  · have hid : id ∈ ((runs.lineage.eraseAll (runs.runIdsOf projectId)).get? runId).getD [] := hid
    rw [Dict.get?_eraseAll] at hid
    split_ifs at hid
    · cases hid
    · exact hid

lemma deleteProjectRuns_of_nil {runs : ScanRunStore} {projectId : String}
    (h : runs.runIdsOf projectId = []) : runs.deleteProjectRuns projectId = runs := by
  rw [ScanRunStore.deleteProjectRuns, h]
  rfl

/-- **No later attempt deletes it.** -/
lemma Stuck.attempt {projectId : String} {goal s : Pipeline} (h : Stuck projectId goal s)
    (hkeyed : s.1.approvals.WellKeyed) (order : SetOrder) (fuse : Option Nat) :
    (deleteProject projectId order ⟨s.1, s.2, fuse⟩).2.memory.approvals.WellKeyed
      ∧ Stuck projectId goal ((deleteProject projectId order ⟨s.1, s.2, fuse⟩).2.memory,
        (deleteProject projectId order ⟨s.1, s.2, fuse⟩).2.database) := by
  cases h with
  | events eventId row hrow hrequest hgoal =>
      have hmemory : ∀ (write : DeletionWrite) (t : Pipeline),
          t.1.approvals.get row.approvalId = none →
            (write.remember t.1).approvals.get row.approvalId = none := by
        intro write t ht
        cases write with
        | approvals id =>
            rw [DeletionWrite.remember, ApprovalStore.removeFinding_eq_without,
              ApprovalStore.get_without, ht, ite_self]
        | finding | validation | proof | assessment | slaRecord | slaEvents | remediation
        | regroup | insertGroup | runs | project => exact ht
      have hrows : ∀ (write : DeletionWrite) (t : Pipeline), t.1.approvals.WellKeyed →
          t.1.approvals.get row.approvalId = none → t.2.events.get? eventId = some row →
            (write.erased t.1 t.2).events.get? eventId = some row := by
        intro write t hkeyed hnone ht
        cases write with
        | approvals id =>
            refine (Dict.get?_withoutBy ..).trans ?_
            rw [ht, Option.filter_eq_some_iff]
            refine ⟨rfl, decide_eq_true fun hmem => ?_⟩
            obtain ⟨r, hr, -⟩ := (hkeyed.mem_requestIds [id] row.approvalId).1 hmem
            rw [hnone] at hr
            cases hr
        | finding | validation | proof | assessment | slaRecord | slaEvents | remediation
        | regroup | insertGroup | runs | project => exact ht
      obtain ⟨hkeyed', hrequest', hrow'⟩ := deleteProject_invariant
        (fun t => t.1.approvals.WellKeyed ∧ t.1.approvals.get row.approvalId = none
          ∧ t.2.events.get? eventId = some row)
        (fun _ _ write _ t ht => ⟨wellKeyed_remember ht.1, hmemory write t ht.2.1,
          hrows write t ht.1 ht.2.1 ht.2.2⟩)
        (fun _ _ write _ t ht => ⟨wellKeyed_remember ht.1, hmemory write t ht.2.1, ht.2.2⟩)
        hkeyed ⟨hkeyed, hrequest, hrow⟩ fuse
      exact ⟨hkeyed', .events eventId row hrow' hrequest' hgoal⟩
  | groups findingIds howned hmembers hrows =>
      have hunchanged : ∀ found, projectFindingIds s.1.runs projectId = .ok found →
          regroups s.1.groups (order.arrange found) = false := by
        intro found hfound
        refine regroups_eq_false_iff.2 fun value group hgroup id hid hmem => ?_
        refine regroups_eq_false_iff.1 hmembers value group hgroup id hid (howned id ?_)
        exact (mem_projectFindingIds hfound id).1 ((order.mem found id).1 hmem)
      have hstep : ∀ found, projectFindingIds s.1.runs projectId = .ok found →
          ∀ write ∈ deletionWrites projectId (order.arrange found) s.1, ∀ t : Pipeline,
            (write.remember t.1).groups = t.1.groups
              ∧ (write.erased t.1 t.2).groups = t.2.groups
              ∧ ∀ id ∈ ownedFindings (write.remember t.1).runs projectId,
                id ∈ ownedFindings t.1.runs projectId := by
        intro found hfound write hwrite t
        rcases mem_deletionWrites hwrite with
          ⟨id, -, hid⟩ | ⟨hchanged, -⟩ | rfl | rfl
        · cases write with
          | finding | validation | proof | assessment | slaRecord | slaEvents | approvals
          | remediation => exact ⟨rfl, rfl, fun _ h => h⟩
          | regroup | insertGroup | runs | project => cases hid
        · rw [hunchanged found hfound] at hchanged
          cases hchanged
        · exact ⟨rfl, rfl, fun _ => ownedFindings_deleteProjectRuns⟩
        · exact ⟨rfl, rfl, fun _ h => h⟩
      obtain ⟨hkeyed', hgroups', hrows', howned'⟩ := deleteProject_invariant
        (fun t => t.1.approvals.WellKeyed ∧ t.1.groups = s.1.groups ∧ t.2.groups = s.2.groups
          ∧ ∀ id ∈ ownedFindings t.1.runs projectId, id ∈ findingIds)
        (fun found hfound write hwrite t ht =>
          have hsame := hstep found hfound write hwrite t
          ⟨wellKeyed_remember ht.1, hsame.1.trans ht.2.1, hsame.2.1.trans ht.2.2.1,
            fun id hid => ht.2.2.2 id (hsame.2.2 id hid)⟩)
        (fun found hfound write hwrite t ht =>
          have hsame := hstep found hfound write hwrite t
          ⟨wellKeyed_remember ht.1, hsame.1.trans ht.2.1, ht.2.2.1,
            fun id hid => ht.2.2.2 id (hsame.2.2 id hid)⟩)
        hkeyed ⟨hkeyed, rfl, rfl, howned⟩ fuse
      exact ⟨hkeyed', .groups findingIds howned' (hgroups'.symm ▸ hmembers)
        fun heq => hrows (hrows'.symm.trans heq)⟩
  | runs hnone hrows =>
      have hstep : ∀ found, projectFindingIds s.1.runs projectId = .ok found →
          ∀ write ∈ deletionWrites projectId (order.arrange found) s.1, ∀ t : Pipeline,
            t.1.runs.runIdsOf projectId = [] → (write.remember t.1).runs = t.1.runs
              ∧ (write.erased t.1 t.2).runs = t.2.runs := by
        intro found hfound write hwrite t ht
        rcases mem_deletionWrites hwrite with
          ⟨id, -, hid⟩ | ⟨-, ⟨_, rfl⟩ | ⟨_, rfl⟩⟩ | rfl | rfl
        · cases write with
          | finding | validation | proof | assessment | slaRecord | slaEvents | approvals
          | remediation => exact ⟨rfl, rfl⟩
          | regroup | insertGroup | runs | project => cases hid
        · exact ⟨rfl, rfl⟩
        · exact ⟨rfl, rfl⟩
        · refine ⟨deleteProjectRuns_of_nil ht, ?_⟩
          rw [DeletionWrite.erased, ht, deleteRuns_nil]
        · exact ⟨rfl, rfl⟩
      obtain ⟨hkeyed', hnone', hrows'⟩ := deleteProject_invariant
        (fun t => t.1.approvals.WellKeyed ∧ t.1.runs.runIdsOf projectId = []
          ∧ t.2.runs = s.2.runs)
        (fun found hfound write hwrite t ht =>
          have hsame := hstep found hfound write hwrite t ht.2.1
          ⟨wellKeyed_remember ht.1, hsame.1.symm ▸ ht.2.1, hsame.2.trans ht.2.2⟩)
        (fun found hfound write hwrite t ht =>
          have hsame := hstep found hfound write hwrite t ht.2.1
          ⟨wellKeyed_remember ht.1, hsame.1.symm ▸ ht.2.1, ht.2.2⟩)
        hkeyed ⟨hkeyed, hnone, rfl⟩ fuse
      exact ⟨hkeyed', .runs hnone' fun heq => hrows (hrows'.symm.trans heq)⟩

/-- **Nor does any number of them.** -/
lemma Stuck.retryDelete_ne {projectId : String} {goal s : Pipeline} (h : Stuck projectId goal s)
    (hkeyed : s.1.approvals.WellKeyed) (attempts : List (SetOrder × Nat)) (last : SetOrder) :
    retryDelete projectId attempts last s ≠ goal := by
  induction attempts generalizing s with
  | nil => exact (h.attempt hkeyed last none).2.ne
  | cons attempt attempts ih =>
      obtain ⟨order, fuse⟩ := attempt
      obtain ⟨hkeyed', hstuck⟩ := h.attempt hkeyed order (some fuse)
      rw [retryDelete]
      cases hrun : deleteProject projectId order ⟨s.1, s.2, some fuse⟩ with
      | mk outcome t =>
          rw [hrun] at hkeyed' hstuck
          cases outcome with
          | ok _ => exact hstuck.ne
          | error _ => exact ih hstuck hkeyed'

/-! ## One attempt -/

/-- The change that fails can be repeated, and the deletion that follows ends where this one
would have; or it cannot, and something is left for good. -/
def FailsAt (projectId : String) (write : DeletionWrite) (s t : Pipeline) : Prop :=
  t.1.approvals.WellKeyed
    ∧ ((write.Repeatable s ∧ Resumable projectId t ∧ t.deleted projectId = s.deleted projectId)
      ∨ (¬ write.Repeatable s ∧ Stuck projectId (s.deleted projectId) t))

namespace Resumable

variable {projectId : String} {s t : Pipeline} {findingIds : List String}

/-- What stays when findings are removed. -/
lemma beside_of_left (hleft : t.withoutFindings findingIds = s.withoutFindings findingIds) :
    t.1.groups = s.1.groups ∧ t.1.runs = s.1.runs ∧ t.2.groups = s.2.groups
      ∧ t.2.runs = s.2.runs ∧ t.2.projects = s.2.projects := by
  simp only [Pipeline.withoutFindings, PipelineStores.withoutFindings,
    PipelineTables.withoutFindings, Prod.mk.injEq, PipelineStores.mk.injEq,
    PipelineTables.mk.injEq] at hleft
  tauto

/-- Some records of the findings are gone. -/
lemma of_left (h : Resumable projectId s) (hkeyed : t.1.approvals.WellKeyed)
    (hleft : t.withoutFindings findingIds = s.withoutFindings findingIds) :
    Resumable projectId t := by
  obtain ⟨hgroups, hruns, hgroupRows, hrunRows, hprojects⟩ := beside_of_left hleft
  refine ⟨hkeyed, ?_, ?_, ?_, ?_, ?_⟩
  · rw [hgroups, hgroupRows]
    exact h.groups
  · rw [hgroups]
    exact h.fingerprint
  · rw [hruns]
    exact h.named
  · rw [hruns, hrunRows]
    exact h.stored
  · rw [Deletable, hruns, hprojects]
    exact h.deletable

lemma deleted_of_left (hids : ∀ id, id ∈ findingIds ↔ id ∈ ownedFindings s.1.runs projectId)
    (hleft : t.withoutFindings findingIds = s.withoutFindings findingIds) :
    t.deleted projectId = s.deleted projectId := by
  rw [Pipeline.deleted, Pipeline.deleted, (beside_of_left hleft).2.1]
  simp only [← Pipeline.withoutFindings_congr hids, hleft]

/-- A change for a finding fails. -/
lemma failsAt_finding (h : Resumable projectId s)
    (hids : ∀ id, id ∈ findingIds ↔ id ∈ ownedFindings s.1.runs projectId)
    (hnodup : findingIds.Nodup) {pre post : List DeletionWrite} {write : DeletionWrite}
    (hsplit : findingIds.flatMap findingWrites = pre ++ write :: post) :
    FailsAt projectId write s
      (write.remember (afterDeletions pre s).1, (afterDeletions pre s).2) := by
  have hconcerns : ∀ w ∈ pre ++ write :: post, ∃ id ∈ findingIds, w.findingId? = some id :=
    fun w hw => mem_findingWrites.1 (hsplit ▸ hw)
  obtain ⟨id, hid, hwrite⟩ := hconcerns write (by simp)
  have hnot : write ∉ pre := by
    have hnodup := nodup_findingWrites hnodup
    rw [hsplit, List.nodup_append] at hnodup
    exact fun hmem => hnodup.2.2 write hmem write (List.mem_cons_self ..) rfl
  obtain ⟨hkeyed, hleft, hevents⟩ := withoutFindings_applyAll
    (fun w hw => hconcerns w (List.mem_append_left _ hw)) h.wellKeyed
  set u := afterDeletions pre s with hu
  refine ⟨wellKeyed_remember hkeyed, ?_⟩
  by_cases hstored : write = .approvals id ∧ EventStored s id
  · -- The row of an event is left, and its request is no longer in memory.
    obtain ⟨rfl, hstored⟩ := hstored
    refine Or.inr ⟨not_not.2 hstored, ?_⟩
    obtain ⟨eventId, row, hrow, hrequest⟩ := (hevents id hnot).2 hstored
    refine .events eventId row hrow ?_ ?_
    · rw [DeletionWrite.remember, ApprovalStore.removeFinding_eq_without,
        ApprovalStore.get_without, if_pos hrequest]
    · rw [← deleted_of_left hids hleft, snd_deleted]
      refine (Dict.get?_withoutBy ..).trans ?_
      have hruns : u.1.runs = s.1.runs := (beside_of_left hleft).2.1
      have hgone := hkeyed.requestIds_subset (hruns.symm ▸ (hids id).1 hid) row.approvalId hrequest
      rw [hrow, Option.filter_some, if_neg]
      simpa using hgone
  · have hrepeatable : write.Repeatable s := by
      cases write with
      | approvals removed =>
          obtain rfl := Option.some.inj hwrite
          exact fun hevent => hstored ⟨rfl, hevent⟩
      | finding | validation | proof | assessment | slaRecord | slaEvents | remediation =>
          trivial
      | regroup | insertGroup | runs | project => cases hwrite
    have hgone := (withoutFindings_remembered hwrite hid hkeyed fun heq hevent =>
      hstored ⟨heq, (hevents id (heq ▸ hnot)).1 hevent⟩).trans hleft
    exact Or.inl ⟨hrepeatable, h.of_left (wellKeyed_remember hkeyed) hgone,
      deleted_of_left hids hgone⟩

/-! ### Groups -/

lemma get?_foldl_of_not_mem {groups : List DeduplicationGroup} {value : String}
    (h : ∀ group ∈ groups, group.fingerprint ≠ value) (rows : GroupRegistry) :
    (groups.foldl (fun rows group => rows.set group.fingerprint group) rows).get? value
      = rows.get? value := by
  induction groups generalizing rows with
  | nil => rfl
  | cons group groups ih =>
      rw [List.foldl_cons, ih (fun g hg => h g (List.mem_cons_of_mem _ hg)),
        Dict.get?_set_ne _ _ (Ne.symm (h group (List.mem_cons_self ..)))]

variable (h : Resumable projectId s)
  (hids : ∀ id, id ∈ findingIds ↔ id ∈ ownedFindings s.1.runs projectId)
include h hids

/-- The rows of the groups after the deletion. -/
lemma get?_groups_deleted (value : String) :
    (s.deleted projectId).2.groups.get? value
      = (removeFindings (s.1.findings.without findingIds) findingIds s.1.groups).get? value := by
  have hrows := (Consistent.get?_regrouped (t := s.withoutFindings findingIds) h.groups
    h.fingerprint findingIds value).2
  rw [Pipeline.deleted, ← Pipeline.withoutFindings_congr hids, ← Pipeline.regrouped_congr hids]
  exact hrows.trans (get?_removeFindings ..).symm

/-- A change of the groups fails. -/
lemma failsAt_regroup {pre post : List DeletionWrite} {write : DeletionWrite}
    (hsplit : regroupWrites (s.1.findings.without findingIds) s.1.groups findingIds
      = pre ++ write :: post) :
    FailsAt projectId write s
      (write.remember (afterDeletions pre (s.withoutFindings findingIds)).1,
        (afterDeletions pre (s.withoutFindings findingIds)).2) := by
  have hrows := h.get?_groups_deleted hids
  set next := removeFindings (s.1.findings.without findingIds) findingIds s.1.groups with hnext
  rw [regroupWrites, ← hnext] at hsplit
  have hchanged : regroups s.1.groups findingIds = true := by
    by_contra hsame
    rw [if_neg hsame] at hsplit
    cases pre <;> cases hsplit
  rw [if_pos hchanged] at hsplit
  have hmembers : regroups next findingIds = false := by
    refine regroups_eq_false_iff.2 fun value group' hget => ?_
    rw [hnext, get?_removeFindings] at hget
    obtain ⟨group, -, hremove⟩ := Option.bind_eq_some_iff.1 hget
    exact not_mem_of_removeFromGroup hremove
  have hfingerprint : ∀ value group', next.get? value = some group' →
      group'.fingerprint = value := by
    intro value group' hget
    rw [hnext, get?_removeFindings] at hget
    obtain ⟨group, hgroup, hremove⟩ := Option.bind_eq_some_iff.1 hget
    exact (Consistent.fingerprint_removeFromGroup hremove).trans (h.fingerprint value group hgroup)
  have hkeyed : (s.withoutFindings findingIds).1.approvals.WellKeyed := h.wellKeyed.without _
  cases pre with
  | nil =>
      -- The rows are as they were, and the memory shows no change any more.
      obtain ⟨rfl, -⟩ := List.cons.inj hsplit
      refine ⟨hkeyed, Or.inr ⟨id, .groups findingIds (fun id => (hids id).2) hmembers ?_⟩⟩
      intro hsame
      have hsame : s.2.groups = (s.deleted projectId).2.groups := hsame
      refine absurd (regroups_eq_false_iff.2 fun value group hget => ?_)
        (Bool.not_eq_false _ ▸ hchanged)
      rw [h.groups, hsame, hrows] at hget
      exact regroups_eq_false_iff.1 hmembers value group hget
  | cons first inserted =>
      obtain ⟨rfl, hinserts⟩ := List.cons.inj hsplit
      obtain ⟨groups, rest, hvalues, hgroups, hrest⟩ := List.map_eq_append_iff.1 hinserts
      obtain ⟨group, others, rfl, rfl, -⟩ := List.map_eq_cons_iff.1 hrest
      -- The row of this group is missing, and the deletion has one.
      have hafter : afterDeletions (.regroup next :: inserted) (s.withoutFindings findingIds)
          = ({ (s.withoutFindings findingIds).1 with groups := next },
            { (s.withoutFindings findingIds).2 with
              groups := groups.foldl (fun rows group => rows.set group.fingerprint group)
                .empty }) := by
        rw [← hgroups]
        exact afterDeletions_insertGroups groups _
      rw [hafter]
      refine ⟨hkeyed, Or.inr ⟨id, .groups findingIds (fun id => (hids id).2) hmembers ?_⟩⟩
      intro hsame
      have hdistinct : (next.values.map DeduplicationGroup.fingerprint).Nodup := by
        have hkeys : next.values.map DeduplicationGroup.fingerprint = next.keys := by
          rw [Dict.values, Dict.keys, List.map_map]
          refine List.map_congr_left fun entry hentry => ?_
          exact hfingerprint entry.1 entry.2 ((next.get?_eq_some_iff).2 hentry)
        rw [hkeys]
        exact next.nodup
      have hget : next.get? group.fingerprint = some group := by
        obtain ⟨value, hget⟩ := (next.mem_values_iff (v := group)).1 (by rw [hvalues]; simp)
        exact (hfingerprint value group hget).symm ▸ hget
      have hmissing : (groups.foldl (fun (rows : GroupRegistry) group =>
          rows.set group.fingerprint group) .empty).get? group.fingerprint = none := by
        refine get?_foldl_of_not_mem (fun g hg heq => ?_) .empty
        rw [hvalues, List.map_append, List.nodup_append] at hdistinct
        exact hdistinct.2.2 g.fingerprint (List.mem_map_of_mem hg) group.fingerprint
          (List.mem_map_of_mem (List.mem_cons_self ..)) heq
      have hrow := hrows group.fingerprint
      rw [← hsame] at hrow
      rw [hget] at hrow
      exact absurd (hmissing.symm.trans hrow) (by simp)

/-! ### Runs and the project -/

omit hids in
/-- The change of the runs fails. -/
lemma failsAt_runs (hnone : s.1.runs.runIdsOf projectId ≠ []) :
    FailsAt projectId (.runs projectId) s
      (DeletionWrite.remember ((s.withoutFindings findingIds).regrouped findingIds).1
        (.runs projectId), ((s.withoutFindings findingIds).regrouped findingIds).2) := by
  rw [fst_regrouped]
  refine ⟨h.wellKeyed.without findingIds, Or.inr ⟨id, .runs ?_ ?_⟩⟩
  · exact ScanRunStore.runIdsOf_deleteProjectRuns_self h.named
  · intro hsame
    obtain ⟨runId, hrun⟩ := List.exists_mem_of_ne_nil _ hnone
    have hrow := h.stored runId hrun
    have hsame : s.2.runs = s.2.runs.deleteRuns (s.1.runs.runIdsOf projectId) := by
      rw [snd_regrouped, snd_deleted] at hsame
      exact hsame
    rw [hsame] at hrow
    have hgone : (s.2.runs.deleteRuns (s.1.runs.runIdsOf projectId)).runs.get? runId = none :=
      congrArg RunRows.run (ScanTables.rowsOf_deleteRuns_of_mem hrun)
    rw [hgone] at hrow
    cases hrow

omit h hids in
/-- A deletion that finds no runs. -/
lemma deleted_of_no_runs (hnone : s.1.runs.runIdsOf projectId = []) :
    s.deleted projectId
      = (s.1, { s.2 with projects := s.2.projects.without [projectId] }) := by
  have howned : ownedFindings s.1.runs projectId = [] := by rw [ownedFindings, hnone]; rfl
  have hsame : regroups s.1.groups [] = false := by simp [regroups]
  have hregrouped : s.regrouped [] = s := by
    rw [Pipeline.regrouped, hsame]
    rfl
  rw [Pipeline.deleted, howned, Pipeline.withoutFindings_nil, hregrouped, Pipeline.withoutProject,
    hnone, deleteRuns_nil, deleteProjectRuns_of_nil hnone]

/-- The change of the project's row fails. -/
lemma failsAt_project :
    FailsAt projectId (.project projectId) s
      ((DeletionWrite.runs projectId).commit.apply
        ((s.withoutFindings findingIds).regrouped findingIds)) := by
  have hregrouped := Consistent.get?_regrouped (t := s.withoutFindings findingIds) h.groups
    h.fingerprint findingIds
  have hnone := @ScanRunStore.runIdsOf_deleteProjectRuns_self s.1.runs projectId h.named
  set u := (s.withoutFindings findingIds).regrouped findingIds with hu
  have hruns : u.1.runs = s.1.runs := by rw [hu, fst_regrouped]; rfl
  have hprojects : u.2.projects = s.2.projects := by rw [hu, snd_regrouped]; rfl
  rw [apply_commit, DeletionWrite.remember, DeletionWrite.erased]
  have hkeyed : u.1.approvals.WellKeyed := by
    rw [hu, fst_regrouped]
    exact h.wellKeyed.without findingIds
  refine ⟨hkeyed, Or.inl ⟨trivial, ?_, ?_⟩⟩
  · refine ⟨hkeyed, fun value => (hregrouped value).1.trans (hregrouped value).2.symm, ?_, ?_, ?_, ?_⟩
    · intro value group' hget
      obtain ⟨group, hgroup, hremove⟩ := Option.bind_eq_some_iff.1
        ((hregrouped value).1.symm.trans hget)
      exact (Consistent.fingerprint_removeFromGroup hremove).trans
        (h.fingerprint value group hgroup)
    · intro runId run hrun
      rw [hruns, getRun_deleteProjectRuns] at hrun
      split_ifs at hrun
      exact h.named runId run hrun
    · intro runId hrun
      rw [hruns, hnone] at hrun
      cases hrun
    · refine ⟨hprojects.symm ▸ h.deletable.1, [], ?_⟩
      have hempty : (s.1.runs.deleteProjectRuns projectId).runs.values.filter
          (fun run => run.projectId = projectId) = [] := List.map_eq_nil_iff.1 hnone
      rw [hruns, projectFindingIds, ScanRunStore.runsForProject, hempty]
      rfl
  · have hdeleted : s.deleted projectId = u.withoutProject projectId := by
      rw [Pipeline.deleted, ← Pipeline.withoutFindings_congr hids,
        ← Pipeline.regrouped_congr hids]
    rw [deleted_of_no_runs (hruns.symm ▸ hnone), hdeleted]
    rfl

omit h hids in
/-- **An attempt succeeds**, or fails at one of its changes. -/
theorem attempt (h : Resumable projectId s) (order : SetOrder) (fuse : Nat) :
    ((deletionCommits order projectId s)[fuse]? = none
        ∧ ∃ later, deleteProject projectId order ⟨s.1, s.2, some fuse⟩
          = (.ok (), ⟨(s.deleted projectId).1, (s.deleted projectId).2, later⟩))
      ∨ ∃ write t, (deletionCommits order projectId s)[fuse]? = some write
        ∧ deleteProject projectId order ⟨s.1, s.2, some fuse⟩
          = (.error .database, ⟨t.1, t.2, none⟩)
        ∧ FailsAt projectId write s t := by
  obtain ⟨hrow, found, hfound⟩ := h.deletable
  have hids : ∀ id, id ∈ order.arrange found ↔ id ∈ ownedFindings s.1.runs projectId :=
    fun id => (order.mem found id).trans (mem_projectFindingIds hfound id)
  have hcommits : deletionCommits order projectId s
      = committing DeletionWrite.commit (deletionWrites projectId (order.arrange found) s.1) s := by
    rw [deletionCommits, hfound]
  rw [deleteProject_eq h.wellKeyed hrow hfound, hcommits]
  have hfindings := afterDeletions_flatMap (order.arrange found) s h.wellKeyed
  have hgroups := afterDeletions_regroupWrites (order.arrange found)
    (s.withoutFindings (order.arrange found))
  have hnodup := order.nodup found
  set findingIds := order.arrange found with hfindingIds
  rcases performAll_cases DeleteError.database (deletionWrites projectId findingIds s.1) s
    (some fuse) with ⟨later, hlater, hrun⟩ | ⟨pre, write, post, hsplit, hfuse, hsome, hrun⟩
  · refine Or.inl ⟨?_, later, ?_⟩
    · obtain ⟨rest, -, hrest⟩ := Option.map_eq_some_iff.1 hlater.symm
      rw [← hrest]
      exact List.getElem?_eq_none (Nat.le_add_right _ _)
    · rw [← afterDeletions_deletionWrites h.wellKeyed hids]
      exact hrun
  · obtain rfl := Option.some.inj hfuse
    refine Or.inr ⟨write, (write.remember (afterDeletions pre s).1, (afterDeletions pre s).2), ?_,
      hrun, ?_⟩
    · rw [hsplit]
      exact getElem?_committing hsome
    rcases append_eq_append_cons hsplit with ⟨rest, hfirst⟩ | ⟨pre', rfl, hrest⟩
    · exact h.failsAt_finding hids hnodup hfirst
    have hcut : afterDeletions (findingIds.flatMap findingWrites ++ pre') s
        = afterDeletions pre' (s.withoutFindings findingIds) := by
      rw [← hfindings]
      exact applyAll_append ..
    rw [hcut]
    rcases append_eq_append_cons hrest with ⟨rest, hsecond⟩ | ⟨pre'', rfl, hlast⟩
    · exact h.failsAt_regroup hids hsecond
    have hregrouped : afterDeletions (regroupWrites (s.1.findings.without findingIds) s.1.groups
        findingIds ++ pre'') (s.withoutFindings findingIds)
          = afterDeletions pre'' ((s.withoutFindings findingIds).regrouped findingIds) := by
      rw [← hgroups]
      exact applyAll_append ..
    rw [hregrouped]
    cases pre'' with
    | nil =>
        obtain ⟨rfl, -⟩ := List.cons.inj hlast
        refine h.failsAt_runs fun hnone => ?_
        have hsome := (congrArg (fun u : Pipeline =>
          ((DeletionWrite.runs projectId).row u.1 u.2).isSome) (hcut.trans hregrouped)).symm.trans
            hsome
        have hruns : ((s.withoutFindings findingIds).regrouped findingIds).1.runs = s.1.runs := by
          rw [fst_regrouped]
          rfl
        simp only [afterDeletions, applyAll, List.foldl_nil, DeletionWrite.row, hruns, hnone] at hsome
        cases hsome
    | cons first pre'' =>
        obtain ⟨rfl, hproject⟩ := List.cons.inj hlast
        cases pre'' with
        | nil =>
            obtain ⟨rfl, -⟩ := List.cons.inj hproject
            exact h.failsAt_project hids
        | cons second pre'' =>
            obtain ⟨-, hnone⟩ := List.cons.inj hproject
            cases pre'' <;> cases hnone

end Resumable

/-! ## All attempts -/

lemma Consistent.resumable {projectId : String} {s : Pipeline} (h : Consistent s)
    (hrow : (s.2.projects.get? projectId).isSome) : Resumable projectId s where
  wellKeyed := h.wellKeyed
  groups := h.groups
  fingerprint value group hget := (h.represented value group hget).fingerprint
  named := h.runs.named
  stored := by
    intro runId hrun
    obtain ⟨run, hget, -⟩ := (mem_runIdsOf h.runs.named).1 hrun
    rw [h.runs.runs] at hget
    obtain ⟨row, hrow, -⟩ := Option.map_eq_some_iff.1 hget
    rw [hrow]
    rfl
  deletable := h.deletable hrow

lemma Resumable.retryDelete_eq_deleted_iff {projectId : String} {s : Pipeline} (h : Resumable projectId s)
    (attempts : List (SetOrder × Nat)) (last : SetOrder) :
    retryDelete projectId attempts last s = s.deleted projectId
      ↔ FailsRepeatably projectId attempts s := by
  induction attempts generalizing s with
  | nil =>
      obtain ⟨hrow, found, hfound⟩ := h.deletable
      refine iff_of_true ?_ trivial
      rw [retryDelete, deleteProject_of_none h.wellKeyed hrow hfound]
  | cons attempt attempts ih =>
      obtain ⟨order, fuse⟩ := attempt
      rw [retryDelete, FailsRepeatably]
      rcases h.attempt order fuse with
        ⟨hcommit, later, hrun⟩ | ⟨write, t, hcommit, hrun, hkeyed, hfails⟩
      · rw [hcommit, hrun]
        exact iff_of_true rfl ⟨fun _ hwrite => (by cases hwrite), trivial⟩
      · rw [hcommit, hrun]
        rcases hfails with ⟨hrepeatable, hresumable, hsame⟩ | ⟨hnot, hstuck⟩
        · rw [← hsame]
          refine (ih hresumable).trans (and_iff_right ?_).symm
          intro w hw
          exact Option.some.inj hw ▸ hrepeatable
        · refine iff_of_false (hstuck.retryDelete_ne hkeyed attempts last) ?_
          exact fun hall => hnot (hall.1 write rfl)

/-- **Deleting until it succeeds** ends where one deletion would have, if and only if every attempt
that fails does so at a change that can be repeated. -/
theorem retryDelete_iff {build : FingerprintBuilder} {ops : List PipelineOp}
    (hops : Throughout (pipelineStep build) AdmissiblePipelineOp .empty ops) {projectId : String}
    (hrow : ((exec (pipelineStep build) .empty ops).2.projects.get? projectId).isSome)
    (attempts : List (SetOrder × Nat)) (last order : SetOrder) :
    retryDelete projectId attempts last (exec (pipelineStep build) .empty ops)
        = pipelineStep build (exec (pipelineStep build) .empty ops)
          (.deleteProject projectId order)
      ↔ FailsRepeatably projectId attempts (exec (pipelineStep build) .empty ops) := by
  have h := consistent_exec hops
  rw [h.pipelineStep_deleteProject hrow]
  exact (h.resumable hrow).retryDelete_eq_deleted_iff attempts last

/-- The commit for the finding fails once, and the second attempt ends where one would have. -/
theorem retryDelete_scannedOps :
    retryDelete "shop" [(collected, 0)] collected
        (exec (pipelineStep sampleBuild) .empty scannedOps)
      = pipelineStep sampleBuild (exec (pipelineStep sampleBuild) .empty scannedOps)
        (.deleteProject "shop" collected) := by
  refine (retryDelete_iff throughout_scannedOps rfl _ collected collected).2 ⟨?_, ?_⟩
  · have hcommit : (deletionCommits collected "shop"
        (exec (pipelineStep sampleBuild) .empty scannedOps))[0]? = some (.finding "f") := rfl
    rw [hcommit]
    intro write hwrite
    exact Option.some.inj hwrite ▸ trivial
  · split <;> trivial

/-- **The rows of the runs stay**: their commit fails once, and the second attempt finds no runs. -/
theorem not_retryDelete_scannedOps :
    retryDelete "shop" [(collected, 3)] collected
        (exec (pipelineStep sampleBuild) .empty scannedOps)
      ≠ pipelineStep sampleBuild (exec (pipelineStep sampleBuild) .empty scannedOps)
        (.deleteProject "shop" collected) := by
  have h := consistent_exec throughout_scannedOps
  rw [h.pipelineStep_deleteProject rfl]
  intro hsame
  have hcommit : (deletionCommits collected "shop"
      (exec (pipelineStep sampleBuild) .empty scannedOps))[3]? = some (.runs "shop") := rfl
  exact (((h.resumable rfl).retryDelete_eq_deleted_iff _ collected).1 hsame).1 _ hcommit

end Sast
