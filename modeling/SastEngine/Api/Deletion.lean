import SastEngine.Api.Pipeline
import SastEngine.Approval.Removal
import SastEngine.Lib.Commits

/-!
# The deletion of a repository

`delete_project` of `api/routes/projects.py`: it takes the findings in the lineage of the project
out of one store after another, then out of the deduplication groups, and then removes the runs and
the row of the project.  Each change empties the memory first and commits afterwards.
-/

namespace Sast

/-! ## The changes -/

/-- A change that `delete_project` commits on its own. -/
inductive DeletionWrite where
  | finding (findingId : String)
  | validation (findingId : String)
  | proof (findingId : String)
  | assessment (findingId : String)
  | slaRecord (findingId : String)
  | slaEvents (findingId : String)
  | approvals (findingId : String)
  | remediation (findingId : String)
  | regroup (groups : GroupRegistry)
  | insertGroup (group : DeduplicationGroup)
  | runs (projectId : String)
  | project (projectId : String)

/-- What a change makes of the memory.  `remove_finding_state` takes everything out before its
first commit. -/
def DeletionWrite.remember (stores : PipelineStores) : DeletionWrite → PipelineStores
  | .finding findingId => { stores with findings := stores.findings.remove findingId }
  | .validation findingId => { stores with validations := stores.validations.erase findingId }
  | .proof findingId => { stores with proofs := stores.proofs.erase findingId }
  | .assessment findingId => { stores with risk := stores.risk.removeFindingState findingId }
  | .approvals findingId => { stores with approvals := stores.approvals.removeFinding findingId }
  | .remediation findingId => { stores with remediation := stores.remediation.erase findingId }
  | .regroup groups => { stores with groups := groups }
  | .runs projectId => { stores with runs := stores.runs.deleteProjectRuns projectId }
  | .slaRecord _ | .slaEvents _ | .insertGroup _ | .project _ => stores

/-- What a change commits, given the memory before it. -/
def DeletionWrite.row (stores : PipelineStores) (tables : PipelineTables) :
    DeletionWrite → Option PipelineTables
  | .finding findingId =>
      (dbDelete tables.findings findingId).map fun rows => { tables with findings := rows }
  | .validation findingId =>
      (dbDelete tables.validations findingId).map fun rows => { tables with validations := rows }
  | .proof findingId =>
      (dbDelete tables.proofs findingId).map fun rows => { tables with proofs := rows }
  | .assessment findingId =>
      (dbDelete tables.assessments findingId).map fun rows => { tables with assessments := rows }
  | .slaRecord findingId =>
      (dbDelete tables.slaRecords findingId).map fun rows => { tables with slaRecords := rows }
  | .slaEvents findingId =>
      some { tables with
        slaEvents := tables.slaEvents.filter fun _ row => row.findingId ≠ findingId }
  | .approvals findingId =>
      some { tables with
        requests := tables.requests.filter fun _ row => row.findingId ≠ findingId
        events := tables.events.filter fun _ row =>
          row.approvalId ∉ stores.approvals.requestIds [findingId] }
  | .remediation findingId =>
      (dbDelete tables.remediation findingId).map fun rows => { tables with remediation := rows }
  | .regroup _ => some { tables with groups := .empty }
  | .insertGroup group =>
      some { tables with groups := tables.groups.set group.fingerprint group }
  | .runs projectId =>
      let runIds := stores.runs.runIdsOf projectId
      if runIds.isEmpty then none else some { tables with runs := tables.runs.deleteRuns runIds }
  | .project projectId =>
      (dbDelete tables.projects projectId).map fun rows => { tables with projects := rows }

/-- A change, in memory and in the database. -/
def DeletionWrite.commit (write : DeletionWrite) : Commit PipelineStores PipelineTables where
  remember stores := write.remember stores
  write stores tables := write.row stores tables

/-! ## The deletion -/

/-- How a deletion fails. -/
inductive DeleteError where
  | notFound (detail : String)
  | read (error : ScanRunStore.ReadError)
  | database

/-- A deletion in progress. -/
abbrev DeletionJob (α : Type) : Type := Job DeleteError PipelineStores PipelineTables α

/-- Changes one after another. -/
def commitDeletions (writes : List DeletionWrite) : DeletionJob Unit :=
  performAll .database DeletionWrite.commit writes

/-- The changes for one finding. -/
def findingWrites (findingId : String) : List DeletionWrite :=
  [.finding findingId, .validation findingId, .proof findingId, .assessment findingId,
    .slaRecord findingId, .slaEvents findingId, .approvals findingId, .remediation findingId]

/-- The flag `changed` of `remove_findings`: a group lists one of the findings. -/
def regroups (groups : GroupRegistry) (findingIds : List String) : Bool :=
  groups.values.any fun group =>
    (group.memberFindingIds.filter fun id => id ∉ findingIds).length
      ≠ group.memberFindingIds.length

/-- The changes of `remove_findings`: where a group changes, every row is written again. -/
def regroupWrites (store : FindingStore) (groups : GroupRegistry) (findingIds : List String) :
    List DeletionWrite :=
  let next := removeFindings store findingIds groups
  if regroups groups findingIds then .regroup next :: next.values.map .insertGroup else []

/-- `remove_findings`. -/
def removeFindingsJob (findingIds : List String) : DeletionJob Unit := do
  let s ← get
  commitDeletions (regroupWrites s.memory.findings s.memory.groups findingIds)

/-- An order in which a set of strings is iterated. -/
structure SetOrder where
  arrange : List String → List String
  nodup : ∀ ids, (arrange ids).Nodup
  mem : ∀ ids id, id ∈ arrange ids ↔ id ∈ ids

/-- What `delete_project` removes between its two reads of the project's row. -/
def deleteRecords (projectId : String) (findingIds : List String) : DeletionJob Unit := do
  commitDeletions (findingIds.flatMap findingWrites)
  if findingIds = [] then pure () else removeFindingsJob findingIds
  commitDeletions [.runs projectId]

/-- The second of the reads, and the deletion of the row. -/
def deleteRow (projectId : String) : DeletionJob Unit := do
  let s ← get
  match s.database.projects.get? projectId with
  | none => throw (.notFound s!"project not found: {projectId}")
  | some _ => commitDeletions [.project projectId]

/-- `delete_project`. -/
def deleteProject (projectId : String) (order : SetOrder) : DeletionJob Unit := do
  let s ← get
  match s.database.projects.get? projectId with
  | none => throw (.notFound s!"project not found: {projectId}")
  | some _ =>
      match projectFindingIds s.memory.runs projectId with
      | .error error => throw (.read error)
      | .ok found =>
          deleteRecords projectId (order.arrange found)
          deleteRow projectId

/-! ## What the changes do -/

/-- The stores without some findings; groups, runs and tickets stay. -/
def PipelineStores.withoutFindings (stores : PipelineStores) (findingIds : List String) :
    PipelineStores :=
  { stores with
    findings := stores.findings.without findingIds
    validations := stores.validations.without findingIds
    proofs := stores.proofs.without findingIds
    risk := stores.risk.without findingIds
    approvals := stores.approvals.without findingIds
    remediation := stores.remediation.without findingIds }

/-- The tables without some findings and the events of some requests; groups, runs, tickets and
projects stay. -/
def PipelineTables.withoutFindings (tables : PipelineTables) (requestIds findingIds : List String) :
    PipelineTables :=
  { tables with
    findings := tables.findings.without findingIds
    validations := tables.validations.without findingIds
    proofs := tables.proofs.without findingIds
    assessments := tables.assessments.without findingIds
    slaRecords := tables.slaRecords.without findingIds
    slaEvents := tables.slaEvents.withoutBy SlaEventRow.findingId findingIds
    requests := tables.requests.withoutBy RequestRow.findingId findingIds
    events := tables.events.withoutBy EventRow.approvalId requestIds
    remediation := tables.remediation.without findingIds }

/-- Both copies without some findings. -/
def Pipeline.withoutFindings (s : Pipeline) (findingIds : List String) : Pipeline :=
  (s.1.withoutFindings findingIds,
    s.2.withoutFindings (s.1.approvals.requestIds findingIds) findingIds)

/-- Both copies after changes whose commits succeed. -/
abbrev afterDeletions (writes : List DeletionWrite) (s : Pipeline) : Pipeline :=
  applyAll DeletionWrite.commit writes s

/-- The tables after a change, whether or not it has found rows to delete. -/
def DeletionWrite.erased (stores : PipelineStores) (tables : PipelineTables) :
    DeletionWrite → PipelineTables
  | .finding findingId => { tables with findings := tables.findings.without [findingId] }
  | .validation findingId =>
      { tables with validations := tables.validations.without [findingId] }
  | .proof findingId => { tables with proofs := tables.proofs.without [findingId] }
  | .assessment findingId =>
      { tables with assessments := tables.assessments.without [findingId] }
  | .slaRecord findingId => { tables with slaRecords := tables.slaRecords.without [findingId] }
  | .slaEvents findingId =>
      { tables with
        slaEvents := tables.slaEvents.withoutBy SlaEventRow.findingId [findingId] }
  | .approvals findingId =>
      { tables with
        requests := tables.requests.withoutBy RequestRow.findingId [findingId]
        events := tables.events.withoutBy EventRow.approvalId
          (stores.approvals.requestIds [findingId]) }
  | .remediation findingId =>
      { tables with remediation := tables.remediation.without [findingId] }
  | .regroup _ => { tables with groups := .empty }
  | .insertGroup group => { tables with groups := tables.groups.set group.fingerprint group }
  | .runs projectId => { tables with runs := tables.runs.deleteRuns (stores.runs.runIdsOf projectId) }
  | .project projectId => { tables with projects := tables.projects.without [projectId] }

lemma getD_map_dbDelete {β : Type} (rows : Dict String β) (key : String)
    (put : Dict String β → PipelineTables) :
    ((dbDelete rows key).map put).getD (put rows) = put (rows.without [key]) := by
  rw [← getD_dbDelete]
  cases dbDelete rows key <;> rfl

lemma deleteRuns_nil (tables : ScanTables) : tables.deleteRuns [] = tables := by
  simp only [ScanTables.deleteRuns, List.not_mem_nil, not_false_eq_true, decide_true]
  rw [Dict.filter_eq_self fun _ _ _ => rfl, Dict.filter_eq_self fun _ _ _ => rfl,
    Dict.filter_eq_self fun _ _ _ => rfl, Dict.filter_eq_self fun _ _ _ => rfl]

lemma getD_row (write : DeletionWrite) (stores : PipelineStores) (tables : PipelineTables) :
    (write.row stores tables).getD tables = write.erased stores tables := by
  cases write with
  | finding findingId =>
      exact getD_map_dbDelete tables.findings findingId fun rows => { tables with findings := rows }
  | validation findingId =>
      exact getD_map_dbDelete tables.validations findingId
        fun rows => { tables with validations := rows }
  | proof findingId =>
      exact getD_map_dbDelete tables.proofs findingId fun rows => { tables with proofs := rows }
  | assessment findingId =>
      exact getD_map_dbDelete tables.assessments findingId
        fun rows => { tables with assessments := rows }
  | slaRecord findingId =>
      exact getD_map_dbDelete tables.slaRecords findingId
        fun rows => { tables with slaRecords := rows }
  | remediation findingId =>
      exact getD_map_dbDelete tables.remediation findingId
        fun rows => { tables with remediation := rows }
  | project projectId =>
      exact getD_map_dbDelete tables.projects projectId
        fun rows => { tables with projects := rows }
  | slaEvents findingId => simp [DeletionWrite.row, DeletionWrite.erased, Dict.withoutBy]
  | approvals findingId => simp [DeletionWrite.row, DeletionWrite.erased, Dict.withoutBy]
  | regroup groups => rfl
  | insertGroup group => rfl
  | runs projectId =>
      rw [DeletionWrite.row, DeletionWrite.erased]
      cases hids : stores.runs.runIdsOf projectId with
      | nil =>
          rw [deleteRuns_nil]
          rfl
      | cons runId runIds => rfl

lemma apply_commit (write : DeletionWrite) (s : Pipeline) :
    write.commit.apply s = (write.remember s.1, write.erased s.1 s.2) :=
  Prod.ext rfl (getD_row write s.1 s.2)

lemma afterDeletions_findingWrites (findingId : String) (s : Pipeline) :
    afterDeletions (findingWrites findingId) s = s.withoutFindings [findingId] := by
  simp only [findingWrites, applyAll, List.foldl_cons, List.foldl_nil, apply_commit,
    DeletionWrite.remember, DeletionWrite.erased, Pipeline.withoutFindings,
    PipelineStores.withoutFindings, PipelineTables.withoutFindings, FindingStore.remove_eq_without,
    RiskStores.removeFindingState_eq_without, ApprovalStore.removeFinding_eq_without,
    Dict.erase_eq_without]

namespace Pipeline

lemma withoutFindings_congr {ids ids' : List String} (h : ∀ id, id ∈ ids ↔ id ∈ ids')
    (s : Pipeline) : s.withoutFindings ids = s.withoutFindings ids' := by
  simp only [withoutFindings, PipelineStores.withoutFindings, PipelineTables.withoutFindings,
    FindingStore.without_congr h, RiskStores.without_congr h, ApprovalStore.without_congr h,
    ApprovalStore.requestIds_congr h, Dict.without_congr h, Dict.withoutBy_congr _ h]

@[simp] lemma withoutFindings_nil (s : Pipeline) : s.withoutFindings [] = s := by
  simp only [withoutFindings, PipelineStores.withoutFindings, PipelineTables.withoutFindings,
    FindingStore.without_nil, RiskStores.without_nil, ApprovalStore.without_nil,
    ApprovalStore.requestIds_nil, Dict.without_nil, Dict.withoutBy_nil]

lemma withoutFindings_withoutFindings (s : Pipeline) (hkeyed : s.1.approvals.WellKeyed)
    (ids ids' : List String) :
    (s.withoutFindings ids).withoutFindings ids' = s.withoutFindings (ids ++ ids') := by
  have hrequests : ∀ id, id ∈ s.1.approvals.requestIds ids
      ++ (s.1.approvals.without ids).requestIds ids'
        ↔ id ∈ s.1.approvals.requestIds (ids ++ ids') := by
    intro id
    rw [List.mem_append, hkeyed.mem_requestIds_append]
  simp only [withoutFindings, PipelineStores.withoutFindings, PipelineTables.withoutFindings,
    FindingStore.without_without, RiskStores.without_without, hkeyed.without_without,
    Dict.without_without, Dict.withoutBy_withoutBy, Dict.withoutBy_congr _ hrequests]

end Pipeline

/-- The findings of a list, one after another. -/
lemma afterDeletions_flatMap (findingIds : List String) (s : Pipeline)
    (hkeyed : s.1.approvals.WellKeyed) :
    afterDeletions (findingIds.flatMap findingWrites) s = s.withoutFindings findingIds := by
  induction findingIds generalizing s with
  | nil => exact s.withoutFindings_nil.symm
  | cons findingId findingIds ih =>
      have hsplit : afterDeletions ((findingId :: findingIds).flatMap findingWrites) s
          = afterDeletions (findingIds.flatMap findingWrites)
            (afterDeletions (findingWrites findingId) s) := by
        rw [List.flatMap_cons]
        exact applyAll_append ..
      rw [hsplit, afterDeletions_findingWrites, ih _ (hkeyed.without [findingId]),
        s.withoutFindings_withoutFindings hkeyed]
      rfl

/-! ## What the deletion does -/

/-- The findings in the lineage of the runs of a project. -/
def ownedFindings (runs : ScanRunStore) (projectId : String) : List String :=
  (runs.runIdsOf projectId).flatMap runs.findingIdsForRun

/-- The changes of a deletion of some findings, in order. -/
def deletionWrites (projectId : String) (findingIds : List String) (stores : PipelineStores) :
    List DeletionWrite :=
  findingIds.flatMap findingWrites
    ++ (regroupWrites (stores.findings.without findingIds) stores.groups findingIds
      ++ [.runs projectId, .project projectId])

/-- The rows that are written for the groups. -/
def groupRows (groups : GroupRegistry) : Dict String DeduplicationGroup :=
  groups.values.foldl (fun rows group => rows.set group.fingerprint group) .empty

/-- Both copies after some findings have been taken out of the groups. -/
def Pipeline.regrouped (s : Pipeline) (findingIds : List String) : Pipeline :=
  let next := removeFindings s.1.findings findingIds s.1.groups
  if regroups s.1.groups findingIds then
    ({ s.1 with groups := next }, { s.2 with groups := groupRows next })
  else s

/-- Both copies without a project and its runs. -/
def Pipeline.withoutProject (s : Pipeline) (projectId : String) : Pipeline :=
  ({ s.1 with runs := s.1.runs.deleteProjectRuns projectId },
    { s.2 with
      runs := s.2.runs.deleteRuns (s.1.runs.runIdsOf projectId)
      projects := s.2.projects.without [projectId] })

/-- What an uninterrupted deletion leaves. -/
def Pipeline.deleted (s : Pipeline) (projectId : String) : Pipeline :=
  let findingIds := ownedFindings s.1.runs projectId
  ((s.withoutFindings findingIds).regrouped findingIds).withoutProject projectId

/-- Rows written one after another. -/
lemma afterDeletions_insertGroups (groups : List DeduplicationGroup) (s : Pipeline) :
    afterDeletions (groups.map .insertGroup) s
      = (s.1, { s.2 with
        groups := groups.foldl (fun rows group => rows.set group.fingerprint group)
          s.2.groups }) := by
  induction groups generalizing s with
  | nil => rfl
  | cons group groups ih => exact ih ((DeletionWrite.insertGroup group).commit.apply s)

lemma afterDeletions_regroupWrites (findingIds : List String) (s : Pipeline) :
    afterDeletions (regroupWrites s.1.findings s.1.groups findingIds) s
      = s.regrouped findingIds := by
  rw [regroupWrites, Pipeline.regrouped]
  split_ifs
  · exact afterDeletions_insertGroups _ _
  · rfl

lemma afterDeletions_project (projectId : String) (s : Pipeline) :
    afterDeletions [.runs projectId, .project projectId] s = s.withoutProject projectId := by
  simp only [applyAll, List.foldl_cons, List.foldl_nil, apply_commit, DeletionWrite.remember,
    DeletionWrite.erased, Pipeline.withoutProject]

lemma regroups_congr {ids ids' : List String} (h : ∀ id, id ∈ ids ↔ id ∈ ids')
    (groups : GroupRegistry) : regroups groups ids = regroups groups ids' := by
  simp only [regroups, h]

lemma removeFindings_congr {ids ids' : List String} (h : ∀ id, id ∈ ids ↔ id ∈ ids')
    (store : FindingStore) (groups : GroupRegistry) :
    removeFindings store ids groups = removeFindings store ids' groups := by
  have hremove : removeFromGroup store ids = removeFromGroup store ids' := by
    funext group
    simp only [removeFromGroup, h]
  rw [removeFindings, removeFindings, hremove]

lemma Pipeline.regrouped_congr {ids ids' : List String} (h : ∀ id, id ∈ ids ↔ id ∈ ids')
    (s : Pipeline) : s.regrouped ids = s.regrouped ids' := by
  simp only [regrouped, regroups_congr h, removeFindings_congr h]

lemma regroups_eq_false_iff {groups : GroupRegistry} {findingIds : List String} :
    regroups groups findingIds = false
      ↔ ∀ value group, groups.get? value = some group →
        ∀ id ∈ group.memberFindingIds, id ∉ findingIds := by
  simp only [regroups, List.any_eq_false, decide_eq_true_eq, not_not, ne_eq,
    List.length_filter_eq_length_iff]
  constructor
  · intro h value group hget
    exact h group ((groups.mem_values_iff).2 ⟨value, hget⟩)
  · intro h group hgroup
    obtain ⟨value, hget⟩ := (groups.mem_values_iff).1 hgroup
    exact h value group hget

lemma removeFindings_of_regroups_eq_false {groups : GroupRegistry} {findingIds : List String}
    (h : regroups groups findingIds = false) (store : FindingStore) :
    removeFindings store findingIds groups = groups := by
  refine Dict.filterMapValues_eq_self fun group hgroup => ?_
  obtain ⟨value, hget⟩ := (groups.mem_values_iff).1 hgroup
  have hkept : (group.memberFindingIds.filter fun id => id ∉ findingIds).length
      = group.memberFindingIds.length :=
    List.length_filter_eq_length_iff.2 fun id hid =>
      decide_eq_true (regroups_eq_false_iff.1 h value group hget id hid)
  simp only [removeFromGroup, if_pos hkept]

/-- In memory, the flag makes no difference. -/
lemma fst_regrouped (s : Pipeline) (findingIds : List String) :
    (s.regrouped findingIds).1
      = { s.1 with groups := removeFindings s.1.findings findingIds s.1.groups } := by
  rw [Pipeline.regrouped]
  split_ifs with hchanged
  · rfl
  · rw [removeFindings_of_regroups_eq_false (Bool.eq_false_iff.2 hchanged)]

lemma snd_regrouped (s : Pipeline) (findingIds : List String) :
    (s.regrouped findingIds).2
      = { s.2 with
        groups := if regroups s.1.groups findingIds
          then groupRows (removeFindings s.1.findings findingIds s.1.groups)
          else s.2.groups } := by
  rw [Pipeline.regrouped]
  split_ifs <;> rfl

/-- The memory after a deletion. -/
lemma fst_deleted (s : Pipeline) (projectId : String) :
    (s.deleted projectId).1
      = { s.1.withoutFindings (ownedFindings s.1.runs projectId) with
        groups := removeFindings (s.1.findings.without (ownedFindings s.1.runs projectId))
          (ownedFindings s.1.runs projectId) s.1.groups
        runs := s.1.runs.deleteProjectRuns projectId } := by
  simp only [Pipeline.deleted, Pipeline.withoutProject, fst_regrouped]
  rfl

/-- The tables after a deletion. -/
lemma snd_deleted (s : Pipeline) (projectId : String) :
    (s.deleted projectId).2
      = { s.2.withoutFindings (s.1.approvals.requestIds (ownedFindings s.1.runs projectId))
          (ownedFindings s.1.runs projectId) with
        groups := if regroups s.1.groups (ownedFindings s.1.runs projectId)
          then groupRows (removeFindings (s.1.findings.without (ownedFindings s.1.runs projectId))
            (ownedFindings s.1.runs projectId) s.1.groups)
          else s.2.groups
        runs := s.2.runs.deleteRuns (s.1.runs.runIdsOf projectId)
        projects := s.2.projects.without [projectId] } := by
  simp only [Pipeline.deleted, Pipeline.withoutProject, fst_regrouped, snd_regrouped]
  rfl

/-- **The changes of a deletion, one after another.** -/
lemma afterDeletions_deletionWrites {projectId : String} {findingIds : List String} {s : Pipeline}
    (hkeyed : s.1.approvals.WellKeyed)
    (hids : ∀ id, id ∈ findingIds ↔ id ∈ ownedFindings s.1.runs projectId) :
    afterDeletions (deletionWrites projectId findingIds s.1) s = s.deleted projectId := by
  have hsplit : afterDeletions (deletionWrites projectId findingIds s.1) s
      = afterDeletions [.runs projectId, .project projectId]
        (afterDeletions (regroupWrites (s.1.findings.without findingIds) s.1.groups findingIds)
          (afterDeletions (findingIds.flatMap findingWrites) s)) := by
    rw [deletionWrites]
    exact (applyAll_append ..).trans (applyAll_append ..)
  have hregroup := afterDeletions_regroupWrites findingIds (s.withoutFindings findingIds)
  have hstores : regroupWrites (s.withoutFindings findingIds).1.findings
      (s.withoutFindings findingIds).1.groups findingIds
        = regroupWrites (s.1.findings.without findingIds) s.1.groups findingIds := rfl
  rw [hstores] at hregroup
  rw [hsplit, afterDeletions_flatMap findingIds s hkeyed, hregroup, afterDeletions_project,
    Pipeline.deleted, Pipeline.withoutFindings_congr hids, Pipeline.regrouped_congr hids]

lemma removeFindingsJob_nil (s : Session PipelineStores PipelineTables) :
    removeFindingsJob [] s = (.ok (), s) := by
  have hsame : regroups s.memory.groups [] = false := by simp [regroups]
  show commitDeletions (regroupWrites s.memory.findings s.memory.groups []) s = _
  rw [regroupWrites, hsame]
  rfl

lemma projects_regrouped (s : Pipeline) (findingIds : List String) :
    (s.regrouped findingIds).2.projects = s.2.projects := by
  rw [snd_regrouped]

/-- With the empty set, `remove_findings` would do nothing. -/
lemma deleteRecords_eq (projectId : String) (findingIds : List String) :
    deleteRecords projectId findingIds
      = (do
        commitDeletions (findingIds.flatMap findingWrites)
        removeFindingsJob findingIds
        commitDeletions [.runs projectId]) := by
  rw [deleteRecords]
  split_ifs with hids
  · subst hids
    refine congrArg _ (funext fun _ => funext fun s => ?_)
    exact (bind_of_ok (f := fun _ => commitDeletions [.runs projectId])
      (removeFindingsJob_nil s)).symm
  · rfl

/-- A deletion that starts makes its changes one after another. -/
lemma deleteProject_eq {projectId : String} {order : SetOrder} {s : Pipeline} {found : List String}
    (hkeyed : s.1.approvals.WellKeyed) (hrow : (s.2.projects.get? projectId).isSome)
    (hfound : projectFindingIds s.1.runs projectId = .ok found) (fuse : Option Nat) :
    deleteProject projectId order ⟨s.1, s.2, fuse⟩
      = commitDeletions (deletionWrites projectId (order.arrange found) s.1)
        ⟨s.1, s.2, fuse⟩ := by
  obtain ⟨row, hrow⟩ := Option.isSome_iff_exists.1 hrow
  have hstart : deleteProject projectId order ⟨s.1, s.2, fuse⟩
      = (deleteRecords projectId (order.arrange found) >>= fun _ => deleteRow projectId)
        ⟨s.1, s.2, fuse⟩ := by
    rw [deleteProject, get_bind]
    simp only [hrow, hfound]
  have hrowLast : ∀ t : Session PipelineStores PipelineTables,
      t.database.projects.get? projectId = some row →
        deleteRow projectId t = commitDeletions [.project projectId] t := by
    intro t ht
    rw [deleteRow, get_bind]
    simp only [ht]
  set findingIds := order.arrange found with hids
  set members := regroupWrites (s.1.findings.without findingIds) s.1.groups findingIds with hmembers
  have hwrites : commitDeletions (deletionWrites projectId findingIds s.1)
      = commitDeletions (findingIds.flatMap findingWrites) >>= fun _ =>
        commitDeletions members >>= fun _ => commitDeletions [.runs projectId] >>= fun _ =>
          commitDeletions [.project projectId] := by
    have hlast : commitDeletions [.runs projectId, .project projectId]
        = commitDeletions [.runs projectId] >>= fun _ => commitDeletions [.project projectId] :=
      performAll_append DeleteError.database DeletionWrite.commit [.runs projectId]
        [.project projectId]
    rw [← hlast, deletionWrites, commitDeletions, performAll_append, performAll_append]
    rfl
  rw [hstart, deleteRecords_eq, hwrites]
  -- The findings.
  rcases performAll_cases DeleteError.database (findingIds.flatMap findingWrites) s fuse with
    ⟨later, -, hrun⟩ | ⟨pre, write, post, -, -, -, hrun⟩
  swap
  · exact (bind_of_error (bind_of_error hrun)).trans (bind_of_error hrun).symm
  have hfindings := afterDeletions_flatMap findingIds s hkeyed
  rw [afterDeletions] at hfindings
  rw [hfindings] at hrun
  simp only [bind_assoc]
  refine (bind_of_ok hrun).trans (Eq.trans ?_ (bind_of_ok hrun).symm)
  -- Their groups.
  have hjob : removeFindingsJob findingIds ⟨(s.withoutFindings findingIds).1,
      (s.withoutFindings findingIds).2, later⟩ = commitDeletions members
        ⟨(s.withoutFindings findingIds).1, (s.withoutFindings findingIds).2, later⟩ := rfl
  rcases performAll_cases DeleteError.database members (s.withoutFindings findingIds) later with
    ⟨later, -, hrun⟩ | ⟨pre, write, post, -, -, -, hrun⟩
  swap
  · exact (bind_of_error (hjob.trans hrun)).trans (bind_of_error hrun).symm
  have hmembers : applyAll DeletionWrite.commit members (s.withoutFindings findingIds)
      = (s.withoutFindings findingIds).regrouped findingIds :=
    afterDeletions_regroupWrites findingIds (s.withoutFindings findingIds)
  rw [hmembers] at hrun
  refine (bind_of_ok (hjob.trans hrun)).trans (Eq.trans ?_ (bind_of_ok hrun).symm)
  -- The runs and the row.
  set s₂ := (s.withoutFindings findingIds).regrouped findingIds with hs₂
  have hprojects : s₂.2.projects.get? projectId = some row := by
    rw [hs₂, projects_regrouped]
    exact hrow
  rcases performAll_cases DeleteError.database [DeletionWrite.runs projectId] s₂ later with
    ⟨later, -, hrun⟩ | ⟨pre, write, post, -, -, -, hrun⟩
  swap
  · exact (bind_of_error hrun).trans (bind_of_error hrun).symm
  refine (bind_of_ok hrun).trans (Eq.trans (hrowLast _ ?_) ?_)
  · simp only [applyAll, List.foldl_cons, List.foldl_nil, apply_commit]
    exact hprojects
  · exact (bind_of_ok (f := fun _ => commitDeletions [.project projectId]) hrun).symm

/-- The runs are read in another order. -/
lemma mem_projectFindingIds {runs : ScanRunStore} {projectId : String} {found : List String}
    (h : projectFindingIds runs projectId = .ok found) (id : String) :
    id ∈ found ↔ id ∈ ownedFindings runs projectId := by
  cases hread : runs.runsForProject projectId with
  | error error =>
      rw [projectFindingIds, hread] at h
      cases h
  | ok owned =>
      rw [projectFindingIds, hread] at h
      obtain rfl := Except.ok.inj h
      have hperm : owned.Perm (runs.runs.values.filter fun run => run.projectId = projectId) := by
        rw [ScanRunStore.runsForProject, ScanRunStore.newestFirst] at hread
        split_ifs at hread
        exact Except.ok.inj hread ▸ perm_sortDown _ _
      simp only [ownedFindings, ScanRunStore.runIdsOf, List.mem_flatMap, List.mem_map,
        exists_exists_and_eq_and, hperm.mem_iff]

/-- **A deletion without a failing commit.** -/
theorem deleteProject_of_none {projectId : String} {order : SetOrder} {s : Pipeline}
    {found : List String} (hkeyed : s.1.approvals.WellKeyed)
    (hrow : (s.2.projects.get? projectId).isSome)
    (hfound : projectFindingIds s.1.runs projectId = .ok found) :
    deleteProject projectId order ⟨s.1, s.2, none⟩
      = (.ok (), ⟨(s.deleted projectId).1, (s.deleted projectId).2, none⟩) := by
  have hids : ∀ id, id ∈ order.arrange found ↔ id ∈ ownedFindings s.1.runs projectId :=
    fun id => (order.mem found id).trans (mem_projectFindingIds hfound id)
  rw [deleteProject_eq hkeyed hrow hfound, ← afterDeletions_deletionWrites hkeyed hids]
  exact performAll_of_none _ _ s

/-- The project is stored, and its runs can be read. -/
def Deletable (s : Pipeline) (projectId : String) : Prop :=
  (s.2.projects.get? projectId).isSome ∧ ∃ found, projectFindingIds s.1.runs projectId = .ok found

/-- A deletion that does not start changes nothing. -/
lemma deleteProject_of_not_deletable {projectId : String} {s : Pipeline}
    (h : ¬ Deletable s projectId) (order : SetOrder) (fuse : Option Nat) :
    ∃ error, deleteProject projectId order ⟨s.1, s.2, fuse⟩
      = (.error error, ⟨s.1, s.2, fuse⟩) := by
  cases hrow : s.2.projects.get? projectId with
  | none =>
      refine ⟨.notFound s!"project not found: {projectId}", ?_⟩
      rw [deleteProject, get_bind]
      simp only [hrow]
      rfl
  | some row =>
      cases hfound : projectFindingIds s.1.runs projectId with
      | error error =>
          refine ⟨.read error, ?_⟩
          rw [deleteProject, get_bind]
          simp only [hrow, hfound]
          rfl
      | ok found => exact absurd ⟨by rw [hrow]; rfl, found, hfound⟩ h

end Sast
