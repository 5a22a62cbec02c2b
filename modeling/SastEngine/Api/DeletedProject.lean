import SastEngine.Api.Reachable

/-!
# A deletion removes what a repository owns

What the stores and the tables hold about a finding and about a run, and what `delete_project`
makes of it: of the project, its runs and the findings in their lineage nothing is left, and about
every other project whose findings are others everything is as before.  The DefectDojo tickets are
the exception: no removal of a ticket exists, and the deletion leaves them where they are.
-/

namespace Sast

/-! ## Records and rows -/

/-- What the stores hold about a finding, beside its groups. -/
structure FindingRecords where
  finding : Option CandidateFinding
  validation : Option ValidationResult
  proof : Option ProofResult
  assessment : Option RiskAssessment
  slaRecord : Option SLARecord
  escalations : Option (List EscalationEvent)
  requests : Dict String ApprovalRequest
  events : Dict String (List ApprovalEvent)
  remediation : Option RemediationRecord
  ticket : Option DefectDojoTicket

/-- Nothing. -/
def FindingRecords.none : FindingRecords :=
  ⟨.none, .none, .none, .none, .none, .none, .empty, .empty, .none, .none⟩

/-- What the tables hold about a finding, beside its groups. -/
structure FindingRows where
  finding : Option CandidateFinding
  validation : Option ValidationResult
  proof : Option ProofResult
  assessment : Option RiskAssessment
  slaRecord : Option SLARecord
  slaEvents : Dict Nat SlaEventRow
  requests : Dict String RequestRow
  events : Dict String EventRow
  remediation : Option RemediationRecord
  ticket : Option DefectDojoTicket

/-- Nothing. -/
def FindingRows.none : FindingRows :=
  ⟨.none, .none, .none, .none, .none, .empty, .empty, .empty, .none, .none⟩

/-- The records about a finding, with the events of the given requests. -/
def PipelineStores.recordsOf (stores : PipelineStores) (requestIds : List String)
    (findingId : String) : FindingRecords where
  finding := stores.findings.get findingId
  validation := stores.validations.get? findingId
  proof := stores.proofs.get? findingId
  assessment := stores.risk.assessments.get? findingId
  slaRecord := stores.risk.records.get? findingId
  escalations := stores.risk.escalations.get? findingId
  requests := stores.approvals.requests.filter fun _ request => request.findingId = findingId
  events := stores.approvals.events.filter fun approvalId _ => approvalId ∈ requestIds
  remediation := stores.remediation.get? findingId
  ticket := stores.tickets.get? findingId

/-- The rows about a finding, with the events of the given requests. -/
def PipelineTables.rowsOf (tables : PipelineTables) (requestIds : List String)
    (findingId : String) : FindingRows where
  finding := tables.findings.get? findingId
  validation := tables.validations.get? findingId
  proof := tables.proofs.get? findingId
  assessment := tables.assessments.get? findingId
  slaRecord := tables.slaRecords.get? findingId
  slaEvents := tables.slaEvents.filter fun _ row => row.findingId = findingId
  requests := tables.requests.filter fun _ row => row.findingId = findingId
  events := tables.events.filter fun _ row => row.approvalId ∈ requestIds
  remediation := tables.remediation.get? findingId
  ticket := tables.tickets.get? findingId

/-- What the run store holds about a run. -/
structure RunRecords where
  run : Option ScanRun
  stages : Option (Dict String ScanStageRun)
  executions : Option (List ScanStageExecution)
  lineage : Option (List String)

/-- What the tables hold about a run. -/
structure RunRows where
  run : Option RunRow
  stages : Dict (String × String) ScanStageRun
  executions : Dict String ExecutionRow
  findings : Dict (String × String) Unit

/-- The records about a run. -/
def ScanRunStore.recordsOf (store : ScanRunStore) (scanRunId : String) : RunRecords :=
  ⟨store.runs.get? scanRunId, store.stages.get? scanRunId, store.executions.get? scanRunId,
    store.lineage.get? scanRunId⟩

/-- The rows about a run. -/
def ScanTables.rowsOf (tables : ScanTables) (scanRunId : String) : RunRows where
  run := tables.runs.get? scanRunId
  stages := tables.stages.filter fun key _ => key.1 = scanRunId
  executions := tables.executions.filter fun _ row => row.scanRunId = scanRunId
  findings := tables.findings.filter fun key _ => key.1 = scanRunId

/-! ## What a deletion should do -/

/-- Nothing is left of a finding. -/
structure FindingGone (findingId : String) (before after : Pipeline) : Prop where
  records : after.1.recordsOf (before.1.approvals.requestIds [findingId]) findingId = .none
  rows : after.2.rowsOf (before.1.approvals.requestIds [findingId]) findingId = .none
  groups : ∀ value group, after.1.groups.get? value = some group ∨
    after.2.groups.get? value = some group →
      findingId ∉ group.memberFindingIds ∧ group.representativeFinding.id ≠ findingId

/-- All about a finding is as it was. -/
structure FindingKept (findingId : String) (before after : Pipeline) : Prop where
  records : after.1.recordsOf (before.1.approvals.requestIds [findingId]) findingId
    = before.1.recordsOf (before.1.approvals.requestIds [findingId]) findingId
  rows : after.2.rowsOf (before.1.approvals.requestIds [findingId]) findingId
    = before.2.rowsOf (before.1.approvals.requestIds [findingId]) findingId

/-- Nothing is left of a project and its runs. -/
structure ProjectGone (projectId : String) (before after : Pipeline) : Prop where
  row : after.2.projects.get? projectId = none
  runs : after.1.runs.runIdsOf projectId = []
  runRows : ∀ scanRunId row, after.2.runs.runs.get? scanRunId = some row →
    row.projectId ≠ projectId
  records : ∀ scanRunId ∈ before.1.runs.runIdsOf projectId,
    after.1.runs.recordsOf scanRunId = ⟨none, none, none, none⟩
  rows : ∀ scanRunId ∈ before.1.runs.runIdsOf projectId,
    after.2.runs.rowsOf scanRunId = ⟨none, .empty, .empty, .empty⟩

/-- All about a project, its runs and their findings is as it was. -/
structure ProjectKept (projectId : String) (before after : Pipeline) : Prop where
  row : after.2.projects.get? projectId = before.2.projects.get? projectId
  runs : after.1.runs.runIdsOf projectId = before.1.runs.runIdsOf projectId
  records : ∀ scanRunId ∈ before.1.runs.runIdsOf projectId,
    after.1.runs.recordsOf scanRunId = before.1.runs.recordsOf scanRunId
  rows : ∀ scanRunId ∈ before.1.runs.runIdsOf projectId,
    after.2.runs.rowsOf scanRunId = before.2.runs.rowsOf scanRunId
  findings : ∀ findingId ∈ ownedFindings before.1.runs projectId,
    FindingKept findingId before after

/-- Groups lose exactly the removed members; a group without others is removed. -/
structure GroupsLose (removed : List String) (before after : GroupRegistry) : Prop where
  fresh : ∀ value, before.get? value = none → after.get? value = none
  kept : ∀ value group, before.get? value = some group →
    (∀ id ∈ group.memberFindingIds, id ∉ removed) → after.get? value = some group
  emptied : ∀ value group, before.get? value = some group →
    (∃ id ∈ group.memberFindingIds, id ∈ removed) →
      (∀ id ∈ group.memberFindingIds, id ∈ removed) → after.get? value = none
  shared : ∀ value group, before.get? value = some group →
    (∃ id ∈ group.memberFindingIds, id ∈ removed) →
      (∃ id ∈ group.memberFindingIds, id ∉ removed) →
        ∃ group', after.get? value = some group' ∧ LosesMembers removed group group'

/-- A deletion removes exactly what the project owns. -/
structure DeletesExactly (projectId : String) (before after : Pipeline) : Prop where
  project : ProjectGone projectId before after
  findings : ∀ findingId ∈ ownedFindings before.1.runs projectId,
    FindingGone findingId before after
  groups : GroupsLose (ownedFindings before.1.runs projectId) before.1.groups after.1.groups
  groupRows : GroupsLose (ownedFindings before.1.runs projectId) before.2.groups after.2.groups
  others : ∀ other, other ≠ projectId →
    (∀ id ∈ ownedFindings before.1.runs other, id ∉ ownedFindings before.1.runs projectId) →
      ProjectKept other before after

/-! ## What it does -/

namespace PipelineStores

variable {stores : PipelineStores} {removed : List String} {findingId : String}

/-- Of a removed finding, the ticket is left. -/
lemma recordsOf_withoutFindings_of_mem (hkeyed : stores.approvals.WellKeyed)
    (hid : findingId ∈ removed) :
    (stores.withoutFindings removed).recordsOf (stores.approvals.requestIds [findingId]) findingId
      = { FindingRecords.none with ticket := stores.tickets.get? findingId } := by
  have hrequests : (stores.approvals.without removed).requests.filter
      (fun _ request => request.findingId = findingId) = .empty :=
    Dict.filter_without_eq_empty fun id request hget hrequest =>
      (hkeyed.mem_requestIds removed id).2
        ⟨request, hget, (of_decide_eq_true hrequest).symm ▸ hid⟩
  have hevents : (stores.approvals.without removed).events.filter
      (fun id _ => id ∈ stores.approvals.requestIds [findingId]) = .empty :=
    Dict.filter_without_eq_empty fun id _ _ hrequest =>
      hkeyed.requestIds_subset hid id (of_decide_eq_true hrequest)
  simp only [recordsOf, withoutFindings, FindingStore.get_without, RiskStores.without,
    Dict.get?_without, if_pos hid, hrequests, hevents, FindingRecords.none]

/-- About a finding that is not removed, all records stay. -/
lemma recordsOf_withoutFindings_of_not_mem (hkeyed : stores.approvals.WellKeyed)
    (hid : findingId ∉ removed) :
    (stores.withoutFindings removed).recordsOf (stores.approvals.requestIds [findingId]) findingId
      = stores.recordsOf (stores.approvals.requestIds [findingId]) findingId := by
  have hrequests : (stores.approvals.without removed).requests.filter
      (fun _ request => request.findingId = findingId)
        = stores.approvals.requests.filter fun _ request => request.findingId = findingId := by
    refine Dict.filter_without_of_imp fun id request hget hrequest => ?_
    refine hkeyed.requestIds_disjoint hid id ((hkeyed.mem_requestIds [findingId] id).2 ?_)
    exact ⟨request, hget, List.mem_singleton.2 (of_decide_eq_true hrequest)⟩
  have hevents : (stores.approvals.without removed).events.filter
      (fun id _ => id ∈ stores.approvals.requestIds [findingId])
        = stores.approvals.events.filter
          fun id _ => id ∈ stores.approvals.requestIds [findingId] :=
    Dict.filter_without_of_imp fun id _ _ hrequest =>
      hkeyed.requestIds_disjoint hid id (of_decide_eq_true hrequest)
  simp only [recordsOf, withoutFindings, FindingStore.get_without, RiskStores.without,
    Dict.get?_without, if_neg hid, hrequests, hevents]

end PipelineStores

namespace PipelineTables

variable {tables : PipelineTables} {removed : List String} {findingId : String}
  {requestIds removedRequests : List String}

/-- Of a removed finding, the row of the ticket is left. -/
lemma rowsOf_withoutFindings_of_mem (hid : findingId ∈ removed)
    (hrequestIds : ∀ id ∈ requestIds, id ∈ removedRequests) :
    (tables.withoutFindings removedRequests removed).rowsOf requestIds findingId
      = { FindingRows.none with ticket := tables.tickets.get? findingId } := by
  have hslaEvents : (tables.slaEvents.withoutBy SlaEventRow.findingId removed).filter
      (fun _ row => row.findingId = findingId) = .empty :=
    Dict.filter_withoutBy_eq_empty fun _ _ _ hrow => (of_decide_eq_true hrow).symm ▸ hid
  have hrequests : (tables.requests.withoutBy RequestRow.findingId removed).filter
      (fun _ row => row.findingId = findingId) = .empty :=
    Dict.filter_withoutBy_eq_empty fun _ _ _ hrow => (of_decide_eq_true hrow).symm ▸ hid
  have hevents : (tables.events.withoutBy EventRow.approvalId removedRequests).filter
      (fun _ row => row.approvalId ∈ requestIds) = .empty :=
    Dict.filter_withoutBy_eq_empty fun _ row _ hrow =>
      hrequestIds row.approvalId (of_decide_eq_true hrow)
  simp only [rowsOf, withoutFindings, Dict.get?_without, if_pos hid, hslaEvents, hrequests,
    hevents, FindingRows.none]

/-- About a finding that is not removed, all rows stay. -/
lemma rowsOf_withoutFindings_of_not_mem (hid : findingId ∉ removed)
    (hrequestIds : ∀ id ∈ requestIds, id ∉ removedRequests) :
    (tables.withoutFindings removedRequests removed).rowsOf requestIds findingId
      = tables.rowsOf requestIds findingId := by
  have hslaEvents : (tables.slaEvents.withoutBy SlaEventRow.findingId removed).filter
      (fun _ row => row.findingId = findingId)
        = tables.slaEvents.filter fun _ row => row.findingId = findingId :=
    Dict.filter_withoutBy_of_imp fun _ _ _ hrow => (of_decide_eq_true hrow).symm ▸ hid
  have hrequests : (tables.requests.withoutBy RequestRow.findingId removed).filter
      (fun _ row => row.findingId = findingId)
        = tables.requests.filter fun _ row => row.findingId = findingId :=
    Dict.filter_withoutBy_of_imp fun _ _ _ hrow => (of_decide_eq_true hrow).symm ▸ hid
  have hevents : (tables.events.withoutBy EventRow.approvalId removedRequests).filter
      (fun _ row => row.approvalId ∈ requestIds)
        = tables.events.filter fun _ row => row.approvalId ∈ requestIds :=
    Dict.filter_withoutBy_of_imp fun _ row _ hrow =>
      hrequestIds row.approvalId (of_decide_eq_true hrow)
  simp only [rowsOf, withoutFindings, Dict.get?_without, if_neg hid, hslaEvents, hrequests,
    hevents]

end PipelineTables

/-! ### Runs -/

namespace ScanRunStore

variable {store : ScanRunStore} {projectId : String}

lemma recordsOf_deleteProjectRuns (store : ScanRunStore) (projectId scanRunId : String) :
    (store.deleteProjectRuns projectId).recordsOf scanRunId
      = if scanRunId ∈ store.runIdsOf projectId then ⟨none, none, none, none⟩
        else store.recordsOf scanRunId := by
  simp only [recordsOf, deleteProjectRuns, Dict.get?_eraseAll]
  split_ifs <;> rfl

/-- The runs of a project, as a dictionary. -/
lemma runIdsOf_eq (store : ScanRunStore) (projectId : String) :
    store.runIdsOf projectId
      = ((store.runs.filter fun _ run => run.projectId = projectId).values).map
        ScanRun.scanRunId := by
  rw [runIdsOf, Dict.values, Dict.values, Dict.filter, List.filter_map]
  rfl

variable (hnamed : ∀ runId run, store.getRun runId = some run → run.scanRunId = runId)
include hnamed

/-- The runs that a deletion removes are those of the project. -/
lemma runIdsOf_deleteProjectRuns_self :
    (store.deleteProjectRuns projectId).runIdsOf projectId = [] := by
  have hnone : (store.runs.eraseAll (store.runIdsOf projectId)).filter
      (fun _ run => run.projectId = projectId) = .empty := by
    rw [Dict.eraseAll_eq_without]
    refine Dict.filter_without_eq_empty fun runId run hget hproject => ?_
    exact (mem_runIdsOf hnamed).2 ⟨run, hget, of_decide_eq_true hproject⟩
  rw [runIdsOf_eq, deleteProjectRuns, hnone]
  rfl

/-- The runs of other projects stay, in their order. -/
lemma runIdsOf_deleteProjectRuns_of_ne {other : String} (hne : other ≠ projectId) :
    (store.deleteProjectRuns projectId).runIdsOf other = store.runIdsOf other := by
  have hsame : (store.runs.eraseAll (store.runIdsOf projectId)).filter
      (fun _ run => run.projectId = other)
        = store.runs.filter fun _ run => run.projectId = other := by
    rw [Dict.eraseAll_eq_without]
    refine Dict.filter_without_of_imp fun runId run hget hproject hmem => ?_
    obtain ⟨run', hget', hproject'⟩ := (mem_runIdsOf hnamed).1 hmem
    obtain rfl := Option.some.inj (hget.symm.trans hget')
    exact hne ((of_decide_eq_true hproject).symm.trans hproject')
  rw [runIdsOf_eq, runIdsOf_eq, deleteProjectRuns, hsame]

end ScanRunStore

namespace ScanTables

variable {tables : ScanTables} {runIds : List String} {scanRunId : String}

lemma rowsOf_deleteRuns_of_mem (hrun : scanRunId ∈ runIds) :
    (tables.deleteRuns runIds).rowsOf scanRunId = ⟨none, .empty, .empty, .empty⟩ := by
  have hrow : (tables.deleteRuns runIds).runs.get? scanRunId = none := by
    rw [deleteRuns, Dict.get?_filter]
    cases tables.runs.get? scanRunId <;> simp [Option.filter, hrun]
  rw [rowsOf, hrow]
  simp only [deleteRuns, RunRows.mk.injEq, true_and]
  refine ⟨?_, ?_, ?_⟩
  · refine Dict.filter_filter_eq_empty fun key _ _ hkey => decide_eq_false (not_not.2 ?_)
    exact (of_decide_eq_true hkey).symm ▸ hrun
  · refine Dict.filter_filter_eq_empty fun _ row _ hrow => decide_eq_false (not_not.2 ?_)
    exact (of_decide_eq_true hrow).symm ▸ hrun
  · refine Dict.filter_filter_eq_empty fun key _ _ hkey => decide_eq_false (not_not.2 ?_)
    exact (of_decide_eq_true hkey).symm ▸ hrun

lemma rowsOf_deleteRuns_of_not_mem (hrun : scanRunId ∉ runIds) :
    (tables.deleteRuns runIds).rowsOf scanRunId = tables.rowsOf scanRunId := by
  have hrow : (tables.deleteRuns runIds).runs.get? scanRunId = tables.runs.get? scanRunId := by
    rw [deleteRuns, Dict.get?_filter]
    cases tables.runs.get? scanRunId <;> simp [Option.filter, hrun]
  rw [rowsOf, rowsOf, hrow]
  simp only [deleteRuns, RunRows.mk.injEq, true_and]
  refine ⟨?_, ?_, ?_⟩
  · refine Dict.filter_filter_of_imp fun key _ _ hkey => decide_eq_true ?_
    exact (of_decide_eq_true hkey).symm ▸ hrun
  · refine Dict.filter_filter_of_imp fun _ row _ hrow => decide_eq_true ?_
    exact (of_decide_eq_true hrow).symm ▸ hrun
  · refine Dict.filter_filter_of_imp fun key _ _ hkey => decide_eq_true ?_
    exact (of_decide_eq_true hkey).symm ▸ hrun

end ScanTables

/-! ### Groups -/

lemma GroupsLose.congr {removed : List String} {before before' after after' : GroupRegistry}
    (h : GroupsLose removed before after)
    (hbefore : ∀ value, before'.get? value = before.get? value)
    (hafter : ∀ value, after'.get? value = after.get? value) :
    GroupsLose removed before' after' where
  fresh value hnone := hafter value ▸ h.fresh value (hbefore value ▸ hnone)
  kept value group hget := hafter value ▸ h.kept value group (hbefore value ▸ hget)
  emptied value group hget := hafter value ▸ h.emptied value group (hbefore value ▸ hget)
  shared value group hget := hafter value ▸ h.shared value group (hbefore value ▸ hget)

/-- No group that is left lists or shows a removed finding. -/
lemma GroupsLose.ungrouped {removed : List String} {before after : GroupRegistry}
    (h : GroupsLose removed before after)
    (hrepresented : ∀ value group, before.get? value = some group → Represented value group)
    {value : String} {group : DeduplicationGroup} (hget : after.get? value = some group) :
    ∀ id ∈ removed, id ∉ group.memberFindingIds ∧ group.representativeFinding.id ≠ id := by
  have hmembers : (∀ id ∈ group.memberFindingIds, id ∉ removed)
      ∧ group.representativeFinding.id ∈ group.memberFindingIds := by
    cases hold : before.get? value with
    | none => rw [h.fresh value hold] at hget; cases hget
    | some old =>
        by_cases hsome : ∃ id ∈ old.memberFindingIds, id ∈ removed
        · by_cases hothers : ∃ id ∈ old.memberFindingIds, id ∉ removed
          · obtain ⟨group', hget', hloses⟩ := h.shared value old hold hsome hothers
            obtain rfl := Option.some.inj (hget'.symm.trans hget)
            refine ⟨fun id hid => ?_, hloses.representative ▸ hloses.canonical⟩
            exact of_decide_eq_true (List.mem_filter.1 (hloses.members.mem_iff.1 hid)).2
          · rw [h.emptied value old hold hsome fun id hid => not_not.1 fun hnot =>
              hothers ⟨id, hid, hnot⟩] at hget
            cases hget
        · have hkept : ∀ id ∈ old.memberFindingIds, id ∉ removed :=
            fun id hid hremoved => hsome ⟨id, hid, hremoved⟩
          obtain rfl := Option.some.inj ((h.kept value old hold hkept).symm.trans hget)
          have hold := hrepresented value old hold
          exact ⟨hkept, hold.representative ▸ hold.canonical⟩
  intro id hid
  refine ⟨fun hmem => hmembers.1 id hmem hid, ?_⟩
  rintro rfl
  exact hmembers.1 _ hmembers.2 hid

namespace Consistent

variable {s : Pipeline}

lemma groupsLose (h : Consistent s) (projectId : String) :
    GroupsLose (ownedFindings s.1.runs projectId) s.1.groups
      (s.deleted projectId).1.groups where
  fresh value hnone := by rw [(h.get?_groups_deleted projectId value).1, hnone]; rfl
  kept value group hget hothers := by
    rcases h.group_deleted projectId hget with ⟨hsame, -⟩ | ⟨⟨id, hid, hremoved⟩, -⟩
    · exact hsame
    · exact absurd hremoved (hothers id hid)
  emptied value group hget hsome hall := by
    rcases h.group_deleted projectId hget with
      ⟨-, hkept⟩ | ⟨-, ⟨hnone, -⟩ | ⟨group', -, hloses⟩⟩
    · obtain ⟨id, hid, hremoved⟩ := hsome
      exact absurd hremoved (hkept id hid)
    · exact hnone
    · obtain ⟨hmem, hnot⟩ := List.mem_filter.1 (hloses.members.mem_iff.1 hloses.canonical)
      exact absurd (hall _ hmem) (of_decide_eq_true hnot)
  shared value group hget hsome hothers := by
    obtain ⟨id, hid, hnot⟩ := hothers
    rcases h.group_deleted projectId hget with ⟨-, hkept⟩ | ⟨-, ⟨-, hall⟩ | hloses⟩
    · obtain ⟨id, hid, hremoved⟩ := hsome
      exact absurd hremoved (hkept id hid)
    · exact absurd (hall id hid) hnot
    · exact hloses

/-! ### The whole deletion -/

/-- The lineage of a project can be read. -/
lemma deletable (h : Consistent s) {projectId : String}
    (hrow : (s.2.projects.get? projectId).isSome) : Deletable s projectId := by
  have haware : ∀ run ∈ s.1.runs.runs.values.filter fun run => run.projectId = projectId,
      run.startedAt.isAware = true := by
    intro run hrun
    obtain ⟨runId, hget⟩ := (s.1.runs.runs.mem_values_iff).1 (List.mem_filter.1 hrun).1
    have hstored : s.1.runs.getRun runId = some run := hget
    rw [h.runs.runs] at hstored
    obtain ⟨row, hrow, rfl⟩ := Option.map_eq_some_iff.1 hstored
    exact (h.runRows runId row hrow).2
  have hread : ¬ (((s.1.runs.runs.values.filter fun run => run.projectId = projectId).any
      fun run => run.startedAt.isAware)
        && (s.1.runs.runs.values.filter fun run => run.projectId = projectId).any
          fun run => !run.startedAt.isAware) = true := by
    intro hmixed
    obtain ⟨run, hrun, hnaive⟩ := List.any_eq_true.1 (Bool.and_eq_true_iff.1 hmixed).2
    rw [haware run hrun] at hnaive
    cases hnaive
  refine ⟨hrow, ?_⟩
  rw [projectFindingIds, ScanRunStore.runsForProject, ScanRunStore.newestFirst, if_neg hread]
  exact ⟨_, rfl⟩

/-- The records and rows about a finding that the deletion takes. -/
lemma findingGone (h : Consistent s) {projectId findingId : String}
    (hid : findingId ∈ ownedFindings s.1.runs projectId)
    (hticket : s.1.tickets.get? findingId = none) :
    FindingGone findingId s (s.deleted projectId) where
  records := by
    have hrecords := PipelineStores.recordsOf_withoutFindings_of_mem h.wellKeyed hid
    rw [hticket] at hrecords
    rw [fst_deleted]
    exact hrecords
  rows := by
    have hrows : (s.2.withoutFindings
        (s.1.approvals.requestIds (ownedFindings s.1.runs projectId))
        (ownedFindings s.1.runs projectId)).rowsOf (s.1.approvals.requestIds [findingId]) findingId
          = { FindingRows.none with ticket := s.2.tickets.get? findingId } :=
      PipelineTables.rowsOf_withoutFindings_of_mem hid (h.wellKeyed.requestIds_subset hid)
    rw [← h.tickets, hticket] at hrows
    rw [snd_deleted]
    exact hrows
  groups := by
    have hlose := h.groupsLose projectId
    have hrows := hlose.congr (fun value => (h.groups value).symm)
      fun value => ((h.deleted projectId).groups value).symm
    rintro value group (hget | hget)
    · exact hlose.ungrouped h.represented hget findingId hid
    · refine hrows.ungrouped (fun value group hget => ?_) hget findingId hid
      exact h.represented value group ((h.groups value).trans hget)

/-- The records and rows about a finding that the deletion does not take. -/
lemma findingKept (h : Consistent s) {projectId findingId : String}
    (hid : findingId ∉ ownedFindings s.1.runs projectId) :
    FindingKept findingId s (s.deleted projectId) where
  records := by
    rw [fst_deleted]
    exact PipelineStores.recordsOf_withoutFindings_of_not_mem h.wellKeyed hid
  rows := by
    rw [snd_deleted]
    exact PipelineTables.rowsOf_withoutFindings_of_not_mem hid
      (h.wellKeyed.requestIds_disjoint hid)

lemma projectGone (h : Consistent s) (projectId : String) :
    ProjectGone projectId s (s.deleted projectId) where
  row := by
    rw [snd_deleted]
    exact (Dict.get?_without ..).trans (if_pos (List.mem_singleton_self _))
  runs := by
    rw [fst_deleted]
    exact ScanRunStore.runIdsOf_deleteProjectRuns_self h.runs.named
  runRows := by
    intro scanRunId row hrow hproject
    rw [snd_deleted] at hrow
    have hrow : (s.2.runs.deleteRuns (s.1.runs.runIdsOf projectId)).runs.get? scanRunId
        = some row := hrow
    rw [ScanTables.deleteRuns, Dict.get?_filter, Option.filter_eq_some_iff] at hrow
    refine of_decide_eq_true hrow.2 ((mem_runIdsOf h.runs.named).2 ⟨row.payload, ?_, ?_⟩)
    · rw [h.runs.runs, hrow.1]
      rfl
    · rw [← (h.runRows scanRunId row hrow.1).1, hproject]
  records := by
    intro scanRunId hrun
    rw [fst_deleted]
    exact (ScanRunStore.recordsOf_deleteProjectRuns ..).trans (if_pos hrun)
  rows := by
    intro scanRunId hrun
    rw [snd_deleted]
    exact ScanTables.rowsOf_deleteRuns_of_mem hrun

lemma projectKept (h : Consistent s) {projectId other : String} (hne : other ≠ projectId)
    (hdisjoint : ∀ id ∈ ownedFindings s.1.runs other, id ∉ ownedFindings s.1.runs projectId) :
    ProjectKept other s (s.deleted projectId) := by
  have hruns : ∀ scanRunId ∈ s.1.runs.runIdsOf other,
      scanRunId ∉ s.1.runs.runIdsOf projectId := by
    intro scanRunId hother hmem
    obtain ⟨run, hget, hproject⟩ := (mem_runIdsOf h.runs.named).1 hother
    obtain ⟨run', hget', hproject'⟩ := (mem_runIdsOf h.runs.named).1 hmem
    obtain rfl := Option.some.inj (hget.symm.trans hget')
    exact hne (hproject.symm.trans hproject')
  refine ⟨?_, ?_, ?_, ?_, fun id hid => h.findingKept (hdisjoint id hid)⟩
  · rw [snd_deleted]
    refine (Dict.get?_without ..).trans (if_neg fun hmem => hne ?_)
    exact List.mem_singleton.1 hmem
  · rw [fst_deleted]
    exact ScanRunStore.runIdsOf_deleteProjectRuns_of_ne h.runs.named hne
  · intro scanRunId hrun
    rw [fst_deleted]
    exact (ScanRunStore.recordsOf_deleteProjectRuns ..).trans (if_neg (hruns scanRunId hrun))
  · intro scanRunId hrun
    rw [snd_deleted]
    exact ScanTables.rowsOf_deleteRuns_of_not_mem (hruns scanRunId hrun)

/-- A deletion runs to its end. -/
lemma pipelineStep_deleteProject {build : FingerprintBuilder} (h : Consistent s)
    {projectId : String} (hrow : (s.2.projects.get? projectId).isSome) (order : SetOrder) :
    pipelineStep build s (.deleteProject projectId order) = s.deleted projectId := by
  obtain ⟨-, found, hfound⟩ := h.deletable hrow
  rw [pipelineStep, deleteProject_of_none h.wellKeyed hrow hfound]

end Consistent

/-- **What a deletion removes.**  In a reachable state, the deletion of a project removes exactly
what the project owns, if and only if no finding in the lineage of its runs has a ticket. -/
theorem deletesExactly_iff {build : FingerprintBuilder} {ops : List PipelineOp}
    (hops : Throughout (pipelineStep build) AdmissiblePipelineOp .empty ops)
    {projectId : String} (order : SetOrder)
    (hrow : ((exec (pipelineStep build) .empty ops).2.projects.get? projectId).isSome) :
    DeletesExactly projectId (exec (pipelineStep build) .empty ops)
        (pipelineStep build (exec (pipelineStep build) .empty ops)
          (.deleteProject projectId order))
      ↔ ∀ id ∈ ownedFindings (exec (pipelineStep build) .empty ops).1.runs projectId,
          (exec (pipelineStep build) .empty ops).1.tickets.get? id = none := by
  have h := consistent_exec hops
  rw [h.pipelineStep_deleteProject hrow]
  set s := exec (pipelineStep build) .empty ops with hs
  constructor
  · intro hexact id hid
    have hticket := congrArg FindingRecords.ticket (hexact.findings id hid).records
    rw [fst_deleted] at hticket
    exact hticket
  · intro htickets
    refine ⟨h.projectGone projectId, fun id hid => h.findingGone hid (htickets id hid),
      h.groupsLose projectId, ?_, fun other hne hdisjoint => h.projectKept hne hdisjoint⟩
    exact (h.groupsLose projectId).congr (fun value => (h.groups value).symm)
      fun value => ((h.deleted projectId).groups value).symm

/-! ## A scanned project -/

/-- The project `shop`, with a run that has found `f`. -/
def scannedOps : List PipelineOp :=
  [.saveProject (projectNamed "shop"), .addFinding (sampleFinding "function_param"),
    .run (.createRun ⟨"run", "shop", .running, ⟨0, some 0⟩, none, none, none, none, ⟨0, some 0⟩⟩),
    .run (.addFindingLineage "run" "f")]

/-- A ticket for the finding `f`. -/
def ticketOps : List PipelineOp :=
  [.persistTicket
    { findingId := "f"
      createdAt := ⟨1, some 0⟩
      payload := sampleFinding "function_param" }]

/-- The order in which the findings were collected. -/
def collected : SetOrder := ⟨List.dedup, List.nodup_dedup, fun _ _ => List.mem_dedup⟩

lemma throughout_scannedOps :
    Throughout (pipelineStep sampleBuild) AdmissiblePipelineOp .empty scannedOps := by
  refine ⟨trivial, trivial, ⟨trivial, rfl, ?_⟩, ⟨trivial, trivial⟩, trivial⟩
  intro old hold
  cases hold

/-- Without a ticket, all of the project is removed. -/
theorem deletesExactly_scannedOps :
    DeletesExactly "shop" (exec (pipelineStep sampleBuild) .empty scannedOps)
      (pipelineStep sampleBuild (exec (pipelineStep sampleBuild) .empty scannedOps)
        (.deleteProject "shop" collected)) :=
  (deletesExactly_iff throughout_scannedOps collected rfl).2 fun _ _ => rfl

/-- **The ticket stays**, in memory and in its table. -/
theorem not_deletesExactly_ticketOps :
    Throughout (pipelineStep sampleBuild) AdmissiblePipelineOp .empty (scannedOps ++ ticketOps)
      ∧ ¬ DeletesExactly "shop" (exec (pipelineStep sampleBuild) .empty (scannedOps ++ ticketOps))
        (pipelineStep sampleBuild
          (exec (pipelineStep sampleBuild) .empty (scannedOps ++ ticketOps))
          (.deleteProject "shop" collected)) := by
  have hops : Throughout (pipelineStep sampleBuild) AdmissiblePipelineOp .empty
      (scannedOps ++ ticketOps) :=
    throughout_append.2 ⟨throughout_scannedOps, trivial, trivial⟩
  refine ⟨hops, ?_⟩
  rw [(consistent_exec hops).pipelineStep_deleteProject rfl]
  intro hexact
  have hticket := congrArg FindingRecords.ticket (hexact.findings "f" (by decide +kernel)).records
  rw [fst_deleted] at hticket
  cases hticket

end Sast
