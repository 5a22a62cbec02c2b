import SastEngine.Api.Deletion
import SastEngine.Dedup.OneGroup
import SastEngine.Lib.Run
import SastEngine.Scan.RunHistory

/-!
# The states that the pipeline reaches

Every operation that writes to a store of the pipeline or to the projects, with a restart, and what
all states that they reach have in common: where `delete_project` reads the memory to find out what
to delete, the tables hold the same.
-/

namespace Sast

/-! ## Operations -/

/-- The operations on the stores, each with its database write; at a restart, `configure_stores`
loads the given stores. -/
inductive PipelineOp where
  | saveProject (project : ProjectRow)
  | addFinding (finding : CandidateFinding)
  | recordValidation (result : ValidationResult)
  | recordProof (result : ProofResult)
  | recordAssessment (assessment : RiskAssessment)
  | recordSla (record : SLARecord)
  | recordEscalation (id : Nat) (event : EscalationEvent)
  | saveRequest (request : ApprovalRequest)
  | recordEvent (event : ApprovalEvent)
  | recordRemediation (record : RemediationRecord)
  | deduplicate (findingIds : List String)
  | persistTicket (ticket : DefectDojoTicket)
  | run (op : HistoryOp)
  | deleteProject (projectId : String) (order : SetOrder)
  | restart (loaded : PipelineStores)

variable (build : FingerprintBuilder)

/-- One operation, all of whose database writes succeed. -/
def pipelineStep (s : Pipeline) : PipelineOp → Pipeline
  | .saveProject project => (s.1, { s.2 with projects := s.2.projects.set project.id project })
  | .addFinding finding =>
      ({ s.1 with findings := s.1.findings.add finding },
        { s.2 with findings := s.2.findings.set finding.id finding })
  | .recordValidation result =>
      ({ s.1 with validations := s.1.validations.record result },
        { s.2 with validations := s.2.validations.set result.findingId result })
  | .recordProof result =>
      ({ s.1 with proofs := s.1.proofs.record result },
        { s.2 with proofs := s.2.proofs.set result.findingId result })
  | .recordAssessment assessment =>
      ({ s.1 with risk := s.1.risk.recordAssessment assessment },
        { s.2 with assessments := s.2.assessments.set assessment.findingId assessment })
  | .recordSla record =>
      ({ s.1 with risk := s.1.risk.recordSla record },
        { s.2 with slaRecords := s.2.slaRecords.set record.findingId record })
  | .recordEscalation id event =>
      ({ s.1 with risk := s.1.risk.recordEscalation event },
        { s.2 with slaEvents := s.2.slaEvents.set id ⟨event.findingId, event⟩ })
  | .saveRequest request =>
      ({ s.1 with approvals := s.1.approvals.save request },
        { s.2 with
          requests := s.2.requests.set request.id
            (match s.2.requests.get? request.id with
              | none => ⟨request.findingId, request⟩
              | some row => { row with payload := request }) })
  | .recordEvent event =>
      ({ s.1 with approvals := s.1.approvals.recordEvent event },
        { s.2 with events := s.2.events.set event.id ⟨event.approvalId, event⟩ })
  | .recordRemediation record =>
      ({ s.1 with remediation := s.1.remediation.set record.findingId record },
        { s.2 with remediation := s.2.remediation.set record.findingId record })
  | .deduplicate findingIds =>
      match deduplicateFindings build s.1.findings s.1.groups findingIds with
      | none => s
      | some (_, next) => ({ s.1 with groups := next }, { s.2 with groups := groupRows next })
  | .persistTicket ticket =>
      ({ s.1 with tickets := s.1.tickets.set ticket.findingId ticket },
        { s.2 with tickets := s.2.tickets.set ticket.findingId ticket })
  | .run op =>
      ({ s.1 with runs := s.1.runs.after op }, { s.2 with runs := s.2.runs.write s.1.runs op })
  | .deleteProject projectId order =>
      let outcome := deleteProject projectId order ⟨s.1, s.2, none⟩
      (outcome.2.memory, outcome.2.database)
  | .restart loaded => (loaded, s.2)

/-- What `configure_stores` loads: under each key the payload of its row, and the events of one
record in the order of their times. -/
structure Loads (tables : PipelineTables) (stores : PipelineStores) : Prop where
  findings : ∀ id, stores.findings.get id = tables.findings.get? id
  validations : ∀ id, stores.validations.get? id = tables.validations.get? id
  proofs : ∀ id, stores.proofs.get? id = tables.proofs.get? id
  assessments : ∀ id, stores.risk.assessments.get? id = tables.assessments.get? id
  records : ∀ id, stores.risk.records.get? id = tables.slaRecords.get? id
  escalations : ∃ rows : List (Nat × SlaEventRow), rows.Perm tables.slaEvents.entries
    ∧ stores.risk.escalations = (Dict.collect (fun row => row.2.payload.findingId)
      (fun row => row.2.payload) rows).mapValues (sortUp fun e => e.createdAt.instant)
  requests : ∀ id, stores.approvals.get id = (tables.requests.get? id).map RequestRow.payload
  events : ∃ rows : List (String × EventRow), rows.Perm tables.events.entries
    ∧ stores.approvals.events = (Dict.collect (fun row => row.2.payload.approvalId)
      (fun row => row.2.payload) rows).mapValues (sortUp fun e => e.createdAt.instant)
  remediation : ∀ id, stores.remediation.get? id = tables.remediation.get? id
  groups : ∀ value, stores.groups.get? value = tables.groups.get? value
  runs : ∃ rows, tables.runs.Returns rows ∧ stores.runs = .setFactory rows
  tickets : ∀ id, stores.tickets.get? id = tables.tickets.get? id

/-- A stored run is started at an aware time, and keeps its project. -/
def AdmissibleRunOp (runs : ScanRunStore) : HistoryOp → Prop
  | .createRun run | .updateRun run => run.startedAt.isAware
      ∧ ∀ old ∈ runs.getRun run.scanRunId, old.projectId = run.projectId
  | _ => True

/-- Requests keep their finding, the operations of the run store are admissible, and a restart
loads the tables. -/
def AdmissiblePipelineOp (s : Pipeline) : PipelineOp → Prop
  | .saveRequest request =>
      ∀ old ∈ s.1.approvals.get request.id, old.findingId = request.findingId
  | .run op => AdmissibleOp ⟨s.1.runs, s.2.runs⟩ op ∧ AdmissibleRunOp s.1.runs op
  | .restart loaded => Loads s.2 loaded
  | _ => True

/-! ## What they keep -/

/-- The group represents its members by one of them. -/
structure Represented (value : String) (group : DeduplicationGroup) : Prop where
  fingerprint : group.fingerprint = value
  canonical : group.canonicalFindingId ∈ group.memberFindingIds
  representative : group.representativeFinding.id = group.canonicalFindingId

/-- Memory and tables agree in what a deletion reads. -/
structure Consistent (s : Pipeline) : Prop where
  wellKeyed : s.1.approvals.WellKeyed
  requests : ∀ id, s.1.approvals.get id = (s.2.requests.get? id).map RequestRow.payload
  columns : ∀ id row, s.2.requests.get? id = some row → row.findingId = row.payload.findingId
  findings : ∀ id, s.1.findings.get id = s.2.findings.get? id
  groups : ∀ value, s.1.groups.get? value = s.2.groups.get? value
  represented : ∀ value group, s.1.groups.get? value = some group → Represented value group
  members : ∀ value group, s.1.groups.get? value = some group →
    ∀ id ∈ group.memberFindingIds, (s.1.findings.get id).isSome
  runs : StoredIn s.1.runs s.2.runs
  runRows : ∀ runId row, s.2.runs.runs.get? runId = some row →
    row.projectId = row.payload.projectId ∧ row.payload.startedAt.isAware
  tickets : ∀ id, s.1.tickets.get? id = s.2.tickets.get? id

lemma consistent_empty : Consistent .empty where
  wellKeyed := ApprovalStore.wellKeyed_empty
  requests _ := rfl
  columns _ _ h := by cases h
  findings _ := rfl
  groups _ := rfl
  represented _ _ h := by cases h
  members _ _ h := by cases h
  runs := storedIn_empty
  runRows _ _ h := by cases h
  tickets _ := rfl

namespace Consistent

variable {build : FingerprintBuilder} {s : Pipeline}

/-- The rows written for groups that are filed under their fingerprint. -/
lemma get?_groupRows {groups : GroupRegistry}
    (h : ∀ value group, groups.get? value = some group → group.fingerprint = value)
    (value : String) : (groupRows groups).get? value = groups.get? value := by
  have hsame : groupRows groups
      = groups.entries.foldl (fun rows entry => rows.set entry.1 entry.2) .empty := by
    have hkeys : ∀ entry ∈ groups.entries, entry.2.fingerprint = entry.1 := by
      intro entry hentry
      exact h entry.1 entry.2 ((groups.get?_eq_some_iff).2 hentry)
    rw [groupRows, Dict.values, List.foldl_map]
    exact List.foldl_ext _ _ _ fun rows entry hentry => by rw [hkeys entry hentry]
  rw [hsame, Dict.get?_foldl_set _ groups.nodup]
  cases hget : Dict.getEntry value groups.entries with
  | none => exact hget.symm
  | some group => exact hget.symm

lemma saveRequest (h : Consistent s) {request : ApprovalRequest}
    (hrequest : AdmissiblePipelineOp s (.saveRequest request)) :
    Consistent (pipelineStep build s (.saveRequest request)) := by
  have hrow : ∀ id, (pipelineStep build s (.saveRequest request)).2.requests.get? id
      = if id = request.id then some ⟨request.findingId, request⟩
        else s.2.requests.get? id := by
    intro id
    refine (Dict.get?_set ..).trans ?_
    split_ifs with hid
    · cases hold : s.2.requests.get? request.id with
      | none => rfl
      | some row =>
          have hget : s.1.approvals.get request.id = some row.payload := by
            rw [h.requests, hold]
            rfl
          rw [← hrequest row.payload hget, ← h.columns _ _ hold]
    · rfl
  refine { h with wellKeyed := ?_, requests := ?_, columns := ?_ }
  · intro id r hr
    have hr : (s.1.approvals.save request).get id = some r := hr
    rw [ApprovalStore.get_save] at hr
    split_ifs at hr with hid
    · rw [← Option.some.inj hr, hid]
    · exact h.wellKeyed id r hr
  · intro id
    rw [hrow]
    refine (ApprovalStore.get_save ..).trans ?_
    split_ifs
    · rfl
    · exact h.requests id
  · intro id row hget
    rw [hrow] at hget
    split_ifs at hget
    · obtain rfl := Option.some.inj hget
      rfl
    · exact h.columns id row hget

lemma addFinding (h : Consistent s) (finding : CandidateFinding) :
    Consistent (pipelineStep build s (.addFinding finding)) := by
  refine { h with findings := ?_, members := ?_ }
  · intro id
    refine (FindingStore.get_add ..).trans (Eq.trans ?_ (Dict.get?_set ..).symm)
    rw [h.findings]
  · intro value group hgroup id hid
    have hold := h.members value group hgroup id hid
    show ((s.1.findings.add finding).get id).isSome
    rw [FindingStore.get_add]
    split_ifs
    · rfl
    · exact hold

lemma persistTicket (h : Consistent s) (ticket : DefectDojoTicket) :
    Consistent (pipelineStep build s (.persistTicket ticket)) := by
  refine { h with tickets := fun id => ?_ }
  refine (Dict.get?_set ..).trans (Eq.trans ?_ (Dict.get?_set ..).symm)
  rw [h.tickets]

/-- The members of a merged group are in the store, and one of them represents it. -/
lemma mergeGroup_represented {store : FindingStore} {submitted : List String}
    {existing : Option DeduplicationGroup} {value : String} {bucket : Bucket}
    (hbucket : ∀ f ∈ bucket.first :: bucket.rest, (store.get f.id).isSome) :
    Represented value (mergeGroup store submitted existing value bucket)
      ∧ ∀ id ∈ (mergeGroup store submitted existing value bucket).memberFindingIds,
        (store.get id).isSome := by
  have hperm := sortById_perm (bucket.first :: bucket.rest ++ keptMembers store submitted existing)
  have hkept : ∀ f ∈ keptMembers store submitted existing, (store.get f.id).isSome := by
    intro f hf
    cases existing with
    | none => cases hf
    | some group =>
        obtain ⟨id, -, hget⟩ := List.mem_filterMap.1 hf
        rw [FindingStore.get_id hget, hget]
        rfl
  refine ⟨?_, ?_⟩
  · cases hsorted : sortById (bucket.first :: bucket.rest
        ++ keptMembers store submitted existing) with
    | nil =>
        rw [hsorted] at hperm
        cases hperm.symm.eq_nil
    | cons canonical rest =>
        refine ⟨rfl, ?_, rfl⟩
        simp only [mergeGroup, hsorted]
        exact List.mem_cons_self ..
  · intro id hid
    obtain ⟨f, hf, rfl⟩ := List.mem_map.1 hid
    rcases List.mem_append.1 (hperm.mem_iff.1 hf) with hf | hf
    · exact hbucket f hf
    · exact hkept f hf

/-- **A deduplication run** writes groups of findings in the store. -/
lemma deduplicate (h : Consistent s) (findingIds : List String) :
    Consistent (pipelineStep build s (.deduplicate findingIds)) := by
  by_cases hpresent : findingIds.all fun id => (s.1.findings.get id).isSome
  · set next := nextRegistry build s.1.findings s.1.groups (findingIds.filterMap s.1.findings.get)
      with hnext
    have hstep : pipelineStep build s (.deduplicate findingIds)
        = ({ s.1 with groups := next }, { s.2 with groups := groupRows next }) := by
      rw [pipelineStep, deduplicateFindings, if_pos hpresent]
      rfl
    have hgroup : ∀ value group, next.get? value = some group → Represented value group
        ∧ ∀ id ∈ group.memberFindingIds, (s.1.findings.get id).isSome := by
      intro value group hget
      rw [hnext, get?_nextRegistry] at hget
      split at hget
      · exact ⟨h.represented value group hget, h.members value group hget⟩
      · next first rest hfilter =>
          obtain rfl := Option.some.inj hget
          refine mergeGroup_represented fun f hf => ?_
          have hsubmitted : f ∈ (findingIds.filterMap s.1.findings.get).filter
              fun f => (build f).value = value := hfilter ▸ hf
          obtain ⟨id, -, hid⟩ := List.mem_filterMap.1 (List.mem_filter.1 hsubmitted).1
          rw [FindingStore.get_id hid, hid]
          rfl
    rw [hstep]
    refine { h with groups := ?_, represented := ?_, members := ?_ }
    · intro value
      exact (get?_groupRows (fun v g hg => (hgroup v g hg).1.fingerprint) value).symm
    · exact fun value group hget => (hgroup value group hget).1
    · exact fun value group hget => (hgroup value group hget).2
  · have hstep : pipelineStep build s (.deduplicate findingIds) = s := by
      rw [pipelineStep, deduplicateFindings, if_neg hpresent]
    rw [hstep]
    exact h

/-- A row of a run after an operation was there before, or is that of the run just stored. -/
lemma get?_runs_write (tables : ScanTables) (store : ScanRunStore) (op : HistoryOp)
    (runId : String) :
    (∀ row, (tables.write store op).runs.get? runId = some row → tables.runs.get? runId = some row)
      ∨ ∃ run, (op = .createRun run ∨ op = .updateRun run)
        ∧ (tables.write store op).runs = (tables.upsertRun run).runs := by
  have hclose : ∀ c : Closing, (tables.endStageExecution store c).runs = tables.runs := by
    intro c
    show (tables.closeExecution store c.executionId c.ending).runs = tables.runs
    unfold ScanTables.closeExecution
    cases store.findExecution c.executionId <;> rfl
  cases op with
  | createRun run => exact Or.inr ⟨run, Or.inl rfl, rfl⟩
  | updateRun run => exact Or.inr ⟨run, Or.inr rfl, rfl⟩
  | upsertStage | begin | restart => exact Or.inl fun row hrow => hrow
  | complete scanRunId stageName executionId completedAt =>
      exact Or.inl fun row hrow => hclose _ ▸ hrow
  | fail scanRunId stageName executionId completedAt error =>
      exact Or.inl fun row hrow => hclose _ ▸ hrow
  | addFindingLineage scanRunId findingId =>
      refine Or.inl fun row hrow => ?_
      have hsame : (tables.addFinding scanRunId findingId).runs = tables.runs := by
        unfold ScanTables.addFinding
        cases tables.findings.get? (scanRunId, findingId) <;> rfl
      exact hsame ▸ hrow
  | deleteProjectRuns projectId =>
      refine Or.inl fun row hrow => ?_
      simp only [ScanTables.write] at hrow
      split_ifs at hrow
      · exact hrow
      · rw [ScanTables.deleteRuns, Dict.get?_filter, Option.filter_eq_some_iff] at hrow
        exact hrow.1
  | clear =>
      refine Or.inl fun row hrow => ?_
      cases hrow

/-- Runs keep their project, and the time at which they were started is aware. -/
lemma run (h : Consistent s) {op : HistoryOp} (hop : AdmissiblePipelineOp s (.run op)) :
    Consistent (pipelineStep build s (.run op)) := by
  obtain ⟨hop, hrun⟩ := hop
  have hruns : StoredIn (s.1.runs.after op) (s.2.runs.write s.1.runs op) :=
    StoredIn.step (h := ⟨s.1.runs, s.2.runs⟩) h.runs hop
  refine { h with runs := hruns, runRows := fun runId row hrow => ?_ }
  have hrow : (s.2.runs.write s.1.runs op).runs.get? runId = some row := hrow
  rcases get?_runs_write s.2.runs s.1.runs op runId with hold | ⟨run, hstores, hwrite⟩
  · exact h.runRows runId row (hold row hrow)
  · have hadmissible : run.startedAt.isAware
        ∧ ∀ old ∈ s.1.runs.getRun run.scanRunId, old.projectId = run.projectId := by
      rcases hstores with rfl | rfl <;> exact hrun
    rw [hwrite, ScanTables.upsertRun, Dict.get?_set] at hrow
    split_ifs at hrow with hid
    · cases hold : s.2.runs.runs.get? run.scanRunId with
      | none =>
          rw [hold] at hrow
          obtain rfl := Option.some.inj hrow
          exact ⟨rfl, hadmissible.1⟩
      | some old =>
          rw [hold] at hrow
          obtain rfl := Option.some.inj hrow
          have hget : s.1.runs.getRun run.scanRunId = some old.payload := by
            rw [h.runs.runs, hold]
            rfl
          exact ⟨(h.runRows _ old hold).1.trans (hadmissible.2 old.payload hget), hadmissible.1⟩
    · exact h.runRows runId row hrow

/-- **A restart** loads stores that agree with the tables. -/
lemma restart (h : Consistent s) {loaded : PipelineStores} (hloads : Loads s.2 loaded) :
    Consistent (pipelineStep build s (.restart loaded)) := by
  have hget : ∀ id, loaded.approvals.get id = s.1.approvals.get id :=
    fun id => (hloads.requests id).trans (h.requests id).symm
  have hfinding : ∀ id, loaded.findings.get id = s.1.findings.get id :=
    fun id => (hloads.findings id).trans (h.findings id).symm
  have hgroup : ∀ value, loaded.groups.get? value = s.1.groups.get? value :=
    fun value => (hloads.groups value).trans (h.groups value).symm
  obtain ⟨rows, hreturns, hruns⟩ := hloads.runs
  exact
    { wellKeyed := fun id r hr => h.wellKeyed id r (hget id ▸ hr)
      requests := hloads.requests
      columns := h.columns
      findings := hloads.findings
      groups := hloads.groups
      represented := fun value group hg => h.represented value group (hgroup value ▸ hg)
      members := fun value group hg id hid =>
        hfinding id ▸ h.members value group (hgroup value ▸ hg) id hid
      runs := hruns ▸ h.runs.setFactory hreturns
      runRows := h.runRows
      tickets := hloads.tickets }

/-! ### Deletion -/

lemma fingerprint_removeFromGroup {store : FindingStore} {removed : List String}
    {group group' : DeduplicationGroup} (h : removeFromGroup store removed group = some group') :
    group'.fingerprint = group.fingerprint := by
  unfold removeFromGroup at h
  simp only at h
  split_ifs at h
  · rw [Option.some.inj h]
  · split at h
    · cases h
    · obtain rfl := Option.some.inj h
      rfl

/-- The groups and their rows after a removal. -/
lemma get?_regrouped {t : Pipeline}
    (hsame : ∀ value, t.1.groups.get? value = t.2.groups.get? value)
    (hkeyed : ∀ value group, t.1.groups.get? value = some group → group.fingerprint = value)
    (findingIds : List String) (value : String) :
    (t.regrouped findingIds).1.groups.get? value
        = (t.1.groups.get? value).bind (removeFromGroup t.1.findings findingIds)
      ∧ (t.regrouped findingIds).2.groups.get? value
        = (t.1.groups.get? value).bind (removeFromGroup t.1.findings findingIds) := by
  have hnext := get?_removeFindings t.1.findings findingIds t.1.groups
  rw [fst_regrouped, snd_regrouped]
  refine ⟨hnext value, ?_⟩
  simp only
  split_ifs with hchanged
  · rw [get?_groupRows, hnext]
    intro v group' hgroup'
    rw [hnext] at hgroup'
    obtain ⟨group, hgroup, hremove⟩ := Option.bind_eq_some_iff.1 hgroup'
    rw [fingerprint_removeFromGroup hremove, hkeyed v group hgroup]
  · rw [← hsame, ← hnext, removeFindings_of_regroups_eq_false (Bool.eq_false_iff.2 hchanged)]

/-- A request is taken out of the memory iff its row is deleted. -/
lemma get_requests_without (h : Consistent s) (findingIds : List String) (id : String) :
    (s.1.approvals.without findingIds).get id
      = ((s.2.requests.withoutBy RequestRow.findingId findingIds).get? id).map
        RequestRow.payload := by
  rw [ApprovalStore.get_without, Dict.get?_withoutBy, h.requests]
  have hmem := h.wellKeyed.mem_requestIds findingIds id
  rw [h.requests] at hmem
  cases hrow : s.2.requests.get? id with
  | none => simp
  | some row =>
      have hcolumn := h.columns id row hrow
      simp only [hrow, Option.map_some, Option.some.injEq, exists_eq_left'] at hmem
      simp only [Option.map_some, hmem, ← hcolumn]
      split_ifs with hid
      · simp [Option.filter, hid]
      · simp [Option.filter, hid]

/-- The groups that a deletion leaves, in memory and in their table. -/
lemma get?_groups_deleted (h : Consistent s) (projectId : String) (value : String) :
    (s.deleted projectId).1.groups.get? value
        = (s.1.groups.get? value).bind (removeFromGroup
          (s.1.findings.without (ownedFindings s.1.runs projectId))
          (ownedFindings s.1.runs projectId))
      ∧ (s.deleted projectId).2.groups.get? value
        = (s.1.groups.get? value).bind (removeFromGroup
          (s.1.findings.without (ownedFindings s.1.runs projectId))
          (ownedFindings s.1.runs projectId)) :=
  get?_regrouped (t := s.withoutFindings (ownedFindings s.1.runs projectId)) h.groups
    (fun value group hgroup => (h.represented value group hgroup).fingerprint) _ value

/-- A group after a deletion is as it was, or has lost the deleted members. -/
lemma group_deleted (h : Consistent s) (projectId : String) {value : String}
    {group : DeduplicationGroup} (hgroup : s.1.groups.get? value = some group) :
    ((s.deleted projectId).1.groups.get? value = some group
        ∧ ∀ id ∈ group.memberFindingIds, id ∉ ownedFindings s.1.runs projectId)
      ∨ (∃ id ∈ group.memberFindingIds, id ∈ ownedFindings s.1.runs projectId)
        ∧ (((s.deleted projectId).1.groups.get? value = none
            ∧ ∀ id ∈ group.memberFindingIds, id ∈ ownedFindings s.1.runs projectId)
          ∨ ∃ group', (s.deleted projectId).1.groups.get? value = some group'
            ∧ LosesMembers (ownedFindings s.1.runs projectId) group group') := by
  rw [(h.get?_groups_deleted projectId value).1, hgroup]
  refine removeFromGroup_cases fun id hid hnot => ?_
  rw [FindingStore.get_without, if_neg hnot]
  exact h.members value group hgroup id hid

/-- **A deletion** leaves memory and tables in agreement. -/
lemma deleted (h : Consistent s) (projectId : String) : Consistent (s.deleted projectId) := by
  have hmemory := fst_deleted s projectId
  have htables := snd_deleted s projectId
  have hsurvives : ∀ value group', (s.deleted projectId).1.groups.get? value = some group' →
      Represented value group' ∧ ∀ id ∈ group'.memberFindingIds,
        ((s.1.findings.without (ownedFindings s.1.runs projectId)).get id).isSome := by
    intro value group' hgroup'
    obtain ⟨group, hgroup, -⟩ := Option.bind_eq_some_iff.1
      ((h.get?_groups_deleted projectId value).1 ▸ hgroup')
    have hrepresented := h.represented value group hgroup
    have hpresent : ∀ id ∈ group.memberFindingIds, id ∉ ownedFindings s.1.runs projectId →
        ((s.1.findings.without (ownedFindings s.1.runs projectId)).get id).isSome := by
      intro id hid hnot
      rw [FindingStore.get_without, if_neg hnot]
      exact h.members value group hgroup id hid
    rcases h.group_deleted projectId hgroup with
      ⟨hsame, hkept⟩ | ⟨-, ⟨hnone, -⟩ | ⟨next, hnext, hloses⟩⟩
    · obtain rfl := Option.some.inj (hsame.symm.trans hgroup')
      exact ⟨hrepresented, fun id hid => hpresent id hid (hkept id hid)⟩
    · rw [hnone] at hgroup'
      cases hgroup'
    · obtain rfl := Option.some.inj (hnext.symm.trans hgroup')
      refine ⟨⟨hloses.fingerprint.trans hrepresented.fingerprint, hloses.canonical,
        hloses.representative⟩, fun id hid => ?_⟩
      obtain ⟨hmem, hnot⟩ := List.mem_filter.1 (hloses.members.mem_iff.1 hid)
      exact hpresent id hmem (of_decide_eq_true hnot)
  refine ⟨?_, ?_, ?_, ?_, ?_, ?_, ?_, ?_, ?_, ?_⟩
  · rw [hmemory]
    exact h.wellKeyed.without _
  · rw [hmemory, htables]
    exact h.get_requests_without _
  · rw [htables]
    intro id row hrow
    have hrow : (s.2.requests.withoutBy _ _).get? id = some row := hrow
    rw [Dict.get?_withoutBy, Option.filter_eq_some_iff] at hrow
    exact h.columns id row hrow.1
  · rw [hmemory, htables]
    intro id
    refine (FindingStore.get_without ..).trans (Eq.trans ?_ (Dict.get?_without ..).symm)
    rw [h.findings]
  · intro value
    obtain ⟨hmem, hrows⟩ := h.get?_groups_deleted projectId value
    exact hmem.trans hrows.symm
  · exact fun value group' hgroup' => (hsurvives value group' hgroup').1
  · rw [hmemory] at hsurvives ⊢
    exact fun value group' hgroup' => (hsurvives value group' hgroup').2
  · rw [hmemory, htables]
    have hruns := h.runs.deleteProjectRuns projectId
    rw [ScanTables.write] at hruns
    split_ifs at hruns with hnone
    · rw [List.isEmpty_iff.1 hnone, deleteRuns_nil]
      exact hruns
    · exact hruns
  · rw [htables]
    intro runId row hrow
    have hrow : (s.2.runs.runs.filter _).get? runId = some row := hrow
    rw [Dict.get?_filter, Option.filter_eq_some_iff] at hrow
    exact h.runRows runId row hrow.1
  · rw [hmemory, htables]
    exact h.tickets

lemma deleteProject (h : Consistent s) (projectId : String) (order : SetOrder) :
    Consistent (pipelineStep build s (.deleteProject projectId order)) := by
  rw [pipelineStep]
  by_cases hdeletable : Deletable s projectId
  · obtain ⟨hrow, found, hfound⟩ := hdeletable
    rw [deleteProject_of_none h.wellKeyed hrow hfound]
    exact h.deleted projectId
  · obtain ⟨error, herror⟩ := deleteProject_of_not_deletable hdeletable order none
    rw [herror]
    exact h

/-- **One operation** keeps memory and tables in agreement. -/
lemma step (h : Consistent s) {op : PipelineOp} (hop : AdmissiblePipelineOp s op) :
    Consistent (pipelineStep build s op) := by
  cases op with
  | saveRequest request => exact h.saveRequest hop
  | addFinding finding => exact h.addFinding finding
  | persistTicket ticket => exact h.persistTicket ticket
  | deduplicate findingIds => exact h.deduplicate findingIds
  | run op => exact h.run hop
  | restart loaded => exact h.restart hop
  | deleteProject projectId order => exact h.deleteProject projectId order
  | recordEvent event => exact { h with }
  | saveProject | recordValidation | recordProof | recordAssessment | recordSla
  | recordEscalation | recordRemediation => exact { h with }

end Consistent

/-- **Every reachable state** is consistent. -/
theorem consistent_exec {build : FingerprintBuilder} {ops : List PipelineOp}
    (hops : Throughout (pipelineStep build) AdmissiblePipelineOp .empty ops) :
    Consistent (exec (pipelineStep build) .empty ops) :=
  exec_invariant Consistent (fun _ _ h hop => h.step hop) consistent_empty hops

end Sast
