import SastEngine.Scan.RunTables

/-!
# The scan history after a restart

The store and its tables hold the same records: every operation keeps them so, and a store loaded
from the tables agrees with them whatever the order of the rows.  Two stores that agree with the
same tables answer every read alike.
-/

namespace Sast

/-! ## What is expected -/

/-- Two answers of a read of runs: the same runs, in the same order but for equal start times, or
the same exception. -/
def SameRuns : Except ScanRunStore.ReadError (List ScanRun) → Except ScanRunStore.ReadError (List ScanRun) → Prop
  | .ok runs, .ok runs' => SameUpToTies (fun run => run.startedAt.instant) runs runs'
  | .error e, .error e' => e = e'
  | _, _ => False

/-- Two stores answer every read alike. -/
structure SameReads (store store' : ScanRunStore) : Prop where
  getRun : ∀ scanRunId, store.getRun scanRunId = store'.getRun scanRunId
  runsForProject : ∀ projectId,
    SameRuns (store.runsForProject projectId) (store'.runsForProject projectId)
  stagesForRun : ∀ scanRunId, store.stagesForRun scanRunId = store'.stagesForRun scanRunId
  executionsForRun : ∀ scanRunId, SameUpToTies (fun e => e.startedAt.instant)
    (store.executionsForRun scanRunId) (store'.executionsForRun scanRunId)
  findingIdsForRun : ∀ scanRunId,
    (store.findingIdsForRun scanRunId).Perm (store'.findingIdsForRun scanRunId)
  runsForFinding : ∀ findingId,
    SameRuns (store.runsForFinding findingId) (store'.runsForFinding findingId)

/-- Executions are begun under new ids, and a restart loads the rows of the tables. -/
def AdmissibleOp (h : RunHistory) : HistoryOp → Prop
  | .begin _ _ executionId _ =>
      ∀ scanRunId, ∀ e ∈ h.store.executionsOf scanRunId, e.executionId ≠ executionId
  | .restart rows => h.tables.Returns rows
  | _ => True

/-! ## Agreement of the store and the tables -/

/-- The store holds the records of the tables. -/
structure StoredIn (store : ScanRunStore) (tables : ScanTables) : Prop where
  runs : ∀ scanRunId, store.getRun scanRunId = (tables.runs.get? scanRunId).map RunRow.payload
  named : ∀ scanRunId run, store.getRun scanRunId = some run → run.scanRunId = scanRunId
  stages : ∀ scanRunId stageName,
    store.stage scanRunId stageName = tables.stages.get? (scanRunId, stageName)
  executions : ∀ scanRunId e, e ∈ store.executionsOf scanRunId
    ↔ ∃ row, tables.executions.get? e.executionId = some row ∧ row.payload = e
      ∧ row.scanRunId = scanRunId
  owned : ∀ executionId row, tables.executions.get? executionId = some row →
    row.payload.executionId = executionId ∧ row.payload.scanRunId = row.scanRunId
  filed : WellFiled store
  findings : ∀ scanRunId findingId, findingId ∈ store.findingIdsForRun scanRunId
    ↔ (tables.findings.get? (scanRunId, findingId)).isSome
  once : ∀ scanRunId, (store.findingIdsForRun scanRunId).Nodup

variable {store store' : ScanRunStore} {tables : ScanTables}

lemma sameRuns_newestFirst {runs runs' : List ScanRun} (h : runs.Perm runs') :
    SameRuns (ScanRunStore.newestFirst runs) (ScanRunStore.newestFirst runs') := by
  unfold ScanRunStore.newestFirst
  rw [h.any_eq, h.any_eq]
  split_ifs
  · rfl
  · exact sameUpToTies_sortDown _ h

lemma mem_producers {findingId scanRunId : String} :
    scanRunId ∈ store.producers findingId ↔ findingId ∈ store.findingIdsForRun scanRunId := by
  simp only [ScanRunStore.producers, List.mem_map, List.mem_filter, decide_eq_true_eq]
  constructor
  · rintro ⟨⟨runId, ids⟩, ⟨hentry, hmem⟩, rfl⟩
    rw [ScanRunStore.findingIdsForRun, (store.lineage.get?_eq_some_iff).2 hentry]
    exact hmem
  · intro hmem
    unfold ScanRunStore.findingIdsForRun at hmem
    cases hids : store.lineage.get? scanRunId with
    | none => simp [hids] at hmem
    | some ids =>
        rw [hids] at hmem
        exact ⟨(scanRunId, ids), ⟨(store.lineage.get?_eq_some_iff).1 hids, hmem⟩, rfl⟩

lemma nodup_producers (store : ScanRunStore) (findingId : String) :
    (store.producers findingId).Nodup :=
  store.lineage.nodup.sublist (List.filter_sublist.map _)

/-- Looking up a list of keys, all of which must be there. -/
lemma mapM_eq_ite {α β : Type} (f : α → Option β) (xs : List α) :
    xs.mapM f = if ∀ x ∈ xs, (f x).isSome then some (xs.filterMap f) else none := by
  induction xs with
  | nil => simp
  | cons x xs ih =>
      rw [List.mapM_cons, ih]
      cases hx : f x with
      | none => simp [hx]
      | some y =>
          by_cases hrest : ∀ x ∈ xs, (f x).isSome
          · simp [hx, if_pos hrest]
          · rw [if_neg hrest, if_neg]
            · rfl
            · exact fun h => hrest fun x hx => h x (List.mem_cons_of_mem _ hx)

/-- Looking up a list of keys in another order. -/
lemma mapM_perm {α β : Type} {f : α → Option β} {xs ys : List α} (h : xs.Perm ys) :
    (xs.mapM f = none ∧ ys.mapM f = none)
      ∨ ∃ as bs, xs.mapM f = some as ∧ ys.mapM f = some bs ∧ as.Perm bs := by
  rw [mapM_eq_ite, mapM_eq_ite]
  by_cases hsome : ∀ x ∈ xs, (f x).isSome
  · have hsome' : ∀ y ∈ ys, (f y).isSome := fun y hy => hsome y (h.mem_iff.2 hy)
    rw [if_pos hsome, if_pos hsome']
    exact Or.inr ⟨_, _, rfl, rfl, h.filterMap f⟩
  · have hsome' : ¬ ∀ y ∈ ys, (f y).isSome :=
      fun hy => hsome fun x hx => hy x (h.mem_iff.1 hx)
    rw [if_neg hsome, if_neg hsome']
    exact Or.inl ⟨rfl, rfl⟩

/-- **Two stores that hold the records of the same tables** answer every read alike. -/
lemma sameReads_of_storedIn (h : StoredIn store tables) (h' : StoredIn store' tables) :
    SameReads store store' := by
  have hgetRun : ∀ scanRunId, store.getRun scanRunId = store'.getRun scanRunId :=
    fun scanRunId => (h.runs scanRunId).trans (h'.runs scanRunId).symm
  have hstage : ∀ scanRunId, store.stage scanRunId = store'.stage scanRunId :=
    fun scanRunId => funext fun name => (h.stages scanRunId name).trans (h'.stages scanRunId name).symm
  refine ⟨hgetRun, ?_, ?_, ?_, ?_, ?_⟩
  · intro projectId
    have hvalues : store.runs.values.Perm store'.runs.values :=
      (Dict.perm_entries hgetRun).map Prod.snd
    exact sameRuns_newestFirst (hvalues.filter _)
  · intro scanRunId
    rw [ScanRunStore.stagesForRun, hstage, ScanRunStore.stagesForRun]
  · intro scanRunId
    refine sameUpToTies_sortUp _ ?_
    rw [List.perm_ext_iff_of_nodup (List.Nodup.of_map _ (h.filed.ids scanRunId))
      (List.Nodup.of_map _ (h'.filed.ids scanRunId))]
    intro e
    rw [h.executions, h'.executions]
  · intro scanRunId
    rw [List.perm_ext_iff_of_nodup (h.once scanRunId) (h'.once scanRunId)]
    intro findingId
    rw [h.findings, h'.findings]
  · intro findingId
    have hproducers : (store.producers findingId).Perm (store'.producers findingId) := by
      rw [List.perm_ext_iff_of_nodup (nodup_producers store findingId)
        (nodup_producers store' findingId)]
      intro scanRunId
      rw [mem_producers, mem_producers, h.findings, h'.findings]
    have hlookup : store'.getRun = store.getRun := funext fun id => (hgetRun id).symm
    unfold ScanRunStore.runsForFinding
    rw [hlookup]
    rcases mapM_perm hproducers with ⟨hnone, hnone'⟩ | ⟨runs, runs', hsome, hsome', hperm⟩
    · rw [hnone, hnone']
      rfl
    · rw [hsome, hsome']
      exact sameRuns_newestFirst hperm

/-! ## Loading -/

lemma StoredIn.scanRunId_eq (h : StoredIn store tables) {scanRunId : String}
    {e : ScanStageExecution} (he : e ∈ store.executionsOf scanRunId) : e.scanRunId = scanRunId := by
  obtain ⟨row, hrow, rfl, hrun⟩ := (h.executions scanRunId e).1 he
  exact (h.owned _ row hrow).2.trans hrun

lemma getRun_setFactory {rows : ScanRows} (hrows : tables.Returns rows) (scanRunId : String) :
    (ScanRunStore.setFactory rows).getRun scanRunId
      = (tables.runs.get? scanRunId).map RunRow.payload := by
  have hn : (rows.runs.map Prod.fst).Nodup :=
    ((hrows.runs.map Prod.fst).nodup_iff).2 tables.runs.nodup
  have h := Dict.get?_foldl_entries (fun _ _ (row : RunRow) => row.payload) Dict.empty
    ⟨rows.runs, hn⟩ scanRunId
  have hlookup : (Dict.mk rows.runs hn).get? scanRunId = tables.runs.get? scanRunId :=
    Dict.getEntry_perm hrows.runs scanRunId
  rw [ScanRunStore.getRun, ScanRunStore.setFactory, h, hlookup]
  cases tables.runs.get? scanRunId with
  | none => rfl
  | some row => rfl

lemma stage_setFactory {rows : ScanRows} (hrows : tables.Returns rows)
    (hfiled : ∀ scanRunId stageName stage, tables.stages.get? (scanRunId, stageName) = some stage →
      stage.scanRunId = scanRunId ∧ stage.stageName = stageName) (scanRunId stageName : String) :
    (ScanRunStore.setFactory rows).stage scanRunId stageName
      = tables.stages.get? (scanRunId, stageName) := by
  have hkey : ∀ row ∈ rows.stages, row.1 = (row.2.scanRunId, row.2.stageName) := by
    rintro ⟨⟨runId, name⟩, stage⟩ hrow
    obtain ⟨hrun, hname⟩ := hfiled runId name stage
      ((tables.stages.get?_eq_some_iff).2 (hrows.stages.mem_iff.1 hrow))
    exact Prod.ext hrun.symm hname.symm
  have hkeys : (rows.stages.map Prod.fst).Nodup :=
    ((hrows.stages.map Prod.fst).nodup_iff).2 tables.stages.nodup
  set own := rows.stages.filter fun row => row.2.scanRunId = scanRunId with hown
  have hnames : ((own.map fun row => (row.2.stageName, row.2)).map Prod.fst).Nodup := by
    have hpairs : own.map Prod.fst = (own.map fun row => row.2.stageName).map (Prod.mk scanRunId) := by
      rw [List.map_map]
      refine List.map_congr_left fun row hrow => ?_
      obtain ⟨hmem, hrun⟩ := List.mem_filter.1 hrow
      rw [hkey row hmem, of_decide_eq_true hrun]
      rfl
    rw [List.map_map]
    refine List.Nodup.of_map (Prod.mk scanRunId) ?_
    exact hpairs ▸ hkeys.sublist (List.filter_sublist.map _)
  have hgroup : ((ScanRunStore.setFactory rows).stages.get? scanRunId).getD Dict.empty
      = (own.map fun row => (row.2.stageName, row.2)).foldl (fun d e => d.set e.1 e.2)
        Dict.empty := by
    rw [List.foldl_map, ScanRunStore.setFactory, Dict.get?_groupInto, ← hown]
    exact Dict.getD_gathered (fun _ => rfl) own
  rw [ScanRunStore.stage, hgroup, Dict.get?_foldl_set _ hnames, Dict.get?_empty, Option.or_none]
  ext stage
  rw [Dict.getEntry_eq_some hnames, Dict.get?_eq_some_iff, ← hrows.stages.mem_iff, List.mem_map]
  constructor
  · rintro ⟨row, hrow, heq⟩
    obtain ⟨hmem, hrun⟩ := List.mem_filter.1 hrow
    obtain ⟨rfl, rfl⟩ := Prod.mk.inj heq
    rw [← of_decide_eq_true hrun, ← hkey row hmem]
    exact hmem
  · intro hmem
    obtain ⟨hrun, hname⟩ := Prod.mk.inj (hkey _ hmem)
    exact ⟨_, List.mem_filter.2 ⟨hmem, decide_eq_true hrun.symm⟩, Prod.ext hname.symm rfl⟩

lemma executionsOf_setFactory (rows : ScanRows) (scanRunId : String) :
    (ScanRunStore.setFactory rows).executionsOf scanRunId
      = sortUp (fun e => e.startedAt.instant)
        ((rows.executions.filter fun row => row.2.payload.scanRunId = scanRunId).map
          fun row => row.2.payload) := by
  rw [← Dict.getD_get?_collect, ScanRunStore.executionsOf, ScanRunStore.setFactory,
    Dict.get?_mapValues]
  cases (Dict.collect _ _ rows.executions).get? scanRunId with
  | none => rfl
  | some executions => rfl

lemma findingIdsForRun_setFactory (rows : ScanRows) (scanRunId : String) :
    (ScanRunStore.setFactory rows).findingIdsForRun scanRunId
      = (rows.findings.filter fun row => row.1.1 = scanRunId).map fun row => row.1.2 :=
  Dict.getD_get?_collect ..

/-- Executions of a loaded store are those of the rows, each with its own id. -/
lemma wellFiled_setFactory {rows : ScanRows} (h : StoredIn store tables)
    (hrows : tables.Returns rows)
    (hmem : ∀ scanRunId e, e ∈ (ScanRunStore.setFactory rows).executionsOf scanRunId
      ↔ ∃ row, tables.executions.get? e.executionId = some row ∧ row.payload = e
        ∧ row.scanRunId = scanRunId) : WellFiled (.setFactory rows) := by
  refine ⟨?_, ?_, ?_⟩
  · intro scanRunId
    rw [executionsOf_setFactory]
    refine ((perm_sortUp _ _).map _).nodup_iff.2 ?_
    have hkeys : (rows.executions.map Prod.fst).Nodup :=
      ((hrows.executions.map Prod.fst).nodup_iff).2 tables.executions.nodup
    have hids : ((rows.executions.filter fun row => row.2.payload.scanRunId = scanRunId).map
        fun row => row.2.payload).map ScanStageExecution.executionId
          = (rows.executions.filter fun row => row.2.payload.scanRunId = scanRunId).map
            Prod.fst := by
      rw [List.map_map]
      refine List.map_congr_left fun row hrow => ?_
      have hrow := hrows.executions.mem_iff.1 (List.mem_filter.1 hrow).1
      exact (h.owned row.1 row.2 ((tables.executions.get?_eq_some_iff).2 hrow)).1
    exact hids ▸ hkeys.sublist (List.filter_sublist.map _)
  · intro runA runB a ha b hb hab
    obtain ⟨row, hrow, -, rfl⟩ := (hmem runA a).1 ha
    obtain ⟨row', hrow', -, rfl⟩ := (hmem runB b).1 hb
    rw [hab, hrow'] at hrow
    rw [Option.some.inj hrow]
  · intro scanRunId stageName stage hstage
    rw [stage_setFactory hrows fun runId name stage hstage =>
      h.filed.filed runId name stage ((h.stages runId name).trans hstage), ← h.stages] at hstage
    exact h.filed.filed scanRunId stageName stage hstage

/-- **A store loaded from the tables** holds their records. -/
lemma StoredIn.setFactory {rows : ScanRows} (h : StoredIn store tables)
    (hrows : tables.Returns rows) : StoredIn (.setFactory rows) tables := by
  have hexecutions : ∀ scanRunId e, e ∈ (ScanRunStore.setFactory rows).executionsOf scanRunId
      ↔ ∃ row, tables.executions.get? e.executionId = some row ∧ row.payload = e
        ∧ row.scanRunId = scanRunId := by
    intro scanRunId e
    rw [executionsOf_setFactory, (perm_sortUp _ _).mem_iff, List.mem_map]
    constructor
    · rintro ⟨row, hrow, rfl⟩
      obtain ⟨hmem, hrun⟩ := List.mem_filter.1 hrow
      have hget := (tables.executions.get?_eq_some_iff).2 (hrows.executions.mem_iff.1 hmem)
      obtain ⟨hid, hrunId⟩ := h.owned row.1 row.2 hget
      exact ⟨row.2, hid ▸ hget, rfl, hrunId.symm.trans (of_decide_eq_true hrun)⟩
    · rintro ⟨row, hget, rfl, rfl⟩
      have hmem := hrows.executions.mem_iff.2 ((tables.executions.get?_eq_some_iff).1 hget)
      exact ⟨_, List.mem_filter.2 ⟨hmem, decide_eq_true (h.owned _ row hget).2⟩, rfl⟩
  have hrun := getRun_setFactory hrows
  refine ⟨hrun, ?_, ?_, hexecutions, h.owned, wellFiled_setFactory h hrows hexecutions, ?_, ?_⟩
  · intro scanRunId run hget
    exact h.named scanRunId run (((h.runs scanRunId).trans (hrun scanRunId).symm).trans hget)
  · exact stage_setFactory hrows fun runId name stage hstage =>
      h.filed.filed runId name stage ((h.stages runId name).trans hstage)
  · intro scanRunId findingId
    rw [findingIdsForRun_setFactory, List.mem_map, Option.isSome_iff_exists]
    constructor
    · rintro ⟨⟨⟨runId, id⟩, value⟩, hrow, rfl⟩
      obtain ⟨hmem, hrun⟩ := List.mem_filter.1 hrow
      rw [← of_decide_eq_true hrun]
      exact ⟨value, (tables.findings.get?_eq_some_iff).2 (hrows.findings.mem_iff.1 hmem)⟩
    · rintro ⟨value, hget⟩
      have hmem := hrows.findings.mem_iff.2 ((tables.findings.get?_eq_some_iff).1 hget)
      exact ⟨_, List.mem_filter.2 ⟨hmem, decide_eq_true rfl⟩, rfl⟩
  · intro scanRunId
    rw [findingIdsForRun_setFactory]
    have hkeys : (rows.findings.map Prod.fst).Nodup :=
      ((hrows.findings.map Prod.fst).nodup_iff).2 tables.findings.nodup
    have hpairs : (rows.findings.filter fun row => row.1.1 = scanRunId).map Prod.fst
        = ((rows.findings.filter fun row => row.1.1 = scanRunId).map fun row => row.1.2).map
          (Prod.mk scanRunId) := by
      rw [List.map_map]
      refine List.map_congr_left fun row hrow => ?_
      exact Prod.ext (of_decide_eq_true (List.mem_filter.1 hrow).2) rfl
    refine List.Nodup.of_map (Prod.mk scanRunId) ?_
    exact hpairs ▸ hkeys.sublist (List.filter_sublist.map _)

/-! ## One operation -/

lemma storedIn_empty : StoredIn .empty .empty where
  runs _ := rfl
  named _ _ h := by cases h
  stages _ _ := rfl
  executions scanRunId e := by
    constructor
    · intro h
      cases h
    · rintro ⟨row, hrow, -⟩
      cases hrow
  owned _ _ h := by cases h
  filed := wellFiled_empty
  findings scanRunId findingId := by
    constructor
    · intro h
      cases h
    · intro h
      cases h
  once _ := List.nodup_nil

lemma StoredIn.createRun (h : StoredIn store tables) (run : ScanRun) :
    StoredIn (store.createRun run) (tables.upsertRun run) where
  runs scanRunId := by
    rw [ScanRunStore.getRun, ScanRunStore.createRun, Dict.get?_set, ScanTables.upsertRun,
      Dict.get?_set]
    split_ifs with hrun
    · cases tables.runs.get? run.scanRunId with
      | none => rfl
      | some row => rfl
    · exact h.runs scanRunId
  named scanRunId r hr := by
    rw [ScanRunStore.getRun, ScanRunStore.createRun, Dict.get?_set] at hr
    split_ifs at hr with hrun
    · obtain rfl := Option.some.inj hr
      exact hrun.symm
    · exact h.named scanRunId r hr
  stages := h.stages
  executions := h.executions
  owned := h.owned
  filed := ⟨h.filed.ids, h.filed.owner, h.filed.filed⟩
  findings := h.findings
  once := h.once

lemma StoredIn.upsertStage (h : StoredIn store tables) (stage : ScanStageRun) :
    StoredIn (store.upsertStage stage) (tables.upsertStage stage) where
  runs := h.runs
  named := h.named
  stages scanRunId stageName := by
    rw [ScanRunStore.stage_upsertStage, ScanTables.upsertStage, Dict.get?_set, h.stages]
    simp only [Prod.mk.injEq]
  executions := h.executions
  owned := h.owned
  filed := by
    refine ⟨h.filed.ids, h.filed.owner, ?_⟩
    intro scanRunId stageName r hr
    rw [ScanRunStore.stage_upsertStage] at hr
    split_ifs at hr with hstage
    · obtain rfl := Option.some.inj hr
      exact ⟨hstage.1.symm, hstage.2.symm⟩
    · exact h.filed.filed scanRunId stageName r hr
  findings := h.findings
  once := h.once

/-- An id that no execution has is not in the table. -/
lemma StoredIn.fresh (h : StoredIn store tables) {executionId : String}
    (hnew : ∀ scanRunId, ∀ e ∈ store.executionsOf scanRunId, e.executionId ≠ executionId) :
    tables.executions.get? executionId = none := by
  cases hrow : tables.executions.get? executionId with
  | none => rfl
  | some row =>
      have hid := (h.owned executionId row hrow).1
      exact absurd hid (hnew row.scanRunId row.payload
        ((h.executions _ _).2 ⟨row, hid ▸ hrow, rfl, rfl⟩))

lemma StoredIn.begin (h : StoredIn store tables) (scanRunId stageName executionId : String)
    (startedAt : DateTime)
    (hnew : ∀ runId, ∀ e ∈ store.executionsOf runId, e.executionId ≠ executionId) :
    StoredIn (store.beginStageExecution scanRunId stageName executionId startedAt)
      ((tables.upsertExecution
        (begunExecution scanRunId stageName executionId startedAt)).upsertStage
          (store.startedStage scanRunId stageName startedAt)) := by
  have hnone := h.fresh hnew
  have hfiled : WellFiled (store.beginStageExecution scanRunId stageName executionId startedAt) :=
    h.filed.begin hnew
  have hrow : (tables.upsertExecution
      (begunExecution scanRunId stageName executionId startedAt)).executions
        = tables.executions.set executionId
          ⟨scanRunId, stageName, begunExecution scanRunId stageName executionId startedAt⟩ := by
    simp only [ScanTables.upsertExecution, begunExecution, hnone]
  refine ⟨h.runs, h.named, (h.upsertStage _).stages, ?_, ?_, hfiled, h.findings, h.once⟩
  · intro runId e
    rw [executionsOf_begin, List.mem_append, h.executions]
    show _ ↔ ∃ row, (tables.upsertExecution _).executions.get? _ = some row ∧ _
    rw [hrow, Dict.get?_set]
    constructor
    · rintro (⟨row, hget, rfl, rfl⟩ | he)
      · refine ⟨row, ?_, rfl, rfl⟩
        rw [if_neg, hget]
        intro hid
        rw [hid, hnone] at hget
        cases hget
      · split_ifs at he with hrun
        · obtain rfl := List.mem_singleton.1 he
          exact ⟨_, if_pos rfl, rfl, hrun.symm⟩
        · cases he
    · rintro ⟨row, hget, rfl, rfl⟩
      split_ifs at hget with hid
      · obtain rfl := Option.some.inj hget
        right
        rw [if_pos rfl]
        exact List.mem_singleton_self _
      · exact Or.inl ⟨row, hget, rfl, rfl⟩
  · intro id row hget
    have hget : (tables.upsertExecution _).executions.get? id = some row := hget
    rw [hrow, Dict.get?_set] at hget
    split_ifs at hget with hid
    · obtain rfl := Option.some.inj hget
      exact ⟨hid.symm, rfl⟩
    · exact h.owned id row hget

lemma apply_scanRunId (c : Closing) (e : ScanStageExecution) :
    (c.apply e).scanRunId = e.scanRunId := by
  rw [Closing.apply]
  split_ifs <;> rfl

lemma findExecution_eq_some {executionId : String} {e : ScanStageExecution}
    (h : store.findExecution executionId = some e) :
    e.executionId = executionId ∧ ∃ scanRunId, e ∈ store.executionsOf scanRunId := by
  obtain ⟨⟨runId, executions⟩, hentry, hfound⟩ := Option.bind_eq_some_iff.1 h
  have hid : decide (e.executionId = executionId) = true :=
    @List.find?_some _ (fun e => decide (e.executionId = executionId)) e executions hfound
  refine ⟨of_decide_eq_true hid, runId, ?_⟩
  rw [ScanRunStore.executionsOf,
    (store.executions.get?_eq_some_iff).2 (List.mem_of_find?_eq_some hentry)]
  exact List.mem_of_find?_eq_some hfound

lemma findExecution_eq_none {executionId : String}
    (h : store.findExecution executionId = none) (scanRunId : String) :
    ∀ e ∈ store.executionsOf scanRunId, e.executionId ≠ executionId := by
  intro e he hid
  unfold ScanRunStore.executionsOf at he
  cases hget : store.executions.get? scanRunId with
  | none => simp [hget] at he
  | some executions =>
      rw [hget] at he
      have hany : executions.any (fun e => decide (e.executionId = executionId)) :=
        List.any_eq_true.2 ⟨e, he, decide_eq_true hid⟩
      rw [ScanRunStore.findExecution, Option.bind_eq_none_iff] at h
      cases hentry : store.executions.entries.find? fun entry =>
          entry.2.any fun e => e.executionId = executionId with
      | none =>
          exact List.find?_eq_none.1 hentry _ ((store.executions.get?_eq_some_iff).1 hget) hany
      | some entry =>
          have hentryAny : (entry.2.any fun e => decide (e.executionId = executionId)) = true :=
            @List.find?_some _ (fun entry : String × List ScanStageExecution =>
              entry.2.any fun e => decide (e.executionId = executionId)) entry _ hentry
          obtain ⟨a, ha, hida⟩ := List.any_eq_true.1 hentryAny
          exact List.find?_eq_none.1 (h entry hentry) a ha hida

/-- The row of an ended execution gets the ending, every other row stays. -/
lemma StoredIn.get?_closeExecution (h : StoredIn store tables) (c : Closing) (id : String) :
    (tables.closeExecution store c.executionId c.ending).executions.get? id
      = (tables.executions.get? id).map fun row => { row with payload := c.apply row.payload } := by
  have hother : ∀ row, tables.executions.get? id = some row → id ≠ c.executionId →
      c.apply row.payload = row.payload := by
    intro row hrow hid
    rw [Closing.apply, if_neg]
    rw [(h.owned id row hrow).1]
    exact hid
  have hkeep : (∀ row, tables.executions.get? id = some row → c.apply row.payload = row.payload) →
      tables.executions.get? id = (tables.executions.get? id).map fun row =>
        { row with payload := c.apply row.payload } := by
    intro hsame
    cases hrow : tables.executions.get? id with
    | none => rfl
    | some row => rw [Option.map_some, hsame row hrow]
  cases hfound : store.findExecution c.executionId with
  | none =>
      rw [ScanTables.closeExecution, hfound]
      refine hkeep fun row hrow => hother row hrow ?_
      rintro rfl
      have hrunning := (h.executions row.scanRunId row.payload).2
        ⟨row, (h.owned _ row hrow).1 ▸ hrow, rfl, rfl⟩
      exact findExecution_eq_none hfound _ _ hrunning (h.owned _ row hrow).1
  | some e =>
      obtain ⟨hid, runId, he⟩ := findExecution_eq_some hfound
      obtain ⟨row, hrow, rfl, -⟩ := (h.executions runId e).1 he
      have hclosed : tables.closeExecution store c.executionId c.ending
          = tables.upsertExecution (c.ending.close row.payload) := by
        rw [ScanTables.closeExecution, hfound]
      have hclose : (c.ending.close row.payload).executionId = c.executionId := hid
      rw [hclosed, ScanTables.upsertExecution, Dict.get?_set, hclose]
      rw [hid] at hrow
      split_ifs with hx
      · rw [hx, hrow, Option.map_some, Closing.apply, if_pos hid]
      · exact hkeep fun row hrow => hother row hrow hx

lemma StoredIn.end (h : StoredIn store tables) (c : Closing) :
    StoredIn (store.endStageExecution c.scanRunId c.stageName c.executionId c.ending)
      (tables.endStageExecution store c) := by
  have hrows : ∀ id, (tables.endStageExecution store c).executions.get? id
      = (tables.executions.get? id).map fun row => { row with payload := c.apply row.payload } :=
    h.get?_closeExecution c
  have hrest : (tables.closeExecution store c.executionId c.ending).runs = tables.runs
      ∧ (tables.closeExecution store c.executionId c.ending).stages = tables.stages
      ∧ (tables.closeExecution store c.executionId c.ending).findings = tables.findings := by
    unfold ScanTables.closeExecution
    cases store.findExecution c.executionId with
    | none => exact ⟨rfl, rfl, rfl⟩
    | some e => exact ⟨rfl, rfl, rfl⟩
  obtain ⟨hruns, hstages, hfindings⟩ := hrest
  have hstore : ∀ executionId ending,
      (store.updateExecution executionId ending).runs = store.runs
      ∧ (store.updateExecution executionId ending).lineage = store.lineage := by
    intro executionId ending
    unfold ScanRunStore.updateExecution
    split <;> exact ⟨rfl, rfl⟩
  have hgetRun : ∀ scanRunId, (store.endStageExecution c.scanRunId c.stageName c.executionId
      c.ending).getRun scanRunId = store.getRun scanRunId :=
    fun scanRunId => congrArg (fun runs => Dict.get? runs scanRunId) (hstore _ _).1
  have hlineage : ∀ scanRunId, (store.endStageExecution c.scanRunId c.stageName c.executionId
      c.ending).findingIdsForRun scanRunId = store.findingIdsForRun scanRunId :=
    fun scanRunId => congrArg (fun lineage => (Dict.get? lineage scanRunId).getD []) (hstore _ _).2
  refine ⟨?_, ?_, ?_, ?_, ?_, h.filed.end c, ?_, ?_⟩
  · intro scanRunId
    rw [hgetRun, h.runs, ← hruns]
    rfl
  · intro scanRunId run hrun
    exact h.named scanRunId run (hgetRun scanRunId ▸ hrun)
  · intro scanRunId stageName
    rw [stage_end, ScanTables.endStageExecution, ScanTables.upsertStage, Dict.get?_set, hstages,
      h.stages scanRunId]
    simp only [Prod.mk.injEq]
    rfl
  · intro scanRunId e
    rw [executionsOf_end h.filed, List.mem_map, hrows]
    constructor
    · rintro ⟨e, he, rfl⟩
      obtain ⟨row, hrow, rfl, rfl⟩ := (h.executions scanRunId e).1 he
      rw [apply_executionId, hrow]
      exact ⟨_, rfl, rfl, rfl⟩
    · rintro ⟨row', hrow', rfl, rfl⟩
      obtain ⟨row, hrow, rfl⟩ := Option.map_eq_some_iff.1 hrow'
      rw [apply_executionId] at hrow
      exact ⟨row.payload, (h.executions _ _).2 ⟨row, hrow, rfl, rfl⟩, rfl⟩
  · intro id row' hrow'
    rw [hrows] at hrow'
    obtain ⟨row, hrow, rfl⟩ := Option.map_eq_some_iff.1 hrow'
    rw [apply_executionId, apply_scanRunId]
    exact h.owned id row hrow
  · intro scanRunId findingId
    rw [hlineage, h.findings, ← hfindings]
    rfl
  · intro scanRunId
    rw [hlineage]
    exact h.once scanRunId

lemma StoredIn.addFindingLineage (h : StoredIn store tables) (scanRunId findingId : String) :
    StoredIn (store.addFindingLineage scanRunId findingId)
      (tables.addFinding scanRunId findingId) := by
  have hids : ∀ runId, (store.addFindingLineage scanRunId findingId).findingIdsForRun runId
      = if runId = scanRunId ∧ findingId ∉ store.findingIdsForRun scanRunId
          then store.findingIdsForRun runId ++ [findingId] else store.findingIdsForRun runId := by
    intro runId
    rw [ScanRunStore.findingIdsForRun, ScanRunStore.addFindingLineage, Dict.get?_set]
    by_cases hrun : runId = scanRunId
    · subst hrun
      by_cases hmem : findingId ∈ store.findingIdsForRun runId
      · simp [hmem]
      · simp [hmem]
    · simp [hrun, ScanRunStore.findingIdsForRun]
  have hrows : ∀ key, ((tables.addFinding scanRunId findingId).findings.get? key).isSome
      ↔ key = (scanRunId, findingId) ∨ (tables.findings.get? key).isSome := by
    intro key
    unfold ScanTables.addFinding
    cases hrow : tables.findings.get? (scanRunId, findingId) with
    | none =>
        simp only [Dict.get?_set]
        split_ifs with hkey
        · simp [hkey]
        · simp [hkey]
    | some row =>
        simp only
        constructor
        · exact Or.inr
        · rintro (rfl | hkey)
          · simp [hrow]
          · exact hkey
  have hrest : (tables.addFinding scanRunId findingId).runs = tables.runs
      ∧ (tables.addFinding scanRunId findingId).stages = tables.stages
      ∧ (tables.addFinding scanRunId findingId).executions = tables.executions := by
    unfold ScanTables.addFinding
    split <;> exact ⟨rfl, rfl, rfl⟩
  obtain ⟨hruns, hstages, hexecutions⟩ := hrest
  refine ⟨?_, h.named, ?_, ?_, ?_, ⟨h.filed.ids, h.filed.owner, h.filed.filed⟩, ?_, ?_⟩
  · rw [hruns]
    exact h.runs
  · rw [hstages]
    exact h.stages
  · rw [hexecutions]
    exact h.executions
  · rw [hexecutions]
    exact h.owned
  · intro runId id
    rw [hids, hrows, Prod.mk.injEq, ← h.findings]
    split_ifs with hnew
    · rw [List.mem_append, List.mem_singleton, or_comm]
      simp [hnew.1]
    · constructor
      · exact Or.inr
      · rintro (⟨rfl, rfl⟩ | hmem)
        · by_contra hmem
          exact hnew ⟨rfl, hmem⟩
        · exact hmem
  · intro runId
    rw [hids]
    split_ifs with hnew
    · obtain ⟨rfl, hmem⟩ := hnew
      rw [← List.concat_eq_append]
      exact (h.once runId).concat hmem
    · exact h.once runId

/-- Removing the runs with the given ids from both copies. -/
lemma StoredIn.deleteRuns (h : StoredIn store tables) (runIds : List String) :
    StoredIn ⟨store.runs.eraseAll runIds, store.stages.eraseAll runIds,
      store.executions.eraseAll runIds, store.lineage.eraseAll runIds⟩
      (tables.deleteRuns runIds) := by
  set store' : ScanRunStore := ⟨store.runs.eraseAll runIds, store.stages.eraseAll runIds,
      store.executions.eraseAll runIds, store.lineage.eraseAll runIds⟩
  have hexecutions : ∀ runId, store'.executionsOf runId
      = if runId ∈ runIds then [] else store.executionsOf runId := by
    intro runId
    simp only [store', ScanRunStore.executionsOf, Dict.get?_eraseAll]
    split_ifs <;> rfl
  have hids : ∀ runId, store'.findingIdsForRun runId
      = if runId ∈ runIds then [] else store.findingIdsForRun runId := by
    intro runId
    simp only [store', ScanRunStore.findingIdsForRun, Dict.get?_eraseAll]
    split_ifs <;> rfl
  have hstage : ∀ runId name, store'.stage runId name
      = if runId ∈ runIds then none else store.stage runId name := by
    intro runId name
    simp only [store', ScanRunStore.stage, Dict.get?_eraseAll]
    split_ifs <;> rfl
  have hrun : ∀ runId, store'.getRun runId
      = if runId ∈ runIds then none else store.getRun runId := by
    intro runId
    simp only [store', ScanRunStore.getRun, Dict.get?_eraseAll]
  refine ⟨?_, ?_, ?_, ?_, ?_, ⟨?_, ?_, ?_⟩, ?_, ?_⟩
  · intro runId
    rw [hrun, ScanTables.deleteRuns, Dict.get?_filter, h.runs]
    split_ifs with hmem
    · cases tables.runs.get? runId <;> simp [Option.filter, hmem]
    · cases tables.runs.get? runId <;> simp [Option.filter, hmem]
  · intro runId run hget
    rw [hrun] at hget
    split_ifs at hget
    exact h.named runId run hget
  · intro runId name
    rw [hstage, ScanTables.deleteRuns, Dict.get?_filter, h.stages]
    split_ifs with hmem
    · cases tables.stages.get? (runId, name) <;> simp [Option.filter, hmem]
    · cases tables.stages.get? (runId, name) <;> simp [Option.filter, hmem]
  · intro runId e
    rw [hexecutions, ScanTables.deleteRuns, Dict.get?_filter]
    simp only [Option.filter_eq_some_iff, decide_eq_true_eq]
    split_ifs with hmem
    · constructor
      · intro he
        cases he
      · rintro ⟨row, ⟨-, hkept⟩, -, rfl⟩
        exact absurd hmem hkept
    · rw [h.executions]
      constructor
      · rintro ⟨row, hrow, rfl, rfl⟩
        exact ⟨row, ⟨hrow, hmem⟩, rfl, rfl⟩
      · rintro ⟨row, ⟨hrow, -⟩, rfl, rfl⟩
        exact ⟨row, hrow, rfl, rfl⟩
  · intro id row hrow
    rw [ScanTables.deleteRuns, Dict.get?_filter, Option.filter_eq_some_iff] at hrow
    exact h.owned id row hrow.1
  · intro runId
    rw [hexecutions]
    split_ifs
    · exact List.nodup_nil
    · exact h.filed.ids runId
  · intro runA runB a ha b hb hab
    rw [hexecutions] at ha hb
    split_ifs at ha hb
    · cases ha
    · cases ha
    · cases hb
    · exact h.filed.owner runA runB a ha b hb hab
  · intro runId name r hr
    rw [hstage] at hr
    split_ifs at hr
    exact h.filed.filed runId name r hr
  · intro runId findingId
    rw [hids, ScanTables.deleteRuns, Dict.get?_filter]
    split_ifs with hmem
    · cases tables.findings.get? (runId, findingId) <;> simp [Option.filter, hmem]
    · rw [h.findings]
      cases tables.findings.get? (runId, findingId) <;> simp [Option.filter, hmem]
  · intro runId
    rw [hids]
    split_ifs
    · exact List.nodup_nil
    · exact h.once runId

lemma StoredIn.deleteProjectRuns (h : StoredIn store tables) (projectId : String) :
    StoredIn (store.deleteProjectRuns projectId)
      (tables.write store (.deleteProjectRuns projectId)) := by
  have hdelete := h.deleteRuns (store.runIdsOf projectId)
  unfold ScanTables.write
  simp only
  split_ifs with hempty
  · rw [ScanRunStore.deleteProjectRuns, List.isEmpty_iff.1 hempty]
    exact h
  · exact hdelete

/-- **One operation** keeps the two copies in agreement. -/
lemma StoredIn.step {h : RunHistory} (hstored : StoredIn h.store h.tables) {op : HistoryOp}
    (hop : AdmissibleOp h op) : StoredIn (historyStep h op).store (historyStep h op).tables := by
  cases op with
  | createRun run => exact hstored.createRun run
  | updateRun run => exact hstored.createRun run
  | upsertStage stage => exact hstored.upsertStage stage
  | begin scanRunId stageName executionId startedAt =>
      exact hstored.begin scanRunId stageName executionId startedAt hop
  | complete scanRunId stageName executionId completedAt => exact hstored.end ⟨_, _, _, _⟩
  | fail scanRunId stageName executionId completedAt error => exact hstored.end ⟨_, _, _, _⟩
  | addFindingLineage scanRunId findingId => exact hstored.addFindingLineage scanRunId findingId
  | deleteProjectRuns projectId => exact hstored.deleteProjectRuns projectId
  | clear => exact storedIn_empty
  | restart rows => exact hstored.setFactory hop

/-! ## Runs -/

/-- A new store on an empty database. -/
def RunHistory.empty : RunHistory := ⟨.empty, .empty⟩

lemma storedIn_exec {ops : List HistoryOp} (hops : Throughout historyStep AdmissibleOp .empty ops) :
    StoredIn (exec historyStep .empty ops).store (exec historyStep .empty ops).tables :=
  exec_invariant (fun h => StoredIn h.store h.tables)
    (fun _ _ hstored hop => hstored.step hop) storedIn_empty hops

/-- **Scan history survives a restart**: after any operations, a store loaded from the tables
answers every read as the running store does, in whatever order the rows are returned. -/
theorem sameReads_setFactory (ops : List HistoryOp)
    (hops : Throughout historyStep AdmissibleOp .empty ops) (rows : ScanRows)
    (hrows : (exec historyStep .empty ops).tables.Returns rows) :
    SameReads (exec historyStep .empty ops).store (.setFactory rows) := by
  have hstored := storedIn_exec hops
  exact sameReads_of_storedIn hstored (hstored.setFactory hrows)

/-- A run that is scanned twice, and a second run of the same project. -/
def twoRuns : List HistoryOp :=
  [.createRun ⟨"first", "shop", .running, stageClock 0, none, none, none, none, stageClock 0⟩,
    .begin "first" "SCAN" "a" (stageClock 1),
    .fail "first" "SCAN" "a" (stageClock 2) "timeout",
    .begin "first" "SCAN" "b" (stageClock 3),
    .addFindingLineage "first" "sqli-1", .addFindingLineage "first" "sqli-2",
    .complete "first" "SCAN" "b" (stageClock 4),
    .createRun ⟨"second", "shop", .completed, stageClock 5, none, none, none, none, stageClock 5⟩,
    .addFindingLineage "second" "sqli-1"]

/-- The rows of the tables, the newest first. -/
def ScanTables.newestRows (tables : ScanTables) : ScanRows where
  runs := tables.runs.entries.reverse
  stages := tables.stages.entries.reverse
  executions := tables.executions.entries.reverse
  findings := tables.findings.entries.reverse

theorem sameReads_setFactory_twoRuns :
    SameReads (exec historyStep .empty twoRuns).store
      (.setFactory (exec historyStep .empty twoRuns).tables.newestRows) := by
  refine sameReads_setFactory twoRuns ?_ _ ?_
  · have hfresh : ∀ (store : ScanRunStore) (executionId : String),
        (∀ executions ∈ store.executions.values, ∀ e ∈ executions, e.executionId ≠ executionId) →
        ∀ scanRunId, ∀ e ∈ store.executionsOf scanRunId, e.executionId ≠ executionId :=
      fun store executionId h scanRunId e he => h _ (mem_values_of_mem he) e he
    refine ⟨trivial, hfresh _ "a" (by decide +kernel), trivial, hfresh _ "b" (by decide +kernel),
      trivial, trivial, trivial, trivial, trivial, trivial⟩
  · exact ⟨List.reverse_perm _, List.reverse_perm _, List.reverse_perm _, List.reverse_perm _⟩

end Sast
