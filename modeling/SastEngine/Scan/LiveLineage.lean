import SastEngine.Api.Repositories
import SastEngine.Lib.Interleaving
import SastEngine.Scan.Counting
import SastEngine.Scan.RunHistory
import SastEngine.Scan.RunWrites

/-!
# Scans of a project and its deletion

A scan runs for a long time, and `delete_project` may take effect between two of its changes.  It
removes the runs that are stored at that moment; a scan that is still going on writes on under the
id of its run.  Lineage keeps pointing to stored runs, and nothing of a deleted project is left,
exactly when no scan makes a change after its runs are removed.
-/

namespace Sast

/-! ## The tasks -/

/-- What scans and deletions share: the stores, and the table of projects. -/
structure ScanWorld where
  stores : ScanStores
  projects : Dict String ProjectRow

/-- A scan that goes on: the changes it has still to make. -/
structure ScanTask where
  projectId : String
  scanRunId : String
  remaining : List ScanWrite

/-- Where a call of `delete_project` stands: it lists the runs, collects their lineage, removes the
findings, then the runs, and the row of the project at last. -/
inductive DeletionPhase where
  | listing
  | collecting (scanRunIds findingIds : List String)
  | removing (findingIds : List String)
  | removingRow
  | done
  | failed
deriving DecidableEq

/-- A deletion that goes on. -/
structure DeletionTask where
  projectId : String
  phase : DeletionPhase

/-- A request that works on a project. -/
inductive ProjectTask where
  | scan (task : ScanTask)
  | deletion (task : DeletionTask)

/-- One step of `delete_project`.  The other stores it visits are not those of a scan. -/
def deletionStep (projectId : String) (world : ScanWorld) :
    DeletionPhase → ScanWorld × DeletionPhase
  | .listing =>
      match world.stores.runs.runsForProject projectId with
      | .error _ => (world, .failed)
      | .ok runs => (world, .collecting (runs.map ScanRun.scanRunId) [])
  | .collecting [] findingIds => (world, .removing findingIds)
  | .collecting (scanRunId :: scanRunIds) findingIds =>
      (world, .collecting scanRunIds
        ((findingIds ++ world.stores.runs.findingIdsForRun scanRunId).dedup))
  | .removing (findingId :: findingIds) =>
      ({ world with
          stores := { world.stores with findings := world.stores.findings.remove findingId } },
        .removing findingIds)
  | .removing [] =>
      ({ world with
          stores := { world.stores with
            runs := world.stores.runs.deleteProjectRuns projectId } },
        .removingRow)
  | .removingRow => ({ world with projects := world.projects.erase projectId }, .done)
  | .done => (world, .done)
  | .failed => (world, .failed)

/-- One step of a request. -/
def projectStep (world : ScanWorld) : ProjectTask → ScanWorld × ProjectTask
  | .scan task =>
      match task.remaining with
      | [] => (world, .scan task)
      | write :: rest =>
          ({ world with stores := write.remember world.stores },
            .scan { task with remaining := rest })
  | .deletion task =>
      let next := deletionStep task.projectId world task.phase
      (next.1, .deletion { task with phase := next.2 })

namespace ProjectTask

/-- The project and the run of a scan. -/
def own : ProjectTask → Option (String × String)
  | scan task => some (task.projectId, task.scanRunId)
  | deletion _ => none

/-- The project that a deletion is about. -/
def deletes : ProjectTask → Option String
  | scan _ => none
  | deletion task => some task.projectId

/-- The project whose runs a deletion has removed. -/
def removed : ProjectTask → Option String
  | scan _ => none
  | deletion task =>
      if task.phase = .removingRow ∨ task.phase = .done then some task.projectId else none

/-- The project in which a scan makes its next change. -/
def changes : ProjectTask → Option String
  | scan task => if task.remaining.isEmpty then none else some task.projectId
  | deletion _ => none

/-- The request has been answered. -/
def Finished : ProjectTask → Prop
  | scan task => task.remaining = []
  | deletion task => task.phase = .done ∨ task.phase = .failed

instance (task : ProjectTask) : Decidable task.Finished :=
  match task with
  | scan task => decidable_of_iff (task.remaining.isEmpty = true) List.isEmpty_iff
  | deletion task => inferInstanceAs (Decidable (task.phase = .done ∨ task.phase = .failed))

end ProjectTask

variable (py : Stdlib) (rules : List ScanRule)

/-- A scan that has read the row of its project and has made no change yet. -/
def scanTask (projectId : String) (row : ProjectRow) (codeModel : CodeModel)
    (stamps : ScanStamps) : ScanTask where
  projectId := projectId
  scanRunId := stamps.scanRunId
  remaining := scanWrites projectId (some row.createdAt) stamps
    (scan py rules codeModel (some projectId))

/-- Requests start by reading the row of their project.  A scan draws a new run id and reads the
clock in UTC; a project is deleted once. -/
def Starts (before : ScanWorld) (p : Pool ScanWorld ProjectTask) : ProjectTask → Prop
  | .scan task => ∃ row codeModel stamps, p.shared.projects.get? task.projectId = some row
      ∧ stamps.now.isAware ∧ before.stores.runs.getRun stamps.scanRunId = none
      ∧ (∀ projectId, some (projectId, stamps.scanRunId) ∉ p.tasks.map ProjectTask.own)
      ∧ task = scanTask py rules task.projectId row codeModel stamps
  | .deletion task => (p.shared.projects.get? task.projectId).isSome ∧ task.phase = .listing
      ∧ some task.projectId ∉ p.tasks.map ProjectTask.deletes

/-- The requests and the world, before the first request. -/
def Pool.initial (before : ScanWorld) : Pool ScanWorld ProjectTask := ⟨before, []⟩

/-- Interleavings of scans and deletions. -/
abbrev ProjectMoves (before : ScanWorld) (moves : List (Move ProjectTask)) : Prop :=
  Throughout (Pool.step projectStep)
    (Pool.Allows (Starts py rules before) fun _ _ => True) (.initial before) moves

/-! ## What is expected -/

/-- Every run with lineage is stored, and `runs_for_finding` answers. -/
def LiveLineage (store : ScanRunStore) : Prop :=
  (∀ scanRunId, (store.lineage.get? scanRunId).isSome → (store.getRun scanRunId).isSome)
    ∧ ∀ findingId, ∃ runs, store.runsForFinding findingId = .ok runs

/-- The runs of a project: those before the first request, and those of its scans. -/
def OwnRun (before : ScanWorld) (tasks : List ProjectTask) (projectId scanRunId : String) : Prop :=
  (∃ run, before.stores.runs.getRun scanRunId = some run ∧ run.projectId = projectId)
    ∨ some (projectId, scanRunId) ∈ tasks.map ProjectTask.own

/-- Nothing is stored of a project: no run, and nothing under the ids of its runs. -/
def NothingLeft (before : ScanWorld) (p : Pool ScanWorld ProjectTask) (projectId : String) :
    Prop :=
  p.shared.stores.runs.runIdsOf projectId = []
    ∧ ∀ scanRunId, OwnRun before p.tasks projectId scanRunId →
      p.shared.stores.runs.getRun scanRunId = none
        ∧ p.shared.stores.runs.stages.get? scanRunId = none
        ∧ p.shared.stores.runs.executions.get? scanRunId = none
        ∧ p.shared.stores.runs.lineage.get? scanRunId = none

/-- The runs of the project have been removed. -/
def RunsRemoved (tasks : List ProjectTask) (projectId : String) : Prop :=
  some projectId ∈ tasks.map ProjectTask.removed

instance (tasks : List ProjectTask) (projectId : String) :
    Decidable (RunsRemoved tasks projectId) :=
  inferInstanceAs (Decidable (some projectId ∈ tasks.map ProjectTask.removed))

/-- Lineage is live at every point of an interleaving, and at its end nothing is left of a project
that has been deleted. -/
structure KeepsLineage (before : ScanWorld) (moves : List (Move ProjectTask)) : Prop where
  live : ∀ n, LiveLineage
    (exec (Pool.step projectStep) (.initial before) (moves.take n)).shared.stores.runs
  gone : ∀ projectId,
    RunsRemoved (exec (Pool.step projectStep) (.initial before) moves).tasks projectId →
      NothingLeft before (exec (Pool.step projectStep) (.initial before) moves) projectId

/-- No scan makes a change after the runs of its project have been removed. -/
def BeforeRemoval (p : Pool ScanWorld ProjectTask) : Move ProjectTask → Prop
  | .start _ => True
  | .advance i => ∀ task ∈ p.tasks[i]?, ∀ projectId ∈ task.changes,
      ¬ RunsRemoved p.tasks projectId

instance (p : Pool ScanWorld ProjectTask) (move : Move ProjectTask) :
    Decidable (BeforeRemoval p move) :=
  match move with
  | .start _ => isTrue trivial
  | .advance i => inferInstanceAs (Decidable (∀ task ∈ p.tasks[i]?, ∀ projectId ∈ task.changes,
      ¬ RunsRemoved p.tasks projectId))

variable {py rules}

/-! ## The changes of a scan -/

/-- The change is one of the run with the id, in the project. -/
def ScanWrite.Of (projectId scanRunId : String) : ScanWrite → Prop
  | .saveRun run =>
      run.scanRunId = scanRunId ∧ run.projectId = projectId ∧ run.startedAt.isAware
  | .upsertStage stage => stage.scanRunId = scanRunId
  | .appendExecution execution => execution.scanRunId = scanRunId
  | .startStage runId _ _ | .endStage runId _ _ | .addLineage runId _ => runId = scanRunId
  | .endExecution .. | .addFinding _ => True

lemma of_beginWrites (projectId scanRunId stageName executionId : String) (startedAt : DateTime) :
    ∀ write ∈ beginWrites scanRunId stageName executionId startedAt,
      write.Of projectId scanRunId := by
  simp [beginWrites, ScanWrite.Of, begunExecution]

lemma of_endWrites (projectId scanRunId stageName executionId : String)
    (ending : ScanRunStore.Ending) :
    ∀ write ∈ endWrites scanRunId stageName executionId ending, write.Of projectId scanRunId := by
  simp [endWrites, ScanWrite.Of]

/-- Every change of a scan is one of its own run. -/
lemma of_scanWrites {projectId : String} {projectCreatedAt : Option DateTime} {stamps : ScanStamps}
    {outcome : Except String ScanReport} (haware : stamps.now.isAware) :
    ∀ write ∈ scanWrites projectId projectCreatedAt stamps outcome,
      write.Of projectId stamps.scanRunId := by
  have hopen : ∀ write ∈ openWrites projectId projectCreatedAt stamps,
      write.Of projectId stamps.scanRunId := by
    intro write hwrite
    simp only [openWrites, List.cons_append, List.mem_cons, List.mem_append, List.mem_map] at hwrite
    rcases hwrite with rfl | (⟨name, -, rfl⟩ | hwrite) | hwrite
    · exact ⟨rfl, rfl, haware⟩
    · rfl
    · exact of_beginWrites _ _ _ _ _ write hwrite
    · exact of_endWrites _ _ _ _ _ write hwrite
  intro write hwrite
  simp only [scanWrites, List.mem_append] at hwrite
  rcases hwrite with (hwrite | hwrite) | hwrite
  · exact hopen write hwrite
  · exact of_beginWrites _ _ _ _ _ write hwrite
  · cases outcome with
    | error exc =>
        simp only [List.mem_append, List.mem_singleton] at hwrite
        rcases hwrite with hwrite | rfl
        · exact of_endWrites _ _ _ _ _ write hwrite
        · exact ⟨rfl, rfl, haware⟩
    | ok report =>
        simp only [List.mem_append, List.mem_map, List.mem_singleton] at hwrite
        rcases hwrite with ((⟨f, -, rfl⟩ | ⟨f, -, rfl⟩) | hwrite) | rfl
        · trivial
        · rfl
        · exact of_endWrites _ _ _ _ _ write hwrite
        · exact ⟨rfl, rfl, haware⟩

/-- The last change of a scan stores its run. -/
lemma scanWrites_concat (projectId : String) (projectCreatedAt : Option DateTime)
    (stamps : ScanStamps) (outcome : Except String ScanReport) :
    ∃ writes run, scanWrites projectId projectCreatedAt stamps outcome
      = writes ++ [.saveRun run] := by
  cases outcome with
  | error exc => exact ⟨_, _, (List.append_assoc ..).symm⟩
  | ok report => exact ⟨_, _, (List.append_assoc ..).symm⟩

variable {projectId scanRunId : String} {write : ScanWrite} {stores : ScanStores}

/-- A change leaves a run as it is, or it is the run of the change and is stored. -/
lemma ScanWrite.Of.getRun (h : write.Of projectId scanRunId) (stores : ScanStores)
    (runId : String) :
    (write.remember stores).runs.getRun runId = stores.runs.getRun runId
      ∨ runId = scanRunId ∧ ∃ run, (write.remember stores).runs.getRun runId = some run
        ∧ run.scanRunId = scanRunId ∧ run.projectId = projectId ∧ run.startedAt.isAware := by
  cases write with
  | saveRun run =>
      obtain ⟨rfl, rfl, haware⟩ := h
      have hget : ((ScanWrite.saveRun run).remember stores).runs.getRun runId
          = if runId = run.scanRunId then some run else stores.runs.getRun runId :=
        ScanRunStore.getRun_createRun _ _ _
      rw [hget]
      split_ifs with hrun
      · exact Or.inr ⟨hrun, run, rfl, rfl, rfl, haware⟩
      · exact Or.inl rfl
  | endExecution executionId ending =>
      left
      show (stores.runs.updateExecution executionId ending).getRun runId = _
      unfold ScanRunStore.updateExecution
      split <;> rfl
  | upsertStage | appendExecution | startStage | endStage | addFinding | addLineage =>
      exact Or.inl rfl

/-- A change files records under the id of its run only. -/
lemma ScanWrite.Of.filed (h : write.Of projectId scanRunId) (stores : ScanStores)
    (runId : String) :
    (((write.remember stores).runs.stages.get? runId).isSome →
        runId = scanRunId ∨ (stores.runs.stages.get? runId).isSome)
      ∧ (((write.remember stores).runs.executions.get? runId).isSome →
        runId = scanRunId ∨ (stores.runs.executions.get? runId).isSome)
      ∧ (((write.remember stores).runs.lineage.get? runId).isSome →
        runId = scanRunId ∨ (stores.runs.lineage.get? runId).isSome) := by
  have hset : ∀ {β : Type} (d : Dict String β) (key : String) (v : β),
      key = scanRunId → ((d.set key v).get? runId).isSome →
        runId = scanRunId ∨ (d.get? runId).isSome := by
    rintro β d key v rfl hsome
    rw [Dict.get?_set] at hsome
    split_ifs at hsome with hrun
    · exact Or.inl hrun
    · exact Or.inr hsome
  cases write with
  | saveRun | addFinding => exact ⟨Or.inr, Or.inr, Or.inr⟩
  | upsertStage stage => exact ⟨hset _ _ _ h, Or.inr, Or.inr⟩
  | startStage | endStage => exact ⟨hset _ _ _ h, Or.inr, Or.inr⟩
  | appendExecution execution => exact ⟨Or.inr, hset _ _ _ h, Or.inr⟩
  | addLineage => exact ⟨Or.inr, Or.inr, hset _ _ _ h⟩
  | endExecution executionId ending =>
      have hstages : (stores.runs.updateExecution executionId ending).stages = stores.runs.stages
          ∧ (stores.runs.updateExecution executionId ending).lineage = stores.runs.lineage := by
        unfold ScanRunStore.updateExecution
        split <;> exact ⟨rfl, rfl⟩
      refine ⟨fun hsome => Or.inr (hstages.1 ▸ hsome), ?_, fun hsome => Or.inr (hstages.2 ▸ hsome)⟩
      show ((stores.runs.updateExecution executionId ending).executions.get? runId).isSome → _
      unfold ScanRunStore.updateExecution
      split
      · next key executions hfound =>
          intro hsome
          rw [Dict.get?_set] at hsome
          split_ifs at hsome with hrun
          · subst hrun
            rw [(stores.runs.executions.get?_eq_some_iff).2 (List.mem_of_find?_eq_some hfound)]
            exact Or.inr rfl
          · exact Or.inr hsome
      · exact Or.inr

/-! ## Rooted stores -/

/-- Runs are stored under their own ids and started at aware times, and no record of another kind
is without its run. -/
structure WellRooted (store : ScanRunStore) : Prop where
  named : ∀ scanRunId run, store.getRun scanRunId = some run →
    run.scanRunId = scanRunId ∧ run.startedAt.isAware
  stages : ∀ scanRunId, (store.stages.get? scanRunId).isSome → (store.getRun scanRunId).isSome
  executions : ∀ scanRunId,
    (store.executions.get? scanRunId).isSome → (store.getRun scanRunId).isSome
  lineage : ∀ scanRunId, (store.lineage.get? scanRunId).isSome → (store.getRun scanRunId).isSome

lemma wellRooted_empty : WellRooted .empty where
  named _ _ h := by cases h
  stages _ h := by cases h
  executions _ h := by cases h
  lineage _ h := by cases h

/-- Of rooted stores, `runs_for_finding` answers. -/
lemma WellRooted.liveLineage {store : ScanRunStore} (h : WellRooted store) :
    LiveLineage store := by
  refine ⟨h.lineage, fun findingId => ?_⟩
  have hstored : ∀ scanRunId ∈ store.producers findingId, (store.getRun scanRunId).isSome := by
    intro scanRunId hmem
    refine h.lineage scanRunId ?_
    rw [mem_producers, ScanRunStore.findingIdsForRun] at hmem
    cases hids : store.lineage.get? scanRunId with
    | none => simp [hids] at hmem
    | some ids => rfl
  have haware : ∀ run ∈ (store.producers findingId).filterMap store.getRun,
      run.startedAt.isAware := by
    intro run hrun
    obtain ⟨scanRunId, -, hget⟩ := List.mem_filterMap.1 hrun
    exact (h.named scanRunId run hget).2
  rw [ScanRunStore.runsForFinding, mapM_eq_ite, if_pos hstored]
  refine ⟨_, if_neg ?_⟩
  rw [Bool.and_eq_true, not_and, List.any_eq_true]
  rintro - hnaive
  obtain ⟨run, hrun, hnot⟩ := List.any_eq_true.1 hnaive
  simp [haware run hrun] at hnot

/-- A change of a run that is stored, or that it stores, keeps the stores rooted. -/
lemma WellRooted.remember {stores : ScanStores} (h : WellRooted stores.runs)
    (hwrite : write.Of projectId scanRunId)
    (hstored : ((write.remember stores).runs.getRun scanRunId).isSome) :
    WellRooted (write.remember stores).runs := by
  have hkeep : ∀ runId, (runId = scanRunId ∨ (stores.runs.getRun runId).isSome) →
      ((write.remember stores).runs.getRun runId).isSome := by
    rintro runId (rfl | hsome)
    · exact hstored
    · rcases hwrite.getRun stores runId with hsame | ⟨-, run, hrun, -⟩
      · rw [hsame]
        exact hsome
      · rw [hrun]
        rfl
  have hfiled := hwrite.filed stores
  refine ⟨?_, ?_, ?_, ?_⟩
  · intro runId run hrun
    rcases hwrite.getRun stores runId with hsame | ⟨rfl, own, hown, hid, -, haware⟩
    · exact h.named runId run (hsame ▸ hrun)
    · rw [hown] at hrun
      obtain rfl := Option.some.inj hrun
      exact ⟨hid, haware⟩
  · exact fun runId hsome => hkeep runId (((hfiled runId).1 hsome).imp_right (h.stages runId))
  · exact fun runId hsome =>
      hkeep runId (((hfiled runId).2.1 hsome).imp_right (h.executions runId))
  · exact fun runId hsome =>
      hkeep runId (((hfiled runId).2.2 hsome).imp_right (h.lineage runId))

/-! ## Removing the runs of a project -/

/-- Removing the runs of a project keeps the stores rooted. -/
lemma WellRooted.deleteProjectRuns {store : ScanRunStore} (h : WellRooted store)
    (projectId : String) : WellRooted (store.deleteProjectRuns projectId) := by
  have hkeep : ∀ {β : Type} (d : Dict String β),
      (∀ runId, (d.get? runId).isSome → (store.getRun runId).isSome) → ∀ runId,
      ((d.eraseAll (store.runIdsOf projectId)).get? runId).isSome →
        ((store.deleteProjectRuns projectId).getRun runId).isSome := by
    intro β d hd runId hsome
    rw [Dict.get?_eraseAll] at hsome
    rw [getRun_deleteProjectRuns]
    split_ifs at hsome with hmem
    · cases hsome
    · rw [if_neg hmem]
      exact hd runId hsome
  refine ⟨?_, hkeep _ h.stages, hkeep _ h.executions, hkeep _ h.lineage⟩
  intro runId run hrun
  rw [getRun_deleteProjectRuns] at hrun
  split_ifs at hrun
  exact h.named runId run hrun

/-! ## The tasks of an interleaving -/

variable {before : ScanWorld} {world world' : ScanWorld} {pre post : List ProjectTask}
  {t t' : ProjectTask}

@[simp] lemma own_projectStep (world : ScanWorld) (t : ProjectTask) :
    (projectStep world t).2.own = t.own := by
  rcases t with ⟨projectId, scanRunId, _ | ⟨write, rest⟩⟩ | task
  · rfl
  · rfl
  · rfl

@[simp] lemma deletes_projectStep (world : ScanWorld) (t : ProjectTask) :
    (projectStep world t).2.deletes = t.deletes := by
  rcases t with ⟨projectId, scanRunId, _ | ⟨write, rest⟩⟩ | task
  · rfl
  · rfl
  · rfl

lemma ownRun_advance (hown : t'.own = t.own) {projectId scanRunId : String} :
    OwnRun before (pre ++ t' :: post) projectId scanRunId
      ↔ OwnRun before (pre ++ t :: post) projectId scanRunId := by
  simp [OwnRun, hown]

lemma ownRun_of_scan {tasks : List ProjectTask} {task : ScanTask} (h : .scan task ∈ tasks) :
    OwnRun before tasks task.projectId task.scanRunId :=
  Or.inr (List.mem_map_of_mem (f := ProjectTask.own) h)

lemma runsRemoved_advance {projectId : String} :
    RunsRemoved (pre ++ t' :: post) projectId
      ↔ t'.removed = some projectId ∨ RunsRemoved (pre ++ post) projectId := by
  simp only [RunsRemoved, List.map_append, List.map_cons, List.mem_append, List.mem_cons,
    eq_comm (a := some projectId)]
  tauto

lemma runsRemoved_concat {tasks : List ProjectTask} (h : t.removed = none) {projectId : String} :
    RunsRemoved (tasks ++ [t]) projectId ↔ RunsRemoved tasks projectId := by
  simp [RunsRemoved, h]

/-- What holds after every interleaving: a run has one project, which is deleted once; the changes
of a scan are those of its run and end with storing it. -/
structure Scheduled (before world : ScanWorld) (tasks : List ProjectTask) : Prop where
  owner : ∀ projectId projectId' scanRunId, OwnRun before tasks projectId scanRunId →
    OwnRun before tasks projectId' scanRunId → projectId = projectId'
  once : (tasks.filterMap ProjectTask.deletes).Nodup
  changes : ∀ task, .scan task ∈ tasks →
    (∀ write ∈ task.remaining, write.Of task.projectId task.scanRunId)
      ∧ (task.remaining = [] ∨ ∃ writes run, task.remaining = writes ++ [.saveRun run])
  named : ∀ runId run, world.stores.runs.getRun runId = some run → run.scanRunId = runId
  owned : ∀ runId run, world.stores.runs.getRun runId = some run →
    OwnRun before tasks run.projectId runId

lemma scheduled_initial (hrooted : WellRooted before.stores.runs) :
    Scheduled before before [] where
  owner projectId projectId' scanRunId h h' := by
    rcases h with ⟨run, hrun, rfl⟩ | h
    · rcases h' with ⟨run', hrun', rfl⟩ | h'
      · rw [Option.some.inj (hrun.symm.trans hrun')]
      · cases h'
    · cases h
  once := List.nodup_nil
  changes task h := by cases h
  named runId run h := (hrooted.named runId run h).1
  owned runId run h := Or.inl ⟨run, h, rfl⟩

/-- A request that starts. -/
lemma Scheduled.start {tasks : List ProjectTask} (h : Scheduled before world tasks)
    (ht : Starts py rules before ⟨world, tasks⟩ t) : Scheduled before world (tasks ++ [t]) := by
  have howned : ∀ projectId scanRunId, OwnRun before tasks projectId scanRunId →
      OwnRun before (tasks ++ [t]) projectId scanRunId := by
    rintro projectId scanRunId (hrun | hmem)
    · exact Or.inl hrun
    · exact Or.inr (List.map_append ▸ List.mem_append_left _ hmem)
  cases t with
  | deletion task =>
      obtain ⟨-, -, hnew⟩ := ht
      refine ⟨?_, ?_, ?_, h.named, fun runId run hrun => howned _ _ (h.owned runId run hrun)⟩
      · have hsame : ∀ projectId scanRunId, OwnRun before (tasks ++ [.deletion task]) projectId
            scanRunId → OwnRun before tasks projectId scanRunId := by
          rintro projectId scanRunId (hrun | hmem)
          · exact Or.inl hrun
          · refine Or.inr ?_
            simpa [ProjectTask.own] using hmem
        exact fun projectId projectId' scanRunId hown hown' =>
          h.owner _ _ _ (hsame _ _ hown) (hsame _ _ hown')
      · rw [List.filterMap_append, List.nodup_append]
        refine ⟨h.once, by simp [ProjectTask.deletes], ?_⟩
        intro projectId hmem projectId' hmem' heq
        obtain rfl : projectId' = task.projectId := by simpa [ProjectTask.deletes] using hmem'
        subst heq
        obtain ⟨d, hd, hdeletes⟩ := List.mem_filterMap.1 hmem
        exact hnew (List.mem_map.2 ⟨d, hd, hdeletes⟩)
      · intro scanning hmem
        refine h.changes scanning ?_
        simpa using hmem
  | scan task =>
      obtain ⟨row, codeModel, stamps, -, haware, hbefore, hnew, htask⟩ := ht
      have hid : task.scanRunId = stamps.scanRunId := by
        rw [htask]
        rfl
      have hcases : ∀ projectId scanRunId, OwnRun before (tasks ++ [.scan task]) projectId
          scanRunId → OwnRun before tasks projectId scanRunId
            ∨ (projectId = task.projectId ∧ scanRunId = task.scanRunId) := by
        rintro projectId scanRunId (hrun | hmem)
        · exact Or.inl (Or.inl hrun)
        · rw [List.map_append, List.mem_append] at hmem
          rcases hmem with hmem | hmem
          · exact Or.inl (Or.inr hmem)
          · right
            simpa [ProjectTask.own] using hmem
      have hfresh : ∀ projectId, ¬ OwnRun before tasks projectId task.scanRunId := by
        rintro projectId (⟨run, hrun, -⟩ | hmem)
        · rw [hid, hbefore] at hrun
          cases hrun
        · exact hnew projectId (hid ▸ hmem)
      refine ⟨?_, ?_, ?_, h.named, fun runId run hrun => howned _ _ (h.owned runId run hrun)⟩
      · intro projectId projectId' scanRunId hown hown'
        rcases hcases _ _ hown with hold | ⟨rfl, rfl⟩
        · rcases hcases _ _ hown' with hold' | ⟨rfl, rfl⟩
          · exact h.owner _ _ _ hold hold'
          · exact absurd hold (hfresh _)
        · rcases hcases _ _ hown' with hold' | ⟨rfl, -⟩
          · exact absurd hold' (hfresh _)
          · rfl
      · rw [List.filterMap_append]
        simpa [List.filterMap_cons, ProjectTask.deletes] using h.once
      · intro scanning hmem
        rcases List.mem_append.1 hmem with hmem | hmem
        · exact h.changes scanning hmem
        · obtain rfl : scanning = task := by simpa using hmem
          rw [htask]
          exact ⟨of_scanWrites haware, Or.inr (scanWrites_concat ..)⟩

/-- A request that goes on: its run and its deletion stay what they are, and a run that is new in
the store is one of a scan. -/
lemma Scheduled.advance (h : Scheduled before world (pre ++ t :: post))
    (hown : t'.own = t.own) (hdeletes : t'.deletes = t.deletes)
    (hchanges : ∀ task, t' = .scan task →
      (∀ write ∈ task.remaining, write.Of task.projectId task.scanRunId)
        ∧ (task.remaining = [] ∨ ∃ writes run, task.remaining = writes ++ [.saveRun run]))
    (hruns : ∀ runId run, world'.stores.runs.getRun runId = some run →
      world.stores.runs.getRun runId = some run
        ∨ run.scanRunId = runId ∧ OwnRun before (pre ++ t :: post) run.projectId runId) :
    Scheduled before world' (pre ++ t' :: post) := by
  refine ⟨?_, ?_, ?_, ?_, ?_⟩
  · intro projectId projectId' scanRunId hproject hproject'
    exact h.owner _ _ _ ((ownRun_advance hown).1 hproject) ((ownRun_advance hown).1 hproject')
  · have hsame : (pre ++ t' :: post).filterMap ProjectTask.deletes
        = (pre ++ t :: post).filterMap ProjectTask.deletes := by
      simp [List.filterMap_cons, hdeletes]
    rw [hsame]
    exact h.once
  · intro task hmem
    rcases List.mem_append.1 hmem with hmem | hmem
    · exact h.changes task (List.mem_append_left _ hmem)
    · rcases List.mem_cons.1 hmem with heq | hmem
      · exact hchanges task heq.symm
      · exact h.changes task (List.mem_append_right _ (List.mem_cons_of_mem _ hmem))
  · intro runId run hrun
    rcases hruns runId run hrun with hold | ⟨hid, -⟩
    · exact h.named runId run hold
    · exact hid
  · intro runId run hrun
    rw [ownRun_advance hown]
    rcases hruns runId run hrun with hold | ⟨-, howns⟩
    · exact h.owned runId run hold
    · exact howns

/-- What a step of a deletion does to the runs: nothing, or it removes those of its project. -/
lemma runs_deletionStep (projectId : String) (world : ScanWorld) (phase : DeletionPhase) :
    (phase = .removing [] ∧ (deletionStep projectId world phase).2 = .removingRow
        ∧ (deletionStep projectId world phase).1.stores.runs
          = world.stores.runs.deleteProjectRuns projectId)
      ∨ ((deletionStep projectId world phase).1.stores.runs = world.stores.runs
        ∧ (ProjectTask.deletion ⟨projectId, (deletionStep projectId world phase).2⟩).removed
          = (ProjectTask.deletion ⟨projectId, phase⟩).removed) := by
  cases phase with
  | listing =>
      right
      simp only [deletionStep]
      split <;> exact ⟨rfl, rfl⟩
  | collecting scanRunIds findingIds =>
      right
      cases scanRunIds <;> exact ⟨rfl, rfl⟩
  | removing findingIds =>
      cases findingIds with
      | nil => exact Or.inl ⟨rfl, rfl, rfl⟩
      | cons findingId findingIds => exact Or.inr ⟨rfl, rfl⟩
  | removingRow | done | failed => exact Or.inr ⟨rfl, rfl⟩

lemma mem_advanced : t ∈ pre ++ t :: post := List.mem_append_right _ (List.mem_cons_self ..)

/-- A run that is in the store after a step was there before, or is the run of the scan that made
the step. -/
lemma Scheduled.getRun_projectStep (h : Scheduled before world (pre ++ t :: post)) {runId : String}
    {run : ScanRun} (hrun : (projectStep world t).1.stores.runs.getRun runId = some run) :
    world.stores.runs.getRun runId = some run
      ∨ run.scanRunId = runId ∧ t.own = some (run.projectId, runId) := by
  rcases t with ⟨projectId, scanRunId, _ | ⟨write, rest⟩⟩ | d
  · exact Or.inl hrun
  · have hof := (h.changes _ mem_advanced).1 write (List.mem_cons_self ..)
    rcases hof.getRun world.stores runId with hsame | ⟨rfl, own, hown, hid, rfl, -⟩
    · exact Or.inl (hsame ▸ hrun)
    · obtain rfl := Option.some.inj (hown.symm.trans hrun)
      exact Or.inr ⟨hid, rfl⟩
  · left
    have hrun : (deletionStep d.projectId world d.phase).1.stores.runs.getRun runId
        = some run := hrun
    rcases runs_deletionStep d.projectId world d.phase with ⟨-, -, hdelete⟩ | ⟨hsame, -⟩
    · rw [hdelete, getRun_deleteProjectRuns] at hrun
      split_ifs at hrun
      exact hrun
    · rw [hsame] at hrun
      exact hrun

/-- One step of an interleaving. -/
lemma Scheduled.step {p : Pool ScanWorld ProjectTask} (h : Scheduled before p.shared p.tasks)
    {move : Move ProjectTask}
    (hmove : p.Allows (Starts py rules before) (fun _ _ => True) move) :
    Scheduled before (p.step projectStep move).shared (p.step projectStep move).tasks := by
  cases move with
  | start t => exact h.start hmove
  | advance i =>
      rcases p.step_advance projectStep i with
        ⟨-, hsame⟩ | ⟨pre, t, post, -, hsplit, hnext⟩
      · rw [hsame]
        exact h
      · rw [hsplit] at h
        rw [hnext]
        refine h.advance (own_projectStep _ _) (deletes_projectStep _ _) ?_ ?_
        · intro task htask
          rcases t with ⟨projectId, scanRunId, _ | ⟨write, rest⟩⟩ | d
          · obtain rfl := ProjectTask.scan.inj htask
            exact h.changes _ mem_advanced
          · obtain rfl := ProjectTask.scan.inj htask
            obtain ⟨hof, hlast⟩ := h.changes _ mem_advanced
            refine ⟨fun w hw => hof w (List.mem_cons_of_mem _ hw), ?_⟩
            rcases hlast with hnil | ⟨writes, run, heq⟩
            · cases hnil
            · cases writes with
              | nil => exact Or.inl (List.cons.inj heq).2
              | cons w writes => exact Or.inr ⟨writes, run, (List.cons.inj heq).2⟩
          · cases htask
        · intro runId run hrun
          refine (h.getRun_projectStep hrun).imp_right fun hown => ⟨hown.1, Or.inr ?_⟩
          exact List.mem_map.2 ⟨t, mem_advanced, hown.2⟩

/-! ## Interleavings in which no scan outlives its project -/

/-- Stores are rooted; the run of a scan in progress is stored, unless it is about to be or has been
removed; of a project whose runs have been removed no run is stored. -/
structure Alive (before world : ScanWorld) (tasks : List ProjectTask) : Prop where
  scheduled : Scheduled before world tasks
  rooted : WellRooted world.stores.runs
  stored : ∀ task, .scan task ∈ tasks → ∀ write ∈ task.remaining.head?,
    ¬ RunsRemoved tasks task.projectId →
      (∃ run, write = .saveRun run) ∨ (world.stores.runs.getRun task.scanRunId).isSome
  removed : ∀ projectId, RunsRemoved tasks projectId →
    ∀ runId run, world.stores.runs.getRun runId = some run → run.projectId ≠ projectId

lemma Alive.start {tasks : List ProjectTask} (h : Alive before world tasks)
    (ht : Starts py rules before ⟨world, tasks⟩ t) : Alive before world (tasks ++ [t]) := by
  have hnone : t.removed = none := by
    cases t with
    | scan task => rfl
    | deletion task =>
        obtain ⟨-, hphase, -⟩ := ht
        simp [ProjectTask.removed, hphase]
  refine ⟨h.scheduled.start ht, h.rooted, ?_, ?_⟩
  · intro task hmem write hwrite hkept
    rcases List.mem_append.1 hmem with hmem | hmem
    · exact h.stored task hmem write hwrite fun hremoved =>
        hkept ((runsRemoved_concat hnone).2 hremoved)
    · obtain rfl := List.mem_singleton.1 hmem
      obtain ⟨row, codeModel, stamps, -, -, -, -, htask⟩ := ht
      rw [htask] at hwrite
      exact Or.inl ⟨_, (Option.some.inj hwrite).symm⟩
  · intro projectId hremoved
    exact h.removed projectId ((runsRemoved_concat hnone).1 hremoved)

/-- A change of a scan whose runs have not been removed. -/
lemma Alive.scan {task : ScanTask} {rest : List ScanWrite}
    (h : Alive before world (pre ++ .scan task :: post)) (hremaining : task.remaining = write :: rest)
    (hkept : ¬ RunsRemoved (pre ++ .scan task :: post) task.projectId)
    (hscheduled : Scheduled before { world with stores := write.remember world.stores }
      (pre ++ .scan { task with remaining := rest } :: post)) :
    Alive before { world with stores := write.remember world.stores }
      (pre ++ .scan { task with remaining := rest } :: post) := by
  have hof : write.Of task.projectId task.scanRunId := by
    refine (h.scheduled.changes task mem_advanced).1 write ?_
    rw [hremaining]
    exact List.mem_cons_self ..
  have hremoved : ∀ projectId,
      RunsRemoved (pre ++ .scan { task with remaining := rest } :: post) projectId
        ↔ RunsRemoved (pre ++ .scan task :: post) projectId := by
    intro projectId
    rw [runsRemoved_advance, runsRemoved_advance]
    rfl
  have hown : ((write.remember world.stores).runs.getRun task.scanRunId).isSome := by
    rcases hof.getRun world.stores task.scanRunId with hsame | ⟨-, run, hrun, -⟩
    · rcases h.stored task mem_advanced write (by rw [hremaining]; rfl) hkept with ⟨run, rfl⟩ | hsome
      · obtain ⟨hid, -⟩ := hof
        show ((world.stores.runs.createRun run).getRun task.scanRunId).isSome
        rw [ScanRunStore.getRun_createRun, if_pos hid.symm]
        rfl
      · rw [hsame]
        exact hsome
    · rw [hrun]
      rfl
  have hstays : ∀ runId, (world.stores.runs.getRun runId).isSome →
      ((write.remember world.stores).runs.getRun runId).isSome := by
    intro runId hsome
    rcases hof.getRun world.stores runId with hsame | ⟨-, run, hrun, -⟩
    · rw [hsame]
      exact hsome
    · rw [hrun]
      rfl
  refine ⟨hscheduled, h.rooted.remember hof hown, ?_, ?_⟩
  · intro other hmem w hw hother
    rw [hremoved] at hother
    rcases List.mem_append.1 hmem with hmem | hmem
    · exact (h.stored other (List.mem_append_left _ hmem) w hw hother).imp_right (hstays _)
    · rcases List.mem_cons.1 hmem with heq | hmem
      · obtain rfl := ProjectTask.scan.inj heq
        exact Or.inr hown
      · exact (h.stored other (List.mem_append_right _ (List.mem_cons_of_mem _ hmem)) w hw
          hother).imp_right (hstays _)
  · intro projectId hprojectRemoved runId run hrun
    rw [hremoved] at hprojectRemoved
    rcases hof.getRun world.stores runId with hsame | ⟨-, own, hown, -, hproject, -⟩
    · exact h.removed projectId hprojectRemoved runId run (hsame ▸ hrun)
    · obtain rfl := Option.some.inj (hown.symm.trans hrun)
      rintro rfl
      exact hkept (hproject ▸ hprojectRemoved)

/-- A step of a deletion. -/
lemma Alive.deletion {d : DeletionTask} (h : Alive before world (pre ++ .deletion d :: post))
    (hscheduled : Scheduled before (projectStep world (.deletion d)).1
      (pre ++ (projectStep world (.deletion d)).2 :: post)) :
    Alive before (projectStep world (.deletion d)).1
      (pre ++ (projectStep world (.deletion d)).2 :: post) := by
  have hscans : ∀ task, .scan task ∈ pre ++ (projectStep world (.deletion d)).2 :: post →
      .scan task ∈ pre ++ .deletion d :: post := by
    intro task hmem
    rcases List.mem_append.1 hmem with hmem | hmem
    · exact List.mem_append_left _ hmem
    · rcases List.mem_cons.1 hmem with heq | hmem
      · cases heq
      · exact List.mem_append_right _ (List.mem_cons_of_mem _ hmem)
  rcases runs_deletionStep d.projectId world d.phase with
    ⟨hphase, hnext, hdelete⟩ | ⟨hsame, hflag⟩
  · have hdelete : (projectStep world (.deletion d)).1.stores.runs
        = world.stores.runs.deleteProjectRuns d.projectId := hdelete
    have hremoved : ∀ projectId,
        RunsRemoved (pre ++ (projectStep world (.deletion d)).2 :: post) projectId
          ↔ projectId = d.projectId ∨ RunsRemoved (pre ++ .deletion d :: post) projectId := by
      intro projectId
      have hflag : (projectStep world (.deletion d)).2.removed = some d.projectId :=
        if_pos (Or.inl hnext)
      have hold : (ProjectTask.deletion d).removed = none := by
        simp [ProjectTask.removed, hphase]
      rw [runsRemoved_advance, runsRemoved_advance, hflag, hold, Option.some.injEq,
        eq_comm (a := d.projectId)]
      simp
    refine ⟨hscheduled, hdelete ▸ h.rooted.deleteProjectRuns d.projectId, ?_, ?_⟩
    · intro task hmem write hwrite hkept
      rw [hremoved, not_or] at hkept
      have hmem := hscans task hmem
      refine (h.stored task hmem write hwrite hkept.2).imp_right fun hsome => ?_
      obtain ⟨run, hrun⟩ := Option.isSome_iff_exists.1 hsome
      have hproject : run.projectId = task.projectId :=
        h.scheduled.owner _ _ _ (h.scheduled.owned _ run hrun) (ownRun_of_scan hmem)
      rw [hdelete, getRun_deleteProjectRuns, if_neg]
      · exact hsome
      · rw [mem_runIdsOf h.scheduled.named]
        rintro ⟨run', hrun', hproject'⟩
        obtain rfl := Option.some.inj (hrun.symm.trans hrun')
        exact hkept.1 (hproject.symm.trans hproject')
    · intro projectId hprojectRemoved runId run hrun
      rw [hdelete, getRun_deleteProjectRuns] at hrun
      split_ifs at hrun with hmem
      rw [hremoved] at hprojectRemoved
      rcases hprojectRemoved with rfl | hprojectRemoved
      · exact fun hproject => hmem ((mem_runIdsOf h.scheduled.named).2 ⟨run, hrun, hproject⟩)
      · exact h.removed projectId hprojectRemoved runId run hrun
  · have hsame : (projectStep world (.deletion d)).1.stores.runs = world.stores.runs := hsame
    have hflag : (projectStep world (.deletion d)).2.removed = (ProjectTask.deletion d).removed :=
      hflag
    have hremoved : ∀ projectId,
        RunsRemoved (pre ++ (projectStep world (.deletion d)).2 :: post) projectId
          ↔ RunsRemoved (pre ++ .deletion d :: post) projectId := by
      intro projectId
      rw [runsRemoved_advance, runsRemoved_advance, hflag]
    refine ⟨hscheduled, hsame ▸ h.rooted, ?_, ?_⟩
    · intro task hmem write hwrite hkept
      rw [hremoved] at hkept
      rw [hsame]
      exact h.stored task (hscans task hmem) write hwrite hkept
    · intro projectId hprojectRemoved runId run hrun
      rw [hsame] at hrun
      exact h.removed projectId ((hremoved projectId).1 hprojectRemoved) runId run hrun

/-- One step before any removal that it could miss. -/
lemma Alive.step {p : Pool ScanWorld ProjectTask} (h : Alive before p.shared p.tasks)
    {move : Move ProjectTask}
    (hmove : p.Allows (Starts py rules before) (fun _ _ => True) move)
    (htimely : BeforeRemoval p move) :
    Alive before (p.step projectStep move).shared (p.step projectStep move).tasks := by
  have hscheduled := h.scheduled.step hmove
  cases move with
  | start t => exact h.start hmove
  | advance i =>
      rcases p.step_advance projectStep i with
        ⟨-, hsame⟩ | ⟨pre, t, post, hi, hsplit, hnext⟩
      · rw [hsame]
        exact h
      · rw [hsplit] at h
        rw [hnext] at hscheduled ⊢
        rcases t with ⟨projectId, scanRunId, _ | ⟨write, rest⟩⟩ | d
        · exact h
        · refine h.scan rfl ?_ hscheduled
          exact hsplit ▸ htimely _ hi projectId rfl
        · exact h.deletion hscheduled

/-- Nothing is left of a project whose runs have been removed. -/
lemma Alive.nothingLeft {p : Pool ScanWorld ProjectTask} (h : Alive before p.shared p.tasks)
    {projectId : String} (hremoved : RunsRemoved p.tasks projectId) :
    NothingLeft before p projectId := by
  have hgone := h.removed projectId hremoved
  refine ⟨?_, fun scanRunId hown => ?_⟩
  · rw [List.eq_nil_iff_forall_not_mem]
    intro scanRunId hmem
    obtain ⟨run, hrun, hproject⟩ := (mem_runIdsOf h.scheduled.named).1 hmem
    exact hgone scanRunId run hrun hproject
  · have hnone : p.shared.stores.runs.getRun scanRunId = none := by
      cases hrun : p.shared.stores.runs.getRun scanRunId with
      | none => rfl
      | some run =>
          exact absurd (h.scheduled.owner _ _ _ (h.scheduled.owned scanRunId run hrun) hown)
            (hgone scanRunId run hrun)
    have hempty : ∀ {β : Type} (d : Dict String β),
        ((d.get? scanRunId).isSome → (p.shared.stores.runs.getRun scanRunId).isSome) →
          d.get? scanRunId = none := by
      intro β d hd
      cases hget : d.get? scanRunId with
      | none => rfl
      | some v =>
          rw [hget, hnone] at hd
          exact absurd (hd rfl) Bool.false_ne_true
    exact ⟨hnone, hempty _ (h.rooted.stages _), hempty _ (h.rooted.executions _),
      hempty _ (h.rooted.lineage _)⟩

/-! ## A scan that outlives its project -/

/-- The runs of a project have been removed, and one of its scans has still to store its run, or has
stored it since. -/
def Outlived (world : ScanWorld) (tasks : List ProjectTask) (projectId : String) : Prop :=
  RunsRemoved tasks projectId ∧ ∃ task, .scan task ∈ tasks ∧ task.projectId = projectId
    ∧ (task.remaining = [] → ∃ run, world.stores.runs.getRun task.scanRunId = some run
      ∧ run.projectId = projectId)

/-- A project is not deleted a second time. -/
lemma Scheduled.not_removing {d : DeletionTask}
    (h : Scheduled before world (pre ++ .deletion d :: post))
    (hremoved : RunsRemoved (pre ++ .deletion d :: post) d.projectId) : d.phase ≠ .removing [] := by
  intro hphase
  obtain ⟨other, hother, hflag⟩ := List.mem_map.1 hremoved
  cases other with
  | scan task => cases hflag
  | deletion e =>
      have hproject : e.projectId = d.projectId := by
        simp only [ProjectTask.removed] at hflag
        split_ifs at hflag
        exact Option.some.inj hflag
      have honce := h.once
      rw [List.filterMap_append, List.filterMap_cons] at honce
      simp only [ProjectTask.deletes] at honce
      have hdistinct := (List.nodup_middle.1 honce)
      rw [List.nodup_cons, ← List.filterMap_append] at hdistinct
      rcases List.mem_append.1 hother with hmem | hmem
      · exact hdistinct.1 (List.mem_filterMap.2
          ⟨.deletion e, List.mem_append_left _ hmem, congrArg some hproject⟩)
      · rcases List.mem_cons.1 hmem with heq | hmem
        · obtain rfl := ProjectTask.deletion.inj heq
          simp [ProjectTask.removed, hphase] at hflag
        · exact hdistinct.1 (List.mem_filterMap.2
            ⟨.deletion e, List.mem_append_right _ hmem, congrArg some hproject⟩)

/-- A run of a scan stays in the store once the runs of its project have been removed. -/
lemma Scheduled.stays (h : Scheduled before world (pre ++ t :: post)) {task : ScanTask}
    (htask : .scan task ∈ pre ++ t :: post)
    (hremoved : RunsRemoved (pre ++ t :: post) task.projectId)
    (hstored : ∃ run, world.stores.runs.getRun task.scanRunId = some run
      ∧ run.projectId = task.projectId) :
    ∃ run, (projectStep world t).1.stores.runs.getRun task.scanRunId = some run
      ∧ run.projectId = task.projectId := by
  obtain ⟨run, hrun, hproject⟩ := hstored
  rcases t with ⟨projectId, scanRunId, _ | ⟨write, rest⟩⟩ | d
  · exact ⟨run, hrun, hproject⟩
  · have hof := (h.changes _ mem_advanced).1 write (List.mem_cons_self ..)
    rcases hof.getRun world.stores task.scanRunId with hsame | ⟨hid, own, hown, -, howner, -⟩
    · exact ⟨run, hsame.trans hrun, hproject⟩
    · refine ⟨own, hown, howner.trans ?_⟩
      refine h.owner _ _ task.scanRunId ?_ (ownRun_of_scan htask)
      rw [hid]
      exact ownRun_of_scan mem_advanced
  · rcases runs_deletionStep d.projectId world d.phase with ⟨hphase, -, hdelete⟩ | ⟨hsame, -⟩
    · refine ⟨run, ?_, hproject⟩
      show (deletionStep d.projectId world d.phase).1.stores.runs.getRun _ = _
      rw [hdelete, getRun_deleteProjectRuns, if_neg, hrun]
      rw [mem_runIdsOf h.named]
      rintro ⟨run', hrun', hproject'⟩
      obtain rfl := Option.some.inj (hrun.symm.trans hrun')
      exact h.not_removing (hproject' ▸ hproject ▸ hremoved) hphase
    · refine ⟨run, ?_, hproject⟩
      show (deletionStep d.projectId world d.phase).1.stores.runs.getRun _ = _
      rw [hsame, hrun]

lemma removed_projectStep (world : ScanWorld) {projectId : String}
    (h : t.removed = some projectId) : (projectStep world t).2.removed = some projectId := by
  cases t with
  | scan task => cases h
  | deletion d =>
      simp only [ProjectTask.removed] at h
      split_ifs at h with hphase
      obtain rfl := Option.some.inj h
      simp only [projectStep]
      rcases hphase with hphase | hphase
      · rw [hphase]
        rfl
      · rw [hphase]
        rfl

/-- A scan that outlives its project goes on doing so. -/
lemma Outlived.step {p : Pool ScanWorld ProjectTask} {projectId : String}
    (hscheduled : Scheduled before p.shared p.tasks) (h : Outlived p.shared p.tasks projectId)
    (move : Move ProjectTask) :
    Outlived (p.step projectStep move).shared (p.step projectStep move).tasks projectId := by
  obtain ⟨hremoved, task, htask, rfl, hstored⟩ := h
  cases move with
  | start t =>
      refine ⟨?_, task, List.mem_append_left _ htask, rfl, hstored⟩
      show some task.projectId ∈ (p.tasks ++ [t]).map ProjectTask.removed
      rw [List.map_append]
      exact List.mem_append_left _ hremoved
  | advance i =>
      rcases p.step_advance projectStep i with
        ⟨-, hsame⟩ | ⟨pre, t, post, -, hsplit, hnext⟩
      · rw [hsame]
        exact ⟨hremoved, task, htask, rfl, hstored⟩
      · rw [hsplit] at hscheduled hremoved htask
        rw [hnext]
        refine ⟨?_, ?_⟩
        · rw [runsRemoved_advance] at hremoved ⊢
          exact hremoved.imp_left (removed_projectStep _)
        · have hother : .scan task ∈ pre ++ post → ∃ task', .scan task' ∈ pre
              ++ (projectStep p.shared t).2 :: post ∧ task'.projectId = task.projectId
              ∧ (task'.remaining = [] → ∃ run,
                (projectStep p.shared t).1.stores.runs.getRun task'.scanRunId = some run
                  ∧ run.projectId = task.projectId) := by
            intro hmem
            refine ⟨task, ?_, rfl, fun hnil =>
              hscheduled.stays htask hremoved (hstored hnil)⟩
            rcases List.mem_append.1 hmem with hmem | hmem
            · exact List.mem_append_left _ hmem
            · exact List.mem_append_right _ (List.mem_cons_of_mem _ hmem)
          rcases List.mem_append.1 htask with hmem | hmem
          · exact hother (List.mem_append_left _ hmem)
          · rcases List.mem_cons.1 hmem with rfl | hmem
            · rcases task with ⟨projectId, scanRunId, _ | ⟨write, rest⟩⟩
              · exact ⟨_, mem_advanced, rfl, hstored⟩
              · refine ⟨⟨projectId, scanRunId, rest⟩, mem_advanced, rfl, ?_⟩
                rintro rfl
                -- The change just made is the last one of the scan, which stores its run.
                obtain ⟨hof, hlast⟩ := hscheduled.changes _ mem_advanced
                rcases hlast with hnil | ⟨writes, run, heq⟩
                · cases hnil
                · obtain ⟨rfl, hrun⟩ : writes = [] ∧ write = .saveRun run := by
                    cases writes with
                    | nil => exact ⟨rfl, (List.cons.inj heq).1⟩
                    | cons w writes =>
                        have hlength := congrArg List.length heq
                        simp at hlength
                  obtain ⟨hid, hproject, -⟩ : (ScanWrite.saveRun run).Of projectId scanRunId :=
                    hrun ▸ hof write (List.mem_cons_self ..)
                  refine ⟨run, ?_, hproject⟩
                  show (write.remember p.shared.stores).runs.getRun scanRunId = some run
                  rw [hrun]
                  exact (ScanRunStore.getRun_createRun ..).trans (if_pos hid.symm)
            · exact hother (List.mem_append_right _ hmem)

/-! ## Every interleaving -/

/-- **Lineage points to stored runs iff no scan outlives its project.**  For every interleaving of
scans and deletions, from any rooted stores and to the end of every request: `runs_for_finding`
answers at every point, with every run of a lineage in the store, and nothing of a deleted project
is left, if and only if no scan makes a change after the runs of its project have been removed. -/
theorem keepsLineage_iff (before : ScanWorld) (hrooted : WellRooted before.stores.runs)
    (moves : List (Move ProjectTask)) (hmoves : ProjectMoves py rules before moves)
    (hfinished : ∀ task ∈ (exec (Pool.step projectStep) (.initial before) moves).tasks,
      task.Finished) :
    KeepsLineage before moves
      ↔ Throughout (Pool.step projectStep) BeforeRemoval (.initial before) moves := by
  have hscheduled : ∀ {moves}, ProjectMoves py rules before moves →
      Scheduled before (exec (Pool.step projectStep) (.initial before) moves).shared
        (exec (Pool.step projectStep) (.initial before) moves).tasks :=
    fun hmoves => exec_invariant (fun p => Scheduled before p.shared p.tasks)
      (fun _ _ h hmove => h.step hmove) (scheduled_initial hrooted) hmoves
  constructor
  · intro hkeeps
    rw [throughout_iff]
    rintro pre move post rfl
    cases move with
    | start t => trivial
    | advance i =>
        intro task hi projectId hchanges hremoved
        obtain ⟨hpre, hpost⟩ := throughout_append.1 hmoves
        obtain ⟨scanning, rfl⟩ : ∃ scanning, task = .scan scanning := by
          cases task with
          | scan scanning => exact ⟨scanning, rfl⟩
          | deletion d => cases hchanges
        have hmem := List.mem_of_getElem? hi
        have houtlived : Outlived (exec (Pool.step projectStep) (.initial before) pre).shared
            (exec (Pool.step projectStep) (.initial before) pre).tasks projectId := by
          simp only [ProjectTask.changes] at hchanges
          split_ifs at hchanges with hempty
          · cases hchanges
          · refine ⟨hremoved, scanning, hmem, Option.some.inj hchanges, fun hnil => ?_⟩
            exact absurd (List.isEmpty_iff.2 hnil) hempty
        have hend := exec_invariant (fun p => Scheduled before p.shared p.tasks
            ∧ Outlived p.shared p.tasks projectId)
          (fun p move h hmove => ⟨h.1.step hmove, h.2.step h.1 move⟩)
          ⟨hscheduled hpre, houtlived⟩ hpost
        rw [← exec_append] at hend
        obtain ⟨hsched, hgone, late, hlate, -, hstored⟩ := hend
        obtain ⟨run, hrun, hproject⟩ := hstored (hfinished _ hlate)
        have hempty := (hkeeps.gone projectId hgone).1
        have hin := (mem_runIdsOf hsched.named).2 ⟨run, hrun, hproject⟩
        rw [hempty] at hin
        cases hin
  · intro htimely
    have halive : ∀ {moves}, ProjectMoves py rules before moves →
        Throughout (Pool.step projectStep) BeforeRemoval (.initial before) moves →
        Alive before (exec (Pool.step projectStep) (.initial before) moves).shared
          (exec (Pool.step projectStep) (.initial before) moves).tasks := by
      intro moves hmoves htimely
      refine exec_invariant (fun p => Alive before p.shared p.tasks)
        (fun p move h hmove => h.step hmove.1 hmove.2) ?_ (throughout_and.2 ⟨hmoves, htimely⟩)
      refine ⟨scheduled_initial hrooted, hrooted, ?_, ?_⟩
      · intro task hmem
        cases hmem
      · intro projectId hremoved
        cases hremoved
    refine ⟨fun n => ?_, fun projectId hremoved => ?_⟩
    · rw [← List.take_append_drop n moves] at hmoves htimely
      exact (halive (throughout_append.1 hmoves).1
        (throughout_append.1 htimely).1).rooted.liveLineage
    · exact (halive hmoves htimely).nothingLeft hremoved

/-! ## A deletion after a scan, and one during it -/

/-- A project with one file. -/
def scannedRow : ProjectRow where
  id := "p"
  name := "shop"
  sourceType := "directory"
  location := "/srv/shop"
  language := "python"
  status := "prepared"
  snapshotPath := "/workspace/projects/p"
  createdAt := ⟨0, some 0⟩

/-- That project, before its first scan. -/
def scannedWorld : ScanWorld := ⟨.empty, Dict.empty.set "p" scannedRow⟩

/-- The scan of that project. -/
def sampleScan : ProjectTask :=
  .scan (scanTask statementPython (defaultRules statementPython) "p" scannedRow
    ⟨"p", [statementFile]⟩ sampleStamps)

/-- Its deletion. -/
def sampleDeletion : ProjectTask := .deletion ⟨"p", .listing⟩

/-- The scan makes some of its changes, the deletion runs, and the scan makes the others. -/
def deletedAfter (changes rest : Nat) : List (Move ProjectTask) :=
  .start sampleScan :: List.replicate changes (.advance 0)
    ++ .start sampleDeletion :: List.replicate 6 (.advance 1)
    ++ List.replicate rest (.advance 0)

lemma allows_advances {starts : Pool ScanWorld ProjectTask → ProjectTask → Prop} (n i : Nat)
    (p : Pool ScanWorld ProjectTask) :
    Throughout (Pool.step projectStep) (Pool.Allows starts fun _ _ => True) p
      (List.replicate n (.advance i)) := by
  induction n generalizing p with
  | zero => trivial
  | succ n ih => exact ⟨fun _ _ => trivial, ih _⟩

/-- The scan, after some of its changes. -/
def scanUnderWay (changes : Nat) : Pool ScanWorld ProjectTask :=
  exec (Pool.step projectStep) (.initial scannedWorld)
    (.start sampleScan :: List.replicate changes (.advance 0))

/-- The interleaving is one of the requests, if the project is there when its deletion starts. -/
lemma projectMoves_deletedAfter {changes : Nat} (rest : Nat)
    (hrow : ((scanUnderWay changes).shared.projects.get? "p").isSome)
    (honce : some "p" ∉ (scanUnderWay changes).tasks.map ProjectTask.deletes) :
    ProjectMoves statementPython (defaultRules statementPython) scannedWorld
      (deletedAfter changes rest) := by
  refine throughout_append.2 ⟨throughout_append.2 ⟨⟨?_, allows_advances changes 0 _⟩,
    ⟨hrow, rfl, honce⟩, allows_advances 6 1 _⟩, allows_advances rest 0 _⟩
  refine ⟨scannedRow, _, sampleStamps, rfl, rfl, rfl, ?_, rfl⟩
  intro projectId hmem
  cases hmem

theorem keepsLineage_afterScan : KeepsLineage scannedWorld (deletedAfter 20 0) := by
  refine (@keepsLineage_iff statementPython (defaultRules statementPython)
    scannedWorld wellRooted_empty _ (projectMoves_deletedAfter 0 (by decide +kernel)
      (by decide +kernel)) ?_).2 ?_
  · decide +kernel
  · decide +kernel

/-- Deleted between the registration of its finding and the lineage of it, a project leaves a
lineage without a run. -/
theorem not_keepsLineage :
    ¬ ∀ (before : ScanWorld) (moves : List (Move ProjectTask)), WellRooted before.stores.runs →
      ProjectMoves statementPython (defaultRules statementPython) before moves →
      (∀ task ∈ (exec (Pool.step projectStep) (.initial before) moves).tasks, task.Finished) →
      KeepsLineage before moves := by
  intro h
  have hkeeps := h scannedWorld (deletedAfter 16 4) wellRooted_empty
    (projectMoves_deletedAfter 4 (by decide +kernel) (by decide +kernel)) (by decide +kernel)
  have horphan : ((exec (Pool.step projectStep) (.initial scannedWorld)
      ((deletedAfter 16 4).take 25)).shared.stores.runs.lineage.get? "run").isSome
      ∧ (exec (Pool.step projectStep) (.initial scannedWorld)
        ((deletedAfter 16 4).take 25)).shared.stores.runs.getRun "run" = none := by
    decide +kernel
  have hlive := (hkeeps.live 25).1 "run" horphan.1
  rw [horphan.2] at hlive
  cases hlive

end Sast
