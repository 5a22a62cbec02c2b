import SastEngine.Scan.Counting
import SastEngine.Scan.RunCommits
import SastEngine.Scan.RunHistory

/-!
# The record of a scan that fails

A scan that raises should leave a failed run without a running stage, and no finding outside every
lineage; one that returns should leave a completed run.  Which commits of the scan can fail without
breaking this is read off the order of its changes and the extent of its handlers.
-/

namespace Sast

/-! ## What is expected -/

/-- What a scan that has raised `exc` leaves in the run store; `registered` are the findings that it
has put into the finding store. -/
structure FailedRecord (scanRunId exc : String) (registered : List String) (runs : ScanRunStore) :
    Prop where
  run : ∀ run, runs.getRun scanRunId = some run → run.status = .failed ∧ run.error = some exc
  stages : ∀ stageName stage, runs.stage scanRunId stageName = some stage →
    stage.status ≠ .running
  scan : ∀ stage, runs.stage scanRunId "SCAN" = some stage → stage.status ≠ .completed
  executions : ∀ e ∈ runs.executionsOf scanRunId, e.status ≠ .running
  lineage : ∀ findingId ∈ registered, ∃ runId, findingId ∈ runs.findingIdsForRun runId

/-- What a scan that has returned leaves in the run store. -/
structure CompletedRecord (scanRunId : String) (runs : ScanRunStore) : Prop where
  run : ∃ run, runs.getRun scanRunId = some run ∧ run.status = .completed
  stage : ∃ stage, runs.stage scanRunId "SCAN" = some stage ∧ stage.status = .completed
  execution : ∃ e ∈ runs.executionsOf scanRunId, e.stageName = "SCAN"
  executions : ∀ e ∈ runs.executionsOf scanRunId, e.stageName = "SCAN" → e.status = .completed

/-- What a scan leaves in the run store, for what it returns or raises. -/
def ScanRecord (scanRunId : String) (registered : List String) (runs : ScanRunStore) :
    Except String (ScanRun × ScanReport) → Prop
  | .error exc => FailedRecord scanRunId exc registered runs
  | .ok _ => CompletedRecord scanRunId runs

/-- The record is consistent in memory, and in every store that a restart loads from the tables. -/
def LeavesRecord (scanRunId : String)
    (outcome : Except String (ScanRun × ScanReport) × Session ScanMemory ScanDatabase) : Prop :=
  ScanRecord scanRunId outcome.2.memory.registered outcome.2.memory.stores.runs outcome.1
    ∧ ∀ rows, outcome.2.database.tables.Returns rows →
      ScanRecord scanRunId
        (outcome.2.memory.registered.filter fun findingId =>
          (outcome.2.database.findings.get? findingId).isSome)
        (.setFactory rows) outcome.1

/-- The ids that a scan draws are new. -/
structure NewRun (stamps : ScanStamps) (runs : ScanRunStore) : Prop where
  stages : ∀ stageName, runs.stage stamps.scanRunId stageName = none
  executions : runs.executionsOf stamps.scanRunId = []
  lineage : runs.findingIdsForRun stamps.scanRunId = []
  unused : ∀ runId, ∀ e ∈ runs.executionsOf runId, e.executionId ≠ stamps.prepareExecutionId
    ∧ e.executionId ≠ stamps.scanExecution.executionId
  distinct : stamps.prepareExecutionId ≠ stamps.scanExecution.executionId

/-! ## The commits of a scan -/

/-- The ids that are not seen before, each once. -/
def firstIds (seen : List String) : List String → List String
  | [] => []
  | id :: ids => if id ∈ seen then firstIds seen ids else id :: firstIds (seen ++ [id]) ids

/-- The commits of a scan after its scanner, when none fails: the lineage of an id is written
once. -/
def reportCommits (projectId : String) (stamps : ScanStamps) :
    Except String ScanReport → List ScanWrite
  | .error _ => []
  | .ok report =>
      report.findings.map .addFinding
        ++ (firstIds [] (report.findings.map CandidateFinding.id)).map
          (.addLineage stamps.scanRunId)
        ++ endWrites stamps.scanRunId "SCAN" stamps.scanExecution.executionId
          ⟨.completed, stamps.scanExecution.endedAt, none⟩
        ++ [.saveRun (completedRun projectId stamps report)]

/-- The commits of a scan, to its end or until its scanner raises. -/
def scanCommits (projectId : String) (projectCreatedAt : Option DateTime) (stamps : ScanStamps)
    (outcome : Except String ScanReport) : List ScanWrite :=
  openWrites projectId projectCreatedAt stamps
    ++ beginWrites stamps.scanRunId "SCAN" stamps.scanExecution.executionId
      stamps.scanExecution.startedAt
    ++ reportCommits projectId stamps outcome

/-- The change writes a finding or a lineage, not a run, a stage or an execution. -/
def ScanWrite.ConcernsFinding : ScanWrite → Prop
  | .addFinding _ | .addLineage .. => True
  | _ => False

/-- No commit fails, or it is one of a finding or a lineage, and every finding registered by then
is in the lineage of an earlier run or has had its lineage committed. -/
def FailureCovered (runs : ScanRunStore) (scanRunId : String) (commits : List ScanWrite)
    (fails : Option Nat) : Prop :=
  ∀ n ∈ fails, ∀ write ∈ commits[n]?, write.ConcernsFinding
    ∧ ∀ finding, .addFinding finding ∈ commits.take (n + 1) →
      (∃ runId, finding.id ∈ runs.findingIdsForRun runId)
        ∨ .addLineage scanRunId finding.id ∈ commits.take n

/-- The scanner raises or one commit fails, not both: a scan in whose scanner raises has no failing
commit after that. -/
def OneFailure (commits : List ScanWrite) (outcome : Except String ScanReport)
    (fails : Option Nat) : Prop :=
  ∀ exc, outcome = .error exc → ∀ n ∈ fails, n < commits.length

/-! ## Changes on both copies -/

variable {dbError : String} {py : Stdlib} {rules : List ScanRule} {projectId : String}
  {codeModel : CodeModel} {projectCreatedAt : Option DateTime} {stamps : ScanStamps}
  {stores : ScanStores} {database : ScanDatabase} {registered : List String}
  {writes : List ScanWrite} {s : ScanMemory × ScanDatabase}

/-- Both copies after changes whose commits succeed. -/
abbrev afterAll (writes : List ScanWrite) (s : ScanMemory × ScanDatabase) :
    ScanMemory × ScanDatabase := applyAll ScanWrite.commit writes s

lemma afterAll_append (writes writes' : List ScanWrite) (s : ScanMemory × ScanDatabase) :
    afterAll (writes ++ writes') s = afterAll writes' (afterAll writes s) := by
  rw [afterAll, applyAll_append]

/-- In memory, the changes are made and the findings are noted. -/
lemma memory_afterAll (writes : List ScanWrite) (s : ScanMemory × ScanDatabase) :
    (afterAll writes s).1
      = ⟨rememberAll writes s.1.stores, s.1.registered ++ writes.flatMap ScanWrite.registers⟩ := by
  induction writes generalizing s with
  | nil => simp [afterAll, applyAll]
  | cons write writes ih =>
      have hstep : afterAll (write :: writes) s = afterAll writes (write.commit.apply s) := rfl
      rw [hstep, ih, rememberAll_cons, List.flatMap_cons, ← List.append_assoc]
      rfl

/-- The change writes whatever the stores are. -/
def ScanWrite.Always : ScanWrite → Prop
  | .endExecution .. | .addLineage .. => False
  | _ => True

lemma isSome_row_of_always {write : ScanWrite} (h : write.Always) (stores : ScanStores)
    (database : ScanDatabase) : (write.row stores database).isSome := by
  cases write with
  | endExecution | addLineage => exact h.elim
  | saveRun | upsertStage | appendExecution | startStage | endStage | addFinding => rfl

lemma committing_of_always (h : ∀ write ∈ writes, write.Always)
    (s : ScanMemory × ScanDatabase) :
    committing ScanWrite.commit writes s = writes := by
  induction writes generalizing s with
  | nil => rfl
  | cons write writes ih =>
      have hsome : (write.commit.write s.1 s.2).isSome :=
        isSome_row_of_always (h write (List.mem_cons_self ..)) s.1.stores s.2
      rw [committing, if_pos hsome,
        ih fun w hw => h w (List.mem_cons_of_mem _ hw)]
      rfl

lemma committing_endWrites (scanRunId stageName executionId : String)
    (ending : ScanRunStore.Ending) (hfound : (s.1.stores.runs.findExecution executionId).isSome) :
    committing ScanWrite.commit (endWrites scanRunId stageName executionId ending) s
      = endWrites scanRunId stageName executionId ending := by
  have hrow : ((ScanWrite.endExecution executionId ending).commit.write s.1 s.2).isSome := by
    show ((s.1.stores.runs.findExecution executionId).map _).isSome
    rw [Option.isSome_map]
    exact hfound
  simp only [endWrites, committing, if_pos hrow]
  rfl

/-! ## Running the changes -/

lemma commitAll_of_none (writes : List ScanWrite) (s : ScanMemory × ScanDatabase) :
    commitAll dbError writes ⟨s.1, s.2, none⟩
      = (.ok (), ⟨(afterAll writes s).1, (afterAll writes s).2, none⟩) :=
  performAll_of_none dbError writes s

/-- Both copies, when no commit will fail any more. -/
abbrev safe (s : ScanMemory × ScanDatabase) : Session ScanMemory ScanDatabase := ⟨s.1, s.2, none⟩

/-- Changes one of whose commits may fail: it is still to come, or it is one of theirs, and then its
change is made in memory and the changes before it on both copies. -/
lemma commitAll_cases (dbError : String) (writes : List ScanWrite)
    (s : ScanMemory × ScanDatabase) (fails : Option Nat) :
    (∃ later, fails = later.map ((committing ScanWrite.commit writes s).length + ·)
        ∧ commitAll dbError writes ⟨s.1, s.2, fails⟩
          = (.ok (), ⟨(afterAll writes s).1, (afterAll writes s).2, later⟩))
      ∨ ∃ pre write post, writes = pre ++ write :: post
        ∧ fails = some (committing ScanWrite.commit pre s).length
        ∧ (write.row (afterAll pre s).1.stores (afterAll pre s).2).isSome
        ∧ commitAll dbError writes ⟨s.1, s.2, fails⟩
          = (.error dbError, safe ((afterAll (pre ++ [write]) s).1, (afterAll pre s).2)) := by
  rcases performAll_cases dbError writes s fails with
    hall | ⟨pre, write, post, hsplit, hfails, hsome, hperform⟩
  · exact Or.inl hall
  · refine Or.inr ⟨pre, write, post, hsplit, hfails, hsome, ?_⟩
    rw [commitAll, hperform, afterAll_append]
    rfl

/-! ## The run store when the scanner starts -/

variable {runs : ScanRunStore}

/-- The SCAN stage has begun: nothing else of the run is running. -/
structure Begun (stamps : ScanStamps) (runs : ScanRunStore) : Prop where
  filed : WellFiled runs
  stages : ∀ stageName stage, runs.stage stamps.scanRunId stageName = some stage →
    stage.status = .running → stageName = "SCAN"
  executions : ∀ e ∈ runs.executionsOf stamps.scanRunId,
    e.status = .running ∨ e.stageName = "SCAN" →
      e.executionId = stamps.scanExecution.executionId
  execution : ∃ e ∈ runs.executionsOf stamps.scanRunId,
    e.executionId = stamps.scanExecution.executionId ∧ e.stageName = "SCAN"

/-- The store with the stages of the run registered and PREPARE begun. -/
def preparing (projectId : String) (stamps : ScanStamps) (prepareAt : DateTime)
    (runs : ScanRunStore) : ScanRunStore :=
  ((runs.createRun (openedRun projectId stamps)).registerStages
    stamps.scanRunId).beginStageExecution stamps.scanRunId "PREPARE" stamps.prepareExecutionId
      prepareAt

lemma wellFiled_preparing (projectId : String) (hfiled : WellFiled runs) (hnew : NewRun stamps runs)
    (prepareAt : DateTime) : WellFiled (preparing projectId stamps prepareAt runs) := by
  have hcreated : WellFiled (runs.createRun (openedRun projectId stamps)) :=
    ⟨hfiled.ids, hfiled.owner, hfiled.filed⟩
  refine hcreated.register.begin ?_
  intro runId e he
  exact (hnew.unused runId e he).1

/-- Of the new run, PREPARE has been executed, and no stage is running. -/
lemma openRun_spec (projectId : String) (projectCreatedAt : Option DateTime)
    (hfiled : WellFiled runs) (hnew : NewRun stamps runs) :
    WellFiled (openRun projectId projectCreatedAt stamps runs)
      ∧ (∀ stageName stage, (openRun projectId projectCreatedAt stamps runs).stage
        stamps.scanRunId stageName = some stage → stage.status ≠ .running)
      ∧ (∀ e ∈ (openRun projectId projectCreatedAt stamps runs).executionsOf stamps.scanRunId,
        e.status ≠ .running ∧ e.stageName ≠ "SCAN")
      ∧ ∀ runId, ∀ e ∈ (openRun projectId projectCreatedAt stamps runs).executionsOf runId,
        e.executionId ≠ stamps.scanExecution.executionId := by
  set prepareAt := (projectCreatedAt.map DateTime.asAwareUtc).getD stamps.now with hprepare
  have hopen : openRun projectId projectCreatedAt stamps runs
      = (preparing projectId stamps prepareAt runs).endStageExecution stamps.scanRunId "PREPARE"
        stamps.prepareExecutionId ⟨.completed, prepareAt, none⟩ := rfl
  have hprep := wellFiled_preparing projectId hfiled hnew prepareAt
  let c : Closing := ⟨stamps.scanRunId, "PREPARE", stamps.prepareExecutionId,
    ⟨.completed, prepareAt, none⟩⟩
  have hexecutions : ∀ runId, (openRun projectId projectCreatedAt stamps runs).executionsOf runId
      = (runs.executionsOf runId ++ if runId = stamps.scanRunId
          then [begunExecution stamps.scanRunId "PREPARE" stamps.prepareExecutionId prepareAt]
          else []).map c.apply := by
    intro runId
    rw [hopen, executionsOf_end hprep c, preparing, executionsOf_begin]
    rfl
  refine ⟨hopen ▸ hprep.end c, ?_, ?_, ?_⟩
  · intro stageName stage hstage
    rw [hopen, stage_end c] at hstage
    split_ifs at hstage with hname
    · obtain rfl := Option.some.inj hstage
      intro hrunning
      cases hrunning
    · rw [preparing, ScanRunStore.beginStageExecution, ScanRunStore.stage_upsertStage] at hstage
      split_ifs at hstage with hbegun
      · exact absurd hbegun hname
      · have hstage : ((runs.createRun (openedRun projectId stamps)).registerStages
            stamps.scanRunId).stage stamps.scanRunId stageName = some stage := hstage
        rw [ScanRunStore.stage_registerStages] at hstage
        split_ifs at hstage
        · obtain rfl := Option.some.inj hstage
          intro hrunning
          cases hrunning
        · have hold : runs.stage stamps.scanRunId stageName = some stage := hstage
          rw [hnew.stages] at hold
          cases hold
  · intro e he
    rw [hexecutions, if_pos rfl, hnew.executions] at he
    obtain rfl : e = c.apply (begunExecution stamps.scanRunId "PREPARE" stamps.prepareExecutionId
      prepareAt) := by simpa using he
    have hid : (begunExecution stamps.scanRunId "PREPARE" stamps.prepareExecutionId
        prepareAt).executionId = c.executionId := rfl
    rw [Closing.apply, if_pos hid]
    constructor
    · intro hrunning
      cases hrunning
    · show "PREPARE" ≠ "SCAN"
      decide
  · intro runId e he
    rw [hexecutions] at he
    obtain ⟨e₀, he₀, rfl⟩ := List.mem_map.1 he
    rw [apply_executionId]
    rcases List.mem_append.1 he₀ with hold | hown
    · exact (hnew.unused runId e₀ hold).2
    · split_ifs at hown
      · obtain rfl := List.mem_singleton.1 hown
        exact hnew.distinct
      · cases hown

/-- The run store when the scanner starts. -/
abbrev scanningRuns (projectId : String) (projectCreatedAt : Option DateTime)
    (stamps : ScanStamps) (runs : ScanRunStore) : ScanRunStore :=
  (openRun projectId projectCreatedAt stamps runs).beginStageExecution stamps.scanRunId "SCAN"
    stamps.scanExecution.executionId stamps.scanExecution.startedAt

lemma begun_scanningRuns (hfiled : WellFiled runs) (hnew : NewRun stamps runs) :
    Begun stamps (scanningRuns projectId projectCreatedAt stamps runs) := by
  obtain ⟨hopen, hstages, hexecutions, hunused⟩ :=
    openRun_spec projectId projectCreatedAt hfiled hnew
  refine ⟨hopen.begin hunused, ?_, ?_, ?_⟩
  · intro stageName stage hstage hrunning
    rw [scanningRuns, ScanRunStore.beginStageExecution, ScanRunStore.stage_upsertStage] at hstage
    split_ifs at hstage with hname
    · exact hname.2
    · exact absurd hrunning (hstages stageName stage hstage)
  · intro e he hscan
    rw [executionsOf_begin, if_pos rfl, List.mem_append, List.mem_singleton] at he
    rcases he with he | rfl
    · obtain ⟨hrunning, hname⟩ := hexecutions e he
      exact absurd hscan (not_or.2 ⟨hrunning, hname⟩)
    · rfl
  · refine ⟨begunExecution stamps.scanRunId "SCAN" stamps.scanExecution.executionId
      stamps.scanExecution.startedAt, ?_, rfl, rfl⟩
    rw [executionsOf_begin, if_pos rfl]
    exact List.mem_append_right _ (List.mem_singleton_self _)

/-- Lineage does not touch stages and executions. -/
lemma Begun.addFindingLineage (h : Begun stamps runs) (runId findingId : String) :
    Begun stamps (runs.addFindingLineage runId findingId) :=
  ⟨⟨h.filed.ids, h.filed.owner, h.filed.filed⟩, h.stages, h.executions, h.execution⟩

/-- The store after the SCAN stage has ended and the run has been saved. -/
def closedRuns (stamps : ScanStamps) (ending : ScanRunStore.Ending) (run : ScanRun)
    (runs : ScanRunStore) : ScanRunStore :=
  (runs.endStageExecution stamps.scanRunId "SCAN" stamps.scanExecution.executionId
    ending).createRun run

lemma findingIdsForRun_closedRuns (ending : ScanRunStore.Ending) (run : ScanRun) (runId : String) :
    (closedRuns stamps ending run runs).findingIdsForRun runId = runs.findingIdsForRun runId :=
  runs.findingIdsForRun_endStageExecution stamps.scanRunId "SCAN"
    stamps.scanExecution.executionId ending runId

/-- **When the handlers have run**, the record is that of a failed scan, if the registered findings
are in lineages. -/
lemma Begun.failedRecord_iff (h : Begun stamps runs) (projectId exc : String) :
    FailedRecord stamps.scanRunId exc registered
        (closedRuns stamps ⟨.failed, stamps.scanExecution.endedAt, some exc⟩
          (failedRun projectId stamps exc) runs)
      ↔ ∀ findingId ∈ registered, ∃ runId, findingId ∈ runs.findingIdsForRun runId := by
  let c : Closing := ⟨stamps.scanRunId, "SCAN", stamps.scanExecution.executionId,
    ⟨.failed, stamps.scanExecution.endedAt, some exc⟩⟩
  have hstage : ∀ stageName, (closedRuns stamps c.ending (failedRun projectId stamps exc)
      runs).stage stamps.scanRunId stageName
        = if stamps.scanRunId = c.scanRunId ∧ stageName = "SCAN"
          then some (c.record (runs.stage c.scanRunId c.stageName))
          else runs.stage stamps.scanRunId stageName :=
    fun stageName => stage_end c stamps.scanRunId stageName
  constructor
  · intro hrecord findingId hmem
    obtain ⟨runId, hrun⟩ := hrecord.lineage findingId hmem
    exact ⟨runId, findingIdsForRun_closedRuns _ _ runId ▸ hrun⟩
  · intro hlineage
    refine ⟨?_, ?_, ?_, ?_, ?_⟩
    · intro run hrun
      have hsaved : (closedRuns stamps c.ending (failedRun projectId stamps exc) runs).getRun
          stamps.scanRunId = some (failedRun projectId stamps exc) :=
        (ScanRunStore.getRun_createRun ..).trans (if_pos rfl)
      obtain rfl := Option.some.inj (hsaved.symm.trans hrun)
      exact ⟨rfl, rfl⟩
    · intro stageName stage hget
      rw [hstage] at hget
      split_ifs at hget with hname
      · obtain rfl := Option.some.inj hget
        intro hrunning
        cases hrunning
      · intro hrunning
        exact hname ⟨rfl, h.stages stageName stage hget hrunning⟩
    · intro stage hget
      rw [hstage, if_pos ⟨rfl, rfl⟩] at hget
      obtain rfl := Option.some.inj hget
      intro hrunning
      cases hrunning
    · intro e he
      have he : e ∈ (runs.executionsOf stamps.scanRunId).map c.apply :=
        executionsOf_end h.filed c stamps.scanRunId ▸ he
      obtain ⟨e₀, he₀, rfl⟩ := List.mem_map.1 he
      rw [Closing.apply]
      split_ifs with hid
      · intro hrunning
        cases hrunning
      · exact fun hrunning => hid (h.executions e₀ he₀ (Or.inl hrunning))
    · intro findingId hmem
      obtain ⟨runId, hrun⟩ := hlineage findingId hmem
      exact ⟨runId, (findingIdsForRun_closedRuns _ _ runId).symm ▸ hrun⟩

/-- When the stage and the run have been completed, the record is that of a scan that returns. -/
lemma Begun.completedRecord (h : Begun stamps runs) (projectId : String) (report : ScanReport) :
    CompletedRecord stamps.scanRunId
      (closedRuns stamps ⟨.completed, stamps.scanExecution.endedAt, none⟩
        (completedRun projectId stamps report) runs) := by
  let c : Closing := ⟨stamps.scanRunId, "SCAN", stamps.scanExecution.executionId,
    ⟨.completed, stamps.scanExecution.endedAt, none⟩⟩
  have hexecutions : (closedRuns stamps c.ending (completedRun projectId stamps report)
      runs).executionsOf stamps.scanRunId = (runs.executionsOf stamps.scanRunId).map c.apply :=
    executionsOf_end h.filed c stamps.scanRunId
  refine ⟨?_, ?_, ?_, ?_⟩
  · exact ⟨_, (ScanRunStore.getRun_createRun ..).trans (if_pos rfl), rfl⟩
  · exact ⟨_, (stage_end c stamps.scanRunId "SCAN").trans (if_pos ⟨rfl, rfl⟩), rfl⟩
  · obtain ⟨e, he, -, hname⟩ := h.execution
    rw [hexecutions]
    exact ⟨c.apply e, List.mem_map_of_mem he, (apply_stageName c e).trans hname⟩
  · rw [hexecutions]
    intro e he hname
    obtain ⟨e₀, he₀, rfl⟩ := List.mem_map.1 he
    rw [apply_stageName] at hname
    rw [Closing.apply, if_pos (h.executions e₀ he₀ (Or.inr hname))]
    rfl

/-! ## The tables -/

/-- Two stores that hold the records of the same tables show the same record of a scan. -/
lemma scanRecord_congr {runs' : ScanRunStore} {tables : ScanTables} (h : StoredIn runs tables)
    (h' : StoredIn runs' tables) (scanRunId : String)
    (result : Except String (ScanRun × ScanReport)) :
    ScanRecord scanRunId registered runs result → ScanRecord scanRunId registered runs' result := by
  have hrun : ∀ runId, runs'.getRun runId = runs.getRun runId :=
    fun runId => (h'.runs runId).trans (h.runs runId).symm
  have hstage : ∀ runId stageName, runs'.stage runId stageName = runs.stage runId stageName :=
    fun runId stageName => (h'.stages runId stageName).trans (h.stages runId stageName).symm
  have hexecutions : ∀ runId e, e ∈ runs'.executionsOf runId ↔ e ∈ runs.executionsOf runId :=
    fun runId e => (h'.executions runId e).trans (h.executions runId e).symm
  have hfindings : ∀ runId id, id ∈ runs'.findingIdsForRun runId
      ↔ id ∈ runs.findingIdsForRun runId :=
    fun runId id => (h'.findings runId id).trans (h.findings runId id).symm
  cases result with
  | error exc =>
      intro hrecord
      refine ⟨?_, ?_, ?_, ?_, ?_⟩
      · intro run hget
        exact hrecord.run run (hrun _ ▸ hget)
      · intro stageName stage hget
        exact hrecord.stages stageName stage (hstage _ _ ▸ hget)
      · intro stage hget
        exact hrecord.scan stage (hstage _ _ ▸ hget)
      · intro e he
        exact hrecord.executions e ((hexecutions _ e).1 he)
      · intro findingId hmem
        obtain ⟨runId, hid⟩ := hrecord.lineage findingId hmem
        exact ⟨runId, (hfindings runId findingId).2 hid⟩
  | ok result =>
      intro hrecord
      refine ⟨?_, ?_, ?_, ?_⟩
      · rw [hrun]
        exact hrecord.run
      · rw [hstage]
        exact hrecord.stage
      · obtain ⟨e, he, hname⟩ := hrecord.execution
        exact ⟨e, (hexecutions _ e).2 he, hname⟩
      · intro e he
        exact hrecord.executions e ((hexecutions _ e).1 he)

/-- The run store in memory holds the records of the tables. -/
abbrev Stored (s : ScanMemory × ScanDatabase) : Prop := StoredIn s.1.stores.runs s.2.tables

lemma stored_saveRun (h : Stored s) (run : ScanRun) : Stored (afterAll [.saveRun run] s) :=
  h.createRun run

lemma stored_stages (h : Stored s) (stages : List ScanStageRun) :
    Stored (afterAll (stages.map .upsertStage) s) := by
  induction stages generalizing s with
  | nil => exact h
  | cons stage stages ih =>
      exact @ih ((ScanWrite.upsertStage stage).commit.apply s) (h.upsertStage stage)

lemma stored_beginWrites (h : Stored s) {scanRunId stageName executionId : String}
    {startedAt : DateTime}
    (hunused : ∀ runId, ∀ e ∈ s.1.stores.runs.executionsOf runId, e.executionId ≠ executionId) :
    Stored (afterAll (beginWrites scanRunId stageName executionId startedAt) s) :=
  h.begin scanRunId stageName executionId startedAt hunused

lemma tables_endWrites (scanRunId stageName executionId : String) (ending : ScanRunStore.Ending)
    (s : ScanMemory × ScanDatabase) :
    (afterAll (endWrites scanRunId stageName executionId ending) s).2.tables
      = s.2.tables.endStageExecution s.1.stores.runs
        ⟨scanRunId, stageName, executionId, ending⟩ := by
  have hstage : (s.1.stores.runs.updateExecution executionId ending).stage scanRunId stageName
      = s.1.stores.runs.stage scanRunId stageName := ScanRunStore.stage_updateExecution ..
  have hfirst : ((ScanWrite.endExecution executionId ending).commit.apply s).2.tables
      = s.2.tables.closeExecution s.1.stores.runs executionId ending := by
    show (((s.1.stores.runs.findExecution executionId).map _).getD s.2).tables = _
    unfold ScanTables.closeExecution
    cases s.1.stores.runs.findExecution executionId <;> rfl
  show (((ScanWrite.endExecution executionId ending).commit.apply s).2.tables).upsertStage
    ((Closing.mk scanRunId stageName "" ending).record
      ((s.1.stores.runs.updateExecution executionId ending).stage scanRunId stageName)) = _
  rw [hfirst, hstage]
  rfl

lemma stored_endWrites (h : Stored s) (scanRunId stageName executionId : String)
    (ending : ScanRunStore.Ending) :
    Stored (afterAll (endWrites scanRunId stageName executionId ending) s) := by
  rw [Stored, tables_endWrites, memory_afterAll]
  exact h.end ⟨scanRunId, stageName, executionId, ending⟩

lemma tables_findings (findings : List CandidateFinding) (s : ScanMemory × ScanDatabase) :
    (afterAll (findings.map .addFinding) s).2.tables = s.2.tables := by
  induction findings generalizing s with
  | nil => rfl
  | cons finding findings ih => exact ih ((ScanWrite.addFinding finding).commit.apply s)

/-- Every finding of a report that has been registered has its row. -/
lemma rows_findings (findings : List CandidateFinding) (s : ScanMemory × ScanDatabase)
    {findingId : String} (h : findingId ∈ findings.map CandidateFinding.id
      ∨ (s.2.findings.get? findingId).isSome) :
    ((afterAll (findings.map .addFinding) s).2.findings.get? findingId).isSome := by
  induction findings generalizing s with
  | nil => simpa [afterAll, applyAll] using h
  | cons finding findings ih =>
      refine ih ((ScanWrite.addFinding finding).commit.apply s) ?_
      show _ ∨ ((s.2.findings.set finding.id finding).get? findingId).isSome
      rw [Dict.get?_set]
      split_ifs with hid
      · exact Or.inr rfl
      · rcases h with h | h
        · rcases List.mem_cons.1 h with h | h
          · exact absurd h hid
          · exact Or.inl h
        · exact Or.inr h

/-- The lineage of an id is a row of its own. -/
lemma addLineage_write (scanRunId findingId : String) (s : ScanMemory × ScanDatabase) :
    (ScanWrite.addLineage scanRunId findingId).commit.write s.1 s.2
      = match s.2.tables.findings.get? (scanRunId, findingId) with
        | none => some { s.2 with tables := s.2.tables.addFinding scanRunId findingId }
        | some _ => none := rfl

lemma stored_lineage (h : Stored s) (scanRunId : String) (findingIds : List String) :
    Stored (afterAll (findingIds.map (.addLineage scanRunId)) s) := by
  induction findingIds generalizing s with
  | nil => exact h
  | cons findingId findingIds ih =>
      refine @ih ((ScanWrite.addLineage scanRunId findingId).commit.apply s) ?_
      have htables : ((ScanWrite.addLineage scanRunId findingId).commit.apply s).2.tables
          = s.2.tables.addFinding scanRunId findingId := by
        rw [Commit.apply, addLineage_write]
        cases hrow : s.2.tables.findings.get? (scanRunId, findingId) with
        | none => rfl
        | some row =>
            rw [ScanTables.addFinding, hrow]
            rfl
      rw [Stored, htables]
      exact h.addFindingLineage scanRunId findingId

lemma stored_openWrites (h : Stored s) (hnew : NewRun stamps s.1.stores.runs) :
    Stored (afterAll (openWrites projectId projectCreatedAt stamps) s) := by
  have hstages : ScanWrite.saveRun (openedRun projectId stamps)
      :: stageNames.map (fun name => .upsertStage
        { scanRunId := stamps.scanRunId, stageName := name, status := .pending })
      = [.saveRun (openedRun projectId stamps)]
        ++ (stageNames.map fun name =>
          { scanRunId := stamps.scanRunId, stageName := name, status := .pending }).map
            ScanWrite.upsertStage := by
    rw [List.map_map]
    rfl
  rw [openWrites, afterAll_append, afterAll_append]
  refine stored_endWrites (stored_beginWrites ?_ ?_) _ _ _ _
  · rw [hstages, afterAll_append]
    exact stored_stages (stored_saveRun h _) _
  · intro runId e he
    rw [memory_afterAll] at he
    exact (hnew.unused runId e he).1

lemma runs_openWrites (s : ScanMemory × ScanDatabase) :
    (afterAll (openWrites projectId projectCreatedAt stamps) s).1
      = ⟨{ s.1.stores with runs := openRun projectId projectCreatedAt stamps s.1.stores.runs },
        s.1.registered⟩ := by
  rw [memory_afterAll, rememberAll_openWrites]
  have hnone : (openWrites projectId projectCreatedAt stamps).flatMap ScanWrite.registers = [] :=
    rfl
  rw [hnone, List.append_nil]

/-! ## Counting the commits -/

lemma isSome_findExecution {runId : String} {e : ScanStageExecution}
    (he : e ∈ runs.executionsOf runId) : (runs.findExecution e.executionId).isSome := by
  cases hfound : runs.findExecution e.executionId with
  | none => exact absurd rfl (findExecution_eq_none hfound runId e he)
  | some found => rfl

lemma always_beginWrites (scanRunId stageName executionId : String) (startedAt : DateTime) :
    ∀ write ∈ beginWrites scanRunId stageName executionId startedAt, write.Always := by
  simp [beginWrites, ScanWrite.Always]

lemma always_findings (findings : List CandidateFinding) :
    ∀ write ∈ findings.map ScanWrite.addFinding, write.Always := by
  simp [ScanWrite.Always]

lemma committing_openWrites (s : ScanMemory × ScanDatabase) :
    committing ScanWrite.commit (openWrites projectId projectCreatedAt stamps) s
      = openWrites projectId projectCreatedAt stamps := by
  set prepareAt := (projectCreatedAt.map DateTime.asAwareUtc).getD stamps.now with hprepare
  have hsplit : openWrites projectId projectCreatedAt stamps
      = (.saveRun (openedRun projectId stamps)
          :: stageNames.map (fun name => .upsertStage
            { scanRunId := stamps.scanRunId, stageName := name, status := .pending })
          ++ beginWrites stamps.scanRunId "PREPARE" stamps.prepareExecutionId prepareAt)
        ++ endWrites stamps.scanRunId "PREPARE" stamps.prepareExecutionId
          ⟨.completed, prepareAt, none⟩ := rfl
  have halways : ∀ write ∈ (.saveRun (openedRun projectId stamps)
      :: stageNames.map (fun name => .upsertStage
        { scanRunId := stamps.scanRunId, stageName := name, status := .pending })
      ++ beginWrites stamps.scanRunId "PREPARE" stamps.prepareExecutionId prepareAt),
      write.Always := by
    intro write hwrite
    rcases List.mem_append.1 hwrite with hwrite | hwrite
    · rcases List.mem_cons.1 hwrite with rfl | hwrite
      · trivial
      · obtain ⟨name, -, rfl⟩ := List.mem_map.1 hwrite
        trivial
    · exact always_beginWrites _ _ _ _ write hwrite
  rw [hsplit, committing_append, committing_of_always halways,
    committing_endWrites]
  show ((afterAll _ s).1.stores.runs.findExecution stamps.prepareExecutionId).isSome
  rw [memory_afterAll]
  have hbegun : begunExecution stamps.scanRunId "PREPARE" stamps.prepareExecutionId prepareAt
      ∈ (preparing projectId stamps prepareAt s.1.stores.runs).executionsOf stamps.scanRunId := by
    rw [preparing, executionsOf_begin, if_pos rfl]
    exact List.mem_append_right _ (List.mem_singleton_self _)
  exact isSome_findExecution hbegun

lemma mem_firstIds {seen ids : List String} {id : String} :
    id ∈ firstIds seen ids ↔ id ∈ ids ∧ id ∉ seen := by
  induction ids generalizing seen with
  | nil => simp [firstIds]
  | cons x ids ih =>
      rw [firstIds]
      split_ifs with hx
      · rw [ih, List.mem_cons]
        constructor
        · rintro ⟨hid, hseen⟩
          exact ⟨Or.inr hid, hseen⟩
        · rintro ⟨rfl | hid, hseen⟩
          · exact absurd hx hseen
          · exact ⟨hid, hseen⟩
      · rw [List.mem_cons, List.mem_cons, ih, List.mem_append, List.mem_singleton]
        constructor
        · rintro (rfl | ⟨hid, hseen⟩)
          · exact ⟨Or.inl rfl, hx⟩
          · exact ⟨Or.inr hid, fun h => hseen (Or.inl h)⟩
        · rintro ⟨rfl | hid, hseen⟩
          · exact Or.inl rfl
          · by_cases hidx : id = x
            · exact Or.inl hidx
            · exact Or.inr ⟨hid, fun h => h.elim hseen hidx⟩

lemma firstIds_append (seen ids ids' : List String) :
    firstIds seen (ids ++ ids')
      = firstIds seen ids ++ firstIds (seen ++ firstIds seen ids) ids' := by
  induction ids generalizing seen with
  | nil => rw [firstIds, List.nil_append, List.append_nil]; rfl
  | cons x ids ih =>
      rw [List.cons_append, firstIds, firstIds]
      split_ifs
      · exact ih seen
      · rw [ih, List.cons_append, List.append_assoc]
        rfl

/-- The lineage of an id is written once. -/
lemma committing_lineage {scanRunId : String} {seen : List String} (findingIds : List String)
    (hseen : ∀ id, (s.2.tables.findings.get? (scanRunId, id)).isSome ↔ id ∈ seen) :
    committing ScanWrite.commit (findingIds.map (.addLineage scanRunId)) s
      = (firstIds seen findingIds).map (.addLineage scanRunId) := by
  induction findingIds generalizing s seen with
  | nil => rfl
  | cons findingId findingIds ih =>
      rw [List.map_cons, committing, firstIds]
      have hwrite := addLineage_write scanRunId findingId s
      cases hrow : s.2.tables.findings.get? (scanRunId, findingId) with
      | some row =>
          have hmem : findingId ∈ seen := (hseen findingId).1 (by rw [hrow]; rfl)
          rw [hrow] at hwrite
          rw [hwrite, if_neg (by simp), if_pos hmem, List.nil_append]
          refine ih fun id => ?_
          have hsame : ((ScanWrite.addLineage scanRunId findingId).commit.apply s).2 = s.2 := by
            rw [Commit.apply, hwrite]
            rfl
          rw [hsame]
          exact hseen id
      | none =>
          have hmem : findingId ∉ seen := by
            intro hmem
            have hsome := (hseen findingId).2 hmem
            rw [hrow] at hsome
            cases hsome
          rw [hrow] at hwrite
          have hnext : ∀ id, (((ScanWrite.addLineage scanRunId findingId).commit.apply
              s).2.tables.findings.get? (scanRunId, id)).isSome ↔ id ∈ seen ++ [findingId] := by
            intro id
            have happly : ((ScanWrite.addLineage scanRunId findingId).commit.apply s).2.tables
                = s.2.tables.addFinding scanRunId findingId := by
              rw [Commit.apply, hwrite]
              rfl
            rw [happly, ScanTables.addFinding, hrow, List.mem_append, List.mem_singleton,
              Dict.get?_set, ← hseen id]
            split_ifs with hid
            · have hid : id = findingId := (Prod.mk.inj hid).2
              simp [hid]
            · have hid : id ≠ findingId := fun h => hid (h ▸ rfl)
              simp [hid]
          rw [hwrite, if_neg hmem, ih hnext]
          rfl

/-! ## The handlers -/

variable {t t' : Session ScanMemory ScanDatabase} {exc : String} {report : ScanReport}

/-- An exception of the scanner, or of a commit after the SCAN stage has begun, ends the stage. -/
lemma recordStageJob_of_error {fn : ScanJob ScanReport}
    (hbegin : commitAll dbError (beginWrites stamps.scanRunId "SCAN"
      stamps.scanExecution.executionId stamps.scanExecution.startedAt) t = (.ok (), t'))
    (hfn : fn t' = (.error exc, safe s)) :
    recordStageJob dbError stamps.scanRunId "SCAN" stamps.scanExecution fn t
      = (.error exc, safe (afterAll (endWrites stamps.scanRunId "SCAN"
          stamps.scanExecution.executionId
          ⟨.failed, stamps.scanExecution.endedAt, some exc⟩) s)) := by
  rw [recordStageJob, bind_of_ok hbegin]
  refine bind_of_error ((tryCatch_of_error hfn).trans ?_)
  exact bind_of_ok (commitAll_of_none _ s)

/-- A stage whose function returns is completed, outside the handler. -/
lemma recordStageJob_of_ok {fn : ScanJob ScanReport} {t'' : Session ScanMemory ScanDatabase}
    (hbegin : commitAll dbError (beginWrites stamps.scanRunId "SCAN"
      stamps.scanExecution.executionId stamps.scanExecution.startedAt) t = (.ok (), t'))
    (hfn : fn t' = (.ok report, t'')) :
    recordStageJob dbError stamps.scanRunId "SCAN" stamps.scanExecution fn t
      = (commitAll dbError (endWrites stamps.scanRunId "SCAN" stamps.scanExecution.executionId
          ⟨.completed, stamps.scanExecution.endedAt, none⟩) >>= fun _ => pure report) t'' := by
  rw [recordStageJob, bind_of_ok hbegin, bind_of_ok (tryCatch_of_ok hfn)]

lemma recordStageJob_of_begin_error {fn : ScanJob ScanReport}
    (hbegin : commitAll dbError (beginWrites stamps.scanRunId "SCAN"
      stamps.scanExecution.executionId stamps.scanExecution.startedAt) t = (.error exc, t')) :
    recordStageJob dbError stamps.scanRunId "SCAN" stamps.scanExecution fn t
      = (.error exc, t') := by
  rw [recordStageJob]
  exact bind_of_error hbegin

lemma executeScanJob_of_open_error
    (hopen : commitAll dbError (openWrites projectId projectCreatedAt stamps) t
      = (.error exc, t')) :
    executeScanJob dbError py rules projectId codeModel projectCreatedAt stamps t
      = (.error exc, t') := by
  rw [executeScanJob]
  exact bind_of_error hopen

/-- An exception of the SCAN stage marks the run as failed. -/
lemma executeScanJob_of_error
    (hopen : commitAll dbError (openWrites projectId projectCreatedAt stamps) t = (.ok (), t'))
    (hstage : recordStageJob dbError stamps.scanRunId "SCAN" stamps.scanExecution
      (doScanJob dbError py rules stamps.scanRunId projectId codeModel) t'
        = (.error exc, safe s)) :
    executeScanJob dbError py rules projectId codeModel projectCreatedAt stamps t
      = (.error exc, safe (afterAll [.saveRun (failedRun projectId stamps exc)] s)) := by
  rw [executeScanJob, bind_of_ok hopen]
  refine bind_of_error ((tryCatch_of_error hstage).trans ?_)
  exact bind_of_ok (commitAll_of_none _ s)

/-- A scan whose SCAN stage is completed saves the run, outside the handler. -/
lemma executeScanJob_of_ok {t'' : Session ScanMemory ScanDatabase}
    (hopen : commitAll dbError (openWrites projectId projectCreatedAt stamps) t = (.ok (), t'))
    (hstage : recordStageJob dbError stamps.scanRunId "SCAN" stamps.scanExecution
      (doScanJob dbError py rules stamps.scanRunId projectId codeModel) t' = (.ok report, t'')) :
    executeScanJob dbError py rules projectId codeModel projectCreatedAt stamps t
      = (commitAll dbError [.saveRun (completedRun projectId stamps report)] >>= fun _ =>
          pure (completedRun projectId stamps report, report)) t'' := by
  rw [executeScanJob, bind_of_ok hopen, bind_of_ok (tryCatch_of_ok hstage)]

/-- **An exception after the SCAN stage has begun** runs both handlers. -/
lemma executeScanJob_handled
    (hopen : commitAll dbError (openWrites projectId projectCreatedAt stamps) t = (.ok (), t'))
    {t'' : Session ScanMemory ScanDatabase}
    (hbegin : commitAll dbError (beginWrites stamps.scanRunId "SCAN"
      stamps.scanExecution.executionId stamps.scanExecution.startedAt) t' = (.ok (), t''))
    (hscan : doScanJob dbError py rules stamps.scanRunId projectId codeModel t''
      = (.error exc, safe s)) :
    executeScanJob dbError py rules projectId codeModel projectCreatedAt stamps t
      = (.error exc, safe (afterAll (endWrites stamps.scanRunId "SCAN"
          stamps.scanExecution.executionId ⟨.failed, stamps.scanExecution.endedAt, some exc⟩
            ++ [.saveRun (failedRun projectId stamps exc)]) s)) := by
  rw [executeScanJob_of_error hopen (recordStageJob_of_error hbegin hscan), afterAll_append]

/-- **What the handlers leave** is a consistent record, if the findings registered so far are in
lineages, in memory and in the tables. -/
lemma leavesRecord_handled {runs' : ScanRunStore} (hbegun : Begun stamps s.1.stores.runs)
    (hbegun' : Begun stamps runs') (hstored : StoredIn runs' s.2.tables)
    (hstages : s.1.stores.runs.stages = runs'.stages)
    (hexecutions : s.1.stores.runs.executions = runs'.executions) :
    LeavesRecord stamps.scanRunId (.error exc, safe (afterAll (endWrites stamps.scanRunId "SCAN"
          stamps.scanExecution.executionId ⟨.failed, stamps.scanExecution.endedAt, some exc⟩
            ++ [.saveRun (failedRun projectId stamps exc)]) s))
      ↔ (∀ findingId ∈ s.1.registered,
          ∃ runId, findingId ∈ s.1.stores.runs.findingIdsForRun runId)
        ∧ ∀ findingId ∈ s.1.registered, (s.2.findings.get? findingId).isSome →
          ∃ runId, findingId ∈ runs'.findingIdsForRun runId := by
  set ending : ScanRunStore.Ending := ⟨.failed, stamps.scanExecution.endedAt, some exc⟩
    with hending
  have hmemory : (afterAll (endWrites stamps.scanRunId "SCAN" stamps.scanExecution.executionId
      ending ++ [.saveRun (failedRun projectId stamps exc)]) s).1
        = ⟨{ s.1.stores with
            runs := closedRuns stamps ending (failedRun projectId stamps exc) s.1.stores.runs },
          s.1.registered⟩ := by
    rw [memory_afterAll]
    simp [endWrites, ScanWrite.registers]
    rfl
  have hfindings : (afterAll (endWrites stamps.scanRunId "SCAN" stamps.scanExecution.executionId
      ending ++ [.saveRun (failedRun projectId stamps exc)]) s).2.findings = s.2.findings := by
    rw [afterAll_append]
    show (((s.1.stores.runs.findExecution stamps.scanExecution.executionId).map _).getD
      s.2).findings = _
    cases s.1.stores.runs.findExecution stamps.scanExecution.executionId <;> rfl
  -- The tables are written from the stages and executions in memory, which are those of `runs'`.
  have htables : StoredIn (closedRuns stamps ending (failedRun projectId stamps exc) runs')
      (afterAll (endWrites stamps.scanRunId "SCAN" stamps.scanExecution.executionId ending
        ++ [.saveRun (failedRun projectId stamps exc)]) s).2.tables := by
    have hend := (hstored.end ⟨stamps.scanRunId, "SCAN", stamps.scanExecution.executionId,
      ending⟩).createRun (failedRun projectId stamps exc)
    have hsame : s.2.tables.endStageExecution runs' ⟨stamps.scanRunId, "SCAN",
        stamps.scanExecution.executionId, ending⟩
          = s.2.tables.endStageExecution s.1.stores.runs ⟨stamps.scanRunId, "SCAN",
            stamps.scanExecution.executionId, ending⟩ := by
      simp only [ScanTables.endStageExecution, ScanTables.closeExecution,
        ScanRunStore.findExecution, ScanRunStore.stage, hstages, hexecutions]
    rw [afterAll_append]
    show StoredIn _ ((afterAll (endWrites stamps.scanRunId "SCAN"
      stamps.scanExecution.executionId ending) s).2.tables.upsertRun
        (failedRun projectId stamps exc))
    rw [tables_endWrites, ← hsame]
    exact hend
  generalize afterAll (endWrites stamps.scanRunId "SCAN" stamps.scanExecution.executionId ending
    ++ [.saveRun (failedRun projectId stamps exc)]) s = after at hmemory hfindings htables ⊢
  constructor
  · rintro ⟨hrecord, hrows⟩
    have hrecord : FailedRecord stamps.scanRunId exc after.1.registered after.1.stores.runs :=
      hrecord
    rw [hmemory] at hrecord
    refine ⟨(hbegun.failedRecord_iff projectId exc).1 hrecord, ?_⟩
    intro findingId hmem hsome
    have hreturns : after.2.tables.Returns ⟨after.2.tables.runs.entries,
        after.2.tables.stages.entries, after.2.tables.executions.entries,
        after.2.tables.findings.entries⟩ := ⟨.refl _, .refl _, .refl _, .refl _⟩
    have hload := scanRecord_congr (htables.setFactory hreturns) htables _ _ (hrows _ hreturns)
    refine (hbegun'.failedRecord_iff projectId exc).1 hload findingId ?_
    show findingId ∈ after.1.registered.filter fun id => (after.2.findings.get? id).isSome
    rw [hmemory, hfindings]
    exact List.mem_filter.2 ⟨hmem, hsome⟩
  · rintro ⟨hlineage, hrows⟩
    refine ⟨?_, fun rows hreturns => ?_⟩
    · show FailedRecord stamps.scanRunId exc after.1.registered after.1.stores.runs
      rw [hmemory]
      exact (hbegun.failedRecord_iff projectId exc).2 hlineage
    · refine scanRecord_congr htables (htables.setFactory hreturns) _ _ ?_
      refine (hbegun'.failedRecord_iff projectId exc).2 fun findingId hmem => ?_
      have hmem : findingId ∈ after.1.registered.filter fun id =>
        (after.2.findings.get? id).isSome := hmem
      rw [hmemory, hfindings] at hmem
      obtain ⟨hmem, hsome⟩ := List.mem_filter.1 hmem
      exact hrows findingId hmem hsome

/-! ## Records that are not consistent -/

lemma not_leavesRecord_of_run {scanRunId : String} {run : ScanRun}
    (hrun : t.memory.stores.runs.getRun scanRunId = some run) (hstatus : run.status ≠ .failed) :
    ¬ LeavesRecord scanRunId (.error exc, t) :=
  fun h => hstatus (h.1.run run hrun).1

lemma not_leavesRecord_of_execution {scanRunId : String} {e : ScanStageExecution}
    (he : e ∈ t.memory.stores.runs.executionsOf scanRunId) (hstatus : e.status = .running) :
    ¬ LeavesRecord scanRunId (.error exc, t) :=
  fun h => h.1.executions e he hstatus

lemma not_leavesRecord_of_stage {scanRunId : String} {stage : ScanStageRun}
    (hstage : t.memory.stores.runs.stage scanRunId "SCAN" = some stage)
    (hstatus : stage.status = .running ∨ stage.status = .completed) :
    ¬ LeavesRecord scanRunId (.error exc, t) :=
  fun h => hstatus.elim (h.1.stages "SCAN" stage hstage) (h.1.scan stage hstage)

/-- The scan has raised, has put a finding into the finding store, and there is no lineage. -/
def leavesOrphan
    (outcome : Except String (ScanRun × ScanReport) × Session ScanMemory ScanDatabase) : Bool :=
  outcome.1.toOption.isNone && !outcome.2.memory.registered.isEmpty
    && outcome.2.memory.stores.runs.lineage.entries.isEmpty

lemma not_leavesRecord_of_orphan {scanRunId : String}
    {outcome : Except String (ScanRun × ScanReport) × Session ScanMemory ScanDatabase}
    (h : leavesOrphan outcome) : ¬ LeavesRecord scanRunId outcome := by
  obtain ⟨result, t⟩ := outcome
  rw [leavesOrphan, Bool.and_eq_true, Bool.and_eq_true] at h
  obtain ⟨⟨hraised, hregistered⟩, hlineage⟩ := h
  cases result with
  | ok result => cases hraised
  | error exc =>
      rintro ⟨hrecord, -⟩
      cases hids : t.memory.registered with
      | nil =>
          rw [hids] at hregistered
          cases hregistered
      | cons findingId ids =>
          obtain ⟨runId, hmem⟩ := hrecord.lineage findingId (hids ▸ List.mem_cons_self ..)
          rw [ScanRunStore.findingIdsForRun, Dict.get?, List.isEmpty_iff.1 hlineage] at hmem
          cases hmem

/-- The condition on the commit that fails, with the commits before it. -/
lemma failureCovered_iff {scanRunId : String} {commits pre post : List ScanWrite}
    {write : ScanWrite} {n : Nat} (hsplit : commits = pre ++ write :: post) (hn : n = pre.length) :
    FailureCovered runs scanRunId commits (some n)
      ↔ write.ConcernsFinding ∧ ∀ finding, .addFinding finding ∈ pre ++ [write] →
        (∃ runId, finding.id ∈ runs.findingIdsForRun runId)
          ∨ .addLineage scanRunId finding.id ∈ pre := by
  subst hsplit hn
  have hget : (pre ++ write :: post)[pre.length]? = some write := by simp
  have htake : (pre ++ write :: post).take (pre.length + 1) = pre ++ [write] := by
    rw [List.take_append, List.take_of_length_le (Nat.le_succ _)]
    simp
  simp only [FailureCovered, Option.mem_some_iff, forall_eq', hget, htake, List.take_left']

lemma not_failureCovered {scanRunId : String} {commits pre post : List ScanWrite}
    {write : ScanWrite} {n : Nat} (hsplit : commits = pre ++ write :: post) (hn : n = pre.length)
    (hwrite : ¬ write.ConcernsFinding) : ¬ FailureCovered runs scanRunId commits (some n) :=
  fun h => hwrite ((failureCovered_iff hsplit hn).1 h).1

/-- A failing commit that is not among the commits of the scan. -/
lemma failureCovered_of_le {scanRunId : String} {commits : List ScanWrite} {fails : Option Nat}
    (h : ∀ n ∈ fails, commits.length ≤ n) : FailureCovered runs scanRunId commits fails := by
  intro n hn write hwrite
  rw [List.getElem?_eq_none (h n hn)] at hwrite
  cases hwrite

/-! ## The failing commit, section by section -/

lemma getRun_rememberAll {scanRunId : String} (writes : List ScanWrite) (stores : ScanStores)
    (h : ∀ write ∈ writes, ∀ run, write ≠ .saveRun run) :
    (rememberAll writes stores).runs.getRun scanRunId = stores.runs.getRun scanRunId := by
  induction writes generalizing stores with
  | nil => rfl
  | cons write writes ih =>
      rw [rememberAll_cons, ih _ fun w hw => h w (List.mem_cons_of_mem _ hw)]
      cases write with
      | saveRun run => exact absurd rfl (h _ (List.mem_cons_self ..) run)
      | endExecution executionId ending =>
          show (stores.runs.updateExecution executionId ending).getRun scanRunId = _
          unfold ScanRunStore.updateExecution
          split <;> rfl
      | upsertStage | appendExecution | startStage | endStage | addFinding | addLineage => rfl

/-- Before the SCAN stage the run stays running. -/
lemma not_leavesRecord_open {pre post : List ScanWrite} {write : ScanWrite}
    (hsplit : openWrites projectId projectCreatedAt stamps = pre ++ write :: post) :
    ¬ LeavesRecord stamps.scanRunId
      (.error exc, safe ((afterAll (pre ++ [write]) s).1, (afterAll pre s).2)) := by
  obtain ⟨rest, hopen, hrest⟩ : ∃ rest, openWrites projectId projectCreatedAt stamps
      = .saveRun (openedRun projectId stamps) :: rest
        ∧ ∀ write ∈ rest, ∀ run, write ≠ .saveRun run := by
    refine ⟨_, rfl, ?_⟩
    simp [stageNames, beginWrites, endWrites]
  obtain ⟨tail, htail, hsub⟩ : ∃ tail, pre ++ [write]
      = .saveRun (openedRun projectId stamps) :: tail ∧ ∀ write ∈ tail, write ∈ rest := by
    rw [hopen] at hsplit
    cases pre with
    | nil =>
        obtain ⟨rfl, -⟩ := List.cons.inj hsplit
        exact ⟨[], rfl, fun _ h => by cases h⟩
    | cons first pre =>
        obtain ⟨rfl, rfl⟩ := List.cons.inj hsplit
        refine ⟨pre ++ [write], rfl, fun w hw => ?_⟩
        rcases List.mem_append.1 hw with hw | hw
        · exact List.mem_append_left _ hw
        · obtain rfl := List.mem_singleton.1 hw
          exact List.mem_append_right _ (List.mem_cons_self ..)
  have hrun : (afterAll (pre ++ [write]) s).1.stores.runs.getRun stamps.scanRunId
      = some (openedRun projectId stamps) := by
    rw [memory_afterAll, htail, rememberAll_cons,
      getRun_rememberAll tail _ fun w hw => hrest w (hsub w hw)]
    exact (ScanRunStore.getRun_createRun ..).trans (if_pos rfl)
  exact not_leavesRecord_of_run hrun (by simp [openedRun])

/-- Until the SCAN stage has begun on both copies, its execution stays running. -/
lemma not_leavesRecord_begin {pre post : List ScanWrite} {write : ScanWrite}
    (hsplit : beginWrites stamps.scanRunId "SCAN" stamps.scanExecution.executionId
      stamps.scanExecution.startedAt = pre ++ write :: post) :
    ¬ LeavesRecord stamps.scanRunId (.error exc, safe (afterAll
      [.saveRun (failedRun projectId stamps exc)]
        ((afterAll (pre ++ [write]) s).1, (afterAll pre s).2))) := by
  obtain ⟨tail, htail, hexecutions⟩ : ∃ tail, pre ++ [write]
      = .appendExecution (begunExecution stamps.scanRunId "SCAN" stamps.scanExecution.executionId
          stamps.scanExecution.startedAt) :: tail
        ∧ ∀ stores : ScanStores, (rememberAll tail stores).runs.executionsOf stamps.scanRunId
          = stores.runs.executionsOf stamps.scanRunId := by
    rcases pre with _ | ⟨first, _ | ⟨second, pre⟩⟩
    · obtain ⟨rfl, -⟩ := List.cons.inj hsplit
      exact ⟨[], rfl, fun _ => rfl⟩
    · obtain ⟨rfl, hrest⟩ := List.cons.inj hsplit
      obtain ⟨rfl, -⟩ := List.cons.inj hrest
      exact ⟨_, rfl, fun _ => rfl⟩
    · have hlength := congrArg List.length hsplit
      simp [beginWrites] at hlength
  have hmem : begunExecution stamps.scanRunId "SCAN" stamps.scanExecution.executionId
      stamps.scanExecution.startedAt
        ∈ (afterAll (pre ++ [write]) s).1.stores.runs.executionsOf stamps.scanRunId := by
    rw [memory_afterAll, htail, rememberAll_cons, hexecutions]
    show _ ∈ ((s.1.stores.runs.executions.set stamps.scanRunId _).get? stamps.scanRunId).getD []
    rw [Dict.get?_set_self]
    exact List.mem_append_right _ (List.mem_singleton_self _)
  exact not_leavesRecord_of_execution hmem rfl

/-- Until the SCAN stage has ended on both copies, it is running or completed. -/
lemma not_leavesRecord_end {pre post : List ScanWrite} {write : ScanWrite}
    (hsplit : endWrites stamps.scanRunId "SCAN" stamps.scanExecution.executionId
      ⟨.completed, stamps.scanExecution.endedAt, none⟩ = pre ++ write :: post)
    (hrunning : ∃ stage, s.1.stores.runs.stage stamps.scanRunId "SCAN" = some stage
      ∧ stage.status = .running) :
    ¬ LeavesRecord stamps.scanRunId (.error exc, safe (afterAll
      [.saveRun (failedRun projectId stamps exc)]
        ((afterAll (pre ++ [write]) s).1, (afterAll pre s).2))) := by
  rcases pre with _ | ⟨first, _ | ⟨second, pre⟩⟩
  · obtain ⟨rfl, -⟩ := List.cons.inj hsplit
    obtain ⟨stage, hstage, hstatus⟩ := hrunning
    have hsame : (s.1.stores.runs.updateExecution stamps.scanExecution.executionId
        ⟨.completed, stamps.scanExecution.endedAt, none⟩).stage stamps.scanRunId "SCAN"
          = some stage := by
      rw [ScanRunStore.stage_updateExecution, hstage]
    exact not_leavesRecord_of_stage hsame (Or.inl hstatus)
  · obtain ⟨rfl, hrest⟩ := List.cons.inj hsplit
    obtain ⟨rfl, -⟩ := List.cons.inj hrest
    have hstage : ∀ runs : ScanRunStore, (runs.upsertStage (runs.endedStage stamps.scanRunId "SCAN"
        ⟨.completed, stamps.scanExecution.endedAt, none⟩)).stage stamps.scanRunId "SCAN"
          = some (runs.endedStage stamps.scanRunId "SCAN"
            ⟨.completed, stamps.scanExecution.endedAt, none⟩) := by
      intro runs
      rw [ScanRunStore.stage_upsertStage, if_pos ⟨rfl, rfl⟩]
    exact not_leavesRecord_of_stage (hstage _) (Or.inr rfl)
  · have hlength := congrArg List.length hsplit
    simp [endWrites] at hlength

/-- A run that has been completed stays so when saving it fails. -/
lemma not_leavesRecord_save {pre post : List ScanWrite} {write : ScanWrite}
    (hsplit : [.saveRun (completedRun projectId stamps report)] = pre ++ write :: post) :
    ¬ LeavesRecord stamps.scanRunId
      (.error exc, safe ((afterAll (pre ++ [write]) s).1, (afterAll pre s).2)) := by
  rcases pre with _ | ⟨first, pre⟩
  · obtain ⟨rfl, -⟩ := List.cons.inj hsplit
    have hrun : (s.1.stores.runs.createRun (completedRun projectId stamps report)).getRun
        stamps.scanRunId = some (completedRun projectId stamps report) :=
      (ScanRunStore.getRun_createRun ..).trans (if_pos rfl)
    exact not_leavesRecord_of_run hrun (by simp [completedRun])
  · have hlength := congrArg List.length hsplit
    simp at hlength

/-- A scan that returns has completed its run and its SCAN stage, on both copies. -/
lemma leavesRecord_returned {fuse : Option Nat} (hbegun : Begun stamps s.1.stores.runs)
    (hstored : Stored s) (result : ScanRun × ScanReport) :
    LeavesRecord stamps.scanRunId (.ok result,
      ⟨(afterAll [.saveRun (completedRun projectId stamps report)] (afterAll (endWrites
          stamps.scanRunId "SCAN" stamps.scanExecution.executionId
          ⟨.completed, stamps.scanExecution.endedAt, none⟩) s)).1,
        (afterAll [.saveRun (completedRun projectId stamps report)] (afterAll (endWrites
          stamps.scanRunId "SCAN" stamps.scanExecution.executionId
          ⟨.completed, stamps.scanExecution.endedAt, none⟩) s)).2, fuse⟩) := by
  have hrecord := hbegun.completedRecord projectId report
  have htables := stored_saveRun (stored_endWrites hstored stamps.scanRunId "SCAN"
    stamps.scanExecution.executionId ⟨.completed, stamps.scanExecution.endedAt, none⟩)
    (completedRun projectId stamps report)
  refine ⟨hrecord, fun rows hreturns => ?_⟩
  exact @scanRecord_congr [] _ _ _ htables (htables.setFactory hreturns) stamps.scanRunId
    (.ok result) hrecord

lemma memory_findings (findings : List CandidateFinding) (s : ScanMemory × ScanDatabase) :
    (afterAll (findings.map .addFinding) s).1
      = ⟨{ s.1.stores with findings := s.1.stores.findings.addReport findings },
        s.1.registered ++ findings.map CandidateFinding.id⟩ := by
  have hregisters : (findings.map ScanWrite.addFinding).flatMap ScanWrite.registers
      = findings.map CandidateFinding.id := by
    induction findings with
    | nil => rfl
    | cons f fs ih =>
        rw [List.map_cons, List.flatMap_cons, ih]
        rfl
  rw [memory_afterAll, rememberAll_findings, hregisters]

/-- A commit of a finding fails: the findings registered by then have to be in earlier lineages. -/
lemma leavesRecord_findings (hbegun : Begun stamps s.1.stores.runs) (hstored : Stored s)
    (hregistered : s.1.registered = []) (findings : List CandidateFinding)
    (finding : CandidateFinding) :
    LeavesRecord stamps.scanRunId (.error exc, safe (afterAll (endWrites stamps.scanRunId "SCAN"
          stamps.scanExecution.executionId ⟨.failed, stamps.scanExecution.endedAt, some exc⟩
            ++ [.saveRun (failedRun projectId stamps exc)])
        ((afterAll (findings.map .addFinding ++ [.addFinding finding]) s).1,
          (afterAll (findings.map .addFinding) s).2)))
      ↔ ∀ g ∈ findings ++ [finding],
        ∃ runId, g.id ∈ s.1.stores.runs.findingIdsForRun runId := by
  have hmemory : (afterAll (findings.map .addFinding ++ [.addFinding finding]) s).1
      = ⟨{ s.1.stores with
          findings := s.1.stores.findings.addReport (findings ++ [finding]) },
        (findings ++ [finding]).map CandidateFinding.id⟩ := by
    have hmap : findings.map ScanWrite.addFinding ++ [.addFinding finding]
        = (findings ++ [finding]).map .addFinding := by
      rw [List.map_append]
      rfl
    rw [hmap, memory_findings, hregistered, List.nil_append]
  have htables : StoredIn s.1.stores.runs (afterAll (findings.map .addFinding) s).2.tables := by
    rw [tables_findings]
    exact hstored
  rw [hmemory]
  refine (leavesRecord_handled (s := (⟨⟨s.1.stores.runs,
      s.1.stores.findings.addReport (findings ++ [finding])⟩,
    (findings ++ [finding]).map CandidateFinding.id⟩,
    (afterAll (findings.map .addFinding) s).2)) hbegun hbegun htables rfl rfl).trans ?_
  simp only [List.mem_map, forall_exists_index, and_imp, forall_apply_eq_imp_iff₂]
  exact ⟨fun h => h.1, fun h => ⟨h, fun g hg _ => h g hg⟩⟩

lemma rememberAll_lineageIds (scanRunId : String) (findingIds : List String)
    (stores : ScanStores) :
    rememberAll (findingIds.map (.addLineage scanRunId)) stores
      = { stores with
          runs := findingIds.foldl (fun runs id => runs.addFindingLineage scanRunId id)
            stores.runs } := by
  induction findingIds generalizing stores with
  | nil => rfl
  | cons id findingIds ih =>
      rw [List.map_cons, rememberAll_cons, ih]
      rfl

lemma memory_lineage (scanRunId : String) (findingIds : List String)
    (s : ScanMemory × ScanDatabase) :
    (afterAll (findingIds.map (.addLineage scanRunId)) s).1
      = ⟨{ s.1.stores with
          runs := findingIds.foldl (fun runs id => runs.addFindingLineage scanRunId id)
            s.1.stores.runs }, s.1.registered⟩ := by
  have hregisters : (findingIds.map (ScanWrite.addLineage scanRunId)).flatMap ScanWrite.registers
      = [] := by
    rw [List.flatMap_eq_nil_iff]
    intro write hwrite
    obtain ⟨id, -, rfl⟩ := List.mem_map.1 hwrite
    rfl
  rw [memory_afterAll, rememberAll_lineageIds, hregisters, List.append_nil]

lemma mem_findingIdsForRun_foldl (scanRunId : String) (findingIds : List String)
    (runs : ScanRunStore) (runId id : String) :
    id ∈ (findingIds.foldl (fun runs id => runs.addFindingLineage scanRunId id)
        runs).findingIdsForRun runId
      ↔ id ∈ runs.findingIdsForRun runId ∨ (runId = scanRunId ∧ id ∈ findingIds) := by
  induction findingIds generalizing runs with
  | nil => simp
  | cons x findingIds ih =>
      rw [List.foldl_cons, ih, ScanRunStore.findingIdsForRun_addFindingLineage]
      split_ifs with hrun hmem
      · subst hrun
        simp only [List.mem_cons]
        constructor
        · tauto
        · rintro (h | ⟨hrun, rfl | h⟩)
          · exact Or.inl h
          · exact Or.inl hmem
          · exact Or.inr ⟨hrun, h⟩
      · subst hrun
        simp only [List.mem_append, List.mem_cons, List.not_mem_nil, or_false]
        tauto
      · simp [hrun]

lemma begun_lineage (hbegun : Begun stamps runs) (scanRunId : String) (findingIds : List String) :
    Begun stamps (findingIds.foldl (fun runs id => runs.addFindingLineage scanRunId id) runs)
      ∧ (findingIds.foldl (fun runs id => runs.addFindingLineage scanRunId id) runs).stages
        = runs.stages
      ∧ (findingIds.foldl (fun runs id => runs.addFindingLineage scanRunId id) runs).executions
        = runs.executions := by
  induction findingIds generalizing runs with
  | nil => exact ⟨hbegun, rfl, rfl⟩
  | cons id findingIds ih => exact ih (hbegun.addFindingLineage scanRunId id)

lemma findings_lineage (scanRunId : String) (findingIds : List String)
    (s : ScanMemory × ScanDatabase) :
    (afterAll (findingIds.map (.addLineage scanRunId)) s).2.findings = s.2.findings := by
  induction findingIds generalizing s with
  | nil => rfl
  | cons id findingIds ih =>
      refine (ih ((ScanWrite.addLineage scanRunId id).commit.apply s)).trans ?_
      rw [Commit.apply, addLineage_write]
      cases s.2.tables.findings.get? (scanRunId, id) <;> rfl

/-- A commit of a lineage fails: every registered finding has to be in a lineage that has been
committed. -/
lemma leavesRecord_lineage (hbegun : Begun stamps s.1.stores.runs) (hstored : Stored s)
    (hrows : ∀ findingId ∈ s.1.registered, (s.2.findings.get? findingId).isSome)
    (findingIds : List String) (findingId : String) :
    LeavesRecord stamps.scanRunId (.error exc, safe (afterAll (endWrites stamps.scanRunId "SCAN"
          stamps.scanExecution.executionId ⟨.failed, stamps.scanExecution.endedAt, some exc⟩
            ++ [.saveRun (failedRun projectId stamps exc)])
        ((afterAll (findingIds.map (.addLineage stamps.scanRunId)
            ++ [.addLineage stamps.scanRunId findingId]) s).1,
          (afterAll (findingIds.map (.addLineage stamps.scanRunId)) s).2)))
      ↔ ∀ id ∈ s.1.registered, (∃ runId, id ∈ s.1.stores.runs.findingIdsForRun runId)
        ∨ id ∈ findingIds := by
  have hmap : findingIds.map (ScanWrite.addLineage stamps.scanRunId)
      ++ [.addLineage stamps.scanRunId findingId]
        = (findingIds ++ [findingId]).map (.addLineage stamps.scanRunId) := by
    rw [List.map_append]
    rfl
  have hfindings := findings_lineage stamps.scanRunId findingIds s
  obtain ⟨hbegun₁, hstages₁, hexecutions₁⟩ :=
    begun_lineage hbegun stamps.scanRunId (findingIds ++ [findingId])
  obtain ⟨hbegun₂, hstages₂, hexecutions₂⟩ := begun_lineage hbegun stamps.scanRunId findingIds
  have hlate := stored_lineage hstored stamps.scanRunId findingIds
  rw [Stored, memory_lineage] at hlate
  rw [hmap, memory_lineage]
  refine (leavesRecord_handled (s := (⟨⟨_, _⟩, _⟩,
    (afterAll (findingIds.map (.addLineage stamps.scanRunId)) s).2)) hbegun₁ hbegun₂ hlate
    (hstages₁.trans hstages₂.symm) (hexecutions₁.trans hexecutions₂.symm)).trans ?_
  simp only [mem_findingIdsForRun_foldl, hfindings]
  constructor
  · rintro ⟨-, hcommitted⟩ id hid
    obtain ⟨runId, hmem | ⟨-, hmem⟩⟩ := hcommitted id hid (hrows id hid)
    · exact Or.inl ⟨runId, hmem⟩
    · exact Or.inr hmem
  · intro h
    have hlineage : ∀ id ∈ s.1.registered, ∃ runId,
        id ∈ s.1.stores.runs.findingIdsForRun runId ∨ (runId = stamps.scanRunId
          ∧ id ∈ findingIds) := by
      intro id hid
      rcases h id hid with ⟨runId, hmem⟩ | hmem
      · exact ⟨runId, Or.inl hmem⟩
      · exact ⟨_, Or.inr ⟨rfl, hmem⟩⟩
    refine ⟨fun id hid => ?_, fun id hid _ => hlineage id hid⟩
    obtain ⟨runId, hmem⟩ := hlineage id hid
    exact ⟨runId, hmem.imp_right fun h => ⟨h.1, List.mem_append_left _ h.2⟩⟩

/-! ## Every scan -/

lemma length_committing_prefix {pre post : List ScanWrite} {write : ScanWrite}
    (hsplit : writes = pre ++ write :: post)
    (hall : committing ScanWrite.commit writes s = writes) :
    (committing ScanWrite.commit pre s).length = pre.length := by
  subst hsplit
  exact length_committing_of_append (congrArg List.length hall)

lemma not_concernsFinding_openWrites :
    ∀ write ∈ openWrites projectId projectCreatedAt stamps, ¬ write.ConcernsFinding := by
  simp [openWrites, stageNames, beginWrites, endWrites, ScanWrite.ConcernsFinding]

lemma not_concernsFinding_endWrites (scanRunId stageName executionId : String)
    (ending : ScanRunStore.Ending) :
    ∀ write ∈ endWrites scanRunId stageName executionId ending, ¬ write.ConcernsFinding := by
  simp [endWrites, ScanWrite.ConcernsFinding]

/-- Commits of runs, stages and executions before the failing one do not matter. -/
lemma failureCovered_append {scanRunId : String} {first commits : List ScanWrite}
    {later : Option Nat} (hfirst : ∀ write ∈ first, ¬ write.ConcernsFinding) :
    FailureCovered runs scanRunId (first ++ commits) (later.map (first.length + ·))
      ↔ FailureCovered runs scanRunId commits later := by
  cases later with
  | none => simp [FailureCovered]
  | some n =>
      have hget : (first ++ commits)[first.length + n]? = commits[n]? := by
        rw [List.getElem?_append_right (Nat.le_add_right _ _), Nat.add_sub_cancel_left]
      have htake : ∀ k, (first ++ commits).take (first.length + k) = first ++ commits.take k :=
        fun k => List.take_length_add_append k
      have hfinding : ∀ finding : CandidateFinding, .addFinding finding ∉ first :=
        fun finding hmem => hfirst _ hmem trivial
      have hlineage : ∀ findingId, .addLineage scanRunId findingId ∉ first :=
        fun findingId hmem => hfirst _ hmem trivial
      simp only [FailureCovered, Option.map_some, Option.mem_some_iff, forall_eq', hget,
        Nat.add_assoc, htake, List.mem_append, hfinding, hlineage, false_or]

lemma doScanJob_eq (dbError : String) (stamps : ScanStamps)
    (hscan : scan py rules codeModel (some projectId) = .ok report) :
    doScanJob dbError py rules stamps.scanRunId projectId codeModel
      = commitAll dbError (report.findings.map .addFinding) >>= fun _ =>
        commitAll dbError ((report.findings.map CandidateFinding.id).map
          (.addLineage stamps.scanRunId)) >>= fun _ => pure report := by
  rw [doScanJob, hscan, List.map_map]
  rfl

/-- The findings registered before a commit of a finding. -/
lemma failureCovered_findings {scanRunId : String} {findings rest : List CandidateFinding}
    {finding : CandidateFinding} {commits : List ScanWrite} :
    FailureCovered runs scanRunId
        ((findings ++ finding :: rest).map .addFinding ++ commits) (some findings.length)
      ↔ ∀ g ∈ findings ++ [finding], ∃ runId, g.id ∈ runs.findingIdsForRun runId := by
  have hsplit : (findings ++ finding :: rest).map ScanWrite.addFinding ++ commits
      = findings.map .addFinding ++ .addFinding finding :: (rest.map .addFinding ++ commits) := by
    simp
  have hlineage : ∀ id, .addLineage scanRunId id ∉ findings.map ScanWrite.addFinding := by
    simp
  have hregistered : ∀ g, .addFinding g ∈ findings.map ScanWrite.addFinding ++ [.addFinding finding]
      ↔ g ∈ findings ++ [finding] := by
    simp
  rw [failureCovered_iff hsplit (List.length_map ..).symm]
  simp only [hlineage, hregistered, or_false, ScanWrite.ConcernsFinding, true_and]

/-- The findings registered, and the lineages committed, before a commit of a lineage. -/
lemma failureCovered_lineage {scanRunId : String} {findings : List CandidateFinding}
    {ids rest : List String} {id : String} {commits : List ScanWrite} :
    FailureCovered runs scanRunId (findings.map .addFinding
        ++ (ids ++ id :: rest).map (.addLineage scanRunId) ++ commits)
        (some (findings.length + ids.length))
      ↔ ∀ x ∈ findings.map CandidateFinding.id,
        (∃ runId, x ∈ runs.findingIdsForRun runId) ∨ x ∈ ids := by
  have hsplit : findings.map ScanWrite.addFinding
      ++ (ids ++ id :: rest).map (.addLineage scanRunId) ++ commits
        = (findings.map .addFinding ++ ids.map (.addLineage scanRunId))
          ++ .addLineage scanRunId id :: (rest.map (.addLineage scanRunId) ++ commits) := by
    simp
  have hregistered : ∀ g, .addFinding g ∈ findings.map ScanWrite.addFinding
      ++ ids.map (.addLineage scanRunId) ++ [.addLineage scanRunId id] ↔ g ∈ findings := by
    simp
  have hlineage : ∀ x, .addLineage scanRunId x ∈ findings.map ScanWrite.addFinding
      ++ ids.map (.addLineage scanRunId) ↔ x ∈ ids := by
    simp
  rw [failureCovered_iff hsplit (by simp)]
  simp only [hlineage, hregistered, ScanWrite.ConcernsFinding, true_and, List.forall_mem_map]

/-- A lineage that is written is the first of its id. -/
lemma not_mem_of_row (hstored : Stored s) {scanRunId id : String} {ids : List String}
    (hrow : ((ScanWrite.addLineage scanRunId id).row
      (afterAll (ids.map (.addLineage scanRunId)) s).1.stores
      (afterAll (ids.map (.addLineage scanRunId)) s).2).isSome) : id ∉ ids := by
  intro hmem
  have hlater := (stored_lineage hstored scanRunId ids).findings scanRunId id
  rw [memory_lineage] at hlater
  have hsome := hlater.1 ((mem_findingIdsForRun_foldl ..).2 (Or.inr ⟨rfl, hmem⟩))
  obtain ⟨row, hget⟩ := Option.isSome_iff_exists.1 hsome
  simp only [ScanWrite.row, hget, Option.isSome_none, Bool.false_eq_true] at hrow

/-- **The end of the stage and of the run**, after a scanner that returns: no commit of them may
fail. -/
lemma leavesRecord_ended (earlier : ScanRunStore) (first : List ScanWrite)
    {t'' : Session ScanMemory ScanDatabase} {later : Option Nat}
    (hopen : commitAll dbError (openWrites projectId projectCreatedAt stamps) t = (.ok (), t'))
    (hbegin : commitAll dbError (beginWrites stamps.scanRunId "SCAN"
      stamps.scanExecution.executionId stamps.scanExecution.startedAt) t' = (.ok (), t''))
    (hscan : doScanJob dbError py rules stamps.scanRunId projectId codeModel t''
      = (.ok report, ⟨s.1, s.2, later⟩))
    (hbegun : Begun stamps s.1.stores.runs) (hstored : Stored s)
    (hrunning : ∃ stage, s.1.stores.runs.stage stamps.scanRunId "SCAN" = some stage
      ∧ stage.status = .running) :
    LeavesRecord stamps.scanRunId
        (executeScanJob dbError py rules projectId codeModel projectCreatedAt stamps t)
      ↔ FailureCovered earlier stamps.scanRunId
        (first ++ (endWrites stamps.scanRunId "SCAN" stamps.scanExecution.executionId
            ⟨.completed, stamps.scanExecution.endedAt, none⟩
          ++ [.saveRun (completedRun projectId stamps report)]))
        (later.map (first.length + ·)) := by
  set ending : ScanRunStore.Ending := ⟨.completed, stamps.scanExecution.endedAt, none⟩
    with hending
  have hstage := recordStageJob_of_ok hbegin hscan
  have hfound : (s.1.stores.runs.findExecution stamps.scanExecution.executionId).isSome := by
    obtain ⟨e, he, hid, -⟩ := hbegun.execution
    exact hid ▸ isSome_findExecution he
  have hend := committing_endWrites stamps.scanRunId "SCAN" stamps.scanExecution.executionId
    ending hfound
  rcases commitAll_cases dbError (endWrites stamps.scanRunId "SCAN"
    stamps.scanExecution.executionId ending) s later with
    ⟨later', rfl, hrun⟩ | ⟨pre, write, post, hsplit, rfl, -, hrun⟩
  swap
  · rw [executeScanJob_of_error hopen (hstage.trans (bind_of_error hrun)),
      length_committing_prefix hsplit hend]
    refine iff_of_false (not_leavesRecord_end hsplit hrunning) ?_
    have hcommits : first ++ (endWrites stamps.scanRunId "SCAN" stamps.scanExecution.executionId
        ending ++ [.saveRun (completedRun projectId stamps report)])
          = (first ++ pre)
            ++ write :: (post ++ [.saveRun (completedRun projectId stamps report)]) := by
      rw [hsplit]
      simp
    refine not_failureCovered hcommits List.length_append.symm ?_
    refine not_concernsFinding_endWrites stamps.scanRunId "SCAN" stamps.scanExecution.executionId
      ending write ?_
    exact hsplit ▸ List.mem_append_right _ (List.mem_cons_self ..)
  rw [hend]
  have hok := executeScanJob_of_ok hopen (hstage.trans (bind_of_ok hrun))
  rcases commitAll_cases dbError [.saveRun (completedRun projectId stamps report)]
    (afterAll (endWrites stamps.scanRunId "SCAN" stamps.scanExecution.executionId ending) s)
    later' with ⟨later'', rfl, hrun'⟩ | ⟨pre, write, post, hsplit, rfl, -, hrun'⟩
  swap
  · rw [hok, bind_of_error hrun']
    refine iff_of_false (not_leavesRecord_save hsplit) ?_
    have hsaved : pre = [] ∧ write = .saveRun (completedRun projectId stamps report) := by
      rcases pre with _ | ⟨first, pre⟩
      · exact ⟨rfl, (List.cons.inj hsplit).1.symm⟩
      · have hlength := congrArg List.length hsplit
        simp at hlength
    obtain ⟨rfl, rfl⟩ := hsaved
    refine not_failureCovered (List.append_assoc ..).symm ?_ id
    rw [List.length_append]
    rfl
  · rw [hok, bind_of_ok hrun']
    refine iff_of_true (leavesRecord_returned hbegun hstored _) ?_
    refine failureCovered_of_le fun n hn => ?_
    rw [committing_of_always (by simp [ScanWrite.Always])] at hn
    obtain ⟨_, hended, rfl⟩ := Option.map_eq_some_iff.1 hn
    obtain ⟨_, hsaved, hended⟩ := Option.map_eq_some_iff.1 hended
    obtain ⟨_, -, hsaved⟩ := Option.map_eq_some_iff.1 hsaved
    rw [List.length_append, List.length_append]
    omega

/-- The findings and the lineage of a report, and the end of the stage and the run. -/
lemma leavesRecord_report {later : Option Nat}
    (hopen : commitAll dbError (openWrites projectId projectCreatedAt stamps) t = (.ok (), t'))
    (hbegin : commitAll dbError (beginWrites stamps.scanRunId "SCAN"
      stamps.scanExecution.executionId stamps.scanExecution.startedAt) t'
        = (.ok (), ⟨s.1, s.2, later⟩))
    (hscan : scan py rules codeModel (some projectId) = .ok report)
    (hbegun : Begun stamps s.1.stores.runs) (hstored : Stored s)
    (hregistered : s.1.registered = [])
    (hlineage : s.1.stores.runs.findingIdsForRun stamps.scanRunId = [])
    (hrunning : ∃ stage, s.1.stores.runs.stage stamps.scanRunId "SCAN" = some stage
      ∧ stage.status = .running) :
    LeavesRecord stamps.scanRunId
        (executeScanJob dbError py rules projectId codeModel projectCreatedAt stamps t)
      ↔ FailureCovered s.1.stores.runs stamps.scanRunId
        (reportCommits projectId stamps (.ok report)) later := by
  set findings := report.findings with hfindings
  set ids := findings.map CandidateFinding.id with hids
  set ending : ScanRunStore.Ending := ⟨.completed, stamps.scanExecution.endedAt, none⟩
    with hending
  have hdo := doScanJob_eq dbError stamps hscan
  have hcommits : reportCommits projectId stamps (.ok report)
      = findings.map .addFinding ++ ((firstIds [] ids).map (.addLineage stamps.scanRunId)
        ++ (endWrites stamps.scanRunId "SCAN" stamps.scanExecution.executionId ending
          ++ [.saveRun (completedRun projectId stamps report)])) := by
    simp only [reportCommits, List.append_assoc]
    rfl
  rw [hcommits]
  -- The findings.
  rcases commitAll_cases dbError (findings.map .addFinding) s later with
    ⟨later₁, rfl, hrun₁⟩ | ⟨pre, write, post, hsplit, rfl, -, hrun⟩
  swap
  · obtain ⟨fs, gs, hfs, rfl, hrest⟩ := List.map_eq_append_iff.1 hsplit
    obtain ⟨f, gs, rfl, rfl, rfl⟩ := List.map_eq_cons_iff.1 hrest
    rw [committing_of_always (always_findings fs), List.length_map, hfs,
      executeScanJob_handled hopen hbegin (hdo ▸ bind_of_error hrun),
      leavesRecord_findings hbegun hstored hregistered, failureCovered_findings]
  rw [committing_of_always (always_findings findings), List.length_map] at hbegin hrun₁ ⊢
  -- The lineage.
  have hstored₁ : Stored (afterAll (findings.map .addFinding) s) := by
    rw [Stored, memory_findings, tables_findings]
    exact hstored
  have hbegun₁ : Begun stamps (afterAll (findings.map .addFinding) s).1.stores.runs := by
    rw [memory_findings]
    exact hbegun
  have hnone : ∀ id, ((afterAll (findings.map .addFinding) s).2.tables.findings.get?
      (stamps.scanRunId, id)).isSome ↔ id ∈ ([] : List String) := by
    intro id
    rw [tables_findings, ← hstored.findings, hlineage]
  have hcount : ∀ xs : List String, (committing ScanWrite.commit
      (xs.map (.addLineage stamps.scanRunId)) (afterAll (findings.map .addFinding) s)).length
        = (firstIds [] xs).length := by
    intro xs
    rw [committing_lineage xs hnone, List.length_map]
  rcases commitAll_cases dbError (ids.map (.addLineage stamps.scanRunId))
    (afterAll (findings.map .addFinding) s) later₁ with
    ⟨later₂, rfl, hrun₂⟩ | ⟨pre, write, post, hsplit, rfl, hrow, hrun⟩
  swap
  · obtain ⟨xs, ys, hxs, rfl, hrest⟩ := List.map_eq_append_iff.1 hsplit
    obtain ⟨x, ys, rfl, rfl, rfl⟩ := List.map_eq_cons_iff.1 hrest
    have hfirst : x ∉ firstIds [] xs := fun hmem =>
      not_mem_of_row hstored₁ hrow (mem_firstIds.1 hmem).1
    have hids : firstIds [] ids = firstIds [] xs ++ x :: firstIds (firstIds [] xs ++ [x]) ys := by
      rw [hxs, firstIds_append, List.nil_append, firstIds, if_neg hfirst]
    have hdone := (hdo ▸ (bind_of_ok hrun₁).trans (bind_of_error hrun) :
      doScanJob dbError py rules stamps.scanRunId projectId codeModel _ = _)
    rw [hcount, Option.map_some, executeScanJob_handled hopen hbegin hdone,
      leavesRecord_lineage hbegun₁ hstored₁, memory_findings, hregistered, List.nil_append,
      ← List.append_assoc, hids, failureCovered_lineage]
    · simp only [mem_firstIds, List.not_mem_nil, not_false_eq_true, and_true]
    · intro id hid
      rw [memory_findings, hregistered] at hid
      exact rows_findings findings s (Or.inl hid)
  rw [hcount] at *
  -- The end of the stage.
  have hdone : doScanJob dbError py rules stamps.scanRunId projectId codeModel _ = _ :=
    hdo ▸ (bind_of_ok hrun₁).trans (bind_of_ok hrun₂)
  have hcovered := leavesRecord_ended s.1.stores.runs (findings.map .addFinding
      ++ (firstIds [] ids).map (.addLineage stamps.scanRunId)) hopen hbegin hdone ?_
      (stored_lineage hstored₁ _ _) ?_
  · rw [hcovered, Option.map_map, List.append_assoc]
    congr! 2
    funext n
    simp
    omega
  · rw [memory_lineage]
    exact (begun_lineage hbegun₁ _ _).1
  · rw [memory_lineage, memory_findings]
    obtain ⟨stage, hstage, hstatus⟩ := hrunning
    refine ⟨stage, ?_, hstatus⟩
    rw [← hstage, ScanRunStore.stage, ScanRunStore.stage, (begun_lineage hbegun _ _).2.1]

lemma not_concernsFinding_beginWrites (scanRunId stageName executionId : String)
    (startedAt : DateTime) :
    ∀ write ∈ beginWrites scanRunId stageName executionId startedAt, ¬ write.ConcernsFinding := by
  simp [beginWrites, ScanWrite.ConcernsFinding]

/-- **The record of a scan one of whose commits fails, or whose scanner raises.** -/
theorem leavesRecord_iff (hstored : StoredIn stores.runs database.tables)
    (hnew : NewRun stamps stores.runs) (fails : Option Nat)
    (hone : OneFailure
      (scanCommits projectId projectCreatedAt stamps (scan py rules codeModel (some projectId)))
      (scan py rules codeModel (some projectId)) fails) :
    LeavesRecord stamps.scanRunId (executeScanJob dbError py rules projectId codeModel
        projectCreatedAt stamps ⟨⟨stores, []⟩, database, fails⟩)
      ↔ FailureCovered stores.runs stamps.scanRunId (scanCommits projectId projectCreatedAt stamps
          (scan py rules codeModel (some projectId))) fails := by
  set s₀ : ScanMemory × ScanDatabase := (⟨stores, []⟩, database) with hs₀
  set opening := openWrites projectId projectCreatedAt stamps with hopening
  set beginning := beginWrites stamps.scanRunId "SCAN" stamps.scanExecution.executionId
    stamps.scanExecution.startedAt with hbeginning
  have hbegin : ∀ s, committing ScanWrite.commit beginning s = beginning :=
    committing_of_always (always_beginWrites _ _ _ _)
  have hopeningLength : (committing ScanWrite.commit opening s₀).length = opening.length := by
    rw [hopening, committing_openWrites]
  have hcommits : scanCommits projectId projectCreatedAt stamps
      (scan py rules codeModel (some projectId)) = opening ++ (beginning
        ++ reportCommits projectId stamps (scan py rules codeModel (some projectId))) :=
    List.append_assoc ..
  have hmemory : (afterAll opening s₀).1
      = ⟨{ stores with runs := openRun projectId projectCreatedAt stamps stores.runs }, []⟩ :=
    runs_openWrites s₀
  have hstored₁ : Stored (afterAll opening s₀) := stored_openWrites hstored hnew
  rw [hcommits] at hone ⊢
  -- What comes before the SCAN stage.
  rcases commitAll_cases dbError opening s₀ fails with
    ⟨later, rfl, hopen⟩ | ⟨pre, write, post, hsplit, rfl, -, hrun⟩
  swap
  · rw [executeScanJob_of_open_error hrun,
      length_committing_prefix hsplit (committing_openWrites s₀)]
    refine iff_of_false (not_leavesRecord_open hsplit) ?_
    have hcommits : opening ++ (beginning
        ++ reportCommits projectId stamps (scan py rules codeModel (some projectId)))
          = pre ++ write :: (post ++ (beginning
            ++ reportCommits projectId stamps (scan py rules codeModel (some projectId)))) := by
      rw [hsplit, List.append_assoc, List.cons_append]
    refine not_failureCovered hcommits rfl ?_
    exact not_concernsFinding_openWrites write
      (hsplit ▸ List.mem_append_right _ (List.mem_cons_self ..))
  rw [hopeningLength] at hone hopen ⊢
  rw [failureCovered_append not_concernsFinding_openWrites]
  -- The begin of the SCAN stage.
  rcases commitAll_cases dbError beginning (afterAll opening s₀) later with
    ⟨later, rfl, hrun⟩ | ⟨pre, write, post, hsplit, rfl, -, hrun⟩
  swap
  · rw [executeScanJob_of_error hopen (recordStageJob_of_begin_error hrun),
      length_committing_prefix hsplit (hbegin _)]
    refine iff_of_false (not_leavesRecord_begin hsplit) ?_
    have hcommits : beginning
        ++ reportCommits projectId stamps (scan py rules codeModel (some projectId))
          = pre ++ write :: (post
            ++ reportCommits projectId stamps (scan py rules codeModel (some projectId))) := by
      rw [hsplit, List.append_assoc, List.cons_append]
    refine not_failureCovered hcommits rfl ?_
    exact not_concernsFinding_beginWrites _ _ _ _ write
      (hsplit ▸ List.mem_append_right _ (List.mem_cons_self ..))
  rw [hbegin] at hone hopen hrun ⊢
  rw [failureCovered_append (not_concernsFinding_beginWrites _ _ _ _)]
  -- The scanner.
  obtain ⟨-, -, -, hunused⟩ := openRun_spec projectId projectCreatedAt
    hstored.filed hnew
  have hmemory₂ : (afterAll beginning (afterAll opening s₀)).1
      = ⟨{ stores with runs := scanningRuns projectId projectCreatedAt stamps stores.runs },
        []⟩ := by
    rw [memory_afterAll, hmemory, rememberAll_beginWrites]
    rfl
  have hstored₂ : Stored (afterAll beginning (afterAll opening s₀)) := by
    refine stored_beginWrites hstored₁ ?_
    rw [hmemory]
    exact hunused
  have hbegun : Begun stamps (scanningRuns projectId projectCreatedAt stamps stores.runs) :=
    begun_scanningRuns hstored.filed hnew
  have hlineage : ∀ runId, (scanningRuns projectId projectCreatedAt stamps
      stores.runs).findingIdsForRun runId = stores.runs.findingIdsForRun runId := by
    intro runId
    rw [scanningRuns, ScanRunStore.findingIdsForRun_beginStageExecution, findingIdsForRun_openRun]
  have hrunning : ∃ stage, (afterAll beginning (afterAll opening s₀)).1.stores.runs.stage
      stamps.scanRunId "SCAN" = some stage ∧ stage.status = .running := by
    rw [hmemory₂]
    refine ⟨_, (ScanRunStore.stage_upsertStage ..).trans (if_pos ⟨rfl, rfl⟩), rfl⟩
  generalize afterAll beginning (afterAll opening s₀) = s at hmemory₂ hstored₂ hrun hrunning
  cases hscan : scan py rules codeModel (some projectId) with
  | error exc =>
      obtain rfl : later = none := by
        cases later with
        | none => rfl
        | some k =>
            have hlt := hone exc hscan _ rfl
            rw [hscan, reportCommits] at hlt
            simp only [List.length_append, List.length_nil] at hlt
            omega
      have hraise : doScanJob dbError py rules stamps.scanRunId projectId codeModel ⟨s.1, s.2, none⟩
          = (.error exc, safe s) := by
        rw [doScanJob, hscan]
        rfl
      rw [executeScanJob_handled hopen hrun hraise]
      refine iff_of_true ?_ nofun
      rw [leavesRecord_handled (hmemory₂ ▸ hbegun) (hmemory₂ ▸ hbegun) hstored₂ rfl rfl]
      rw [hmemory₂]
      exact ⟨nofun, nofun⟩
  | ok report =>
      rw [leavesRecord_report hopen hrun hscan (hmemory₂ ▸ hbegun) hstored₂ (hmemory₂ ▸ rfl)
        (hmemory₂ ▸ (hlineage _).trans hnew.lineage) hrunning]
      rw [hmemory₂]
      simp only [FailureCovered, hlineage]

/-- A scan none of whose commits fails makes of the stores what `execute_scan` makes of them. -/
theorem executeScanJob_of_none :
    let outcome := executeScanJob dbError py rules projectId codeModel projectCreatedAt stamps
      ⟨⟨stores, []⟩, database, none⟩
    (outcome.2.memory.stores, outcome.1)
      = executeScan py rules stores projectId codeModel projectCreatedAt stamps := by
  set s₀ : ScanMemory × ScanDatabase := (⟨stores, []⟩, database) with hs₀
  set s₁ := afterAll (openWrites projectId projectCreatedAt stamps) s₀ with hs₁
  set s₂ := afterAll (beginWrites stamps.scanRunId "SCAN" stamps.scanExecution.executionId
    stamps.scanExecution.startedAt) s₁ with hs₂
  have hopen : commitAll dbError (openWrites projectId projectCreatedAt stamps)
      ⟨s₀.1, s₀.2, none⟩ = (.ok (), safe s₁) := commitAll_of_none _ s₀
  have hbegin : commitAll dbError (beginWrites stamps.scanRunId "SCAN"
      stamps.scanExecution.executionId stamps.scanExecution.startedAt) (safe s₁)
        = (.ok (), safe s₂) := commitAll_of_none _ s₁
  have hstores : ∀ writes, (afterAll writes s₂).1.stores
      = rememberAll (openWrites projectId projectCreatedAt stamps
        ++ beginWrites stamps.scanRunId "SCAN" stamps.scanExecution.executionId
          stamps.scanExecution.startedAt ++ writes) stores := by
    intro writes
    rw [memory_afterAll, memory_afterAll, memory_afterAll, rememberAll_append, rememberAll_append]
  have hlist := rememberAll_scanWrites py rules stores projectId codeModel projectCreatedAt stamps
  cases hscan : scan py rules codeModel (some projectId) with
  | error exc =>
      rw [hscan] at hlist
      have hraise : doScanJob dbError py rules stamps.scanRunId projectId codeModel (safe s₂)
          = (.error exc, safe s₂) := by
        rw [doScanJob, hscan]
        rfl
      rw [executeScanJob_handled hopen hbegin hraise]
      have hmemory := (hstores _).trans hlist
      refine Prod.ext hmemory ?_
      simp only [executeScan, runScanStage_error hscan]
  | ok report =>
      rw [hscan] at hlist
      have hreturn : doScanJob dbError py rules stamps.scanRunId projectId codeModel (safe s₂)
          = (.ok report, safe (afterAll (report.findings.map .addFinding
            ++ (report.findings.map CandidateFinding.id).map
              (.addLineage stamps.scanRunId)) s₂)) := by
        rw [doScanJob_eq dbError stamps hscan, bind_of_ok (commitAll_of_none _ s₂),
          bind_of_ok (commitAll_of_none _ _), afterAll_append]
        rfl
      rw [executeScanJob_of_ok hopen ((recordStageJob_of_ok hbegin hreturn).trans
        (bind_of_ok (commitAll_of_none _ _))), bind_of_ok (commitAll_of_none _ _),
        ← afterAll_append, ← afterAll_append]
      refine Prod.ext ((hstores _).trans ?_) ?_
      · rw [← hlist, scanWrites]
        simp only [List.append_assoc, List.map_map]
        rfl
      · simp only [executeScan, runScanStage_ok hscan]
        rfl

/-- A scan without a failing commit, from empty stores. -/
theorem leavesRecord_statementFile :
    LeavesRecord "run" (executeScanJob "database is locked" statementPython
      (defaultRules statementPython) "p" ⟨"p", [statementFile]⟩ none sampleStamps
      ⟨⟨.empty, []⟩, ⟨.empty, .empty⟩, none⟩) := by
  have hnew : NewRun sampleStamps .empty :=
    ⟨fun _ => rfl, rfl, rfl, fun _ _ he => (by cases he), by decide⟩
  have hstored : StoredIn ScanStores.empty.runs (ScanDatabase.mk .empty .empty).tables :=
    storedIn_empty
  exact (leavesRecord_iff hstored hnew none nofun).2 nofun

/-- The commit of the finding fails: it has been put into the finding store, and no lineage names
it. -/
theorem not_leavesRecord :
    ¬ LeavesRecord "run" (executeScanJob "database is locked" statementPython
      (defaultRules statementPython) "p" ⟨"p", [statementFile]⟩ none sampleStamps
      ⟨⟨.empty, []⟩, ⟨.empty, .empty⟩, some 15⟩) := by
  have hoff : leavesOrphan (executeScanJob "database is locked" statementPython
      (defaultRules statementPython) "p" ⟨"p", [statementFile]⟩ none sampleStamps
      ⟨⟨.empty, []⟩, ⟨.empty, .empty⟩, some 15⟩) := by
    decide +kernel
  exact not_leavesRecord_of_orphan hoff

end Sast
