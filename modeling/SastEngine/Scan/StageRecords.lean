import SastEngine.Lib.Run
import SastEngine.Scan.RunStore

/-!
# Stage records and overlapping executions

A stage record should describe the execution of the stage that was begun last.  `begin` makes it
so; `complete` and `fail` write their ending into the record without looking at which execution is
the newest.
-/

namespace Sast

/-! ## Calls on the store -/

/-- The calls that register the stages of a run and make up their executions. -/
inductive StageCall where
  | register (scanRunId : String)
  | begin (scanRunId stageName executionId : String) (startedAt : DateTime)
  | complete (scanRunId stageName executionId : String) (completedAt : DateTime)
  | fail (scanRunId stageName executionId : String) (completedAt : DateTime) (error : String)

/-- The store after a call. -/
def stageStep (store : ScanRunStore) : StageCall → ScanRunStore
  | .register scanRunId => store.registerStages scanRunId
  | .begin scanRunId stageName executionId startedAt =>
      store.beginStageExecution scanRunId stageName executionId startedAt
  | .complete scanRunId stageName executionId completedAt =>
      store.completeStageExecution scanRunId stageName executionId completedAt
  | .fail scanRunId stageName executionId completedAt error =>
      store.failStageExecution scanRunId stageName executionId completedAt error

/-- An ending that a call gives to an execution. -/
structure Closing where
  scanRunId : String
  stageName : String
  executionId : String
  ending : ScanRunStore.Ending

/-- The ending that a call records. -/
def StageCall.closing : StageCall → Option Closing
  | .register _ | .begin .. => none
  | .complete scanRunId stageName executionId completedAt =>
      some ⟨scanRunId, stageName, executionId, ⟨.completed, completedAt, none⟩⟩
  | .fail scanRunId stageName executionId completedAt error =>
      some ⟨scanRunId, stageName, executionId, ⟨.failed, completedAt, some error⟩⟩

lemma stageStep_closing {store : ScanRunStore} {call : StageCall} {c : Closing}
    (h : call.closing = some c) : stageStep store call
      = store.endStageExecution c.scanRunId c.stageName c.executionId c.ending := by
  cases call with
  | register | begin => cases h
  | complete =>
      obtain rfl := Option.some.inj h
      rfl
  | fail =>
      obtain rfl := Option.some.inj h
      rfl

/-- Runs are registered before anything is executed in them; executions are begun under new ids,
and ended on their own run and stage. -/
def WellFormedCall (store : ScanRunStore) : StageCall → Prop
  | .register scanRunId => store.executionsOf scanRunId = []
  | .begin _ _ executionId _ =>
      ∀ executions ∈ store.executions.values, ∀ e ∈ executions, e.executionId ≠ executionId
  | .complete scanRunId stageName executionId _ | .fail scanRunId stageName executionId _ _ =>
      ∃ e ∈ store.executionsOf scanRunId, e.executionId = executionId ∧ e.stageName = stageName

instance (store : ScanRunStore) (call : StageCall) : Decidable (WellFormedCall store call) :=
  match call with
  | .register scanRunId => inferInstanceAs (Decidable (store.executionsOf scanRunId = []))
  | .begin _ _ executionId _ => inferInstanceAs (Decidable
      (∀ executions ∈ store.executions.values, ∀ e ∈ executions, e.executionId ≠ executionId))
  | .complete scanRunId stageName executionId _ | .fail scanRunId stageName executionId _ _ =>
      inferInstanceAs (Decidable (∃ e ∈ store.executionsOf scanRunId,
        e.executionId = executionId ∧ e.stageName = stageName))

/-! ## What the record should say -/

/-- The stage record describes the last of the executions. -/
structure Describes (record : Option ScanStageRun) (begun : List ScanStageExecution) : Prop where
  count : (record.map ScanStageRun.executionCount).getD 0 = begun.length
  latest : ∀ e ∈ begun.getLast?, ∃ r, record = some r ∧ r.status = e.status
    ∧ r.startedAt = some e.startedAt ∧ r.completedAt = e.completedAt ∧ r.error = e.error
    ∧ r.lastExecutionAt = some e.startedAt

/-- Every stage record describes the execution of its stage that was begun last. -/
def DescribesLatest (store : ScanRunStore) : Prop :=
  ∀ scanRunId stageName,
    Describes (store.stage scanRunId stageName) (store.begun scanRunId stageName)

/-- The ending, for the execution it belongs to. -/
def Closing.apply (c : Closing) (e : ScanStageExecution) : ScanStageExecution :=
  if e.executionId = c.executionId then c.ending.close e else e

/-- After the call every record describes the latest execution; and an ending changes its own
execution only, and leaves the record alone if a newer execution has begun. -/
def TracksLatest (store : ScanRunStore) (call : StageCall) : Prop :=
  DescribesLatest (stageStep store call)
    ∧ ∀ c ∈ call.closing,
      (∀ scanRunId, (stageStep store call).executionsOf scanRunId
        = (store.executionsOf scanRunId).map c.apply)
      ∧ ∀ e ∈ (store.begun c.scanRunId c.stageName).getLast?, e.executionId ≠ c.executionId →
        (stageStep store call).stage c.scanRunId c.stageName
          = store.stage c.scanRunId c.stageName

/-- The call ends the latest execution of its stage, or that one has ended in the same way. -/
def EndsLatest (store : ScanRunStore) (call : StageCall) : Prop :=
  ∀ c ∈ call.closing, ∀ e ∈ (store.begun c.scanRunId c.stageName).getLast?,
    e.executionId = c.executionId ∨ (e.status = c.ending.status
      ∧ e.completedAt = some c.ending.completedAt ∧ e.error = c.ending.error)

instance (store : ScanRunStore) (call : StageCall) : Decidable (EndsLatest store call) :=
  inferInstanceAs (Decidable (∀ c ∈ call.closing,
    ∀ e ∈ (store.begun c.scanRunId c.stageName).getLast?, e.executionId = c.executionId
      ∨ (e.status = c.ending.status ∧ e.completedAt = some c.ending.completedAt
        ∧ e.error = c.ending.error)))

/-! ## Executions -/

/-- Executions have unique ids, over all runs, and records are filed under their run and stage. -/
structure WellFiled (store : ScanRunStore) : Prop where
  ids : ∀ scanRunId, ((store.executionsOf scanRunId).map ScanStageExecution.executionId).Nodup
  owner : ∀ runA runB, ∀ a ∈ store.executionsOf runA, ∀ b ∈ store.executionsOf runB,
    a.executionId = b.executionId → runA = runB
  filed : ∀ scanRunId stageName r, store.stage scanRunId stageName = some r →
    r.scanRunId = scanRunId ∧ r.stageName = stageName

variable {store : ScanRunStore}

lemma apply_of_ne {c : Closing} {es : List ScanStageExecution}
    (h : ∀ e ∈ es, e.executionId ≠ c.executionId) : es.map c.apply = es := by
  have hid : ∀ e ∈ es, c.apply e = e := fun e he => by rw [Closing.apply, if_neg (h e he)]
  rw [List.map_congr_left hid, List.map_id']

lemma closeFirst_eq_map {c : Closing} {es : List ScanStageExecution}
    (hids : (es.map ScanStageExecution.executionId).Nodup) :
    ScanRunStore.closeFirst c.executionId c.ending es = es.map c.apply := by
  induction es with
  | nil => rfl
  | cons e es ih =>
      rw [List.map_cons, List.nodup_cons] at hids
      rw [ScanRunStore.closeFirst, List.map_cons]
      split_ifs with he
      · have hrest : es.map c.apply = es := by
          refine apply_of_ne ?_
          intro x hx hid
          exact hids.1 (he.trans hid.symm ▸ List.mem_map_of_mem hx)
        rw [hrest, Closing.apply, if_pos he]
      · rw [ih hids.2, Closing.apply, if_neg he]

/-- **An ending changes the execution with its id**, and no other. -/
lemma WellFiled.executionsOf_update (h : WellFiled store) (c : Closing) (scanRunId : String) :
    (store.updateExecution c.executionId c.ending).executionsOf scanRunId
      = (store.executionsOf scanRunId).map c.apply := by
  have hother : (∀ e ∈ store.executionsOf scanRunId, e.executionId ≠ c.executionId) →
      (store.executionsOf scanRunId).map c.apply = store.executionsOf scanRunId := apply_of_ne
  unfold ScanRunStore.updateExecution
  split
  · next runId executions hfound =>
      have hexecutions : store.executionsOf runId = executions := by
        rw [ScanRunStore.executionsOf,
          (store.executions.get?_eq_some_iff).2 (List.mem_of_find?_eq_some hfound)]
        rfl
      have hany := List.find?_some hfound
      obtain ⟨a, ha, hid⟩ := List.any_eq_true.1 hany
      rw [← hexecutions] at ha ⊢
      rw [ScanRunStore.executionsOf, Dict.get?_set]
      split_ifs with hrun
      · subst hrun
        exact closeFirst_eq_map (h.ids scanRunId)
      · rw [← ScanRunStore.executionsOf]
        refine (hother ?_).symm
        intro e he heq
        exact hrun (h.owner scanRunId runId e he a ha (heq.trans (of_decide_eq_true hid).symm))
  · next hfound =>
      refine (hother ?_).symm
      intro e he heq
      unfold ScanRunStore.executionsOf at he
      cases hget : store.executions.get? scanRunId with
      | none => simp [hget] at he
      | some executions =>
          rw [hget] at he
          have hnone := List.find?_eq_none.1 hfound _ ((store.executions.get?_eq_some_iff).1 hget)
          exact hnone (List.any_eq_true.2 ⟨e, he, decide_eq_true heq⟩)

lemma apply_stageName (c : Closing) (e : ScanStageExecution) :
    (c.apply e).stageName = e.stageName := by
  rw [Closing.apply]
  split_ifs <;> rfl

lemma apply_executionId (c : Closing) (e : ScanStageExecution) :
    (c.apply e).executionId = e.executionId := by
  rw [Closing.apply]
  split_ifs <;> rfl

/-! ## One call -/

/-- Registering a run leaves records of executed stages alone. -/
lemma DescribesLatest.register (h : DescribesLatest store) {scanRunId : String}
    (hnone : store.executionsOf scanRunId = []) :
    DescribesLatest (store.registerStages scanRunId) := by
  intro runId name
  rw [ScanRunStore.begun, ScanRunStore.executionsOf_registerStages, ← ScanRunStore.begun,
    ScanRunStore.stage_registerStages]
  split_ifs with hstage
  · rw [ScanRunStore.begun, hstage.1, hnone]
    constructor
    · rfl
    · intro e he
      cases he
  · exact h runId name

lemma WellFiled.register (h : WellFiled store) {scanRunId : String} :
    WellFiled (store.registerStages scanRunId) := by
  refine ⟨h.ids, h.owner, ?_⟩
  intro runId name r hr
  rw [ScanRunStore.stage_registerStages] at hr
  split_ifs at hr with hstage
  · obtain rfl := Option.some.inj hr
    exact ⟨hstage.1.symm, rfl⟩
  · exact h.filed runId name r hr

lemma mem_values_of_mem {scanRunId : String} {e : ScanStageExecution}
    (he : e ∈ store.executionsOf scanRunId) :
    store.executionsOf scanRunId ∈ store.executions.values := by
  rw [ScanRunStore.executionsOf] at he ⊢
  cases hget : store.executions.get? scanRunId with
  | none => simp [hget] at he
  | some executions => exact store.executions.mem_values_iff.2 ⟨scanRunId, hget⟩

/-- The execution that a `begin` records. -/
def begunExecution (scanRunId stageName executionId : String) (startedAt : DateTime) :
    ScanStageExecution :=
  { executionId := executionId, scanRunId := scanRunId, stageName := stageName,
    status := .running, startedAt := startedAt }

lemma executionsOf_begin (scanRunId stageName executionId : String) (startedAt : DateTime)
    (runId : String) :
    (store.beginStageExecution scanRunId stageName executionId startedAt).executionsOf runId
      = store.executionsOf runId ++ if runId = scanRunId
          then [begunExecution scanRunId stageName executionId startedAt] else [] := by
  simp only [ScanRunStore.beginStageExecution, ScanRunStore.executionsOf_upsertStage]
  rw [ScanRunStore.executionsOf, Dict.get?_set]
  split_ifs with hrun
  · subst hrun
    rfl
  · rw [List.append_nil, ScanRunStore.executionsOf]

lemma begun_begin (scanRunId stageName executionId : String) (startedAt : DateTime)
    (runId name : String) :
    (store.beginStageExecution scanRunId stageName executionId startedAt).begun runId name
      = store.begun runId name ++ if runId = scanRunId ∧ name = stageName
          then [begunExecution scanRunId stageName executionId startedAt] else [] := by
  rw [ScanRunStore.begun, executionsOf_begin, List.filter_append, ← ScanRunStore.begun]
  by_cases hrun : runId = scanRunId
  · by_cases hname : name = stageName
    · simp [hrun, hname, begunExecution]
    · simp [hrun, hname, begunExecution, Ne.symm hname]
  · simp [hrun]

/-- `begin` makes the record describe the new execution. -/
lemma DescribesLatest.begin (h : DescribesLatest store)
    (scanRunId stageName executionId : String) (startedAt : DateTime) :
    DescribesLatest (store.beginStageExecution scanRunId stageName executionId startedAt) := by
  intro runId name
  rw [begun_begin, ScanRunStore.beginStageExecution, ScanRunStore.stage_upsertStage]
  split_ifs with hstage
  · obtain ⟨rfl, rfl⟩ := hstage
    constructor
    · rw [List.length_append]
      exact congrArg (· + 1) (h runId name).count
    · intro e he
      rw [List.getLast?_append] at he
      obtain rfl := Option.some.inj he
      exact ⟨_, rfl, rfl, rfl, rfl, rfl, rfl⟩
  · rw [List.append_nil]
    exact h runId name

lemma WellFiled.begin (h : WellFiled store) {scanRunId stageName executionId : String}
    {startedAt : DateTime}
    (hnew : ∀ runId, ∀ e ∈ store.executionsOf runId, e.executionId ≠ executionId) :
    WellFiled (store.beginStageExecution scanRunId stageName executionId startedAt) := by
  have hmem : ∀ runId, ∀ e ∈ (store.beginStageExecution scanRunId stageName executionId
      startedAt).executionsOf runId, e ∈ store.executionsOf runId
        ∨ (runId = scanRunId ∧ e.executionId = executionId) := by
    intro runId e he
    rw [executionsOf_begin, List.mem_append] at he
    rcases he with he | he
    · exact Or.inl he
    · split_ifs at he with hrun
      · obtain rfl := List.mem_singleton.1 he
        exact Or.inr ⟨hrun, rfl⟩
      · cases he
  refine ⟨?_, ?_, ?_⟩
  · intro runId
    rw [executionsOf_begin, List.map_append]
    refine List.Nodup.append (h.ids runId) ?_ ?_
    · split_ifs <;> simp
    · intro id hid hid'
      obtain ⟨e, he, rfl⟩ := List.mem_map.1 hid
      split_ifs at hid'
      · exact hnew runId e he (List.mem_singleton.1 hid')
      · cases hid'
  · intro runA runB a ha b hb hab
    rcases hmem runA a ha with ha' | ⟨rfl, hida⟩ <;> rcases hmem runB b hb with hb' | ⟨rfl, hidb⟩
    · exact h.owner runA runB a ha' b hb' hab
    · exact absurd (hab.trans hidb) (hnew runA a ha')
    · exact absurd (hab.symm.trans hida) (hnew runB b hb')
    · rfl
  · intro runId name r hr
    rw [ScanRunStore.beginStageExecution, ScanRunStore.stage_upsertStage] at hr
    split_ifs at hr with hstage
    · obtain rfl := Option.some.inj hr
      exact ⟨hstage.1.symm, hstage.2.symm⟩
    · exact h.filed runId name r hr

lemma executionsOf_end (h : WellFiled store) (c : Closing) (runId : String) :
    (store.endStageExecution c.scanRunId c.stageName c.executionId c.ending).executionsOf runId
      = (store.executionsOf runId).map c.apply :=
  h.executionsOf_update c runId

lemma begun_end (h : WellFiled store) (c : Closing) (runId name : String) :
    (store.endStageExecution c.scanRunId c.stageName c.executionId c.ending).begun runId name
      = (store.begun runId name).map c.apply := by
  rw [ScanRunStore.begun, executionsOf_end h, List.filter_map, ScanRunStore.begun]
  have hname : ((fun e : ScanStageExecution => decide (e.stageName = name)) ∘ c.apply)
      = fun e => decide (e.stageName = name) := by
    funext e
    rw [Function.comp, apply_stageName]
  rw [hname]

/-- The record that an ending leaves. -/
def Closing.record (c : Closing) (previous : Option ScanStageRun) : ScanStageRun :=
  { scanRunId := c.scanRunId, stageName := c.stageName, status := c.ending.status,
    startedAt := previous.bind ScanStageRun.startedAt,
    completedAt := some c.ending.completedAt, error := c.ending.error,
    executionCount := (previous.map ScanStageRun.executionCount).getD 0,
    lastExecutionAt := previous.bind ScanStageRun.lastExecutionAt }

lemma stage_end (c : Closing) (runId name : String) :
    (store.endStageExecution c.scanRunId c.stageName c.executionId c.ending).stage runId name
      = if runId = c.scanRunId ∧ name = c.stageName
          then some (c.record (store.stage c.scanRunId c.stageName))
        else store.stage runId name := by
  rw [ScanRunStore.endStageExecution, ScanRunStore.stage_upsertStage,
    ScanRunStore.stage_updateExecution, ScanRunStore.stage_updateExecution]
  rfl

lemma WellFiled.end (h : WellFiled store) (c : Closing) :
    WellFiled (store.endStageExecution c.scanRunId c.stageName c.executionId c.ending) := by
  refine ⟨?_, ?_, ?_⟩
  · intro runId
    rw [executionsOf_end h, List.map_map]
    have hid : ScanStageExecution.executionId ∘ c.apply = ScanStageExecution.executionId :=
      funext (apply_executionId c)
    rw [hid]
    exact h.ids runId
  · intro runA runB a ha b hb hab
    rw [executionsOf_end h] at ha hb
    obtain ⟨a₀, ha₀, rfl⟩ := List.mem_map.1 ha
    obtain ⟨b₀, hb₀, rfl⟩ := List.mem_map.1 hb
    rw [apply_executionId, apply_executionId] at hab
    exact h.owner runA runB a₀ ha₀ b₀ hb₀ hab
  · intro runId name r hr
    rw [stage_end] at hr
    split_ifs at hr with hstage
    · obtain rfl := Option.some.inj hr
      exact ⟨hstage.1.symm, hstage.2.symm⟩
    · exact h.filed runId name r hr

/-- An execution with the id of an ending belongs to the run and stage of the ending. -/
lemma begun_apply_of_ne (h : WellFiled store) {c : Closing}
    (hexec : ∃ e ∈ store.executionsOf c.scanRunId,
      e.executionId = c.executionId ∧ e.stageName = c.stageName)
    {runId name : String} (hne : ¬ (runId = c.scanRunId ∧ name = c.stageName)) :
    (store.begun runId name).map c.apply = store.begun runId name := by
  obtain ⟨a, ha, hid, hstage⟩ := hexec
  refine apply_of_ne ?_
  intro e he heq
  obtain ⟨he, hname⟩ := List.mem_filter.1 he
  have hrun := h.owner runId c.scanRunId e he a ha (heq.trans hid.symm)
  subst hrun
  have hea : e = a := List.inj_on_of_nodup_map (h.ids c.scanRunId) he ha (heq.trans hid.symm)
  exact hne ⟨rfl, (of_decide_eq_true hname).symm.trans (hea ▸ hstage)⟩

/-- What the record says after an ending, against the execution begun last. -/
lemma describesLatest_end_iff (hdesc : DescribesLatest store) (h : WellFiled store) {c : Closing}
    (hexec : ∃ e ∈ store.executionsOf c.scanRunId,
      e.executionId = c.executionId ∧ e.stageName = c.stageName) :
    DescribesLatest (store.endStageExecution c.scanRunId c.stageName c.executionId c.ending)
      ↔ ∀ e ∈ (store.begun c.scanRunId c.stageName).getLast?,
        e.executionId = c.executionId ∨ (e.status = c.ending.status
          ∧ e.completedAt = some c.ending.completedAt ∧ e.error = c.ending.error) := by
  constructor
  · intro hdesc' e he
    by_cases hid : e.executionId = c.executionId
    · exact Or.inl hid
    · have hlast : e ∈ ((store.endStageExecution c.scanRunId c.stageName c.executionId
          c.ending).begun c.scanRunId c.stageName).getLast? := by
        rw [begun_end h, List.getLast?_map]
        exact Option.map_eq_some_iff.2 ⟨e, he, by rw [Closing.apply, if_neg hid]⟩
      obtain ⟨r, hr, hstatus, -, hcompleted, herror, -⟩ := (hdesc' _ _).latest e hlast
      rw [stage_end, if_pos ⟨rfl, rfl⟩] at hr
      obtain rfl := Option.some.inj hr
      exact Or.inr ⟨hstatus.symm, hcompleted.symm, herror.symm⟩
  · intro hends runId name
    rw [begun_end h, stage_end]
    split_ifs with hstage
    · obtain ⟨rfl, rfl⟩ := hstage
      have hold := hdesc c.scanRunId c.stageName
      constructor
      · rw [List.length_map]
        exact hold.count
      · intro e' he'
        rw [List.getLast?_map] at he'
        obtain ⟨e, he, rfl⟩ := Option.map_eq_some_iff.1 he'
        obtain ⟨r, hr, -, hstarted, -, -, hexecution⟩ := hold.latest e he
        refine ⟨_, rfl, ?_⟩
        simp only [Closing.record, hr, Option.bind_some, hstarted, hexecution]
        rcases hends e he with hid | ⟨hstatus, hcompleted, herror⟩
        · rw [Closing.apply, if_pos hid]
          exact ⟨rfl, rfl, rfl, rfl, rfl⟩
        · rw [Closing.apply]
          split_ifs
          · exact ⟨rfl, rfl, rfl, rfl, rfl⟩
          · exact ⟨hstatus.symm, rfl, hcompleted.symm, herror.symm, rfl⟩
    · rw [begun_apply_of_ne h hexec hstage]
      exact hdesc runId name

/-- An ending that repeats how the latest execution ended leaves the record alone. -/
lemma stage_end_of_ended (hdesc : DescribesLatest store) (h : WellFiled store) {c : Closing}
    {e : ScanStageExecution} (he : e ∈ (store.begun c.scanRunId c.stageName).getLast?)
    (hended : e.status = c.ending.status ∧ e.completedAt = some c.ending.completedAt
      ∧ e.error = c.ending.error) :
    (store.endStageExecution c.scanRunId c.stageName c.executionId c.ending).stage c.scanRunId
      c.stageName = store.stage c.scanRunId c.stageName := by
  obtain ⟨hstatus, hcompleted, herror⟩ := hended
  obtain ⟨r, hr, hrStatus, -, hrCompleted, hrError, -⟩ := (hdesc _ _).latest e he
  obtain ⟨hrun, hname⟩ := h.filed _ _ r hr
  rw [stage_end, if_pos ⟨rfl, rfl⟩, hr]
  congr 1
  cases r
  simp only at hrStatus hrCompleted hrError hrun hname
  simp [Closing.record, hrStatus, hrCompleted, hrError, hrun, hname, hstatus, hcompleted, herror]

lemma WellFormedCall.exists_execution {call : StageCall} {c : Closing}
    (h : WellFormedCall store call) (hc : call.closing = some c) :
    ∃ e ∈ store.executionsOf c.scanRunId,
      e.executionId = c.executionId ∧ e.stageName = c.stageName := by
  cases call with
  | register | begin => cases hc
  | complete =>
      obtain rfl := Option.some.inj hc
      exact h
  | fail =>
      obtain rfl := Option.some.inj hc
      exact h

/-- **One call.**  Records keep describing the latest execution exactly when the call ends the
latest execution or repeats how it ended. -/
lemma tracksLatest_iff (hdesc : DescribesLatest store) (h : WellFiled store) {call : StageCall}
    (hcall : WellFormedCall store call) : TracksLatest store call ↔ EndsLatest store call := by
  cases hc : call.closing with
  | none =>
      cases call with
      | register => simp [TracksLatest, EndsLatest, hc, stageStep, hdesc.register hcall]
      | begin => simp [TracksLatest, EndsLatest, hc, stageStep, hdesc.begin]
      | complete => cases hc
      | fail => cases hc
  | some c =>
      have hexec := hcall.exists_execution hc
      simp only [TracksLatest, EndsLatest, hc, Option.mem_some_iff, forall_eq',
        stageStep_closing hc, describesLatest_end_iff hdesc h hexec, executionsOf_end h,
        implies_true, true_and, and_iff_left_iff_imp]
      intro hends e he hne
      rcases hends e he with hid | hended
      · exact absurd hid hne
      · exact stage_end_of_ended hdesc h he hended

lemma WellFiled.step (h : WellFiled store) {call : StageCall} (hcall : WellFormedCall store call) :
    WellFiled (stageStep store call) := by
  cases hc : call.closing with
  | none =>
      cases call with
      | register => exact h.register
      | begin => exact h.begin fun runId e he => hcall _ (mem_values_of_mem he) e he
      | complete => cases hc
      | fail => cases hc
  | some c => exact stageStep_closing hc ▸ h.end c

/-! ## Runs -/

lemma describesLatest_empty : DescribesLatest .empty := by
  intro scanRunId stageName
  constructor
  · rfl
  · intro e he
    cases he

lemma wellFiled_empty : WellFiled .empty := by
  refine ⟨fun scanRunId => List.nodup_nil, ?_, ?_⟩
  · intro runA runB a ha
    cases ha
  · intro scanRunId stageName r hr
    cases hr

/-- **Stage records describe the latest execution** throughout exactly the runs in which every
ending is that of the execution begun last, or repeats how that one ended. -/
theorem throughout_tracksLatest_iff (calls : List StageCall)
    (hcalls : Throughout stageStep WellFormedCall .empty calls) :
    Throughout stageStep TracksLatest .empty calls
      ↔ Throughout stageStep EndsLatest .empty calls := by
  refine throughout_congr (fun store => DescribesLatest store ∧ WellFiled store) ?_ ?_
    ⟨describesLatest_empty, wellFiled_empty⟩ hcalls
  · rintro store call ⟨hdesc, hfiled⟩ hcall
    exact tracksLatest_iff hdesc hfiled hcall
  · rintro store call ⟨-, hfiled⟩ hcall htracks
    exact ⟨htracks.1, hfiled.step hcall⟩

/-- Noon of the first day, `n` seconds later. -/
def stageClock (n : Int) : DateTime := ⟨43200000000 + n * 1000000, some 0⟩

/-- A stage that fails and is rerun after that. -/
def rerunAfterFailure : List StageCall :=
  [.register "run", .begin "run" "PROVE" "first" (stageClock 0),
    .fail "run" "PROVE" "first" (stageClock 1) "timeout",
    .begin "run" "PROVE" "second" (stageClock 2),
    .complete "run" "PROVE" "second" (stageClock 3)]

theorem throughout_tracksLatest_rerun : Throughout stageStep TracksLatest .empty rerunAfterFailure :=
  (throughout_tracksLatest_iff rerunAfterFailure (by decide +kernel)).2 (by decide +kernel)

/-- A stage that is rerun while an earlier execution is still going. -/
def rerunWhileRunning : List StageCall :=
  [.register "run", .begin "run" "PROVE" "first" (stageClock 0),
    .begin "run" "PROVE" "second" (stageClock 1),
    .complete "run" "PROVE" "first" (stageClock 2)]

/-- The record of a stage whose second execution is running says `completed`. -/
theorem not_throughout_tracksLatest :
    ¬ ∀ calls, Throughout stageStep WellFormedCall .empty calls →
      Throughout stageStep TracksLatest .empty calls := by
  intro h
  have htracks := h rerunWhileRunning (by decide +kernel)
  obtain ⟨-, -, -, ⟨hdesc, -⟩, -⟩ := htracks
  have hlast : begunExecution "run" "PROVE" "second" (stageClock 1)
      ∈ ((exec stageStep .empty rerunWhileRunning).begun "run" "PROVE").getLast? := by
    decide +kernel
  obtain ⟨r, hr, hstatus, -⟩ := (hdesc "run" "PROVE").latest _ hlast
  have hcompleted : ((exec stageStep .empty rerunWhileRunning).stage "run" "PROVE").map
      ScanStageRun.status = some .completed := by
    decide +kernel
  have hrunning : ((exec stageStep .empty rerunWhileRunning).stage "run" "PROVE").map
      ScanStageRun.status = some .running :=
    (congrArg (Option.map ScanStageRun.status) hr).trans (congrArg some hstatus)
  rw [hcompleted] at hrunning
  cases hrunning

end Sast
