import SastEngine.Risk.Durability
import SastEngine.Risk.Evaluator

/-!
# Isolation of the records in a cycle

The evaluation of a record may raise: outside the database, or at one of its database writes, with
the memory one write ahead.  The cycle catches the exception and goes on.  What it does to a
record and to its events is what one check of that record does, whatever happens to the others.
-/

namespace Sast

/-- Why the evaluation of a record raises: outside the database, or because its database write
with this number fails. -/
inductive Fault where
  | raised
  | write (n : Nat)
deriving DecidableEq

/-- The database write that fails. -/
def Fault.fails : Option Fault → Option Nat
  | some (.write n) => some n
  | _ => none

/-- `check_and_persist_sla` on both copies, under a fault.  It returns the event, if any, and
nothing when it raises. -/
def checkUnder (fault : Option Fault) (m : Mirrored RiskStores) (findingId : String)
    (utcnow : DateTime) (now : Option DateTime) :
    Mirrored RiskStores × Option (Option EscalationEvent) :=
  if fault = some .raised then (m, none)
  else
    match m.memory.getSla findingId with
    | none => (m, some none)
    | some record =>
        match SLAService.checkSla utcnow record now with
        | .error _ => (m, none)
        | .ok outcome =>
            let writes := persistCheck record outcome
            (m.perform writes (Fault.fails fault),
              if Completes writes (Fault.fails fault) then some outcome.2 else none)

/-- The body of the loop of `evaluate_once`, under the faults of the single records. -/
def evaluateUnder (faults : String → Option Fault) (utcnow now : DateTime)
    (state : Mirrored RiskStores × EvaluationStats) (record : SLARecord) :
    Mirrored RiskStores × EvaluationStats :=
  if record.status ≠ .active then
    (state.1, { state.2 with skipped := state.2.skipped + 1 })
  else
    match checkUnder (faults record.findingId) state.1 record.findingId utcnow (some now) with
    | (m, some (some _)) => (m, { state.2 with breached := state.2.breached + 1 })
    | (m, some none) => (m, state.2)
    | (m, none) => (m, { state.2 with errors := state.2.errors + 1 })

/-- The loop of `evaluate_once` over a list of records. -/
def evaluateAll (faults : String → Option Fault) (utcnow now : DateTime)
    (m : Mirrored RiskStores) (records : List SLARecord) :
    Mirrored RiskStores × EvaluationStats :=
  records.foldl (evaluateUnder faults utcnow now)
    (m, { inspected := records.length, breached := 0, skipped := 0, errors := 0, at_ := now })

/-- `evaluate_once` under faults. -/
def evaluateOnceUnder (faults : String → Option Fault) (m : Mirrored RiskStores)
    (utcnow now : DateTime) : Mirrored RiskStores × EvaluationStats :=
  evaluateAll faults utcnow now m (sortedRecords m.memory)

/-- What both copies say about a finding. -/
def Mirrored.view (m : Mirrored RiskStores) (findingId : String) :
    (Option SLARecord × List EscalationEvent) × (Option SLARecord × List EscalationEvent) :=
  (m.memory.view findingId, m.database.view findingId)

/-- What the evaluation of a record returns. -/
def evaluation (fault : Option Fault) (utcnow now : DateTime) (record : SLARecord) :
    Option (Option EscalationEvent) :=
  if fault = some .raised then none
  else
    match SLAService.checkSla utcnow record (some now) with
    | .error _ => none
    | .ok outcome =>
        if Completes (persistCheck record outcome) (Fault.fails fault) then some outcome.2
        else none

/-! ## Writes of one finding -/

/-- A write that reads and changes the entries of one finding only. -/
structure Owned (findingId : String) (write : RiskStores → RiskStores) : Prop where
  frame : ∀ stores other, other ≠ findingId → (write stores).view other = stores.view other
  congr : ∀ stores stores', stores.view findingId = stores'.view findingId →
    (write stores).view findingId = (write stores').view findingId

lemma owned_recordSla (record : SLARecord) :
    Owned record.findingId fun stores => stores.recordSla record where
  frame stores other hother := by
    rw [RiskStores.view, RiskStores.getSla_recordSla, if_neg hother]
    rfl
  congr stores stores' h := by
    have hevents := congrArg Prod.snd h
    simp only [RiskStores.view, RiskStores.getSla_recordSla, if_pos,
      RiskStores.escalationsFor_recordSla] at hevents ⊢
    rw [hevents]

lemma owned_recordEscalation (event : EscalationEvent) :
    Owned event.findingId fun stores => stores.recordEscalation event where
  frame stores other hother := by
    rw [RiskStores.view, RiskStores.escalationsFor_recordEscalation, if_neg hother,
      List.append_nil]
    rfl
  congr stores stores' h := by
    have hrecord := congrArg Prod.fst h
    have hevents := congrArg Prod.snd h
    simp only [RiskStores.view, RiskStores.escalationsFor_recordEscalation, if_pos,
      RiskStores.getSla_recordEscalation] at hrecord hevents ⊢
    rw [hrecord, hevents]

/-- The writes of a check are of its finding. -/
lemma owned_persistCheck (record : SLARecord) (now : DateTime) :
    ∀ write ∈ persistCheck record (SLAService.checkAt record now),
      Owned record.findingId write := by
  intro write hwrite
  rcases List.mem_append.1 hwrite with hwrite | hwrite
  · split_ifs at hwrite with hsame
    · cases hwrite
    · obtain rfl := List.mem_singleton.1 hwrite
      have howned := owned_recordSla (SLAService.checkAt record now).1
      rwa [SLAService.checkAt_findingId] at howned
  · obtain ⟨event, hevent, rfl⟩ := List.mem_map.1 hwrite
    have howned := owned_recordEscalation event
    rwa [SLAService.event_findingId (Option.mem_toList.1 hevent)] at howned

section Perform

variable {findingId : String} {writes : List (RiskStores → RiskStores)}

lemma view_perform_of_ne (h : ∀ write ∈ writes, Owned findingId write) {other : String}
    (hother : other ≠ findingId) (m : Mirrored RiskStores) (fails : Option Nat) :
    (m.perform writes fails).view other = m.view other := by
  induction writes generalizing m fails with
  | nil => cases fails <;> rfl
  | cons write writes ih =>
      have hframe := (h write List.mem_cons_self).frame
      have hrest := ih fun w hw => h w (List.mem_cons_of_mem _ hw)
      match fails with
      | some 0 => simp only [Mirrored.perform, Mirrored.view, hframe _ _ hother]
      | some (n + 1) =>
          rw [Mirrored.perform, hrest]
          simp only [Mirrored.view, hframe _ _ hother]
      | none =>
          rw [Mirrored.perform, hrest]
          simp only [Mirrored.view, hframe _ _ hother]

lemma view_perform_congr (h : ∀ write ∈ writes, Owned findingId write)
    {m m' : Mirrored RiskStores} (hview : m.view findingId = m'.view findingId)
    (fails : Option Nat) :
    (m.perform writes fails).view findingId = (m'.perform writes fails).view findingId := by
  induction writes generalizing m m' fails with
  | nil => cases fails <;> exact hview
  | cons write writes ih =>
      have hcongr := (h write List.mem_cons_self).congr
      obtain ⟨hmemory, hdatabase⟩ := Prod.ext_iff.1 hview
      have hboth : (Mirrored.mk (write m.memory) (write m.database)).view findingId
          = (Mirrored.mk (write m'.memory) (write m'.database)).view findingId :=
        Prod.ext (hcongr _ _ hmemory) (hcongr _ _ hdatabase)
      match fails with
      | some 0 => exact Prod.ext (hcongr _ _ hmemory) hdatabase
      | some (n + 1) => exact ih (fun w hw => h w (List.mem_cons_of_mem _ hw)) hboth _
      | none => exact ih (fun w hw => h w (List.mem_cons_of_mem _ hw)) hboth _

end Perform

/-! ## One record -/

section Check

variable {fault : Option Fault} {m m' : Mirrored RiskStores} {findingId : String}
  {utcnow now : DateTime}

/-- A check either raises before it writes, or performs the writes of a check at some time. -/
lemma checkUnder_of_get {record : SLARecord} (hget : m.memory.getSla findingId = some record) :
    (checkUnder fault m findingId utcnow (some now)).2 = evaluation fault utcnow now record
      ∧ ((checkUnder fault m findingId utcnow (some now)).1 = m
        ∨ ∃ at_, SLAService.checkSla utcnow record (some now)
            = .ok (SLAService.checkAt record at_)
          ∧ (checkUnder fault m findingId utcnow (some now)).1
            = m.perform (persistCheck record (SLAService.checkAt record at_))
              (Fault.fails fault)) := by
  rw [checkUnder, evaluation]
  split_ifs with hraised
  · exact ⟨rfl, Or.inl rfl⟩
  · simp only [hget, SLAService.checkSla]
    cases haware : SLAService.ensureAware ((some now).getD utcnow) "now" with
    | error e => exact ⟨rfl, Or.inl rfl⟩
    | ok at_ => exact ⟨rfl, Or.inr ⟨at_, rfl, rfl⟩⟩

lemma view_checkUnder_of_ne {record : SLARecord}
    (hget : m.memory.getSla findingId = some record) {other : String}
    (hother : other ≠ findingId) :
    (checkUnder fault m findingId utcnow (some now)).1.view other = m.view other := by
  have hkey : record.findingId = findingId := m.memory.keyed findingId record hget
  rcases (@checkUnder_of_get fault m findingId utcnow now record hget).2 with
    heq | ⟨at_, -, heq⟩
  · rw [heq]
  · rw [heq]
    exact view_perform_of_ne (owned_persistCheck record at_) (hkey ▸ hother) m _

/-- What a check does to its finding depends on what the copies say about that finding. -/
lemma view_checkUnder_congr (hview : m.view findingId = m'.view findingId) :
    (checkUnder fault m findingId utcnow (some now)).1.view findingId
      = (checkUnder fault m' findingId utcnow (some now)).1.view findingId := by
  have hget : m.memory.getSla findingId = m'.memory.getSla findingId :=
    congrArg (fun view => view.1.1) hview
  simp only [checkUnder]
  split_ifs with hraised
  · exact hview
  · rw [← hget]
    cases hrecord : m.memory.getSla findingId with
    | none => exact hview
    | some record =>
        have hkey : record.findingId = findingId := m.memory.keyed findingId record hrecord
        simp only [SLAService.checkSla]
        cases haware : SLAService.ensureAware ((some now).getD utcnow) "now" with
        | error e => exact hview
        | ok at_ =>
            subst hkey
            exact view_perform_congr (owned_persistCheck record at_) hview _

/-- An evaluation that does not raise is a single check. -/
lemma checkUnder_of_isSome {record : SLARecord} (hget : m.memory.getSla findingId = some record)
    (h : (evaluation fault utcnow now record).isSome) :
    (checkUnder fault m findingId utcnow (some now)).1
      = m.perform (checkWrites findingId m.memory utcnow (some now)) none := by
  rw [evaluation] at h
  rw [checkUnder, checkWrites]
  split_ifs at h ⊢ with hraised
  · simp at h
  · simp only [hget]
    cases hcheck : SLAService.checkSla utcnow record (some now) with
    | error e => simp [hcheck] at h
    | ok outcome =>
        simp only [hcheck] at h ⊢
        split_ifs at h with hcompletes
        · have hnone : Completes (persistCheck record outcome) none := trivial
          rw [Mirrored.perform_completes hcompletes, Mirrored.perform_completes hnone]
        · simp at h

end Check

/-! ## The cycle -/

section Cycle

variable {faults : String → Option Fault} {utcnow now : DateTime}

/-- What the evaluation of a record does to both copies. -/
lemma fst_evaluateUnder (state : Mirrored RiskStores × EvaluationStats) (record : SLARecord) :
    (evaluateUnder faults utcnow now state record).1
      = if record.status = .active then
          (checkUnder (faults record.findingId) state.1 record.findingId utcnow (some now)).1
        else state.1 := by
  rw [evaluateUnder]
  by_cases hactive : record.status = .active
  · rw [if_neg (not_not.2 hactive), if_pos hactive]
    split <;> simp_all
  · rw [if_pos hactive, if_neg hactive]

/-- The records of a list have different findings and are those in memory. -/
structure Current (m : Mirrored RiskStores) (records : List SLARecord) : Prop where
  nodup : (records.map SLARecord.findingId).Nodup
  stored : ∀ record ∈ records, m.memory.getSla record.findingId = some record

lemma view_evaluateUnder_of_ne {state : Mirrored RiskStores × EvaluationStats}
    {record : SLARecord} (hget : state.1.memory.getSla record.findingId = some record)
    {other : String} (hother : other ≠ record.findingId) :
    (evaluateUnder faults utcnow now state record).1.view other = state.1.view other := by
  rw [fst_evaluateUnder]
  split_ifs
  · exact view_checkUnder_of_ne hget hother
  · rfl

/-- Evaluating the first record leaves the others as they are. -/
lemma Current.tail {state : Mirrored RiskStores × EvaluationStats} {record : SLARecord}
    {records : List SLARecord} (h : Current state.1 (record :: records)) :
    Current (evaluateUnder faults utcnow now state record).1 records where
  nodup := (List.nodup_cons.1 h.nodup).2
  stored other hother := by
    have hne : other.findingId ≠ record.findingId := by
      intro heq
      exact (List.nodup_cons.1 h.nodup).1 (heq ▸ List.mem_map_of_mem hother)
    have hview := @view_evaluateUnder_of_ne faults utcnow now _ _
      (h.stored record List.mem_cons_self) _ hne
    have hget := congrArg (fun view => view.1.1) hview
    exact hget.trans (h.stored other (List.mem_cons_of_mem _ hother))

/-- **A cycle leaves findings without an active record alone.** -/
lemma view_foldl_of_not_active (records : List SLARecord)
    (state : Mirrored RiskStores × EvaluationStats) (h : Current state.1 records)
    {findingId : String}
    (hnone : ∀ record ∈ records, record.findingId = findingId → record.status ≠ .active) :
    (records.foldl (evaluateUnder faults utcnow now) state).1.view findingId
      = state.1.view findingId := by
  induction records generalizing state with
  | nil => rfl
  | cons record records ih =>
      rw [List.foldl_cons, ih _ h.tail fun r hr => hnone r (List.mem_cons_of_mem _ hr)]
      by_cases hid : record.findingId = findingId
      · rw [fst_evaluateUnder, if_neg (hnone record List.mem_cons_self hid)]
      · exact view_evaluateUnder_of_ne (h.stored record List.mem_cons_self) (Ne.symm hid)

/-- **A cycle checks each active record once**, in the state before the cycle. -/
lemma view_foldl_of_active (records : List SLARecord)
    (state : Mirrored RiskStores × EvaluationStats) (h : Current state.1 records)
    {record : SLARecord} (hrecord : record ∈ records) (hactive : record.status = .active) :
    (records.foldl (evaluateUnder faults utcnow now) state).1.view record.findingId
      = (checkUnder (faults record.findingId) state.1 record.findingId utcnow
          (some now)).1.view record.findingId := by
  induction records generalizing state with
  | nil => cases hrecord
  | cons first records ih =>
      rw [List.foldl_cons]
      rcases List.mem_cons.1 hrecord with rfl | hmem
      · rw [view_foldl_of_not_active records _ h.tail, fst_evaluateUnder, if_pos hactive]
        intro r hr hid
        exact absurd (hid ▸ List.mem_map_of_mem hr) (List.nodup_cons.1 h.nodup).1
      · have hne : record.findingId ≠ first.findingId := by
          intro heq
          exact (List.nodup_cons.1 h.nodup).1 (heq ▸ List.mem_map_of_mem hmem)
        rw [ih _ h.tail hmem]
        exact view_checkUnder_congr
          (view_evaluateUnder_of_ne (h.stored first List.mem_cons_self) hne)

/-- The evaluation of an active record returns an event. -/
def returnsEvent (faults : String → Option Fault) (utcnow now : DateTime) (record : SLARecord) :
    Bool :=
  record.status = .active
    && ((evaluation (faults record.findingId) utcnow now record).join).isSome

/-- The evaluation of an active record raises. -/
def raises (faults : String → Option Fault) (utcnow now : DateTime) (record : SLARecord) : Bool :=
  record.status = .active && (evaluation (faults record.findingId) utcnow now record).isNone

lemma snd_evaluateUnder (state : Mirrored RiskStores × EvaluationStats) {record : SLARecord}
    (hget : state.1.memory.getSla record.findingId = some record) :
    (evaluateUnder faults utcnow now state record).2
      = { state.2 with
          breached := state.2.breached + if returnsEvent faults utcnow now record then 1 else 0
          skipped := state.2.skipped + if record.status ≠ .active then 1 else 0
          errors := state.2.errors + if raises faults utcnow now record then 1 else 0 } := by
  have heval := (@checkUnder_of_get (faults record.findingId) state.1 record.findingId utcnow now
    record hget).1
  rw [evaluateUnder, returnsEvent, raises, ← heval]
  by_cases hactive : record.status = .active
  · rw [if_neg (not_not.2 hactive)]
    generalize checkUnder (faults record.findingId) state.1 record.findingId utcnow (some now) = r
    obtain ⟨m, outcome⟩ := r
    rcases outcome with - | - | event <;> simp [hactive]
  · simp [hactive]

/-- The counts of a cycle. -/
lemma snd_foldl (records : List SLARecord) (state : Mirrored RiskStores × EvaluationStats)
    (h : Current state.1 records) :
    (records.foldl (evaluateUnder faults utcnow now) state).2
      = { state.2 with
          breached := state.2.breached + records.countP (returnsEvent faults utcnow now)
          skipped := state.2.skipped + records.countP fun record => record.status ≠ .active
          errors := state.2.errors + records.countP (raises faults utcnow now) } := by
  induction records generalizing state with
  | nil => simp
  | cons record records ih =>
      rw [List.foldl_cons, ih _ h.tail, snd_evaluateUnder state (h.stored record
        List.mem_cons_self)]
      simp only [List.countP_cons, decide_eq_true_eq, EvaluationStats.mk.injEq, true_and,
        and_true]
      omega

/-- A cycle is one check of each active record whose evaluation does not raise; it leaves the
other findings without an active record alone, and it counts what happened. -/
structure IndependentChecks (faults : String → Option Fault) (utcnow now : DateTime)
    (m : Mirrored RiskStores) (result : Mirrored RiskStores × EvaluationStats) : Prop where
  untouched : ∀ findingId, (∀ record ∈ m.memory.getSla findingId, record.status ≠ .active) →
    result.1.view findingId = m.view findingId
  checked : ∀ findingId, ∀ record ∈ m.memory.getSla findingId, record.status = .active →
    (evaluation (faults findingId) utcnow now record).isSome →
      result.1.view findingId
        = (m.perform (checkWrites findingId m.memory utcnow (some now)) none).view findingId
  inspected : result.2.inspected = m.memory.records.values.length
  skipped : result.2.skipped = m.memory.records.values.countP fun record => record.status ≠ .active
  errors : result.2.errors = m.memory.records.values.countP (raises faults utcnow now)
  breached : result.2.breached = m.memory.records.values.countP (returnsEvent faults utcnow now)

lemma current_of_perm {m : Mirrored RiskStores} {records : List SLARecord}
    (h : records.Perm m.memory.records.values) : Current m records where
  nodup := (h.map _).nodup_iff.2 (findingIds_nodup m.memory)
  stored record hrecord := by
    obtain ⟨key, hkey⟩ := m.memory.records.mem_values_iff.1 (h.mem_iff.1 hrecord)
    rw [m.memory.keyed key record hkey]
    exact hkey

/-- In every order of the records, a cycle makes independent checks. -/
theorem independentChecks_evaluateAll {m : Mirrored RiskStores} {records : List SLARecord}
    (hperm : records.Perm m.memory.records.values) :
    IndependentChecks faults utcnow now m (evaluateAll faults utcnow now m records) := by
  have hcurrent := current_of_perm hperm
  have hmem : ∀ {findingId record}, m.memory.getSla findingId = some record → record ∈ records :=
    fun hget => hperm.mem_iff.2 (m.memory.records.mem_values_iff.2 ⟨_, hget⟩)
  have hstats := @snd_foldl faults utcnow now records
    (m, { inspected := records.length, breached := 0, skipped := 0, errors := 0, at_ := now })
    hcurrent
  rw [← evaluateAll] at hstats
  constructor
  case untouched =>
    intro findingId hnone
    refine view_foldl_of_not_active records _ hcurrent ?_
    rintro record hrecord rfl
    exact hnone record (hcurrent.stored record hrecord)
  case checked =>
    intro findingId record hget hactive hsome
    have hkey : record.findingId = findingId := m.memory.keyed findingId record hget
    subst hkey
    rw [evaluateAll, view_foldl_of_active records _ hcurrent (hmem hget) hactive,
      checkUnder_of_isSome hget hsome]
  case inspected => rw [hstats, ← hperm.length_eq]
  case skipped =>
    rw [hstats, ← hperm.countP_eq]
    exact Nat.zero_add _
  case errors =>
    rw [hstats, ← hperm.countP_eq]
    exact Nat.zero_add _
  case breached =>
    rw [hstats, ← hperm.countP_eq]
    exact Nat.zero_add _

/-! ## A second cycle -/

/-- What is still active after a check is not changed by another one at the same time. -/
lemma SLAService.checkAt_again {record : SLARecord} {at_ : DateTime}
    (hactive : record.status = .active)
    (hstill : (SLAService.checkAt record at_).1.status = .active) :
    SLAService.checkAt (SLAService.checkAt record at_).1 at_
      = ((SLAService.checkAt record at_).1, none) := by
  cases hdue : record.dueAt with
  | none => simp [SLAService.checkAt, hactive, hdue] at hstill
  | some due =>
      by_cases hover : due.instant ≤ at_.instant
      · simp [SLAService.checkAt, hactive, hdue, hover, SLAService.breach] at hstill
      · simp [SLAService.checkAt, hactive, hdue, hover]

/-- The record of a finding after an evaluation that did not raise. -/
lemma getSla_of_checked {m m' : Mirrored RiskStores} {findingId : String} {record : SLARecord}
    {fault : Option Fault} (hget : m.memory.getSla findingId = some record)
    (hsome : (evaluation fault utcnow now record).isSome)
    (hview : m'.view findingId
      = (m.perform (checkWrites findingId m.memory utcnow (some now)) none).view findingId) :
    ∃ at_, SLAService.ensureAware now "now" = .ok at_
      ∧ m'.memory.getSla findingId = some (SLAService.checkAt record at_).1 := by
  cases haware : SLAService.ensureAware now "now" with
  | error e =>
      have hcheck : SLAService.checkSla utcnow record (some now) = .error e := by
        rw [SLAService.checkSla, Option.getD_some, haware]
        rfl
      rw [evaluation, hcheck] at hsome
      split_ifs at hsome <;> simp at hsome
  | ok at_ =>
      have hnone : Completes (checkWrites findingId m.memory utcnow (some now)) none := trivial
      rw [Mirrored.perform_completes hnone, writeAll_checkWrites] at hview
      have hmemory := congrArg (fun view => view.1.1) hview
      have hchecked := (@checked_of_aware _ _ _ hget utcnow at_ (some now) haware).1
      exact ⟨at_, rfl, hmemory.trans hchecked⟩

/-- For every set of records, every time and every set of records whose evaluation raises, a cycle
makes independent checks, in every order of the records; and a second cycle at the same time
changes nothing of the findings whose evaluation succeeded and returns no event for them. -/
theorem evaluateOnce_isolated (faults : String → Option Fault) (m : Mirrored RiskStores)
    (utcnow now : DateTime) :
    IndependentChecks faults utcnow now m (evaluateOnceUnder faults m utcnow now)
      ∧ (∀ records : List SLARecord, records.Perm m.memory.records.values →
        IndependentChecks faults utcnow now m (evaluateAll faults utcnow now m records))
      ∧ ∀ (faults' : String → Option Fault) (utcnow' : DateTime) (findingId : String),
        ∀ record ∈ m.memory.getSla findingId, record.status = .active →
          (evaluation (faults findingId) utcnow now record).isSome →
          (evaluateOnceUnder faults' (evaluateOnceUnder faults m utcnow now).1 utcnow'
              now).1.view findingId
            = (evaluateOnceUnder faults m utcnow now).1.view findingId
          ∧ ∀ record' ∈ (evaluateOnceUnder faults m utcnow now).1.memory.getSla findingId,
            returnsEvent faults' utcnow' now record' = false := by
  have hfirst : IndependentChecks faults utcnow now m (evaluateOnceUnder faults m utcnow now) :=
    independentChecks_evaluateAll (List.perm_insertionSort _ _)
  refine ⟨hfirst, fun records hperm => independentChecks_evaluateAll hperm, ?_⟩
  intro faults' utcnow' findingId record hget hactive hsome
  have hview := hfirst.checked findingId record hget hactive hsome
  generalize (evaluateOnceUnder faults m utcnow now).1 = m₁ at hview ⊢
  obtain ⟨at_, haware, hget₁⟩ := getSla_of_checked hget hsome hview
  have hkey : (SLAService.checkAt record at_).1.findingId = findingId :=
    m₁.memory.keyed findingId _ hget₁
  by_cases hstill : (SLAService.checkAt record at_).1.status = .active
  · -- the second check finds nothing to change
    have hagain := SLAService.checkAt_again hactive hstill
    have hcheck : SLAService.checkSla utcnow' (SLAService.checkAt record at_).1 (some now)
        = .ok ((SLAService.checkAt record at_).1, none) := by
      rw [SLAService.checkSla, Option.getD_some, haware, ← hagain]
      rfl
    have hsame : (checkUnder (faults' findingId) m₁ findingId utcnow' (some now)).1 = m₁ := by
      rcases (@checkUnder_of_get (faults' findingId) m₁ findingId utcnow' now _
        hget₁).2 with heq | ⟨at', hat, heq⟩
      · exact heq
      · rw [heq, ← Except.ok.inj (hcheck.symm.trans hat)]
        cases Fault.fails (faults' findingId) <;> simp [persistCheck, Mirrored.perform]
    constructor
    · have hperm : (sortedRecords m₁.memory).Perm m₁.memory.records.values :=
        List.perm_insertionSort _ _
      have hmem : (SLAService.checkAt record at_).1 ∈ sortedRecords m₁.memory :=
        hperm.mem_iff.2 (m₁.memory.records.mem_values_iff.2 ⟨findingId, hget₁⟩)
      have hcycle := @view_foldl_of_active faults' utcnow' now
        (sortedRecords m₁.memory) (m₁, ⟨(sortedRecords m₁.memory).length, 0, 0, 0, now⟩)
        (current_of_perm hperm) _ hmem hstill
      rw [hkey, hsame] at hcycle
      exact hcycle
    · intro record' hget'
      obtain rfl := Option.some.inj (hget₁.symm.trans hget')
      have hnone : (evaluation (faults' (SLAService.checkAt record at_).1.findingId) utcnow' now
          (SLAService.checkAt record at_).1).join = none := by
        rw [evaluation, hcheck]
        simp only
        split_ifs <;> rfl
      rw [returnsEvent, hnone, Option.isSome_none, Bool.and_false]
  · have hsecond : IndependentChecks faults' utcnow' now m₁
        (evaluateOnceUnder faults' m₁ utcnow' now) :=
      independentChecks_evaluateAll (List.perm_insertionSort _ _)
    constructor
    · refine hsecond.untouched findingId ?_
      intro record' hget'
      obtain rfl := Option.some.inj (hget₁.symm.trans hget')
      exact hstill
    · intro record' hget'
      obtain rfl := Option.some.inj (hget₁.symm.trans hget')
      simp [returnsEvent, hstill]

/-! ## Without faults -/

/-- Without faults, the cycle is the one on the memory alone. -/
theorem evaluateOnceUnder_none (m : Mirrored RiskStores) (utcnow now : DateTime) :
    (evaluateOnceUnder (fun _ => none) m utcnow now).1.memory
        = (evaluateOnce m.memory utcnow (some now)).1
      ∧ (evaluateOnceUnder (fun _ => none) m utcnow now).2
        = (evaluateOnce m.memory utcnow (some now)).2 := by
  have hloop : ∀ (records : List SLARecord) (m : Mirrored RiskStores) (stats : EvaluationStats),
      (records.foldl (evaluateUnder (fun _ => none) utcnow now) (m, stats)).1.memory
          = (records.foldl (evaluateRecord utcnow now) (m.memory, stats)).1
        ∧ (records.foldl (evaluateUnder (fun _ => none) utcnow now) (m, stats)).2
          = (records.foldl (evaluateRecord utcnow now) (m.memory, stats)).2 := by
    intro records
    induction records with
    | nil => exact fun m stats => ⟨rfl, rfl⟩
    | cons record records ih =>
        intro m stats
        have hstep : ∃ m' stats', evaluateUnder (fun _ => none) utcnow now (m, stats) record
            = (m', stats') ∧ evaluateRecord utcnow now (m.memory, stats) record
              = (m'.memory, stats') := by
          rw [evaluateUnder, evaluateRecord, checkUnder, checkAndPersistSla]
          by_cases hactive : record.status = .active
          · rw [if_neg (not_not.2 hactive), if_neg (not_not.2 hactive), if_neg (by simp)]
            cases m.memory.getSla record.findingId with
            | none => exact ⟨_, _, rfl, rfl⟩
            | some stored =>
                cases hcheck : SLAService.checkSla utcnow stored (some now) with
                | error e =>
                    simp only [hcheck]
                    exact ⟨_, _, rfl, rfl⟩
                | ok outcome =>
                    have hnone : Completes (persistCheck stored outcome) none := trivial
                    obtain ⟨updated, event⟩ := outcome
                    simp only [hcheck, Fault.fails, Mirrored.perform_completes hnone]
                    cases event <;> exact ⟨_, _, rfl, rfl⟩
          · rw [if_pos hactive, if_pos hactive]
            exact ⟨_, _, rfl, rfl⟩
        obtain ⟨m', stats', h₁, h₂⟩ := hstep
        rw [List.foldl_cons, List.foldl_cons, h₁, h₂]
        exact ih m' stats'
  have hlen : (sortedRecords m.memory).length = m.memory.records.values.length :=
    (List.perm_insertionSort _ _).length_eq
  rw [evaluateOnceUnder, evaluateAll, evaluateOnce, hlen]
  exact hloop _ _ _

end Cycle

end Sast
