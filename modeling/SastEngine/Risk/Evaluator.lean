import Mathlib.Data.List.Sort
import Mathlib.Data.String.Basic
import SastEngine.Risk.Service

/-!
# The background evaluator

`evaluate_once` of `risk/sla_evaluator.py`: one cycle over all SLA records.  What a cycle does to
the record of a finding is one check of it, if it is active.
-/

namespace Sast

/-- `EvaluationStats`. -/
structure EvaluationStats where
  inspected : Nat
  breached : Nat
  skipped : Nat
  errors : Nat
  at_ : DateTime
deriving DecidableEq

/-- The body of the loop of `evaluate_once`. -/
def evaluateRecord (utcnow now : DateTime) (state : RiskStores × EvaluationStats)
    (record : SLARecord) : RiskStores × EvaluationStats :=
  if record.status ≠ .active then
    (state.1, { state.2 with skipped := state.2.skipped + 1 })
  else
    match checkAndPersistSla state.1 record.findingId utcnow (some now) with
    | .ok ((_, some _), stores) => (stores, { state.2 with breached := state.2.breached + 1 })
    | .ok ((_, none), stores) => (stores, state.2)
    | .error _ => (state.1, { state.2 with errors := state.2.errors + 1 })

/-- `sorted(all_sla_records(), key=lambda r: r.finding_id)`. -/
def sortedRecords (stores : RiskStores) : List SLARecord :=
  stores.records.values.insertionSort fun r r' => r.findingId ≤ r'.findingId

/-- `evaluate_once`. -/
def evaluateOnce (stores : RiskStores) (utcnow : DateTime) (now : Option DateTime) :
    RiskStores × EvaluationStats :=
  let now := now.getD utcnow
  (sortedRecords stores).foldl (evaluateRecord utcnow now)
    (stores, { inspected := stores.records.values.length, breached := 0, skipped := 0, errors := 0,
               at_ := now })

/-! ## One finding -/

/-- What the stores say about a finding. -/
def RiskStores.view (stores : RiskStores) (findingId : String) :
    Option SLARecord × List EscalationEvent :=
  (stores.getSla findingId, stores.escalationsFor findingId)

/-- The record of a finding and its events after a check. -/
def checkView (utcnow : DateTime) (now : Option DateTime)
    (view : Option SLARecord × List EscalationEvent) :
    Option SLARecord × List EscalationEvent :=
  match view.1 with
  | none => view
  | some record =>
      match SLAService.checkSla utcnow record now with
      | .ok (updated, event) => (some updated, view.2 ++ event.toList)
      | .error _ => view

/-- The record of a finding and its events after an evaluation cycle. -/
def evaluateView (utcnow now : DateTime) (view : Option SLARecord × List EscalationEvent) :
    Option SLARecord × List EscalationEvent :=
  if view.1.map SLARecord.status = some .active then checkView utcnow (some now) view else view

namespace SLAService

lemma checkAt_findingId (record : SLARecord) (now : DateTime) :
    (checkAt record now).1.findingId = record.findingId := by
  unfold checkAt
  split
  · rfl
  · rfl
  · rfl
  · split_ifs <;> rfl

lemma event_findingId {record : SLARecord} {now : DateTime} {event : EscalationEvent}
    (h : (checkAt record now).2 = some event) : event.findingId = record.findingId := by
  unfold checkAt at h
  split at h
  · cases h
  · cases h
  · cases h
  · split_ifs at h
    obtain rfl := Option.some.inj h
    rfl

end SLAService

variable {stores : RiskStores} {findingId : String}

/-- What a check writes. -/
lemma view_persistCheck {record : SLARecord} (hrecord : stores.getSla findingId = some record)
    (now : DateTime) (other : String) :
    ((persistCheck record (SLAService.checkAt record now)).foldl (fun stores write => write stores)
        stores).view other
      = if other = findingId then (some (SLAService.checkAt record now).1,
          stores.escalationsFor findingId ++ (SLAService.checkAt record now).2.toList)
        else stores.view other := by
  have hkey : record.findingId = findingId := stores.keyed findingId record hrecord
  have hid := (SLAService.checkAt_findingId record now).trans hkey
  have hwrite : ((if (SLAService.checkAt record now).1 = record then []
      else [(·.recordSla (SLAService.checkAt record now).1)]).foldl
        (fun (stores : RiskStores) write => write stores) stores).view other
      = if other = findingId then (some (SLAService.checkAt record now).1,
          stores.escalationsFor findingId) else stores.view other := by
    by_cases hsame : (SLAService.checkAt record now).1 = record
    · rw [if_pos hsame, hsame, ← hrecord]
      split_ifs with hother
      · rw [hother]
        rfl
      · rfl
    · rw [if_neg hsame]
      simp only [List.foldl_cons, List.foldl_nil, RiskStores.view, RiskStores.getSla_recordSla,
        hid, RiskStores.escalationsFor_recordSla]
      split_ifs with hother
      · rw [hother]
      · rfl
  rw [persistCheck, List.foldl_append]
  cases hevent : (SLAService.checkAt record now).2 with
  | none => simpa using hwrite
  | some event =>
      have heventId := (SLAService.event_findingId hevent).trans hkey
      simp only [RiskStores.view, Prod.ext_iff] at hwrite
      simp only [Option.toList_some, List.map_cons, List.map_nil, List.foldl_cons, List.foldl_nil,
        RiskStores.view, RiskStores.getSla_recordEscalation,
        RiskStores.escalationsFor_recordEscalation, heventId]
      rw [hwrite.1, hwrite.2]
      split_ifs <;> simp

/-- A check touches its own finding only. -/
lemma view_checked (stores : RiskStores) (findingId : String) (utcnow : DateTime)
    (now : Option DateTime) (other : String) :
    (stores.checked findingId utcnow now).view other
      = if other = findingId then checkView utcnow now (stores.view findingId)
        else stores.view other := by
  have hview : (if other = findingId then stores.view findingId else stores.view other)
      = stores.view other := by
    split_ifs with hother
    · rw [hother]
    · rfl
  simp only [RiskStores.checked, checkAndPersistSla, checkView, RiskStores.view, SLAService.checkSla]
  cases hget : stores.getSla findingId with
  | none =>
      simp only [RiskStores.view, hget] at hview
      simp [hview]
  | some record =>
      simp only [RiskStores.view, hget] at hview
      cases SLAService.ensureAware (now.getD utcnow) "now" with
      | error e => simp [bind, Except.bind, hview]
      | ok at_ => exact view_persistCheck hget at_ other

/-- A check of a recorded SLA at an aware time. -/
lemma checked_of_aware {record : SLARecord} (hrecord : stores.getSla findingId = some record)
    {utcnow at_ : DateTime} {now : Option DateTime}
    (haware : SLAService.ensureAware (now.getD utcnow) "now" = .ok at_) :
    (stores.checked findingId utcnow now).getSla findingId
        = some (SLAService.checkAt record at_).1
      ∧ (stores.checked findingId utcnow now).escalationsFor findingId
        = stores.escalationsFor findingId ++ (SLAService.checkAt record at_).2.toList := by
  have hview := view_checked stores findingId utcnow now findingId
  have hcheck : checkView utcnow now (stores.view findingId)
      = (some (SLAService.checkAt record at_).1,
        stores.escalationsFor findingId ++ (SLAService.checkAt record at_).2.toList) := by
    simp only [checkView, RiskStores.view, hrecord, SLAService.checkSla, haware]
    rfl
  rw [if_pos rfl, hcheck] at hview
  exact ⟨congrArg Prod.fst hview, congrArg Prod.snd hview⟩

lemma evaluateRecord_stores (utcnow now : DateTime) (state : RiskStores × EvaluationStats)
    (record : SLARecord) :
    (evaluateRecord utcnow now state record).1
      = if record.status = .active then state.1.checked record.findingId utcnow (some now)
        else state.1 := by
  rw [evaluateRecord, RiskStores.checked]
  by_cases hactive : record.status = .active
  · rw [if_neg (not_not.2 hactive), if_pos hactive]
    split <;> simp_all
  · rw [if_pos hactive, if_neg hactive]

/-- **A cycle evaluates the records independently.** -/
lemma view_foldl_evaluateRecord (utcnow now : DateTime) (findingId : String)
    (records : List SLARecord) :
    ∀ state : RiskStores × EvaluationStats,
      (records.map SLARecord.findingId).Nodup →
      (∀ r ∈ records, state.1.getSla r.findingId = some r) →
      (records.foldl (evaluateRecord utcnow now) state).1.view findingId
        = if findingId ∈ records.map SLARecord.findingId
            then evaluateView utcnow now (state.1.view findingId)
          else state.1.view findingId := by
  induction records with
  | nil =>
      intro state _ _
      rfl
  | cons record records ih =>
      intro state hnodup hstored
      rw [List.map_cons, List.nodup_cons] at hnodup
      have hstep : ∀ other, (evaluateRecord utcnow now state record).1.view other
          = if other = record.findingId
              then evaluateView utcnow now (state.1.view record.findingId)
            else state.1.view other := by
        intro other
        have hactive : (state.1.view record.findingId).1.map SLARecord.status
            = some record.status :=
          congrArg (Option.map SLARecord.status) (hstored record List.mem_cons_self)
        simp only [evaluateRecord_stores, evaluateView, hactive, Option.some.injEq]
        split_ifs with hstatus hother hother
        · rw [view_checked, if_pos hother]
        · rw [view_checked, if_neg hother]
        · rw [hother]
        · rfl
      rw [List.foldl_cons, ih _ hnodup.2]
      · rw [hstep]
        by_cases hid : findingId = record.findingId
        · subst hid
          simp [hnodup.1]
        · simp [hid]
      · intro r hr
        have hne : r.findingId ≠ record.findingId := by
          intro heq
          exact hnodup.1 (heq ▸ List.mem_map_of_mem hr)
        have hrest := congrArg Prod.fst (hstep r.findingId)
        rw [if_neg hne] at hrest
        exact hrest.trans (hstored r (List.mem_cons_of_mem _ hr))

lemma findingIds_nodup (stores : RiskStores) :
    (stores.records.values.map SLARecord.findingId).Nodup := by
  have hkeys : stores.records.values.map SLARecord.findingId = stores.records.keys := by
    rw [Dict.values, Dict.keys, List.map_map]
    refine List.map_congr_left ?_
    intro entry hentry
    exact stores.keyed entry.1 entry.2 (stores.records.get?_eq_some_iff.2 hentry)
  rw [hkeys]
  exact stores.records.nodup

/-- **A cycle is one check of each active record.** -/
theorem view_evaluateOnce (stores : RiskStores) (utcnow : DateTime) (now : Option DateTime)
    (findingId : String) :
    (evaluateOnce stores utcnow now).1.view findingId
      = evaluateView utcnow (now.getD utcnow) (stores.view findingId) := by
  have hperm : (sortedRecords stores).Perm stores.records.values := List.perm_insertionSort _ _
  rw [evaluateOnce, view_foldl_evaluateRecord]
  · split_ifs with hmem
    · rfl
    · have hnone : stores.getSla findingId = none := by
        rw [RiskStores.getSla, ← Option.not_isSome_iff_eq_none, Option.isSome_iff_exists]
        rintro ⟨record, hrecord⟩
        refine hmem (List.mem_map.2 ⟨record, hperm.mem_iff.2 ?_, stores.keyed _ _ hrecord⟩)
        exact stores.records.mem_values_iff.2 ⟨findingId, hrecord⟩
      rw [evaluateView, if_neg]
      rw [RiskStores.view, hnone]
      exact Option.some_ne_none _ ∘ Eq.symm
  · exact (hperm.map _).nodup_iff.2 (findingIds_nodup stores)
  · intro r hr
    obtain ⟨key, hkey⟩ := stores.records.mem_values_iff.1 (hperm.mem_iff.1 hr)
    rw [stores.keyed key r hkey]
    exact hkey

end Sast
