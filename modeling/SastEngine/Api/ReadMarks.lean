import SastEngine.Api.Notifications

/-!
# Read marks per user and per event

A read mark should belong to one user and one event.  The table keeps one row per id, so an id that
one user has marked cannot be marked by another; and ids are reused by later events.
-/

namespace Sast

/-! ## Runs of marks and events -/

/-- The event stores, the table of read marks, and what has been asked to be marked: by whom, and
which events were listed then. -/
structure ReadHistory where
  stores : EventStores
  reads : ReadTable
  marks : List (String × SourceEvent)

/-- No events, and nothing marked. -/
def ReadHistory.empty : ReadHistory := ⟨.empty, .empty, []⟩

/-- What happens: the events recorded change, or a user marks one notification or all of them. -/
inductive ReadOp where
  | events (stores : EventStores)
  | markOne (userId notificationId : String) (now : DateTime)
  | markAll (userId : String) (now : DateTime)

/-- The ids that the operation marks. -/
def ReadOp.ids (stores : EventStores) : ReadOp → List String
  | .events _ => []
  | .markOne _ notificationId _ => [notificationId]
  | .markAll .. => stores.sourceEvents.map SourceEvent.notificationId

/-- What the operation does to the table. -/
def ReadOp.run (h : ReadHistory) : ReadOp → Except IntegrityError ReadTable
  | .events _ => .ok h.reads
  | .markOne userId notificationId now => markNotificationRead h.reads userId notificationId now
  | .markAll userId now => markAllNotificationsRead h.reads h.stores userId now

/-- The row that the operation adds for an id. -/
def ReadOp.row : ReadOp → Option ReadRow
  | .events _ => none
  | .markOne userId _ now | .markAll userId now => some ⟨userId, now⟩

/-- Who marks. -/
def ReadOp.user (op : ReadOp) : Option String := op.row.map ReadRow.userId

/-- The listed events that the operation marks, with the user. -/
def ReadOp.marks (h : ReadHistory) (op : ReadOp) : List (String × SourceEvent) :=
  op.user.toList.flatMap fun userId =>
    (h.stores.sourceEvents.filter fun e => e.notificationId ∈ op.ids h.stores).map (userId, ·)

/-- One operation; the session of a failing one is rolled back. -/
def readStep (h : ReadHistory) (op : ReadOp) : ReadHistory where
  stores := match op with
    | .events stores => stores
    | _ => h.stores
  reads := match op.run h with
    | .ok reads => reads
    | .error _ => h.reads
  marks := h.marks ++ op.marks h

/-! ## What is expected -/

/-- The operation does not fail; after it every listed event shows as read for exactly the users who
have marked it; and no two events share a mark. -/
structure MarksApart (h : ReadHistory) (op : ReadOp) : Prop where
  succeeds : ∃ reads, op.run h = .ok reads
  shown : ∀ userId, ∀ event ∈ (readStep h op).stores.sourceEvents,
    ∀ item ∈ (listNotifications (readStep h op).reads (readStep h op).stores userId).notifications,
      item.id = event.notificationId → (item.read = true ↔ (userId, event) ∈ (readStep h op).marks)
  separate : ∀ mark ∈ (readStep h op).marks, ∀ mark' ∈ (readStep h op).marks,
    mark.2.notificationId = mark'.2.notificationId → mark.2 = mark'.2

/-- The run without the marks of other users. -/
def withoutOthers (userId : String) (ops : List ReadOp) : List ReadOp :=
  ops.filter fun op => op.user.all fun other => other = userId

/-- What a user sees, and whether what the user does next fails, is as if no other user had marked
anything. -/
def Unaffected (ops : List ReadOp) : Prop :=
  ∀ userId ran rest, ops = ran ++ rest →
    let h := exec readStep .empty ran
    let alone := exec readStep .empty (withoutOthers userId ran)
    listNotifications h.reads h.stores userId = listNotifications alone.reads alone.stores userId
      ∧ ∀ op ∈ rest.head?, op.user = some userId →
        ((∃ reads, op.run h = .ok reads) ↔ ∃ reads, op.run alone = .ok reads)

/-- Read state is per user and per event. -/
def PerUserAndEvent (ops : List ReadOp) : Prop :=
  Throughout readStep MarksApart .empty ops ∧ Unaffected ops

/-- The ids are free or marked by the user already, and each belongs to one listed event. -/
def Markable (h : ReadHistory) (userId : String) (ids : List String) : Prop :=
  ∀ id ∈ ids, (∀ row ∈ h.reads.get? id, row.userId = userId)
    ∧ ∀ event ∈ h.stores.sourceEvents, ∀ event' ∈ h.stores.sourceEvents,
      event.notificationId = id → event'.notificationId = id → event = event'

/-- An id is marked by one user only, while it belongs to one event; and it is not reused by an event
that was not listed when it was marked. -/
def KeepsIdsApart (h : ReadHistory) (op : ReadOp) : Prop :=
  match op with
  | .events stores => ∀ event ∈ stores.sourceEvents,
      ∀ row ∈ h.reads.get? event.notificationId, (row.userId, event) ∈ h.marks
  | .markOne userId notificationId _ => Markable h userId [notificationId]
  | .markAll userId _ => Markable h userId (h.stores.sourceEvents.map SourceEvent.notificationId)

/-! ## Marking ids -/

variable {reads : ReadTable} {userId : String} {now : DateTime} {id : String}

lemma has_iff {notificationId : String} :
    reads.has notificationId userId = true
      ↔ ∃ row, reads.get? notificationId = some row ∧ row.userId = userId := by
  unfold ReadTable.has
  cases reads.get? notificationId <;> simp

/-- Marking one id: it fails on the row of another user, and adds a row if there is none. -/
lemma mark_cases (reads : ReadTable) (userId : String) (now : DateTime) (id : String) :
    ((∀ row ∈ reads.get? id, row.userId = userId) ∧ ∃ reads', reads.mark userId now id = .ok reads'
        ∧ ∀ other, reads'.get? other
          = if other = id then some ((reads.get? other).getD ⟨userId, now⟩)
            else reads.get? other)
      ∨ (¬ ∀ row ∈ reads.get? id, row.userId = userId)
        ∧ ∃ e, reads.mark userId now id = .error e := by
  cases hrow : reads.get? id with
  | none =>
      refine Or.inl ⟨by simp, reads.set id ⟨userId, now⟩, ?_, ?_⟩
      · simp [ReadTable.mark, ReadTable.has, hrow, ReadTable.insert]
      · intro other
        rw [Dict.get?_set]
        split_ifs with hother
        · rw [hother, hrow]
          rfl
        · rfl
  | some row =>
      by_cases huser : row.userId = userId
      · refine Or.inl ⟨by simp [huser], reads, ?_, ?_⟩
        · simp [ReadTable.mark, ReadTable.has, hrow, huser]
        · intro other
          split_ifs with hother
          · rw [hother, hrow]
            rfl
          · rfl
      · refine Or.inr ⟨fun h => huser (h row rfl), ⟨id⟩, ?_⟩
        simp [ReadTable.mark, ReadTable.has, hrow, huser, ReadTable.insert]

/-- Marking a list of ids: it fails exactly if one of them has the row of another user, and else
adds a row for each that has none. -/
lemma foldlM_mark_cases (userId : String) (now : DateTime) (ids : List String)
    (reads : ReadTable) :
    ((∀ id ∈ ids, ∀ row ∈ reads.get? id, row.userId = userId)
        ∧ ∃ reads', ids.foldlM (fun reads id => reads.mark userId now id) reads = .ok reads'
          ∧ ∀ other, reads'.get? other
            = if other ∈ ids then some ((reads.get? other).getD ⟨userId, now⟩)
              else reads.get? other)
      ∨ (¬ ∀ id ∈ ids, ∀ row ∈ reads.get? id, row.userId = userId)
        ∧ ∃ e, ids.foldlM (fun reads id => reads.mark userId now id) reads = .error e := by
  induction ids generalizing reads with
  | nil => exact Or.inl ⟨by simp, reads, rfl, by simp⟩
  | cons id ids ih =>
      rw [List.foldlM_cons]
      rcases mark_cases reads userId now id with ⟨howner, reads₁, hmark, hreads₁⟩ | ⟨howner, e, hmark⟩
      · rw [hmark]
        have hsame : (∀ id ∈ ids, ∀ row ∈ reads₁.get? id, row.userId = userId)
            ↔ ∀ id ∈ ids, ∀ row ∈ reads.get? id, row.userId = userId := by
          refine forall₂_congr fun other _ => ?_
          rw [hreads₁]
          split_ifs with hother
          · subst hother
            cases hrow : reads.get? other with
            | none => simp
            | some row => simp [howner row hrow]
          · exact Iff.rfl
        rcases ih reads₁ with ⟨howners, reads', hfold, hreads'⟩ | ⟨howners, e, hfold⟩
        · refine Or.inl ⟨?_, reads', hfold, ?_⟩
          · rw [List.forall_mem_cons]
            exact ⟨howner, hsame.1 howners⟩
          · intro other
            rw [hreads', hreads₁]
            by_cases hother : other = id
            · subst hother
              by_cases hmem : other ∈ ids <;> simp [hmem]
            · simp [hother]
        · refine Or.inr ⟨?_, e, hfold⟩
          rw [List.forall_mem_cons, not_and]
          exact fun _ h => howners (hsame.2 h)
      · refine Or.inr ⟨?_, e, by rw [hmark]; rfl⟩
        rw [List.forall_mem_cons, not_and]
        exact fun h => absurd h howner

/-- A mark by a user: it fails exactly if one of its ids has the row of another user, and else adds
a row for each that has none. -/
lemma run_cases (h : ReadHistory) {op : ReadOp} {row : ReadRow} (hop : op.row = some row) :
    ((∀ id ∈ op.ids h.stores, ∀ old ∈ h.reads.get? id, old.userId = row.userId)
        ∧ ∃ reads, op.run h = .ok reads ∧ ∀ id, reads.get? id
          = if id ∈ op.ids h.stores then some ((h.reads.get? id).getD row) else h.reads.get? id)
      ∨ (¬ ∀ id ∈ op.ids h.stores, ∀ old ∈ h.reads.get? id, old.userId = row.userId)
        ∧ ∃ e, op.run h = .error e := by
  cases op with
  | events stores => cases hop
  | markOne userId notificationId now =>
      obtain rfl := Option.some.inj hop
      simp only [ReadOp.ids, List.mem_singleton, forall_eq]
      exact mark_cases h.reads userId now notificationId
  | markAll userId now =>
      obtain rfl := Option.some.inj hop
      have hids : ((deriveNotifications h.stores).map Notification.id).Perm
          (h.stores.sourceEvents.map SourceEvent.notificationId) := by
        refine ((perm_sortDown _ _).map Notification.id).trans ?_
        rw [List.map_map]
        exact List.Perm.refl _
      have hrun : ReadOp.run h (.markAll userId now)
          = ((deriveNotifications h.stores).map Notification.id).foldlM
            (fun reads id => reads.mark userId now id) h.reads := by
        rw [List.foldlM_map]
        rfl
      rw [hrun]
      simp only [ReadOp.ids, ← hids.mem_iff]
      exact foldlM_mark_cases userId now _ h.reads

/-! ## One operation -/

/-- What is marked is recorded in the table, what the table says of listed events has been marked,
and no two events share a mark. -/
structure MarksRecorded (h : ReadHistory) : Prop where
  recorded : ∀ mark ∈ h.marks, ∃ row, h.reads.get? mark.2.notificationId = some row
    ∧ row.userId = mark.1
  marked : ∀ event ∈ h.stores.sourceEvents, ∀ row ∈ h.reads.get? event.notificationId,
    (row.userId, event) ∈ h.marks
  separate : ∀ mark ∈ h.marks, ∀ mark' ∈ h.marks,
    mark.2.notificationId = mark'.2.notificationId → mark.2 = mark'.2

/-- The read flags of a listing are the rows of the user. -/
lemma shown_iff (reads : ReadTable) (stores : EventStores) (marks : List (String × SourceEvent)) :
    (∀ userId, ∀ event ∈ stores.sourceEvents,
        ∀ item ∈ (listNotifications reads stores userId).notifications,
          item.id = event.notificationId → (item.read = true ↔ (userId, event) ∈ marks))
      ↔ ∀ userId, ∀ event ∈ stores.sourceEvents,
        reads.has event.notificationId userId = true ↔ (userId, event) ∈ marks := by
  have hread : ∀ userId (event : SourceEvent),
      (if reads.has event.notification.id userId then { event.notification with read := true }
        else event.notification).read = reads.has event.notificationId userId := by
    intro userId event
    have hunread : event.notification.read = false := by cases event <;> rfl
    unfold SourceEvent.notificationId
    split_ifs with hhas
    · exact hhas.symm
    · rw [hunread]
      exact (Bool.eq_false_iff.2 hhas).symm
  have hid : ∀ userId (event : SourceEvent),
      (if reads.has event.notification.id userId then { event.notification with read := true }
        else event.notification).id = event.notificationId := by
    intro userId event
    split_ifs <;> rfl
  have hmem : ∀ userId item, item ∈ (listNotifications reads stores userId).notifications
      ↔ ∃ event ∈ stores.sourceEvents,
        (if reads.has event.notification.id userId then { event.notification with read := true }
          else event.notification) = item := by
    intro userId item
    simp only [listNotifications, applyReadState, deriveNotifications, List.mem_map,
      (perm_sortDown _ _).mem_iff, exists_exists_and_eq_and]
  constructor
  · intro h userId event hevent
    rw [← hread userId event]
    exact h userId event hevent _ ((hmem userId _).2 ⟨event, hevent, rfl⟩) (hid userId event)
  · intro h userId event hevent item hitem hsame
    obtain ⟨other, -, rfl⟩ := (hmem userId item).1 hitem
    rw [hid] at hsame
    rw [hread, hsame]
    exact h userId event hevent

variable {h : ReadHistory} {op : ReadOp} {row : ReadRow}

lemma keepsIdsApart_iff (hop : op.row = some row) :
    KeepsIdsApart h op ↔ Markable h row.userId (op.ids h.stores) := by
  cases op with
  | events stores => cases hop
  | markOne userId notificationId now =>
      obtain rfl := Option.some.inj hop
      exact Iff.rfl
  | markAll userId now =>
      obtain rfl := Option.some.inj hop
      exact Iff.rfl

lemma stores_readStep (hop : op.row = some row) : (readStep h op).stores = h.stores := by
  cases op with
  | events stores => cases hop
  | markOne | markAll => rfl

lemma mem_marks_readStep (hop : op.row = some row) {mark : String × SourceEvent} :
    mark ∈ (readStep h op).marks ↔ mark ∈ h.marks ∨ mark.1 = row.userId
      ∧ mark.2 ∈ h.stores.sourceEvents ∧ mark.2.notificationId ∈ op.ids h.stores := by
  obtain ⟨userId, event⟩ := mark
  simp only [readStep, ReadOp.marks, ReadOp.user, hop, Option.map_some, Option.toList_some,
    List.flatMap_cons, List.flatMap_nil, List.append_nil, List.mem_append, List.mem_map,
    List.mem_filter, decide_eq_true_eq, Prod.mk.injEq]
  refine or_congr Iff.rfl ?_
  constructor
  · rintro ⟨event', ⟨hlisted, hid⟩, rfl, rfl⟩
    exact ⟨rfl, hlisted, hid⟩
  · rintro ⟨rfl, hlisted, hid⟩
    exact ⟨event, ⟨hlisted, hid⟩, rfl, rfl⟩

/-- What a mark leaves when all its ids are the user's own or free. -/
lemma reads_readStep (hop : op.row = some row)
    (howned : ∀ id ∈ op.ids h.stores, ∀ old ∈ h.reads.get? id, old.userId = row.userId) (id : String) :
    (readStep h op).reads.get? id
      = if id ∈ op.ids h.stores then some ((h.reads.get? id).getD row) else h.reads.get? id := by
  rcases run_cases h hop with ⟨-, reads, hrun, hreads⟩ | ⟨hnot, -⟩
  · simp only [readStep, hrun]
    exact hreads id
  · exact absurd howned hnot

/-- The row of an id that the user marks is the user's. -/
lemma userId_getD (howned : ∀ old ∈ h.reads.get? id, old.userId = row.userId) :
    ((h.reads.get? id).getD row).userId = row.userId := by
  cases hold : h.reads.get? id with
  | none => rfl
  | some old => exact howned old hold

/-- **A mark** keeps users and events apart exactly if its ids are free or marked by the same user,
and each belongs to one event. -/
lemma marksApart_mark_iff (hinv : MarksRecorded h) (hop : op.row = some row) :
    MarksApart h op ↔ Markable h row.userId (op.ids h.stores) := by
  constructor
  · rintro ⟨⟨reads, hrun⟩, -, hseparate⟩ id hid
    constructor
    · rcases run_cases h hop with ⟨howned, -⟩ | ⟨-, e, herror⟩
      · exact howned id hid
      · rw [hrun] at herror
        cases herror
    · intro event hevent event' hevent' heq heq'
      have hmem : ∀ e ∈ h.stores.sourceEvents, e.notificationId = id →
          (row.userId, e) ∈ (readStep h op).marks := by
        intro e he heq
        exact (mem_marks_readStep hop).2 (Or.inr ⟨rfl, he, heq.symm ▸ hid⟩)
      exact hseparate _ (hmem event hevent heq) _ (hmem event' hevent' heq') (heq.trans heq'.symm)
  · intro hmarkable
    have howned : ∀ id ∈ op.ids h.stores, ∀ old ∈ h.reads.get? id, old.userId = row.userId :=
      fun id hid => (hmarkable id hid).1
    have hreads := reads_readStep hop howned
    refine ⟨?_, ?_, ?_⟩
    · rcases run_cases h hop with ⟨-, reads, hrun, -⟩ | ⟨hnot, -⟩
      · exact ⟨reads, hrun⟩
      · exact absurd howned hnot
    · rw [shown_iff, stores_readStep hop]
      intro userId event hevent
      rw [has_iff, hreads, mem_marks_readStep hop]
      split_ifs with hid
      · have hown := userId_getD (howned _ hid)
        constructor
        · rintro ⟨new, hnew, rfl⟩
          obtain rfl := Option.some.inj hnew
          exact Or.inr ⟨hown, hevent, hid⟩
        · rintro (hmark | ⟨huser, -, -⟩)
          · obtain ⟨old, hold, huser⟩ := hinv.recorded _ hmark
            refine ⟨_, rfl, hown.trans ?_⟩
            exact (howned _ hid old hold).symm.trans huser
          · exact ⟨_, rfl, hown.trans huser.symm⟩
      · constructor
        · rintro ⟨old, hold, rfl⟩
          exact Or.inl (hinv.marked event hevent old hold)
        · rintro (hmark | ⟨-, -, hmem⟩)
          · exact hinv.recorded _ hmark
          · exact absurd hmem hid
    · have hnew : ∀ mark ∈ h.marks, ∀ event ∈ h.stores.sourceEvents,
          event.notificationId ∈ op.ids h.stores →
            mark.2.notificationId = event.notificationId → mark.2 = event := by
        intro mark hmark event hevent hid heq
        obtain ⟨old, hold, -⟩ := hinv.recorded mark hmark
        rw [heq] at hold
        exact hinv.separate mark hmark _ (hinv.marked event hevent old hold) heq
      intro mark hmark mark' hmark' heq
      rcases (mem_marks_readStep hop).1 hmark with hmark | ⟨-, hlisted, hid⟩ <;>
        rcases (mem_marks_readStep hop).1 hmark' with hmark' | ⟨-, hlisted', hid'⟩
      · exact hinv.separate mark hmark mark' hmark' heq
      · exact hnew mark hmark _ hlisted' hid' heq
      · exact (hnew mark' hmark' _ hlisted hid heq.symm).symm
      · exact (hmarkable _ hid').2 _ hlisted _ hlisted' heq rfl

/-- **A change of the events** keeps them apart exactly if no event that comes to be listed carries
an id that was marked without it. -/
lemma marksApart_events_iff (hinv : MarksRecorded h) (stores : EventStores) :
    MarksApart h (.events stores) ↔ KeepsIdsApart h (.events stores) := by
  have hmarks : (readStep h (.events stores)).marks = h.marks := List.append_nil _
  constructor
  · rintro ⟨-, hshown, -⟩ event hevent row hrow
    rw [shown_iff, hmarks] at hshown
    exact (hshown row.userId event hevent).1 (has_iff.2 ⟨row, hrow, rfl⟩)
  · intro hkeeps
    refine ⟨⟨h.reads, rfl⟩, ?_, ?_⟩
    · rw [shown_iff, hmarks]
      intro userId event hevent
      rw [has_iff]
      constructor
      · rintro ⟨row, hrow, rfl⟩
        exact hkeeps event hevent row hrow
      · intro hmark
        exact hinv.recorded _ hmark
    · rw [hmarks]
      exact hinv.separate

lemma marksApart_iff (hinv : MarksRecorded h) : MarksApart h op ↔ KeepsIdsApart h op := by
  cases hop : op.row with
  | none =>
      cases op with
      | events stores => exact marksApart_events_iff hinv stores
      | markOne | markAll => cases hop
  | some row => rw [marksApart_mark_iff hinv hop, keepsIdsApart_iff hop]

/-- The marks stay recorded. -/
lemma MarksRecorded.step (hinv : MarksRecorded h) (hapart : MarksApart h op) :
    MarksRecorded (readStep h op) := by
  have hshown := (shown_iff _ _ _).1 hapart.shown
  refine ⟨?_, ?_, hapart.separate⟩
  · intro mark hmark
    cases hop : op.row with
    | none =>
        cases op with
        | events stores =>
            rw [show (readStep h (.events stores)).marks = h.marks from List.append_nil _] at hmark
            exact hinv.recorded mark hmark
        | markOne | markAll => cases hop
    | some row =>
        have hmarkable := (marksApart_mark_iff hinv hop).1 hapart
        have howned : ∀ id ∈ op.ids h.stores, ∀ old ∈ h.reads.get? id, old.userId = row.userId :=
          fun id hid => (hmarkable id hid).1
        rw [reads_readStep hop howned]
        rcases (mem_marks_readStep hop).1 hmark with hmark | ⟨huser, -, hid⟩
        · obtain ⟨old, hold, huser⟩ := hinv.recorded mark hmark
          refine ⟨old, ?_, huser⟩
          rw [hold]
          split_ifs <;> rfl
        · rw [if_pos hid, huser]
          exact ⟨_, rfl, userId_getD (howned _ hid)⟩
  · intro event hevent row hrow
    exact (hshown row.userId event hevent).1 (has_iff.2 ⟨row, hrow, rfl⟩)

/-! ## The run without other users -/

/-- The second history has the same events, and of the rows of the first those of the user. -/
structure Alone (userId : String) (h alone : ReadHistory) : Prop where
  stores : alone.stores = h.stores
  reads : ∀ id, alone.reads.get? id
    = (h.reads.get? id).filter fun row => row.userId = userId

variable {alone : ReadHistory}

lemma Alone.owned (halone : Alone userId h alone) {id : String} :
    ∀ old ∈ alone.reads.get? id, old.userId = userId := by
  intro old hold
  rw [halone.reads, Option.mem_def, Option.filter_eq_some_iff] at hold
  exact of_decide_eq_true hold.2

lemma Alone.list (halone : Alone userId h alone) :
    listNotifications h.reads h.stores userId
      = listNotifications alone.reads alone.stores userId := by
  have hhas : ∀ id, alone.reads.has id userId = h.reads.has id userId := by
    intro id
    rw [ReadTable.has, ReadTable.has, halone.reads]
    cases h.reads.get? id with
    | none => rfl
    | some row => by_cases huser : row.userId = userId <;> simp [Option.filter, huser]
  simp only [listNotifications, applyReadState, halone.stores, hhas]

/-- One operation of a run that keeps ids apart; the second history skips it if another user
marks. -/
lemma Alone.step (halone : Alone userId h alone) (hkeeps : KeepsIdsApart h op) :
    Alone userId (readStep h op)
      (if op.user.all fun other => other = userId then readStep alone op else alone) := by
  cases hop : op.row with
  | none =>
      cases op with
      | events stores => exact ⟨rfl, halone.reads⟩
      | markOne | markAll => cases hop
  | some row =>
      have howned : ∀ id ∈ op.ids h.stores, ∀ old ∈ h.reads.get? id, old.userId = row.userId :=
        fun id hid => ((keepsIdsApart_iff hop).1 hkeeps id hid).1
      have huser : op.user = some row.userId := by rw [ReadOp.user, hop, Option.map_some]
      simp only [huser, Option.all_some, decide_eq_true_eq]
      split_ifs with hsame
      · subst hsame
        have hownedAlone : ∀ id ∈ op.ids alone.stores, ∀ old ∈ alone.reads.get? id,
            old.userId = row.userId := fun _ _ => halone.owned
        constructor
        · rw [stores_readStep hop, stores_readStep hop, halone.stores]
        · intro id
          rw [reads_readStep hop howned, reads_readStep hop hownedAlone, halone.stores,
            halone.reads]
          split_ifs with hid
          · cases hold : h.reads.get? id with
            | none => simp [Option.filter]
            | some old => simp [Option.filter, howned id hid old hold]
          · rfl
      · constructor
        · rw [stores_readStep hop, halone.stores]
        · intro id
          rw [reads_readStep hop howned, halone.reads]
          split_ifs with hid
          · cases hold : h.reads.get? id with
            | none => simp [Option.filter, hsame]
            | some old => simp [Option.filter, howned id hid old hold, hsame]
          · rfl

lemma Alone.exec {ops : List ReadOp} :
    ∀ {h alone : ReadHistory}, Alone userId h alone → Throughout readStep KeepsIdsApart h ops →
      Alone userId (exec readStep h ops) (exec readStep alone (withoutOthers userId ops)) := by
  induction ops with
  | nil => exact fun halone _ => halone
  | cons op ops ih =>
      intro h alone halone hkeeps
      have hstep := halone.step hkeeps.1
      unfold withoutOthers
      rw [exec_cons, List.filter_cons]
      split_ifs at hstep ⊢
      · exact ih hstep hkeeps.2
      · exact ih hstep hkeeps.2

/-- Users whose ids are kept apart do not affect each other. -/
lemma unaffected_of_keepsIdsApart {ops : List ReadOp}
    (hkeeps : Throughout readStep KeepsIdsApart .empty ops) : Unaffected ops := by
  intro userId ran rest hops
  subst hops
  obtain ⟨hran, hrest⟩ := throughout_append.1 hkeeps
  have halone : Alone userId (exec readStep .empty ran)
      (exec readStep .empty (withoutOthers userId ran)) :=
    Alone.exec ⟨rfl, fun _ => rfl⟩ hran
  refine ⟨halone.list, ?_⟩
  intro op hop huser
  obtain ⟨row, hrow, rfl⟩ := Option.map_eq_some_iff.1 huser
  obtain ⟨rest, rfl⟩ : ∃ tail, rest = op :: tail := by
    cases rest with
    | nil => cases hop
    | cons first tail =>
        obtain rfl := Option.some.inj hop
        exact ⟨tail, rfl⟩
  have hmarkable := (keepsIdsApart_iff hrow).1 hrest.1
  constructor
  · intro _
    rcases run_cases (exec readStep .empty (withoutOthers row.userId ran)) hrow with
      ⟨-, reads, hrun, -⟩ | ⟨hnot, -⟩
    · exact ⟨reads, hrun⟩
    · exact absurd (fun _ _ => halone.owned) hnot
  · intro _
    rcases run_cases (exec readStep .empty ran) hrow with ⟨-, reads, hrun, -⟩ | ⟨hnot, -⟩
    · exact ⟨reads, hrun⟩
    · exact absurd (fun id hid => (hmarkable id hid).1) hnot

/-! ## Runs -/

lemma marksRecorded_empty : MarksRecorded .empty where
  recorded _ hmark := by cases hmark
  marked _ hevent := by cases hevent
  separate _ hmark := by cases hmark

/-- **Read state is per user and per event** in exactly the runs in which no id is marked by two
users or while two events carry it, and no id that is marked is reused by a later event. -/
theorem perUserAndEvent_iff (ops : List ReadOp) :
    PerUserAndEvent ops ↔ Throughout readStep KeepsIdsApart .empty ops := by
  have hiff : Throughout readStep MarksApart .empty ops
      ↔ Throughout readStep KeepsIdsApart .empty ops :=
    throughout_congr MarksRecorded (fun _ _ hinv _ => marksApart_iff hinv)
      (fun _ _ hinv _ hapart => hinv.step hapart) marksRecorded_empty (throughout_true ops)
  constructor
  · rintro ⟨happart, -⟩
    exact hiff.1 happart
  · intro hkeeps
    exact ⟨hiff.2 hkeeps, unaffected_of_keepsIdsApart hkeeps⟩

/-- One finding is validated. -/
def oneValidation : EventStores where
  escalations := .empty
  approvals := .empty
  validations := Dict.empty.set "f" ⟨"f", .truePositive, ⟨0, some 0⟩⟩
  proofs := .empty
  aware := by decide

/-- Two users read the same notification. -/
def twoReaders : List ReadOp :=
  [.events oneValidation, .markOne "ann" "validation_f" ⟨1, some 0⟩,
    .markOne "bob" "validation_f" ⟨2, some 0⟩]

/-- The second user cannot mark it. -/
theorem not_perUserAndEvent : ¬ ∀ ops, PerUserAndEvent ops := by
  intro h
  obtain ⟨-, -, hbob, -⟩ := (h twoReaders).1
  obtain ⟨reads, hrun⟩ := hbob.succeeds
  have herror : (ReadOp.run (exec readStep .empty (twoReaders.take 2))
      (.markOne "bob" "validation_f" ⟨2, some 0⟩)).isOk = false := by
    decide +kernel
  have hok : (ReadOp.run (exec readStep .empty (twoReaders.take 2))
      (.markOne "bob" "validation_f" ⟨2, some 0⟩)) = .ok reads := hrun
  rw [hok] at herror
  cases herror

end Sast
