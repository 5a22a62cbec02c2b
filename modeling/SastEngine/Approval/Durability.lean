import Mathlib.Data.List.Sort
import Mathlib.Tactic.IntervalCases
import SastEngine.Approval.Interleaved
import SastEngine.Lib.WriteThrough

/-!
# Approvals in the database

The approval store mirrors every write into the database: the request with one commit, its event
with another.  Each goes to memory first, so a failing commit leaves the two copies apart, and a
status without its event in one of them.
-/

namespace Sast

variable (policy : ApprovalPolicy)

/-! ## The two writes of a call -/

/-- What a call writes: nothing if it hands back an active request, else a request and its
event. -/
def ApprovalCall.draft (store : ApprovalStore) (call : ApprovalCall) :
    Except ApprovalError (Option (ApprovalRequest × ApprovalEvent)) :=
  match call.op with
  | .request findingId action requestedBy requestedAt scanRunId =>
      match store.findActive findingId action activeStatuses with
      | some _ => .ok none
      | none =>
          match newestTerminal store findingId, policy.allowReRequestAfterTerminal with
          | some status, false => .error (.gate (reRequestMessage findingId status))
          | _, _ => (draftRequest policy call findingId action requestedBy requestedAt
              scanRunId).map some
  | .decide decision approvalId reviewedBy reason reviewedAt =>
      match store.get approvalId with
      | none => .error (.invalidTransition s!"unknown approval request: {approvalId}")
      | some request =>
          (draftDecision call request decision.target reviewedBy reason reviewedAt).map some

/-- The writes of a draft, in order. -/
def draftWrites : Except ApprovalError (Option (ApprovalRequest × ApprovalEvent)) →
    List (ApprovalStore → ApprovalStore)
  | .ok (some (request, event)) => [(·.save request), (·.recordEvent event)]
  | _ => []

/-- The writes of a call, in order. -/
def ApprovalCall.writes (store : ApprovalStore) (call : ApprovalCall) :
    List (ApprovalStore → ApprovalStore) :=
  draftWrites (call.draft policy store)

lemma writeAll_draftWrites (store : ApprovalStore)
    (draft : Except ApprovalError (ApprovalRequest × ApprovalEvent)) :
    writeAll (draftWrites (draft.map some)) store
      = match draft.map (fun d => (d.1, (store.save d.1).recordEvent d.2)) with
        | .ok (_, store') => store'
        | .error _ => store := by
  cases draft <;> rfl

/-- Performed on one copy, the writes of a call are the sequential step. -/
lemma writeAll_writes (store : ApprovalStore) (call : ApprovalCall) :
    writeAll (call.writes policy store) store = approvalStep policy store call := by
  cases hop : call.op with
  | request findingId action requestedBy requestedAt scanRunId =>
      simp only [ApprovalCall.writes, ApprovalCall.draft, approvalStep, ApprovalCall.run, hop,
        requestApproval, createRequest_eq_draft]
      cases store.findActive findingId action activeStatuses with
      | some existing => rfl
      | none =>
          cases newestTerminal store findingId with
          | none => exact writeAll_draftWrites store _
          | some status =>
              cases policy.allowReRequestAfterTerminal with
              | true => exact writeAll_draftWrites store _
              | false => rfl
  | decide decision approvalId reviewedBy reason reviewedAt =>
      simp only [ApprovalCall.writes, ApprovalCall.draft, approvalStep, ApprovalCall.run, hop,
        decideApproval]
      cases hget : store.get approvalId with
      | none =>
          rw [transition, hget]
          rfl
      | some request =>
          rw [transition_eq_draft call store approvalId decision.target reviewedBy reason
            reviewedAt hget]
          exact writeAll_draftWrites store _

/-! ## Failures and restarts -/

/-- `set_factory`: the events of each request are sorted by their time. -/
def reloadApprovals (database : ApprovalStore) : ApprovalStore :=
  { database with
    events := database.events.mapValues
      (List.insertionSort fun e e' => e.createdAt.instant ≤ e'.createdAt.instant) }

/-- A call, one of whose database writes may fail, or a restart of the process. -/
inductive DurableOp where
  | call (call : ApprovalCall) (fails : Option Nat)
  | restart

/-- One operation on the mirrored store. -/
def durableStep (m : Mirrored ApprovalStore) : DurableOp → Mirrored ApprovalStore
  | .call call fails => m.perform (call.writes policy m.memory) fails
  | .restart => m.restart reloadApprovals

/-- The stores hold the same requests and the same events. -/
def SameContents (a b : ApprovalStore) : Prop :=
  (∀ id, a.get id = b.get id) ∧ ∀ id, (a.eventsFor id).Perm (b.eventsFor id)

/-- The store is as before, or has the new request together with its event. -/
def ChangedAtomically (before after : ApprovalStore)
    (draft : Except ApprovalError (Option (ApprovalRequest × ApprovalEvent))) : Prop :=
  SameContents after before ∨ ∃ request event, draft = .ok (some (request, event))
    ∧ SameContents after ((before.save request).recordEvent event)

/-- Every status is the one that the events of its request lead to. -/
def StatusesExplained (store : ApprovalStore) : Prop :=
  ∀ id r, store.get id = some r →
    ∃ events, events.Perm (store.eventsFor id) ∧ Journal approvalMoves events r.status

/-- The operation is atomic in the process and after a restart, no status is without its event,
and memory holds the statuses of the database. -/
def ActsAtomically (m : Mirrored ApprovalStore) (op : DurableOp) : Prop :=
  let after := durableStep policy m op
  (match op with
    | .call call _ =>
        ChangedAtomically m.memory after.memory (call.draft policy m.memory)
          ∧ ChangedAtomically (reloadApprovals m.database) (reloadApprovals after.database)
            (call.draft policy m.memory)
    | .restart => SameContents after.memory m.memory)
    ∧ StatusesExplained after.memory ∧ StatusesExplained (reloadApprovals after.database)
    ∧ ∀ id, (after.memory.get id).map ApprovalRequest.status
      = (after.database.get id).map ApprovalRequest.status

/-- No database write of the operation fails. -/
def WritesSucceed (m : Mirrored ApprovalStore) : DurableOp → Prop
  | .call call fails => Completes (call.writes policy m.memory) fails
  | .restart => True

/-- The id generated for the call is new. -/
def FreshOp (m : Mirrored ApprovalStore) : DurableOp → Prop
  | .call call _ => FreshId m.memory call
  | .restart => True

/-! ## Contents -/

lemma SameContents.refl (a : ApprovalStore) : SameContents a a :=
  ⟨fun _ => rfl, fun _ => List.Perm.refl _⟩

lemma SameContents.symm {a b : ApprovalStore} (h : SameContents a b) : SameContents b a :=
  ⟨fun id => (h.1 id).symm, fun id => (h.2 id).symm⟩

lemma SameContents.trans {a b c : ApprovalStore} (h : SameContents a b) (h' : SameContents b c) :
    SameContents a c :=
  ⟨fun id => (h.1 id).trans (h'.1 id), fun id => (h.2 id).trans (h'.2 id)⟩

/-- The same two writes keep two stores of the same contents alike. -/
lemma SameContents.write {a b : ApprovalStore} (h : SameContents a b) (request : ApprovalRequest)
    (event : ApprovalEvent) : SameContents ((a.save request).recordEvent event)
      ((b.save request).recordEvent event) := by
  constructor
  · intro id
    simp only [ApprovalStore.get_recordEvent, ApprovalStore.get_save, h.1 id]
  · intro id
    simp only [ApprovalStore.eventsFor_recordEvent, ApprovalStore.eventsFor_save]
    split_ifs
    · exact (h.2 id).append_right _
    · exact h.2 id

lemma sameContents_reload (database : ApprovalStore) :
    SameContents (reloadApprovals database) database := by
  constructor
  · intro id
    rfl
  · intro id
    simp only [ApprovalStore.eventsFor, reloadApprovals, Dict.get?_mapValues]
    cases database.events.get? id with
    | none => exact List.Perm.refl _
    | some events => exact List.perm_insertionSort _ events

lemma statusesExplained_of_audited {store database : ApprovalStore} (h : database.Audited)
    (hsame : SameContents store database) : StatusesExplained store := by
  intro id r hget
  rw [hsame.1] at hget
  have hid := h id
  rw [hget] at hid
  exact ⟨database.eventsFor id, (hsame.2 id).symm, hid.2.journal⟩

/-- A status that the journal of the same events does not end in is unexplained. -/
lemma not_statusesExplained {store database : ApprovalStore} (h : database.Audited) {id : String}
    {r : ApprovalRequest} (hget : store.get id = some r)
    (hevents : (store.eventsFor id).Perm (database.eventsFor id))
    (hstatus : (database.get id).map ApprovalRequest.status ≠ some r.status) :
    ¬ StatusesExplained store := by
  intro hexplained
  obtain ⟨events, hperm, hjournal⟩ := hexplained id r hget
  have hid := h id
  cases hdatabase : database.get id with
  | none =>
      rw [hdatabase] at hid
      rw [hid] at hevents
      exact hjournal.ne_nil (hperm.trans hevents).eq_nil
  | some old =>
      rw [hdatabase] at hid hstatus
      have hsame := hid.2.journal.state_eq_of_perm hjournal (hperm.trans hevents).symm
      exact hstatus (congrArg some hsame)

/-! ## Drafts -/

/-- No transition keeps the status. -/
lemma not_mem_allowedTransitions_self (s : ApprovalStatus) : s ∉ allowedTransitions s := by
  cases s <;> decide

variable {policy}

/-- A draft written to an audited copy of the store leaves it audited and changes a status. -/
lemma audited_draft {memory database : ApprovalStore} (h : database.Audited)
    (hsame : SameContents memory database) {call : ApprovalCall} (hfresh : FreshId memory call)
    {request : ApprovalRequest} {event : ApprovalEvent}
    (hdraft : call.draft policy memory = .ok (some (request, event))) :
    ((database.save request).recordEvent event).Audited ∧ event.approvalId = request.id
      ∧ (database.get request.id).map ApprovalRequest.status ≠ some request.status := by
  have hok : ∀ result : Except ApprovalError (ApprovalRequest × ApprovalEvent),
      result.map some = .ok (some (request, event)) → result = .ok (request, event) := by
    intro result hresult
    cases result with
    | error e => cases hresult
    | ok d => exact congrArg Except.ok (Option.some.inj (Except.ok.inj hresult))
  cases hop : call.op with
  | request findingId action requestedBy requestedAt scanRunId =>
      have hcreated : draftRequest policy call findingId action requestedBy requestedAt scanRunId
          = .ok (request, event) := by
        simp only [ApprovalCall.draft, hop] at hdraft
        split at hdraft
        · cases hdraft
        · split at hdraft
          · cases hdraft
          · exact hok _ hdraft
      obtain ⟨hpending, hid, hversion, rfl⟩ := draftRequest_ok hcreated
      have hnew : database.get request.id = none := by
        rw [← hsame.1, hid]
        exact hfresh
      refine ⟨h.create hnew call.moment hpending hversion, rfl, ?_⟩
      rw [hnew]
      simp
  | decide decision approvalId reviewedBy reason reviewedAt =>
      simp only [ApprovalCall.draft, hop] at hdraft
      cases hget : memory.get approvalId with
      | none => simp [hget] at hdraft
      | some old =>
          simp only [hget] at hdraft
          obtain ⟨hallowed, now, rfl, rfl⟩ := draftDecision_ok (hok _ hdraft)
          rw [hsame.1] at hget
          have hid : old.id = approvalId := h.wellKeyed approvalId old hget
          refine ⟨h.move hget hallowed call.moment reviewedBy reason now, rfl, ?_⟩
          have hstored : database.get (reviewed old decision.target reviewedBy reason now).id
              = some old := by
            rw [show (reviewed old decision.target reviewedBy reason now).id = old.id from rfl, hid]
            exact hget
          rw [hstored]
          intro hkept
          have hself : old.status = decision.target := Option.some.inj hkept
          rw [hself] at hallowed
          exact not_mem_allowedTransitions_self _ hallowed

/-! ## Steps and runs -/

/-- Memory and database have the same contents, audited by their events. -/
structure Mirrors (m : Mirrored ApprovalStore) : Prop where
  same : SameContents m.memory m.database
  audited : m.database.Audited

/-- An operation between two mirrored states acts atomically. -/
lemma actsAtomically_of_mirrors {m : Mirrored ApprovalStore} {op : DurableOp}
    (hafter : Mirrors (durableStep policy m op))
    (hop : match op with
      | .call call _ =>
          ChangedAtomically m.memory (durableStep policy m op).memory (call.draft policy m.memory)
            ∧ ChangedAtomically m.database (durableStep policy m op).database
              (call.draft policy m.memory)
      | .restart => SameContents (durableStep policy m op).memory m.memory) :
    ActsAtomically policy m op := by
  have hreload := sameContents_reload (durableStep policy m op).database
  refine ⟨?_, statusesExplained_of_audited hafter.audited hafter.same,
    statusesExplained_of_audited hafter.audited hreload, fun id => by rw [hafter.same.1]⟩
  cases op with
  | restart => exact hop
  | call call fails =>
      refine ⟨hop.1, ?_⟩
      have hbefore := sameContents_reload m.database
      rcases hop.2 with hsame | ⟨request, event, hdraft, hsame⟩
      · exact Or.inl ((hreload.trans hsame).trans hbefore.symm)
      · exact Or.inr ⟨request, event, hdraft,
          (hreload.trans hsame).trans (hbefore.symm.write request event)⟩

/-- An operation whose writes succeed keeps the copies alike. -/
lemma mirrors_step {m : Mirrored ApprovalStore} (h : Mirrors m) {op : DurableOp}
    (hfresh : FreshOp m op) (hok : WritesSucceed policy m op) :
    Mirrors (durableStep policy m op) ∧ ActsAtomically policy m op := by
  cases op with
  | restart =>
      have hmirrors : Mirrors (durableStep policy m .restart) :=
        ⟨sameContents_reload m.database, h.audited⟩
      exact ⟨hmirrors, actsAtomically_of_mirrors hmirrors
        ((sameContents_reload m.database).trans h.same.symm)⟩
  | call call fails =>
      have hstep : durableStep policy m (.call call fails)
          = ⟨writeAll (call.writes policy m.memory) m.memory,
            writeAll (call.writes policy m.memory) m.database⟩ := Mirrored.perform_completes hok
      cases hdraft : call.draft policy m.memory with
      | error e =>
          rw [ApprovalCall.writes, hdraft] at hstep
          have hsame : durableStep policy m (.call call fails) = m := hstep
          rw [← hsame] at h
          refine ⟨h, actsAtomically_of_mirrors h ?_⟩
          rw [hsame]
          exact ⟨Or.inl (.refl _), Or.inl (.refl _)⟩
      | ok draft =>
          cases draft with
          | none =>
              rw [ApprovalCall.writes, hdraft] at hstep
              have hsame : durableStep policy m (.call call fails) = m := hstep
              rw [← hsame] at h
              refine ⟨h, actsAtomically_of_mirrors h ?_⟩
              rw [hsame]
              exact ⟨Or.inl (.refl _), Or.inl (.refl _)⟩
          | some d =>
              obtain ⟨request, event⟩ := d
              have haudited := (audited_draft h.audited h.same hfresh hdraft).1
              rw [ApprovalCall.writes, hdraft] at hstep
              have hboth : durableStep policy m (.call call fails)
                  = ⟨(m.memory.save request).recordEvent event,
                    (m.database.save request).recordEvent event⟩ := hstep
              have hmirrors : Mirrors (durableStep policy m (.call call fails)) := by
                rw [hboth]
                exact ⟨h.same.write request event, haudited⟩
              refine ⟨hmirrors, actsAtomically_of_mirrors hmirrors ?_⟩
              rw [hboth]
              exact ⟨Or.inr ⟨request, event, hdraft, .refl _⟩,
                Or.inr ⟨request, event, hdraft, .refl _⟩⟩

/-- **A failing write is never atomic.**  If the request is not committed, memory has a status the
database lacks; if its event is not, the database has a status without its event. -/
lemma not_actsAtomically {m : Mirrored ApprovalStore} (h : Mirrors m) {op : DurableOp}
    (hfresh : FreshOp m op) (hfails : ¬ WritesSucceed policy m op) :
    ¬ ActsAtomically policy m op := by
  intro hatomic
  cases op with
  | restart => exact hfails trivial
  | call call fails =>
      cases fails with
      | none => exact hfails trivial
      | some n =>
          have hn : n < (call.writes policy m.memory).length := not_le.1 hfails
          have hstep : durableStep policy m (.call call (some n)) = _ :=
            Mirrored.perform_fails (m := m) hn
          have hdraft : ∃ request event,
              call.draft policy m.memory = .ok (some (request, event)) := by
            simp only [ApprovalCall.writes] at hn
            cases hdraft : call.draft policy m.memory with
            | error e =>
                rw [hdraft] at hn
                exact absurd hn (Nat.not_lt_zero n)
            | ok draft =>
                cases draft with
                | none =>
                    rw [hdraft] at hn
                    exact absurd hn (Nat.not_lt_zero n)
                | some d => exact ⟨d.1, d.2, rfl⟩
          obtain ⟨request, event, hdraft⟩ := hdraft
          obtain ⟨-, howned, hchanged⟩ := audited_draft h.audited h.same hfresh hdraft
          obtain ⟨-, -, hexplained, hstatuses⟩ := hatomic
          rw [ApprovalCall.writes, hdraft] at hstep hn
          rw [hstep] at hexplained hstatuses
          match n, hn with
          | 0, _ =>
              have hstatus := hstatuses request.id
              have hmemory : ((m.memory.save request).get request.id).map ApprovalRequest.status
                  = some request.status := by
                rw [ApprovalStore.get_save, if_pos rfl]
                rfl
              exact hchanged (hstatus.symm.trans hmemory)
          | 1, _ =>
              have hsaved := sameContents_reload (m.database.save request)
              refine not_statusesExplained h.audited ?_ (hsaved.2 request.id) hchanged hexplained
              refine (hsaved.1 request.id).trans ?_
              rw [ApprovalStore.get_save, if_pos rfl]
          | n + 2, hn => exact absurd hn (by simp [draftWrites])

/-- **Approval changes are atomic exactly while no database write fails.**  In every run of calls,
failing writes and restarts from the empty store: every operation is atomic, in the process and
after a restart, and leaves no status without its event and none that the database lacks, if and
only if no write of any operation fails. -/
theorem throughout_actsAtomically_iff (policy : ApprovalPolicy) (ops : List DurableOp)
    (hfresh : Throughout (durableStep policy) FreshOp ⟨.empty, .empty⟩ ops) :
    Throughout (durableStep policy) (ActsAtomically policy) ⟨.empty, .empty⟩ ops
      ↔ Throughout (durableStep policy) (WritesSucceed policy) ⟨.empty, .empty⟩ ops := by
  have hiff : ∀ m op, Mirrors m → FreshOp m op →
      (ActsAtomically policy m op ↔ WritesSucceed policy m op) := by
    intro m op hm hop
    constructor
    · intro hatomic
      by_contra hfails
      exact not_actsAtomically hm hop hfails hatomic
    · intro hok
      exact (mirrors_step hm hop hok).2
  refine throughout_congr Mirrors hiff ?_ ⟨.refl _, ApprovalStore.audited_empty⟩ hfresh
  intro m op hm hop hatomic
  exact (mirrors_step hm hop ((hiff m op hm hop).1 hatomic)).1

/-! ## A failing commit -/

instance (m : Mirrored ApprovalStore) (op : DurableOp) : Decidable (WritesSucceed policy m op) := by
  unfold WritesSucceed
  split <;> infer_instance

instance (m : Mirrored ApprovalStore) (op : DurableOp) : Decidable (FreshOp m op) := by
  unfold FreshOp
  split <;> infer_instance

/-- A request, and its approval of which one database write fails. -/
def failingApproval (fails : Option Nat) : List DurableOp :=
  [.call (confirmedCall (.request "f" .remediation "dev" none none) 1 "a") none,
    .call (confirmedCall (.decide .approve "a" "lead" none none) 2 "b") fails]

/-- The statuses and the number of events of the request in memory and in the database. -/
def copiesOf (m : Mirrored ApprovalStore) (id : String) :
    List (Option ApprovalStatus × Nat) :=
  [m.memory, m.database].map fun store =>
    ((store.get id).map ApprovalRequest.status, (store.eventsFor id).length)

/-- The request is approved in memory only, or approved in the database without its event. -/
theorem not_throughout_actsAtomically :
    copiesOf (exec (durableStep defaultPolicy) ⟨.empty, .empty⟩ (failingApproval (some 0))) "a"
        = [(some .approved, 1), (some .pending, 1)]
      ∧ copiesOf (exec (durableStep defaultPolicy) ⟨.empty, .empty⟩ (failingApproval (some 1))) "a"
        = [(some .approved, 2), (some .approved, 1)]
      ∧ ∀ n < 2, ¬ Throughout (durableStep defaultPolicy) (ActsAtomically defaultPolicy)
        ⟨.empty, .empty⟩ (failingApproval (some n)) := by
  refine ⟨by decide +kernel, by decide +kernel, ?_⟩
  intro n hn hatomic
  have hfresh : Throughout (durableStep defaultPolicy) FreshOp ⟨.empty, .empty⟩
      (failingApproval (some n)) := by
    interval_cases n <;> decide +kernel
  have hfirst : WritesSucceed defaultPolicy ⟨.empty, .empty⟩
      (.call (confirmedCall (.request "f" .remediation "dev" none none) 1 "a") none) := trivial
  have hmirrors := (mirrors_step ⟨.refl _, ApprovalStore.audited_empty⟩ hfresh.1 hfirst).1
  refine not_actsAtomically hmirrors hfresh.2.1 ?_ hatomic.2.1
  interval_cases n <;> decide +kernel

/-- The same approval with both of its writes committed, and a restart. -/
theorem throughout_actsAtomically_approval :
    Throughout (durableStep defaultPolicy) (ActsAtomically defaultPolicy) ⟨.empty, .empty⟩
      (failingApproval none ++ [.restart]) :=
  (throughout_actsAtomically_iff defaultPolicy _ (by decide +kernel)).2 (by decide +kernel)

end Sast
