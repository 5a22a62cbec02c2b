import SastEngine.DefectDojo.Service
import SastEngine.Lib.Run

/-!
# One counterpart per finding

A batch passes by the findings whose ticket is created.  A single creation does not look at the
ticket that is there, and replaces it by what the remote side answers now.
-/

namespace Sast

/-! ## What is expected -/

/-- What the remote side has created for a finding. -/
def DojoState.counterparts (s : DojoState) (findingId : String) : List (String × Int) :=
  s.remote.filter fun created => created.1 = findingId

/-- After the call no finding has two counterparts, and every ticket that was created still is, with
the same remote id. -/
structure KeepsCounterparts (s : DojoState) (call : DojoCall) : Prop where
  once : ∀ findingId, ((dojoStep s call).counterparts findingId).length ≤ 1
  kept : ∀ findingId ticket, s.getTicket findingId = some ticket → ticket.status = .created →
    ∃ ticket', (dojoStep s call).getTicket findingId = some ticket' ∧ ticket'.status = .created
      ∧ ticket'.defectdojoFindingId = ticket.defectdojoFindingId

/-- The creation of a ticket ends in an exception that is not a client error. -/
def Raises (config : DefectDojoConfig) (attempt : DojoAttempt) : Prop :=
  config.isEnabled ∧ ∃ message, attempt.answer = .raised message

/-- A single creation is made for a finding whose ticket is not created yet, or raises. -/
def CreatesOnce (s : DojoState) : DojoCall → Prop
  | .create config finding attempt =>
      alreadySynced (s.getTicket finding.id) = false ∨ Raises config attempt
  | .sync .. => True

/-! ## Tickets and counterparts -/

/-- The ticket of a finding says what the remote side has. -/
inductive TicketFor (findingId : String) :
    Option DefectDojoTicket → List (String × Int) → Prop
  | absent : TicketFor findingId none []
  | failed {ticket : DefectDojoTicket} : ticket.status = .error →
      TicketFor findingId (some ticket) []
  | created {ticket : DefectDojoTicket} {id : Int} : ticket.status = .created →
      ticket.defectdojoFindingId = some id → TicketFor findingId (some ticket) [(findingId, id)]

/-- Every ticket says what the remote side has. -/
def TicketsTell (s : DojoState) : Prop :=
  ∀ findingId, TicketFor findingId (s.getTicket findingId) (s.counterparts findingId)

variable {s : DojoState} {config : DefectDojoConfig} {finding : CandidateFinding}
  {attempt : DojoAttempt}

lemma getTicket_persistTicket (s : DojoState) (ticket : DefectDojoTicket) (findingId : String) :
    (s.persistTicket ticket).getTicket findingId
      = if findingId = ticket.findingId then some ticket else s.getTicket findingId :=
  Dict.get?_set _ _ _ _

lemma TicketFor.length_le {findingId : String} {ticket : Option DefectDojoTicket}
    {counterparts : List (String × Int)} (h : TicketFor findingId ticket counterparts) :
    counterparts.length ≤ 1 := by
  cases h with
  | absent => exact Nat.zero_le 1
  | failed => exact Nat.zero_le 1
  | created => exact le_refl 1

/-- The ticket of a finding without counterpart. -/
lemma TicketFor.eq_nil {findingId : String} {ticket : Option DefectDojoTicket}
    {counterparts : List (String × Int)} (h : TicketFor findingId ticket counterparts)
    (hnot : alreadySynced ticket = false) : counterparts = [] := by
  cases h with
  | absent => rfl
  | failed => rfl
  | created hstatus => simp [alreadySynced, hstatus] at hnot

/-- What a creation does: it raises and changes nothing, records an error, or records the new
counterpart. -/
lemma createTicket_cases (config : DefectDojoConfig) (s : DojoState) (finding : CandidateFinding)
    (attempt : DojoAttempt) :
    (Raises config attempt ∧ (createTicket config s finding attempt).2 = s)
      ∨ ¬ Raises config attempt ∧
        ((∃ ticket : DefectDojoTicket, ticket.findingId = finding.id ∧ ticket.status = .error
            ∧ (createTicket config s finding attempt).2 = s.persistTicket ticket)
          ∨ ∃ (ticket : DefectDojoTicket) (id : Int), ticket.findingId = finding.id
            ∧ ticket.status = .created ∧ ticket.defectdojoFindingId = some id
            ∧ (createTicket config s finding attempt).2
              = { s with remote := s.remote ++ [(finding.id, id)] }.persistTicket ticket) := by
  by_cases henabled : config.isEnabled
  · cases hanswer : attempt.answer with
    | created id url =>
        refine Or.inr ⟨?_, Or.inr ⟨{ newTicket finding attempt with
          defectdojoFindingId := some id, defectdojoUrl := url, status := .created,
          updatedAt := some attempt.updatedAt }, id, rfl, rfl, rfl, ?_⟩⟩
        · rintro ⟨-, message, hraised⟩
          rw [hanswer] at hraised
          cases hraised
        · simp only [createTicket, henabled, if_true, hanswer]
    | refused message =>
        refine Or.inr ⟨?_, Or.inl ⟨{ newTicket finding attempt with
          status := .error, errorMessage := some message,
          updatedAt := some attempt.updatedAt }, rfl, rfl, ?_⟩⟩
        · rintro ⟨-, message, hraised⟩
          rw [hanswer] at hraised
          cases hraised
        · simp only [createTicket, henabled, if_true, hanswer]
    | raised message =>
        refine Or.inl ⟨⟨henabled, message, hanswer⟩, ?_⟩
        simp only [createTicket, henabled, if_true, hanswer]
  · refine Or.inr ⟨fun h => henabled h.1, Or.inl ⟨{ newTicket finding attempt with
      status := .error, errorMessage := some notEnabledMessage }, rfl, rfl, ?_⟩⟩
    simp only [createTicket, henabled]
    rfl

/-- A ticket that is not created may be replaced: by an error, or by the first counterpart. -/
lemma TicketsTell.create (h : TicketsTell s) (config : DefectDojoConfig) (attempt : DojoAttempt)
    (hnot : alreadySynced (s.getTicket finding.id) = false ∨ Raises config attempt) :
    TicketsTell (createTicket config s finding attempt).2
      ∧ ∀ findingId ticket, s.getTicket findingId = some ticket → ticket.status = .created →
        (createTicket config s finding attempt).2.getTicket findingId = some ticket := by
  rcases createTicket_cases config s finding attempt with ⟨-, hsame⟩ | ⟨hraises, hcases⟩
  · rw [hsame]
    exact ⟨h, fun _ _ hget _ => hget⟩
  · have hnot := hnot.resolve_right hraises
    have hnone := (h finding.id).eq_nil hnot
    have hother : ∀ (s' : DojoState) (ticket : DefectDojoTicket), ticket.findingId = finding.id →
        (∀ findingId, s'.getTicket findingId = s.getTicket findingId) →
        ∀ findingId old, s.getTicket findingId = some old → old.status = .created →
          (s'.persistTicket ticket).getTicket findingId = some old := by
      intro s' ticket hid hsame findingId old hget hstatus
      rw [getTicket_persistTicket, hid, if_neg, hsame, hget]
      rintro rfl
      simp [hget, alreadySynced, hstatus] at hnot
    rcases hcases with ⟨ticket, hid, hstatus, hstep⟩ | ⟨ticket, id, hid, hstatus, hremote, hstep⟩
    · rw [hstep]
      refine ⟨?_, hother s ticket hid fun _ => rfl⟩
      intro findingId
      rw [getTicket_persistTicket, hid]
      split_ifs with heq
      · subst heq
        show TicketFor finding.id (some ticket) (s.counterparts finding.id)
        rw [hnone]
        exact .failed hstatus
      · exact h findingId
    · rw [hstep]
      refine ⟨?_, hother _ ticket hid fun _ => rfl⟩
      intro findingId
      have hcounterparts : ({ s with remote := s.remote ++ [(finding.id, id)] }.persistTicket
          ticket).counterparts findingId
            = s.counterparts findingId ++ if findingId = finding.id
              then [(finding.id, id)] else [] := by
        show List.filter _ (s.remote ++ [(finding.id, id)]) = _
        rw [List.filter_append, DojoState.counterparts]
        by_cases heq : findingId = finding.id
        · simp [heq]
        · simp [heq, Ne.symm heq]
      rw [getTicket_persistTicket, hid, hcounterparts]
      split_ifs with heq
      · subst heq
        rw [hnone]
        exact .created hstatus hremote
      · rw [List.append_nil]
        exact h findingId

/-- A batch creates what is missing, and leaves created tickets alone. -/
lemma TicketsTell.sync (h : TicketsTell s) (findings : List (CandidateFinding × DojoAttempt))
    (result : SyncResult) :
    TicketsTell (syncLoop config findings result s).2
      ∧ ∀ findingId ticket, s.getTicket findingId = some ticket → ticket.status = .created →
        (syncLoop config findings result s).2.getTicket findingId = some ticket := by
  induction findings generalizing s result with
  | nil => exact ⟨h, fun _ _ hget _ => hget⟩
  | cons item findings ih =>
      obtain ⟨finding, attempt⟩ := item
      rw [syncLoop]
      split_ifs with hsynced
      · exact ih h result
      · obtain ⟨htell, hkept⟩ := h.create config attempt
          (Or.inl (Bool.eq_false_iff.2 hsynced))
        cases hcreate : createTicket config s finding attempt with
        | mk outcome s' =>
            rw [hcreate] at htell hkept
            cases outcome with
            | error message => exact ⟨htell, hkept⟩
            | ok ticket =>
                obtain ⟨htell', hkept'⟩ := ih htell (result.add ticket)
                exact ⟨htell', fun findingId old hget hstatus =>
                  hkept' findingId old (hkept findingId old hget hstatus) hstatus⟩

/-! ## One call -/

/-- A call that creates only what is missing. -/
lemma TicketsTell.step (h : TicketsTell s) {call : DojoCall} (hcall : CreatesOnce s call) :
    TicketsTell (dojoStep s call) ∧ KeepsCounterparts s call := by
  have hkeeps : TicketsTell (dojoStep s call)
      ∧ ∀ findingId ticket, s.getTicket findingId = some ticket → ticket.status = .created →
        (dojoStep s call).getTicket findingId = some ticket := by
    cases call with
    | create config finding attempt => exact h.create config attempt hcall
    | sync config findings => exact h.sync findings _
  refine ⟨hkeeps.1, fun findingId => (hkeeps.1 findingId).length_le, ?_⟩
  intro findingId ticket hget hstatus
  exact ⟨ticket, hkeeps.2 findingId ticket hget hstatus, hstatus, rfl⟩

/-- A created ticket does not survive a second creation that is answered. -/
lemma TicketsTell.createsOnce (h : TicketsTell s) {call : DojoCall}
    (hkeeps : KeepsCounterparts s call) : CreatesOnce s call := by
  cases call with
  | sync config findings => trivial
  | create config finding attempt =>
      cases hsynced : alreadySynced (s.getTicket finding.id) with
      | false => exact Or.inl hsynced
      | true =>
          right
          by_contra hraises
          have hfor := h finding.id
          cases hget : s.getTicket finding.id with
          | none => simp [hget, alreadySynced] at hsynced
          | some old =>
              rw [hget] at hfor hsynced
              generalize hcounterparts : s.counterparts finding.id = counterparts at hfor
              cases hfor with
              | failed hstatus => simp [alreadySynced, hstatus] at hsynced
              | created hstatus hremote =>
                  rcases createTicket_cases config s finding attempt with ⟨hraises', -⟩ |
                    ⟨-, ⟨ticket, hid, herror, hstep⟩ | ⟨ticket, id, hid, -, -, hstep⟩⟩
                  · exact hraises hraises'
                  · obtain ⟨ticket', hget', hstatus', -⟩ :=
                      hkeeps.kept finding.id old hget hstatus
                    simp only [dojoStep, hstep, getTicket_persistTicket, hid, if_true] at hget'
                    obtain rfl := Option.some.inj hget'
                    rw [herror] at hstatus'
                    cases hstatus'
                  · have honce := hkeeps.once finding.id
                    have htwo : (dojoStep s (.create config finding attempt)).counterparts
                        finding.id = s.counterparts finding.id ++ [(finding.id, id)] := by
                      simp only [dojoStep, hstep]
                      show List.filter _ (s.remote ++ [(finding.id, id)]) = _
                      rw [List.filter_append, DojoState.counterparts]
                      simp
                    rw [htwo, hcounterparts, List.length_append] at honce
                    exact absurd honce (by simp)

/-! ## Runs -/

lemma ticketsTell_empty : TicketsTell .empty := fun _ => .absent

/-- A finding as the scanner reports it. -/
def reportedFinding (id : String) : CandidateFinding where
  id := id
  vulnerabilityType := "sql_injection"
  severity := "high"
  confidence := 9 / 10
  source := ⟨"app.py", 3, "request.args['q']", "request"⟩
  sink := ⟨"app.py", 4, "cursor.execute(query)", "cursor.execute"⟩
  taintPath := []
  evidence := ⟨"request.args['q']", "cursor.execute(query)", [], [3, 4], []⟩

/-- A connected instance. -/
def connected : DefectDojoConfig := ⟨"https://dojo.example", "key", true⟩

/-- What the remote side answers at second `n`. -/
def answeredAt (n : Int) (answer : ApiAnswer) : DojoAttempt :=
  ⟨answer, ⟨n * 1000000, some 0⟩, ⟨n * 1000000, some 0⟩⟩

/-- A ticket that is created, and created again while the remote side refuses. -/
def createdTwice : List DojoCall :=
  [.create connected (reportedFinding "f") (answeredAt 1 (.created 7 "https://dojo.example/7")),
    .create connected (reportedFinding "f") (answeredAt 2 (.refused "Authentication failed"))]

end Sast
