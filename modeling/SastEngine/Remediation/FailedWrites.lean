import SastEngine.Remediation.ApplyOnce

/-!
# Fixes and failing writes

`apply` writes the file, then the record in memory, then the record's database row; `propose` and
`verify` write the record and its row.  Here each of these writes can fail, and after any call the
application can be restarted, which reloads the records from the rows.  The state also says which
patches each file holds, so that it can be asked whether records and files agree, and whether the
workflow goes on after a failure (`keepsAgreement_of_orderly`).
-/

namespace Sast

variable {policy : ApprovalPolicy} {rt : Runtime}

/-! ## State -/

/-- The write of a call that fails.  Opening a file for writing empties it, so a write that fails
later leaves the first bytes of the new content. -/
inductive WriteFault where
  | none
  | fileUnopened
  | fileTorn (count : Nat)
  | row
deriving DecidableEq

/-- The world with the database rows of the records, and for each file the patches it holds, each
with the finding it was proposed for. -/
structure FixWorld where
  world : World
  rows : Dict String RemediationRecord
  patches : Dict Path (List (String × RemediationProposal))

namespace FixWorld

/-- The patches a file holds. -/
def heldAt (s : FixWorld) (path : Path) : List (String × RemediationProposal) :=
  (s.patches.get? path).getD []

/-- The state at startup: no records, and files without patches. -/
def initial (files : Path → Option (List UInt8)) : FixWorld :=
  ⟨World.initial files, .empty, .empty⟩

/-- `RemediationStore.record`: the memory first, then the row. -/
def record (s : FixWorld) (fault : WriteFault) (r : RemediationRecord) : FixWorld :=
  { s with
    world := s.world.putRecord r
    rows := if fault = .row then s.rows else s.rows.set r.findingId r }

/-- The patched content is written to the file. -/
def patch (s : FixWorld) (path : Path) (findingId : String) (proposal : RemediationProposal)
    (content : List UInt8) : FixWorld :=
  { s with
    world := s.world.write path content
    patches := s.patches.set path ((findingId, proposal) :: s.heldAt path) }

/-- The file is left with the first bytes of its new content: without patches, unless they are
all of it. -/
def tear (s : FixWorld) (path : Path) (findingId : String) (proposal : RemediationProposal)
    (content : List UInt8) (count : Nat) : FixWorld :=
  if content.length ≤ count then s.patch path findingId proposal content
  else { s with
    world := s.world.write path (content.take count)
    patches := s.patches.set path [] }

/-- `RemediationStore.set_factory` after a restart: the records are those of the rows. -/
def restart (s : FixWorld) : FixWorld :=
  { s with world := { s.world with records := s.rows } }

lemma heldAt_initial (files : Path → Option (List UInt8)) (path : Path) :
    (initial files).heldAt path = [] := by
  simp [heldAt, initial]

lemma heldAt_patch (s : FixWorld) (path : Path) (findingId : String)
    (proposal : RemediationProposal) (content : List UInt8) (p : Path) :
    (s.patch path findingId proposal content).heldAt p
      = if p = path then (findingId, proposal) :: s.heldAt p else s.heldAt p := by
  simp only [heldAt, patch, Dict.get?_set]
  split_ifs with hp
  · rw [hp, Option.getD_some]
  · rfl

end FixWorld

/-! ## Calls with failing writes -/

/-- How `apply` ends: refused by its checks, refused by the patch, or with the text to write. -/
inductive ApplyEnd where
  | refused
  | unpatched (adm : Admission) (message : String)
  | patched (adm : Admission) (text : String)

/-- The end of an `apply`, before anything is written. -/
def applyEnd (rt : Runtime) (env : Surroundings) (world : World) (findingId : String)
    (confirmed : Bool) : ApplyEnd :=
  match admission env world findingId confirmed with
  | .error _ => .refused
  | .ok adm =>
      match readText rt world adm.path with
      | .error _ => .refused
      | .ok source =>
          match applyProposal rt.py adm.proposal source with
          | .error (.patchError message) => .unpatched adm message
          | .error (.raised _) => .refused
          | .ok text => .patched adm text

/-- `apply`, with a write that may fail. -/
def FixWorld.apply (s : FixWorld) (rt : Runtime) (env : Surroundings) (findingId : String)
    (confirmed : Bool) (fault : WriteFault) : FixWorld :=
  match applyEnd rt env s.world findingId confirmed with
  | .refused => s
  | .unpatched adm message => s.record fault (failedRecord adm.record message)
  | .patched adm text =>
      match fault with
      | .fileUnopened => s
      | .fileTorn count => s.tear adm.path findingId adm.proposal (rt.encode text) count
      | .none | .row =>
          (s.patch adm.path findingId adm.proposal (rt.encode text)).record fault
            (appliedRecord env adm.record)

/-- Store the record a call returned, if it returned one. -/
def FixWorld.store (s : FixWorld) (fault : WriteFault) :
    Except RemediationError RemediationRecord → FixWorld
  | .ok r => s.record fault r
  | .error _ => s

/-- A call, with a write that may fail. -/
def FixWorld.call (policy : ApprovalPolicy) (rt : Runtime) (s : FixWorld) (call : WorkflowCall)
    (fault : WriteFault) : FixWorld :=
  match call.op with
  | .approval op => { s with world := { s.world with
      approvals := approvalStep policy s.world.approvals (call.approvalCall op) } }
  | .propose findingId => s.store fault (propose rt call.env s.world findingId)
  | .apply findingId confirmed => s.apply rt call.env findingId confirmed fault
  | .verify findingId => s.store fault (verify rt call.env s.world findingId)

/-- A call, with the write that fails, and whether the application is restarted after it. -/
structure FixMove where
  call : WorkflowCall
  fault : WriteFault
  restart : Bool

/-- One move. -/
def fixStep (policy : ApprovalPolicy) (rt : Runtime) (s : FixWorld) (move : FixMove) : FixWorld :=
  let called := s.call policy rt move.call move.fault
  if move.restart then called.restart else called

/-- Where no write of a file fails, the world after a call is that of the service. -/
lemma call_world (s : FixWorld) (call : WorkflowCall) {fault : WriteFault}
    (hfault : fault = .none ∨ fault = .row) :
    (s.call policy rt call fault).world = workflowStep policy rt s.world call := by
  cases hop : call.op with
  | approval op => simp [FixWorld.call, workflowStep, hop]
  | propose findingId =>
      simp only [FixWorld.call, workflowStep, hop]
      cases propose rt call.env s.world findingId <;> rfl
  | verify findingId =>
      simp only [FixWorld.call, workflowStep, hop]
      cases verify rt call.env s.world findingId <;> rfl
  | apply findingId confirmed =>
      simp only [FixWorld.call, workflowStep, hop, FixWorld.apply, applyEnd, Sast.apply]
      cases admission call.env s.world findingId confirmed with
      | error e => rfl
      | ok adm =>
          simp only [applyAdmitted]
          cases readText rt s.world adm.path with
          | error e => rfl
          | ok source =>
              simp only
              cases applyProposal rt.py adm.proposal source with
              | error failure => cases failure <;> rfl
              | ok text => rcases hfault with rfl | rfl <;> rfl

/-! ## Agreement -/

/-- The file holds the patch of the record's proposal. -/
def FixWorld.InPlace (s : FixWorld) (findingId : String) (r : RemediationRecord) : Prop :=
  ∃ proposal, r.proposal = some proposal ∧ ∃ path, (findingId, proposal) ∈ s.heldAt path

/-- Records and files agree: a record is applied, verified or still present iff the file holds the
patch of its proposal. -/
def FixesAgree (s : FixWorld) : Prop :=
  ∀ findingId r, s.world.records.get? findingId = some r →
    (r.status ∈ verifiableStatuses ↔ s.InPlace findingId r)

/-- `apply` is accepted for the finding, or `verify` is. -/
def Accepts (rt : Runtime) (env : Surroundings) (world : World) (findingId : String) : Prop :=
  (∃ r, (apply rt env world findingId true).1 = .ok r)
    ∨ ∃ r, world.records.get? findingId = some r ∧ r.status ∈ verifiableStatuses

/-- The finding that a call works on. -/
def WorkflowCall.findingId? (call : WorkflowCall) : Option String :=
  match call.op with
  | .approval _ => none
  | .propose findingId | .apply findingId _ | .verify findingId => some findingId

/-- The record that a call stores. -/
def storedBy (rt : Runtime) (world : World) (call : WorkflowCall) : Option RemediationRecord :=
  match call.op with
  | .approval _ => none
  | .propose findingId => (propose rt call.env world findingId).toOption
  | .verify findingId => (verify rt call.env world findingId).toOption
  | .apply findingId confirmed =>
      match applyEnd rt call.env world findingId confirmed with
      | .refused => none
      | .unpatched adm message => some (failedRecord adm.record message)
      | .patched adm _ => some (appliedRecord call.env adm.record)

/-- The call comes to write its file. -/
def WritesFile (rt : Runtime) (world : World) (call : WorkflowCall) : Prop :=
  ∃ findingId confirmed adm text, call.op = .apply findingId confirmed
    ∧ applyEnd rt call.env world findingId confirmed = .patched adm text

/-- The move comes to the write that fails. -/
def Fails (rt : Runtime) (s : FixWorld) (move : FixMove) : Prop :=
  match move.fault with
  | .none => False
  | .fileUnopened | .fileTorn _ => WritesFile rt s.world move.call
  | .row => (storedBy rt s.world move.call).isSome

/-- After the move records and files agree, and after a failed write `apply` or `verify` is
accepted. -/
def KeepsAgreement (policy : ApprovalPolicy) (rt : Runtime) (s : FixWorld) (move : FixMove) :
    Prop :=
  FixesAgree (fixStep policy rt s move)
    ∧ (Fails rt s move → ∀ findingId, move.call.findingId? = some findingId →
      Accepts rt move.call.env (fixStep policy rt s move).world findingId)

/-! ## Orderly moves -/

/-- The record offers a proposal, and its patch applies to the text that its file has. -/
def PatchFits (rt : Runtime) (env : Surroundings) (world : World) (findingId : String)
    (r : RemediationRecord) : Prop :=
  r.status ≠ .noFixAvailable ∧ r.status ≠ .applied ∧ ∃ proposal path source patched,
    r.proposal = some proposal ∧ applyTarget env world findingId true proposal.file = .ok path
      ∧ readText rt world path = .ok source ∧ applyProposal rt.py proposal source = .ok patched

/-- What is left after a failed write leads on.  Without a restart: the call is a `verify`, an
`apply` whose patch applies, or a `propose` of a patch that applies.  With a restart: the row that
is loaded is post-apply, or its patch applies. -/
def Recovers (policy : ApprovalPolicy) (rt : Runtime) (s : FixWorld) (move : FixMove)
    (findingId : String) : Prop :=
  if move.restart then
    ∃ row, s.rows.get? findingId = some row ∧ (row.status ∈ verifiableStatuses
      ∨ PatchFits rt move.call.env (s.call policy rt move.call move.fault).world findingId row)
  else match move.call.op with
    | .propose _ => ∃ r, storedBy rt s.world move.call = some r
        ∧ PatchFits rt move.call.env s.world findingId r
    | .apply _ _ => WritesFile rt s.world move.call
    | .approval _ | .verify _ => True

/-- The conditions on a move under which records and files go on agreeing.

- A record that the call stores in an open status is not one whose patch the file already holds.
- A file write that fails leaves the file as it was.
- A restart loads no row in an open status whose patch the file holds.
- What is left after a failed write leads on. -/
structure Orderly (policy : ApprovalPolicy) (rt : Runtime) (s : FixWorld) (move : FixMove) :
    Prop where
  fresh : ∀ findingId r, move.call.findingId? = some findingId →
    storedBy rt s.world move.call = some r → r.status ∉ verifiableStatuses →
      ¬ s.InPlace findingId r
  untorn : ∀ count, move.fault = .fileTorn count → ¬ WritesFile rt s.world move.call
  reloads : move.restart = true → ∀ findingId row,
    (s.call policy rt move.call move.fault).rows.get? findingId = some row →
      row.status ∉ verifiableStatuses →
        ¬ (s.call policy rt move.call move.fault).InPlace findingId row
  recovers : Fails rt s move → ∀ findingId, move.call.findingId? = some findingId →
    Recovers policy rt s move findingId

/-! ## What a call does -/

/-- **What a call can do**, when a write of it may fail. -/
inductive FixChange (policy : ApprovalPolicy) (rt : Runtime) (s : FixWorld) (call : WorkflowCall)
    (fault : WriteFault) : FixWorld → Prop
  | approvals (approvals : ApprovalStore) : call.findingId? = none →
      FixChange policy rt s call fault { s with world := { s.world with approvals := approvals } }
  | kept : storedBy rt s.world call = none ∨ fault = .fileUnopened →
      FixChange policy rt s call fault s
  | stored (findingId : String) (r : RemediationRecord) : call.findingId? = some findingId →
      storedBy rt s.world call = some r → ¬ WritesFile rt s.world call →
      (∀ confirmed, call.op = .apply findingId confirmed → r.status = .error) →
      FixChange policy rt s call fault (s.record fault r)
  | torn (findingId : String) (count : Nat) (path : Path) (proposal : RemediationProposal)
      (content : List UInt8) : fault = .fileTorn count → WritesFile rt s.world call →
      FixChange policy rt s call fault (s.tear path findingId proposal content count)
  | patched (findingId : String) (confirmed : Bool) (adm : Admission) (text : String) :
      call.op = .apply findingId confirmed →
      applyEnd rt call.env s.world findingId confirmed = .patched adm text →
      fault = .none ∨ fault = .row →
      FixChange policy rt s call fault
        ((s.patch adm.path findingId adm.proposal (rt.encode text)).record fault
          (appliedRecord call.env adm.record))

theorem fixChange (policy : ApprovalPolicy) (rt : Runtime) (s : FixWorld) (call : WorkflowCall)
    (fault : WriteFault) :
    FixChange policy rt s call fault (s.call policy rt call fault) := by
  cases hop : call.op with
  | approval op =>
      simp only [FixWorld.call, hop]
      exact .approvals _ (by simp [WorkflowCall.findingId?, hop])
  | propose findingId =>
      have hwrites : ¬ WritesFile rt s.world call := by
        rintro ⟨_, _, _, _, hop', -⟩
        simp [hop] at hop'
      simp only [FixWorld.call, hop]
      cases hout : propose rt call.env s.world findingId with
      | ok r =>
          refine .stored findingId r (by simp [WorkflowCall.findingId?, hop]) ?_ hwrites ?_
          · simp [storedBy, hop, hout, Except.toOption]
          · intro confirmed hop'
            simp [hop] at hop'
      | error e => exact .kept (Or.inl (by simp [storedBy, hop, hout, Except.toOption]))
  | verify findingId =>
      have hwrites : ¬ WritesFile rt s.world call := by
        rintro ⟨_, _, _, _, hop', -⟩
        simp [hop] at hop'
      simp only [FixWorld.call, hop]
      cases hout : verify rt call.env s.world findingId with
      | ok r =>
          refine .stored findingId r (by simp [WorkflowCall.findingId?, hop]) ?_ hwrites ?_
          · simp [storedBy, hop, hout, Except.toOption]
          · intro confirmed hop'
            simp [hop] at hop'
      | error e => exact .kept (Or.inl (by simp [storedBy, hop, hout, Except.toOption]))
  | apply findingId confirmed =>
      simp only [FixWorld.call, hop, FixWorld.apply]
      cases hend : applyEnd rt call.env s.world findingId confirmed with
      | refused => exact .kept (Or.inl (by simp [storedBy, hop, hend]))
      | unpatched adm message =>
          refine .stored findingId (failedRecord adm.record message)
            (by simp [WorkflowCall.findingId?, hop]) (by simp [storedBy, hop, hend]) ?_ ?_
          · rintro ⟨f, c, adm', text, hop', hend'⟩
            rw [hop] at hop'
            cases hop'
            simp [hend] at hend'
          · intro _ _
            rfl
      | patched adm text =>
          have hwrites : WritesFile rt s.world call := ⟨findingId, confirmed, adm, text, hop, hend⟩
          cases fault with
          | fileUnopened => exact .kept (Or.inr rfl)
          | fileTorn count => exact .torn findingId count _ _ _ rfl hwrites
          | none => exact .patched findingId confirmed adm text hop hend (Or.inl rfl)
          | row => exact .patched findingId confirmed adm text hop hend (Or.inr rfl)

/-- An `apply` that comes to write its file stores the applied record. -/
lemma storedBy_patched {world : World} {call : WorkflowCall} {findingId text : String}
    {confirmed : Bool} {adm : Admission} (hop : call.op = .apply findingId confirmed)
    (hend : applyEnd rt call.env world findingId confirmed = .patched adm text) :
    storedBy rt world call = some (appliedRecord call.env adm.record) := by
  simp [storedBy, hop, hend]

lemma call_patched {s : FixWorld} {call : WorkflowCall} {findingId text : String}
    {confirmed : Bool} {adm : Admission} (hop : call.op = .apply findingId confirmed)
    (hend : applyEnd rt call.env s.world findingId confirmed = .patched adm text) :
    s.call policy rt call .row
      = (s.patch adm.path findingId adm.proposal (rt.encode text)).record .row
        (appliedRecord call.env adm.record) := by
  simp [FixWorld.call, FixWorld.apply, hop, hend]

/-! ## The invariant -/

/-- Records and files agree, rows in a post-apply status have their patch in place, and all are
kept under their findings. -/
structure FixWorld.Sound (s : FixWorld) : Prop where
  keyed : RecordsKeyed s.world
  rowsKeyed : ∀ findingId row, s.rows.get? findingId = some row → row.findingId = findingId
  agree : FixesAgree s
  rows : ∀ findingId row, s.rows.get? findingId = some row → row.status ∈ verifiableStatuses →
    s.InPlace findingId row

lemma sound_initial (files : Path → Option (List UInt8)) : (FixWorld.initial files).Sound where
  keyed := initial_keyed files
  rowsKeyed := by
    intro findingId row h
    simp [FixWorld.initial] at h
  agree := by
    intro findingId r h
    simp [FixWorld.initial, World.initial] at h
  rows := by
    intro findingId row h
    simp [FixWorld.initial] at h

section Step

variable {s : FixWorld} {call : WorkflowCall} {fault : WriteFault} {findingId : String}

lemma applyEnd_patched {env : Surroundings} {world : World} {confirmed : Bool} {adm : Admission}
    {text : String} (h : applyEnd rt env world findingId confirmed = .patched adm text) :
    admission env world findingId confirmed = .ok adm ∧ ∃ source,
      readText rt world adm.path = .ok source ∧ applyProposal rt.py adm.proposal source = .ok text := by
  unfold applyEnd at h
  split at h
  · cases h
  · next found hadm =>
      split at h
      · cases h
      · next source hread =>
          split at h
          · cases h
          · cases h
          · next patched hpatch =>
              cases h
              exact ⟨hadm, source, hread, hpatch⟩

lemma applyEnd_unpatched {env : Surroundings} {world : World} {confirmed : Bool} {adm : Admission}
    {message : String} (h : applyEnd rt env world findingId confirmed = .unpatched adm message) :
    admission env world findingId confirmed = .ok adm := by
  unfold applyEnd at h
  split at h
  · cases h
  · next found hadm =>
      split at h
      · cases h
      · split at h
        · cases h
          exact hadm
        · cases h
        · cases h

/-- The record that a call stores belongs to the finding of the call. -/
lemma storedBy_findingId {world : World} (hk : RecordsKeyed world) {r : RemediationRecord}
    (hcall : call.findingId? = some findingId) (h : storedBy rt world call = some r) :
    r.findingId = findingId := by
  cases hop : call.op with
  | approval op => simp [storedBy, hop] at h
  | propose f =>
      simp only [WorkflowCall.findingId?, hop, Option.some.injEq] at hcall
      subst hcall
      simp only [storedBy, hop] at h
      cases hout : propose rt call.env world f with
      | error e => simp [hout, Except.toOption] at h
      | ok record =>
          obtain rfl : record = r := by simpa [hout, Except.toOption] using h
          exact propose_findingId hk hout
  | verify f =>
      simp only [WorkflowCall.findingId?, hop, Option.some.injEq] at hcall
      subst hcall
      simp only [storedBy, hop] at h
      cases hout : verify rt call.env world f with
      | error e => simp [hout, Except.toOption] at h
      | ok record =>
          obtain rfl : record = r := by simpa [hout, Except.toOption] using h
          exact verify_findingId hk hout
  | apply f confirmed =>
      simp only [WorkflowCall.findingId?, hop, Option.some.injEq] at hcall
      subst hcall
      simp only [storedBy, hop] at h
      cases hend : applyEnd rt call.env world f confirmed with
      | refused => simp [hend] at h
      | unpatched adm message =>
          obtain rfl : failedRecord adm.record message = r := by simpa [hend] using h
          exact admission_findingId hk (applyEnd_unpatched hend)
      | patched adm text =>
          obtain rfl : appliedRecord call.env adm.record = r := by simpa [hend] using h
          exact admission_findingId hk (applyEnd_patched hend).1

/-- A record that is stored post-apply without a write of the file comes from a `verify`: it was
post-apply before, with the same proposal. -/
lemma storedBy_postApply {world : World} {r : RemediationRecord}
    (hcall : call.findingId? = some findingId) (h : storedBy rt world call = some r)
    (hwrites : ¬ WritesFile rt world call) (hstatus : r.status ∈ verifiableStatuses) :
    ∃ old, world.records.get? findingId = some old ∧ old.status ∈ verifiableStatuses
      ∧ r.proposal = old.proposal := by
  cases hop : call.op with
  | approval op => simp [storedBy, hop] at h
  | propose f =>
      simp only [storedBy, hop] at h
      cases hout : propose rt call.env world f with
      | error e => simp [hout, Except.toOption] at h
      | ok record =>
          obtain rfl : record = r := by simpa [hout, Except.toOption] using h
          exact absurd hstatus (propose_status hout)
  | verify f =>
      simp only [WorkflowCall.findingId?, hop, Option.some.injEq] at hcall
      subst hcall
      simp only [storedBy, hop] at h
      cases hout : verify rt call.env world f with
      | error e => simp [hout, Except.toOption] at h
      | ok record =>
          obtain rfl : record = r := by simpa [hout, Except.toOption] using h
          obtain ⟨old, report, hold, holdStatus, -, rfl⟩ := verify_ok hout
          exact ⟨old, hold, holdStatus, rfl⟩
  | apply f confirmed =>
      simp only [storedBy, hop] at h
      cases hend : applyEnd rt call.env world f confirmed with
      | refused => simp [hend] at h
      | unpatched adm message =>
          obtain rfl : failedRecord adm.record message = r := by simpa [hend] using h
          simp [failedRecord, verifiableStatuses] at hstatus
      | patched adm text => exact absurd ⟨f, confirmed, adm, text, hop, hend⟩ hwrites

lemma inPlace_congr {r old : RemediationRecord} (hproposal : r.proposal = old.proposal) :
    s.InPlace findingId r ↔ s.InPlace findingId old := by
  unfold FixWorld.InPlace
  rw [hproposal]

/-- After a record is stored, records and files agree if they did for all other findings and do
for the new record. -/
lemma sound_record {r : RemediationRecord} (hkeyed : RecordsKeyed s.world)
    (hrowsKeyed : ∀ g row, s.rows.get? g = some row → row.findingId = g)
    (hagree : ∀ g old, g ≠ findingId → s.world.records.get? g = some old →
      (old.status ∈ verifiableStatuses ↔ s.InPlace g old))
    (hrows : ∀ g row, s.rows.get? g = some row → row.status ∈ verifiableStatuses →
      s.InPlace g row)
    (hid : r.findingId = findingId) (hr : r.status ∈ verifiableStatuses ↔ s.InPlace findingId r) :
    (s.record fault r).Sound where
  keyed := putRecord_keyed hkeyed r
  rowsKeyed := by
    intro g row hrow
    simp only [FixWorld.record] at hrow
    split_ifs at hrow
    · exact hrowsKeyed g row hrow
    · rw [Dict.get?_set] at hrow
      split_ifs at hrow with hg
      · rw [← Option.some.inj hrow, hg]
      · exact hrowsKeyed g row hrow
  agree := by
    intro g old hold
    have hold : (s.world.putRecord r).records.get? g = some old := hold
    rw [putRecord_get, hid] at hold
    split_ifs at hold with hg
    · obtain rfl := Option.some.inj hold
      subst hg
      exact hr
    · exact hagree g old hg hold
  rows := by
    intro g row hrow hstatus
    simp only [FixWorld.record] at hrow
    split_ifs at hrow
    · exact hrows g row hrow hstatus
    · rw [Dict.get?_set, hid] at hrow
      split_ifs at hrow with hg
      · obtain rfl := Option.some.inj hrow
        subst hg
        exact hr.1 hstatus
      · exact hrows g row hrow hstatus

lemma inPlace_patch {g : String} {r : RemediationRecord} {path : Path}
    {proposal : RemediationProposal} {content : List UInt8} :
    (s.patch path findingId proposal content).InPlace g r
      ↔ s.InPlace g r ∨ g = findingId ∧ r.proposal = some proposal := by
  constructor
  · rintro ⟨own, hown, p, hmem⟩
    rw [FixWorld.heldAt_patch] at hmem
    split_ifs at hmem with hp
    · rcases List.mem_cons.1 hmem with heq | hmem
      · obtain ⟨rfl, rfl⟩ := Prod.mk.inj heq
        exact Or.inr ⟨rfl, hown⟩
      · exact Or.inl ⟨own, hown, p, hmem⟩
    · exact Or.inl ⟨own, hown, p, hmem⟩
  · rintro (⟨own, hown, p, hmem⟩ | ⟨rfl, hown⟩)
    · refine ⟨own, hown, p, ?_⟩
      rw [FixWorld.heldAt_patch]
      split_ifs
      · exact List.mem_cons_of_mem _ hmem
      · exact hmem
    · refine ⟨proposal, hown, path, ?_⟩
      simp [FixWorld.heldAt_patch]

/-- **An orderly call** keeps the invariant. -/
lemma sound_call (h : s.Sound)
    (hfresh : ∀ f r, call.findingId? = some f → storedBy rt s.world call = some r →
      r.status ∉ verifiableStatuses → ¬ s.InPlace f r)
    (huntorn : ∀ count, fault = .fileTorn count → ¬ WritesFile rt s.world call) :
    (s.call policy rt call fault).Sound := by
  have hchange := fixChange policy rt s call fault
  generalize s.call policy rt call fault = s' at hchange ⊢
  cases hchange with
  | approvals approvals _ => exact ⟨h.keyed, h.rowsKeyed, h.agree, h.rows⟩
  | kept _ => exact h
  | torn f count path proposal content hfault hwrites => exact absurd hwrites (huntorn count hfault)
  | stored f r hcall hstored hwrites _ =>
      refine sound_record h.keyed h.rowsKeyed (fun g old _ hold => h.agree g old hold) h.rows
        (storedBy_findingId h.keyed hcall hstored) ⟨?_, ?_⟩
      · intro hstatus
        obtain ⟨old, hold, holdStatus, hproposal⟩ :=
          storedBy_postApply hcall hstored hwrites hstatus
        exact (inPlace_congr hproposal).2 ((h.agree f old hold).1 holdStatus)
      · intro hplace
        by_contra hstatus
        exact hfresh f r hcall hstored hstatus hplace
  | patched f confirmed adm text hop hend hfault =>
      obtain ⟨hadm, -⟩ := applyEnd_patched hend
      obtain ⟨-, hproposal, -⟩ := offeredProposal_ok.1 (admission_ok.1 hadm).1
      refine @sound_record _ _ f _ h.keyed h.rowsKeyed ?_ ?_
        (admission_findingId h.keyed hadm) ?_
      · intro g old hg hold
        rw [inPlace_patch, h.agree g old hold]
        exact (or_iff_left fun hsame => hg hsame.1).symm
      · intro g row hrow hstatus
        exact inPlace_patch.2 (Or.inl (h.rows g row hrow hstatus))
      · have hplace : (s.patch adm.path f adm.proposal (rt.encode text)).InPlace f
            (appliedRecord call.env adm.record) := inPlace_patch.2 (Or.inr ⟨rfl, hproposal⟩)
        exact iff_of_true (by simp [appliedRecord, verifiableStatuses]) hplace

/-- A restart that loads no open row whose patch is in place keeps the invariant. -/
lemma sound_restart (h : s.Sound) (hreloads : ∀ f row, s.rows.get? f = some row →
    row.status ∉ verifiableStatuses → ¬ s.InPlace f row) : s.restart.Sound where
  keyed := h.rowsKeyed
  rowsKeyed := h.rowsKeyed
  rows := h.rows
  agree := by
    intro f row hrow
    constructor
    · exact h.rows f row hrow
    · intro hplace
      by_contra hstatus
      exact hreloads f row hrow hstatus hplace

/-- **An orderly move** keeps the invariant. -/
theorem sound_fixStep {move : FixMove} (h : s.Sound) (hmove : Orderly policy rt s move) :
    (fixStep policy rt s move).Sound := by
  have hcalled : (s.call policy rt move.call move.fault).Sound :=
    sound_call h hmove.fresh hmove.untorn
  simp only [fixStep]
  split_ifs with hrestart
  · exact sound_restart hcalled (hmove.reloads hrestart)
  · exact hcalled

end Step

/-! ## Going on after a failure -/

section Accepts

variable {env : Surroundings} {world : World} {findingId : String}

lemma applyTarget_confirmed {confirmed : Bool} {file : String} {path : Path}
    (h : applyTarget env world findingId confirmed file = .ok path) :
    applyTarget env world findingId true file = .ok path := by
  obtain ⟨rfl, -⟩ := applyTarget_ok h
  exact h

/-- A record whose patch fits is accepted by `apply`. -/
lemma PatchFits.accepts {r : RemediationRecord} (hr : world.records.get? findingId = some r)
    (h : PatchFits rt env world findingId r) : Accepts rt env world findingId := by
  obtain ⟨hnoFix, happlied, proposal, path, source, patched, hproposal, htarget, hread, hpatch⟩ := h
  have hadm : admission env world findingId true = .ok ⟨r, proposal, path⟩ :=
    admission_ok.2 ⟨offeredProposal_ok.2 ⟨hr, hproposal, hnoFix, happlied⟩, htarget⟩
  refine Or.inl ⟨appliedRecord env r, ?_⟩
  simp only [apply, hadm, applyAdmitted, hread, hpatch]

/-- Where `apply` comes to write its file, the patch of the record fits. -/
lemma patchFits_of_patched {confirmed : Bool} {adm : Admission} {text : String}
    (h : applyEnd rt env world findingId confirmed = .patched adm text) :
    world.records.get? findingId = some adm.record
      ∧ PatchFits rt env world findingId adm.record := by
  obtain ⟨hadm, source, hread, hpatch⟩ := applyEnd_patched h
  obtain ⟨hoffered, htarget⟩ := admission_ok.1 hadm
  obtain ⟨hrecord, hproposal, hnoFix, happlied⟩ := offeredProposal_ok.1 hoffered
  exact ⟨hrecord, hnoFix, happlied, adm.proposal, adm.path, source, text, hproposal,
    applyTarget_confirmed htarget, hread, hpatch⟩

/-- A fresh proposal fits in the world in which it is stored as in the one before. -/
lemma PatchFits.putRecord {r stored : RemediationRecord} (h : PatchFits rt env world findingId r) :
    PatchFits rt env (world.putRecord stored) findingId r := h

variable {s : FixWorld} {move : FixMove}

/-- A failing write leaves the rows as they were. -/
lemma rows_of_fails (hfails : Fails rt s move) :
    (s.call policy rt move.call move.fault).rows = s.rows := by
  have hchange := fixChange policy rt s move.call move.fault
  generalize s.call policy rt move.call move.fault = s' at hchange ⊢
  cases hchange with
  | approvals approvals _ => rfl
  | kept _ => rfl
  | torn f count path proposal content _ _ =>
      unfold FixWorld.tear
      split_ifs <;> rfl
  | stored f r hcall hstored hwrites _ =>
      unfold Fails at hfails
      split at hfails
      · exact absurd hfails id
      · exact absurd hfails hwrites
      · exact absurd hfails hwrites
      · next hfault => simp [FixWorld.record, hfault]
  | patched f confirmed adm text hop hend hfault =>
      rcases hfault with hfault | hfault
      · simp [Fails, hfault] at hfails
      · simp [FixWorld.record, FixWorld.patch, hfault]

/-- **After a failure the workflow goes on**, where an orderly move leads on. -/
lemma accepts_of_recovers (hkeyed : RecordsKeyed s.world) (hmove : Orderly policy rt s move)
    (hfails : Fails rt s move) (hcall : move.call.findingId? = some findingId) :
    Accepts rt move.call.env (fixStep policy rt s move).world findingId := by
  have hrecovers := hmove.recovers hfails findingId hcall
  unfold Recovers at hrecovers
  unfold fixStep
  split_ifs at hrecovers with hrestart
  · -- the record is the row from before the call
    obtain ⟨row, hrow, hlead⟩ := hrecovers
    simp only [hrestart, if_true]
    have hloaded : (s.call policy rt move.call move.fault).restart.world.records.get? findingId
        = some row := by
      show (s.call policy rt move.call move.fault).rows.get? findingId = some row
      rw [rows_of_fails hfails, hrow]
    rcases hlead with hstatus | hfits
    · exact Or.inr ⟨row, hloaded, hstatus⟩
    · exact PatchFits.accepts hloaded hfits
  · simp only [hrestart]
    have hchange := fixChange policy rt s move.call move.fault
    have huntorn := hmove.untorn
    generalize s.call policy rt move.call move.fault = s' at hchange ⊢
    cases hchange with
    | approvals approvals hnone => simp [hnone] at hcall
    | torn f count path proposal content hfault hwrites =>
        exact absurd hwrites (huntorn count hfault)
    | kept hkept =>
        -- only a file that could not be opened is left
        have hwrites : WritesFile rt s.world move.call := by
          unfold Fails at hfails
          rcases hkept with hnone | hunopened
          · split at hfails
            · exact absurd hfails id
            · exact hfails
            · exact hfails
            · simp [hnone] at hfails
          · simpa [hunopened] using hfails
        obtain ⟨f, confirmed, adm, text, hop, hend⟩ := hwrites
        obtain rfl : f = findingId := by simpa [WorkflowCall.findingId?, hop] using hcall
        obtain ⟨hrecord, hfits⟩ := patchFits_of_patched hend
        exact PatchFits.accepts hrecord hfits
    | stored f r hfound hstored hwrites herror =>
        obtain rfl : f = findingId := Option.some.inj (hfound.symm.trans hcall)
        have hloaded : (s.record move.fault r).world.records.get? f = some r :=
          putRecord_get_self (storedBy_findingId hkeyed hcall hstored)
        cases hop : move.call.op with
        | approval op => simp [WorkflowCall.findingId?, hop] at hcall
        | propose g =>
            simp only [hop] at hrecovers
            obtain ⟨fresh, hfresh, hfits⟩ := hrecovers
            obtain rfl := Option.some.inj (hstored.symm.trans hfresh)
            exact PatchFits.accepts hloaded hfits.putRecord
        | apply g confirmed =>
            simp only [hop] at hrecovers
            exact absurd hrecovers hwrites
        | verify g =>
            refine Or.inr ⟨r, hloaded, ?_⟩
            simp only [storedBy, hop] at hstored
            cases hout : verify rt move.call.env s.world g with
            | error e => simp [hout, Except.toOption] at hstored
            | ok record =>
                obtain rfl : record = r := by simpa [hout, Except.toOption] using hstored
                exact (verify_status hout).2
    | patched f confirmed adm text hop hend hfault =>
        obtain rfl : f = findingId := by simpa [WorkflowCall.findingId?, hop] using hcall
        obtain ⟨hadm, -⟩ := applyEnd_patched hend
        refine Or.inr ⟨appliedRecord move.call.env adm.record, ?_, ?_⟩
        · exact putRecord_get_self (admission_findingId hkeyed hadm)
        · simp [appliedRecord, verifiableStatuses]

end Accepts

/-! ## Patches are in the content -/

/-- The content of a file has the patch of a proposal: it was written for it, or patched further
from a content that has it. -/
inductive HasPatch (rt : Runtime) (proposal : RemediationProposal) : List UInt8 → Prop
  | written {content : List UInt8} {text : String} :
      applyProposal rt.py proposal (rt.decode content) = .ok text →
      HasPatch rt proposal (rt.encode text)
  | further {content : List UInt8} {text : String} (other : RemediationProposal) :
      HasPatch rt proposal content → applyProposal rt.py other (rt.decode content) = .ok text →
      HasPatch rt proposal (rt.encode text)

/-- The patches that a file is said to hold are in its content. -/
def PatchesHeld (rt : Runtime) (s : FixWorld) : Prop :=
  ∀ path findingId proposal, (findingId, proposal) ∈ s.heldAt path →
    ∃ content, s.world.files path = some content ∧ HasPatch rt proposal content

section Held

variable {s : FixWorld}

lemma readText_ok {world : World} {path : Path} {source : String}
    (h : readText rt world path = .ok source) :
    ∃ content, world.files path = some content ∧ rt.decode content = source := by
  unfold readText at h
  cases hfile : world.files path with
  | none => simp [hfile] at h
  | some content => exact ⟨content, rfl, by simpa [hfile] using h⟩

lemma held_patch (h : PatchesHeld rt s) {path : Path} {findingId source text : String}
    {proposal : RemediationProposal} (hread : readText rt s.world path = .ok source)
    (hpatch : applyProposal rt.py proposal source = .ok text) :
    PatchesHeld rt (s.patch path findingId proposal (rt.encode text)) := by
  obtain ⟨before, hbefore, rfl⟩ := readText_ok hread
  intro p f own hmem
  rw [FixWorld.heldAt_patch] at hmem
  split_ifs at hmem with hp
  · subst hp
    refine ⟨rt.encode text, by simp [FixWorld.patch, World.write], ?_⟩
    rcases List.mem_cons.1 hmem with heq | hmem
    · obtain ⟨-, rfl⟩ := Prod.mk.inj heq
      exact .written hpatch
    · obtain ⟨content, hcontent, hhas⟩ := h p f own hmem
      obtain rfl := Option.some.inj (hbefore.symm.trans hcontent)
      exact .further proposal hhas hpatch
  · obtain ⟨content, hcontent, hhas⟩ := h p f own hmem
    exact ⟨content, by simp [FixWorld.patch, World.write, hp, hcontent], hhas⟩

/-- Every move keeps the patches in the content, torn files included. -/
lemma held_fixStep (h : PatchesHeld rt s) (move : FixMove) :
    PatchesHeld rt (fixStep policy rt s move) := by
  have hcalled : PatchesHeld rt (s.call policy rt move.call move.fault) := by
    cases hop : move.call.op with
    | approval op =>
        simp only [FixWorld.call, hop]
        exact h
    | propose findingId =>
        simp only [FixWorld.call, hop]
        cases propose rt move.call.env s.world findingId <;> exact h
    | verify findingId =>
        simp only [FixWorld.call, hop]
        cases verify rt move.call.env s.world findingId <;> exact h
    | apply findingId confirmed =>
        simp only [FixWorld.call, hop, FixWorld.apply]
        cases hend : applyEnd rt move.call.env s.world findingId confirmed with
        | refused => exact h
        | unpatched adm message => exact h
        | patched adm text =>
            obtain ⟨-, source, hread, hpatch⟩ := applyEnd_patched hend
            have hpatched : PatchesHeld rt
                (s.patch adm.path findingId adm.proposal (rt.encode text)) :=
              held_patch h hread hpatch
            cases move.fault with
            | fileUnopened => exact h
            | none => exact hpatched
            | row => exact hpatched
            | fileTorn count =>
                simp only [FixWorld.tear]
                split_ifs
                · exact hpatched
                · intro p f own hmem
                  simp only [FixWorld.heldAt, Dict.get?_set] at hmem
                  split_ifs at hmem with hp
                  · simp at hmem
                  · obtain ⟨content, hcontent, hhas⟩ := h p f own hmem
                    exact ⟨content, by simp [World.write, hp, hcontent], hhas⟩
  unfold fixStep
  split_ifs
  · exact hcalled
  · exact hcalled

end Held

/-! ## Runs -/

/-- A call without a failure. -/
def sampleMove (op : WorkflowOp) : FixMove := ⟨systemCall op, .none, false⟩

/-- The fix of the sample finding is requested, approved and proposed. -/
def proposingMoves : List FixMove :=
  [sampleMove (.approval (.request systemFinding .remediation "dev" none none)),
    sampleMove (.approval (.decide .approve "a" "lead" none none)),
    sampleMove (.propose systemFinding)]

/-- The state after that. -/
def proposedState : FixWorld :=
  exec (fixStep defaultPolicy systemRuntime)
    (FixWorld.initial (oneFileWorkspace systemRuntime systemText)) proposingMoves

section Sample

variable {s : FixWorld} {call : WorkflowCall} {fault : WriteFault}

/-- A call that does not write its file leaves the patches as they were. -/
lemma patches_call (hwrites : ¬ WritesFile rt s.world call) :
    (s.call policy rt call fault).patches = s.patches := by
  have hchange := fixChange policy rt s call fault
  generalize s.call policy rt call fault = s' at hchange ⊢
  cases hchange with
  | approvals approvals _ => rfl
  | kept _ => rfl
  | torn f count path proposal content _ hfile => exact absurd hfile hwrites
  | stored f r _ _ _ _ => rfl
  | patched f confirmed adm text hop hend _ =>
      exact absurd ⟨f, confirmed, adm, text, hop, hend⟩ hwrites

/-- Without failures the rows are the records. -/
lemma rows_call (h : s.rows = s.world.records) :
    (s.call policy rt call .none).rows = (s.call policy rt call .none).world.records := by
  have hchange := fixChange policy rt s call .none
  generalize s.call policy rt call .none = s' at hchange ⊢
  cases hchange with
  | approvals approvals _ => exact h
  | kept _ => exact h
  | torn f count path proposal content hfault _ => cases hfault
  | stored f r _ _ _ _ => simp [FixWorld.record, World.putRecord, h]
  | patched f confirmed adm text _ _ _ =>
      simp [FixWorld.record, FixWorld.patch, World.putRecord, World.write, h]

lemma not_writesFile {world : World} (hop : ∀ f confirmed, call.op ≠ .apply f confirmed) :
    ¬ WritesFile rt world call := by
  rintro ⟨f, confirmed, -, -, h, -⟩
  exact hop f confirmed h

/-- A call without a failure that stores no open record whose patch is in place is orderly. -/
lemma orderly_sampleMove {op : WorkflowOp}
    (hfresh : ∀ findingId r, (systemCall op).findingId? = some findingId →
      storedBy systemRuntime s.world (systemCall op) = some r → r.status ∉ verifiableStatuses →
        ¬ s.InPlace findingId r) :
    Orderly defaultPolicy systemRuntime s (sampleMove op) where
  fresh := hfresh
  untorn := by
    intro count h
    cases h
  reloads := by
    intro h
    cases h
  recovers := by
    intro h
    exact absurd h id

lemma proposedState_world : proposedState.world = afterCalls 3 := by
  simp only [proposedState, proposingMoves, exec_cons, exec_nil, fixStep, sampleMove,
    Bool.false_eq_true, if_false]
  rw [call_world _ _ (Or.inl rfl), call_world _ _ (Or.inl rfl), call_world _ _ (Or.inl rfl)]
  rfl

lemma proposedState_rows : proposedState.rows = proposedState.world.records := by
  simp only [proposedState, proposingMoves, exec_cons, exec_nil, fixStep, sampleMove,
    Bool.false_eq_true, if_false]
  exact rows_call (rows_call (rows_call rfl))

lemma proposedState_patches : proposedState.patches = .empty := by
  simp only [proposedState, proposingMoves, exec_cons, exec_nil, fixStep, sampleMove,
    Bool.false_eq_true, if_false]
  rw [patches_call (not_writesFile fun _ _ h => by cases h),
    patches_call (not_writesFile fun _ _ h => by cases h),
    patches_call (not_writesFile fun _ _ h => by cases h)]
  rfl

/-- Then `apply` comes to write the file. -/
lemma exists_patched : ∃ adm text,
    applyEnd systemRuntime (systemCall (.apply systemFinding true)).env proposedState.world
      systemFinding true = .patched adm text ∧ adm.record.status = .proposed
      ∧ proposedState.rows.get? systemFinding = some adm.record := by
  obtain ⟨f, proposal, message, hfix, -⟩ := exists_systemFix
  obtain ⟨hgate, htext, record, hrecord, hproposal, hstatus⟩ := afterCalls_three hfix
  have hadm : admission (systemCall (.apply systemFinding true)).env (afterCalls 3) systemFinding
      true = .ok ⟨record, proposal, samplePath⟩ :=
    admission_projectCall hgate hrecord hproposal hfix.target_eq (by simp [hstatus])
  have hread : readText systemRuntime (afterCalls 3) samplePath = .ok systemText :=
    readText_sample htext
  refine ⟨⟨record, proposal, samplePath⟩, quotedText, ?_, hstatus, ?_⟩
  · rw [proposedState_world]
    simp only [applyEnd, hadm, hread, hfix.applies]
  · rw [proposedState_rows, proposedState_world, hrecord]

end Sample

/-- The database write of the application fails; the application goes on and verifies the fix. -/
def verifiedMoves : List FixMove :=
  proposingMoves ++ [⟨systemCall (.apply systemFinding true), .row, false⟩,
    sampleMove (.verify systemFinding)]

/-- The database write of the application fails, and the application is restarted. -/
def restartedMoves : List FixMove :=
  proposingMoves ++ [⟨systemCall (.apply systemFinding true), .row, true⟩]

end Sast
