import SastEngine.Remediation.Steps

/-!
# Only an approved, confirmed remediation changes source code

Approvals, remediation records and files form one state, and any party may call any operation on
any finding at any time.  A file changes only in an `apply` that was confirmed, while the newest
request of the finding is an approved remediation request, with a proposal that an earlier
`propose` recorded under such a request, and below the repository of the finding's own project.
-/

namespace Sast

variable {policy : ApprovalPolicy} {rt : Runtime}

/-- The newest approval request of the finding is an approved remediation request. -/
def ApprovedRemediation (approvals : ApprovalStore) (findingId : String) : Prop :=
  ∃ r, approvals.findForFinding findingId = some r ∧ r.action = .remediation
    ∧ r.status = .approved

/-- The world after a run from startup. -/
abbrev worldAfter (policy : ApprovalPolicy) (rt : Runtime) (files : Path → Option (List UInt8))
    (calls : List WorkflowCall) : World :=
  exec (workflowStep policy rt) (World.initial files) calls

/-- The call is a `propose` that recorded the proposal for the finding, under an approved
remediation request. -/
def RecordsProposal (rt : Runtime) (findingId : String) (proposal : RemediationProposal)
    (world : World) (call : WorkflowCall) : Prop :=
  call.op = .propose findingId ∧ ApprovedRemediation world.approvals findingId
    ∧ ∃ record, outcome rt world call = some (.ok record) ∧ record.proposal = some proposal

/-- The call may write the path: it is a confirmed `apply` on a finding whose newest request is an
approved remediation request, whose recorded proposal has a strategy and comes from an earlier
`propose`, and whose unique owning project has the path in its repository under the workspace. -/
def MayWrite (policy : ApprovalPolicy) (rt : Runtime) (files : Path → Option (List UInt8))
    (pre : List WorkflowCall) (call : WorkflowCall) (path : Path) : Prop :=
  ∃ findingId record proposal,
    call.op = .apply findingId true
    ∧ ApprovedRemediation (worldAfter policy rt files pre).approvals findingId
    ∧ (worldAfter policy rt files pre).records.get? findingId = some record
    ∧ record.proposal = some proposal
    ∧ proposal.strategy ≠ .noAutomaticFix
    ∧ (∃ before proposing after, pre = before ++ proposing :: after
      ∧ RecordsProposal rt findingId proposal (worldAfter policy rt files before) proposing)
    ∧ InOwnRepository call.env findingId path

/-! ## Where proposals come from -/

lemma approvedRemediation_of_gatePasses {approvals : ApprovalStore} {findingId : String}
    (h : GatePasses approvals findingId) : ApprovedRemediation approvals findingId :=
  (gatePasses_iff approvals findingId).1 h

/-- The record of the finding offers the proposal. -/
def Holds (findingId : String) (proposal : RemediationProposal) (world : World) : Prop :=
  ∃ record, world.records.get? findingId = some record ∧ record.proposal = some proposal

/-- Storing a record that was derived from the stored one leaves the proposals alone. -/
lemma holds_putRecord {world : World} (hk : RecordsKeyed world) {old record : RemediationRecord}
    {key findingId : String} {proposal : RemediationProposal}
    (hold : world.records.get? key = some old)
    (h : Holds findingId proposal (world.putRecord record))
    (hid : record.findingId = old.findingId) (hprop : record.proposal = old.proposal) :
    Holds findingId proposal world := by
  obtain ⟨r, hr, hp⟩ := h
  rw [putRecord_get] at hr
  split_ifs at hr with hf
  · rw [hid, hk key old hold] at hf
    refine ⟨old, hf ▸ hold, ?_⟩
    rw [← hprop, Option.some.inj hr, hp]
  · exact ⟨r, hr, hp⟩

/-- **Only a successful `propose` changes the proposal of a finding.** -/
lemma holds_workflowStep {world : World} (hk : RecordsKeyed world) {call : WorkflowCall}
    {findingId : String} {proposal : RemediationProposal}
    (h : Holds findingId proposal (workflowStep policy rt world call)) :
    RecordsProposal rt findingId proposal world call ∨ Holds findingId proposal world := by
  have hchange := workflowStep_change policy rt world call
  generalize workflowStep policy rt world call = world' at hchange h
  cases hchange with
  | approval op hop => exact Or.inr h
  | refused _ => exact Or.inr h
  | proposed f record hop hout =>
      obtain ⟨r, hr, hp⟩ := h
      rw [putRecord_get] at hr
      split_ifs at hr with hf
      · have hid := propose_findingId hk hout
        obtain ⟨finding, approval, source, proposal', path, -, happ, -⟩ := propose_ok hout
        left
        rw [hf, hid]
        refine ⟨hop, approvedRemediation_of_gatePasses ⟨approval, happ⟩, record, ?_, ?_⟩
        · simp [outcome, hop, hout]
        · rw [Option.some.inj hr]
          exact hp
      · exact Or.inr ⟨r, hr, hp⟩
  | failed f confirmed adm source message hop hadm _ _ =>
      have hold := (offeredProposal_ok.1 (admission_ok.1 hadm).1).1
      exact Or.inr (holds_putRecord hk hold h rfl rfl)
  | applied f confirmed adm source patched hop hadm _ _ _ =>
      have hold := (offeredProposal_ok.1 (admission_ok.1 hadm).1).1
      have h' : Holds findingId proposal (world.putRecord (appliedRecord call.env adm.record)) := h
      exact Or.inr (holds_putRecord hk hold h' rfl rfl)
  | verified f record hop hout =>
      obtain ⟨old, report, hold, -, -, rfl⟩ := verify_ok hout
      exact Or.inr (holds_putRecord hk hold h rfl rfl)

/-- The proposal of a finding was recorded by an earlier `propose`. -/
lemma holds_origin (files : Path → Option (List UInt8)) {pre : List WorkflowCall}
    {findingId : String} {proposal : RemediationProposal}
    (h : Holds findingId proposal (worldAfter policy rt files pre)) :
    ∃ before proposing after, pre = before ++ proposing :: after
      ∧ RecordsProposal rt findingId proposal (worldAfter policy rt files before)
        proposing := by
  obtain ⟨before, proposing, after, heq, hby, -⟩ :=
    exec_origin RecordsKeyed (fun world call hk => workflowStep_keyed hk call)
      (fun world call hk hh => (holds_workflowStep hk hh).imp_right fun h => And.intro h trivial)
      (initial_keyed files) (by rintro ⟨r, hr, -⟩; simp [World.initial] at hr) pre h
  exact ⟨before, proposing, after, heq, hby⟩

/-! ## Writes -/

/-- **Only an approved, confirmed remediation ever changes source code.**  Whatever approval and
remediation calls have been made since startup, on any findings and in any order: the next call
changes a file only as `MayWrite` allows, and a call that ends in a `RemediationGateError` changes
no file. -/
theorem only_authorized_writes (policy : ApprovalPolicy) (rt : Runtime)
    (files : Path → Option (List UInt8)) (pre : List WorkflowCall) (call : WorkflowCall) :
    (∀ path, (worldAfter policy rt files (pre ++ [call])).files path
        = (worldAfter policy rt files pre).files path
      ∨ MayWrite policy rt files pre call path)
    ∧ ∀ message, outcome rt (worldAfter policy rt files pre) call = some (.error (.gate message)) →
      (worldAfter policy rt files (pre ++ [call])).files
        = (worldAfter policy rt files pre).files := by
  rw [worldAfter, exec_concat, ← worldAfter]
  have hchange := workflowStep_change policy rt (worldAfter policy rt files pre) call
  generalize workflowStep policy rt (worldAfter policy rt files pre) call = world' at hchange ⊢
  cases hchange with
  | approval op hop => exact ⟨fun _ => Or.inl rfl, fun _ _ => rfl⟩
  | refused _ => exact ⟨fun _ => Or.inl rfl, fun _ _ => rfl⟩
  | proposed f record hop hout => exact ⟨fun _ => Or.inl rfl, fun _ _ => rfl⟩
  | verified f record hop hout => exact ⟨fun _ => Or.inl rfl, fun _ _ => rfl⟩
  | failed f confirmed adm source message hop hadm _ _ => exact ⟨fun _ => Or.inl rfl, fun _ _ => rfl⟩
  | applied f confirmed adm source patched hop hadm hread hpatch hout =>
      refine ⟨fun path => ?_, fun message hmessage => ?_⟩
      · by_cases hpath : path = adm.path
        · right
          obtain ⟨hoff, htgt⟩ := admission_ok.1 hadm
          obtain ⟨hrec, hprop, -⟩ := offeredProposal_ok.1 hoff
          obtain ⟨rfl, hgate, hrepo⟩ := applyTarget_ok htgt
          exact ⟨f, adm.record, adm.proposal, hop, approvedRemediation_of_gatePasses hgate, hrec,
            hprop, applyProposal_strategy hpatch, holds_origin files ⟨adm.record, hrec, hprop⟩,
            hpath ▸ hrepo⟩
        · left
          simp [World.write, hpath]
      · rw [hout] at hmessage
        simp at hmessage

end Sast
