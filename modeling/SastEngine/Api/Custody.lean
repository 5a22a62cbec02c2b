import SastEngine.Api.Requests
import SastEngine.Auth.Seed
import SastEngine.Prove.Harness
import SastEngine.Remediation.ApplyOnce
import SastEngine.Remediation.Authorization

/-!
# The chain of custody of a fix

Scan, validation, proof, approval, proposal and application are requests of their own, which any
users may make at any time, on any findings.  Each of them asks only whether the one before it has
left its record.  These records are milestones: each is established by one kind of request alone,
which finds the milestone before it passed.  With the history rule for runs, every change of a file
has the whole chain behind it (`file_custody`).
-/

namespace Sast

variable {crypto : Crypto} {rt : Runtime} {s s' : Platform} {request : Request}
  {findingId : String}

/-! ## What a finding has been through -/

namespace Platform

/-- The finding is stored. -/
def Found (findingId : String) (s : Platform) : Prop :=
  ∃ finding, s.scans.findings.get findingId = some finding

/-- The verdict on the finding is that it is a true positive. -/
def Validated (findingId : String) (s : Platform) : Prop :=
  ∃ report, s.validations.get? findingId = some report ∧ report.verdict = .truePositive

/-- The finding is proved. -/
def Proved (findingId : String) (s : Platform) : Prop :=
  ∃ report, s.proofs.get? findingId = some report ∧ report.status = .verified

/-- There is a request to remediate the finding. -/
def Asked (findingId : String) (s : Platform) : Prop :=
  ∃ id r, s.world.approvals.get id = some r ∧ r.findingId = findingId ∧ r.action = .remediation

/-- There is an approved request to remediate the finding. -/
def Approved (findingId : String) (s : Platform) : Prop :=
  ∃ id r, s.world.approvals.get id = some r ∧ r.findingId = findingId ∧ IsAuthorization r

end Platform

/-! ## The steps of the workflow -/

/-- A scan, by a user who may scan, that reports the finding. -/
def Detects (crypto : Crypto) (rt : Runtime) (findingId : String) (s : Platform)
    (request : Request) : Prop :=
  ∃ user projectId env project codeModel report, Calls crypto user (.scan projectId) env s request
    ∧ env.surroundings.project projectId = some project
    ∧ env.surroundings.codeModel project = .ok codeModel
    ∧ scan rt.py (defaultRules rt.py) codeModel (some projectId) = .ok report
    ∧ findingId ∈ report.findings.map CandidateFinding.id

/-- A validation, by a user who may validate, for which the model has given the verdict of a true
positive on the evidence of the finding. -/
def Validates (crypto : Crypto) (findingId : String) (s : Platform) (request : Request) : Prop :=
  ∃ user providerName scanRunId env finding provider response,
    Calls crypto user (.validate findingId providerName scanRunId) env s request
      ∧ s.scans.findings.get findingId = some finding
      ∧ env.validateEnv.provider providerName = .ok provider
      ∧ Answered env.validateEnv provider (env.validateEnv.dumps
        (buildValidationEvidence env.validateEnv.redact .empty finding)) response
      ∧ response.verdict = .truePositive

/-- A proof, by a user who may prove, of a validated finding: the harness planned for it has ended
by itself and without an error, and has printed what proves it. -/
def Proves (crypto : Crypto) (findingId : String) (s : Platform) (request : Request) : Prop :=
  ∃ user scanRunId env finding plan runner execution reading,
    Calls crypto user (.prove findingId scanRunId) env s request
      ∧ s.scans.findings.get findingId = some finding ∧ s.Validated findingId
      ∧ planProof env.proveEnv.templates env.proveEnv.windows finding = some plan
      ∧ (SandboxRunner.mk {}).run env.proveEnv.templates (planCall env.proveEnv plan)
        = (runner, .result execution)
      ∧ execution.timedOut = false ∧ execution.returncode = some 0
      ∧ interpretOutput env.proveEnv.chars env.proveEnv.repr plan.harness execution.stdout.toList
        = .ok reading
      ∧ reading.status = .verified

/-- A request for remediation, by a user who may request approvals, for a finding that is validated
and proved. -/
def Asks (crypto : Crypto) (findingId : String) (s : Platform) (request : Request) : Prop :=
  ∃ user scanRunId env,
    Calls crypto user (.requestApproval findingId .remediation scanRunId) env s request
      ∧ s.Validated findingId ∧ s.Proved findingId

/-- The approval, by a manager, of a pending request to remediate the finding. -/
def Approves (crypto : Crypto) (findingId : String) (s : Platform) (request : Request) : Prop :=
  ∃ user approvalId reason env pending,
    Calls crypto user (.decide .approve approvalId reason) env s request
      ∧ user.role = .manager ∧ s.world.approvals.get approvalId = some pending
      ∧ pending.findingId = findingId ∧ pending.action = .remediation
      ∧ pending.status = .pending

/-- A proposal, by a user who may propose, that is recorded for the finding while its newest request
is an approved one for remediation. -/
def Proposes (crypto : Crypto) (rt : Runtime) (findingId : String) (proposal : RemediationProposal)
    (s : Platform) (request : Request) : Prop :=
  ∃ user env, Calls crypto user (.propose findingId) env s request
    ∧ RecordsProposal rt findingId proposal s.world (s.workflowCall env (.propose findingId))

/-- The application, by a user who may apply and has confirmed it, of the proposal recorded for the
finding, after which the file has the patched text. -/
def Applies (crypto : Crypto) (rt : Runtime) (findingId : String) (proposal : RemediationProposal)
    (path : Path) (s : Platform) (request : Request) : Prop :=
  ∃ user env source patched, Calls crypto user (.apply findingId true) env s request
    ∧ ApprovedRemediation s.world.approvals findingId ∧ Holds findingId proposal s.world
    ∧ InOwnRepository (s.surroundings env) findingId path
    ∧ readText rt s.world path = .ok source
    ∧ applyProposal rt.py proposal source = .ok patched
    ∧ (platformStep crypto rt s request).world.files path = some (rt.encode patched)

/-- PREPARE, for a user who may create or reprepare a project, writes the file. -/
def Prepares (crypto : Crypto) (path : Path) (s : Platform) (request : Request) : Prop :=
  ∃ user endpoint env, Calls crypto user endpoint env s request ∧ endpoint.Prepares
    ∧ (env.preparation.written path).isSome

/-- The deletion, by a user who may delete projects, of the project with the file. -/
def Removes (crypto : Crypto) (path : Path) (s : Platform) (request : Request) : Prop :=
  ∃ user projectId env, Calls crypto user (.deleteProject projectId) env s request
    ∧ env.removes path = true

/-! ## What the steps presuppose -/

lemma verdict_text {verdict : Verdict} :
    verdict.text = "true_positive" ↔ verdict = .truePositive := by
  cases verdict <;> decide

lemma proofStatus_text {status : ProofStatus} : status.text = "verified" ↔ status = .verified := by
  cases status <;> decide

lemma checkValidation_ok {gates : Gates} :
    checkValidation gates findingId = .ok () ↔ gates.verdict findingId = some "true_positive" := by
  rw [checkValidation]
  cases gates.verdict findingId with
  | none => simp
  | some verdict => by_cases h : verdict = "true_positive" <;> simp [h]

lemma checkProof_ok {gates : Gates} :
    checkProof gates findingId = .ok () ↔ gates.proofStatus findingId = some "verified" := by
  rw [checkProof]
  cases gates.proofStatus findingId with
  | none => simp
  | some status => by_cases h : status = "verified" <;> simp [h]

/-- The default policy admits findings that are validated and proved. -/
lemma eligible_gates (h : Eligible defaultPolicy s.gates findingId) :
    s.Validated findingId ∧ s.Proved findingId := by
  obtain ⟨_, hvalidation, hproof⟩ := bind_eq_ok.1 h
  obtain ⟨report, hreport, hverdict⟩ := Option.map_eq_some_iff.1 (checkValidation_ok.1 hvalidation)
  obtain ⟨proof, hproved, hstatus⟩ := Option.map_eq_some_iff.1 (checkProof_ok.1 hproof)
  exact ⟨⟨report, hreport, verdict_text.1 hverdict⟩, ⟨proof, hproved, proofStatus_text.1 hstatus⟩⟩

/-- Only managers may approve. -/
lemma role_of_approve {user : User} {approvalId : String} {reason : Option String}
    {env : RequestEnv} (h : Calls crypto user (.decide .approve approvalId reason) env s request) :
    user.role = .manager := by
  obtain ⟨cookie, -, hpermits⟩ := h
  obtain ⟨current, -, hgranted⟩ := bind_eq_ok.1 hpermits
  split_ifs at hgranted with hrole
  obtain rfl : current = user := pure_eq_ok.1 hgranted
  have hmanager : ∀ role, hasPermission role .approve = true → role = .manager := by
    intro role
    cases role <;> decide
  exact hmanager current.role hrole

/-! ## What establishes a milestone -/

lemma found_step (h : (platformStep crypto rt s request).Found findingId) :
    Detects crypto rt findingId s request ∨ s.Found findingId := by
  have hchange := platformStep_change crypto rt s request
  generalize platformStep crypto rt s request = s' at hchange h
  cases hchange with
  | scanned user projectId env project codeModel report runs hcalls hproject hmodel hscan =>
      by_cases hreported : findingId ∈ report.findings.map CandidateFinding.id
      · exact Or.inl ⟨user, projectId, env, project, codeModel, report, hcalls, hproject, hmodel,
          hscan, hreported⟩
      · obtain ⟨finding, hget⟩ := h
        have hnone : (report.findings.reverse.find? fun f => f.id = findingId) = none := by
          rw [List.find?_eq_none]
          intro f hf hid
          exact hreported (List.mem_map.2 ⟨f, List.mem_reverse.1 hf, of_decide_eq_true hid⟩)
        refine Or.inr ⟨finding, ?_⟩
        rw [FindingStore.get_addReport, hnone] at hget
        exact hget
  | deleted user projectId env project found _ _ _ =>
      obtain ⟨finding, hget⟩ := h
      exact Or.inr ⟨finding, (s.within_deleted env projectId _).findings _ _ hget⟩
  | _ => exact Or.inr h

lemma validated_step (h : (platformStep crypto rt s request).Validated findingId) :
    Validates crypto findingId s request ∨ s.Validated findingId := by
  have hchange := platformStep_change crypto rt s request
  generalize platformStep crypto rt s request = s' at hchange h
  cases hchange with
  | validated user id providerName scanRunId env finding report runs hcalls hfinding hvalidate =>
      obtain ⟨stored, hget, hverdict⟩ := h
      rw [Dict.get?_set] at hget
      split_ifs at hget with hid
      · obtain rfl := Option.some.inj hget
        obtain ⟨provider, response, hprovider, hanswered, hresponse⟩ :=
          validateFinding_truePositive hvalidate hverdict
        exact Or.inl ⟨user, providerName, scanRunId, env, finding, provider, response,
          hid ▸ hcalls, hid ▸ hfinding, hprovider, hanswered, hresponse⟩
      · exact Or.inr ⟨stored, hget, hverdict⟩
  | deleted user projectId env project found _ _ _ =>
      obtain ⟨report, hget, hverdict⟩ := h
      exact Or.inr
        ⟨report, (s.within_deleted env projectId _).validations _ _ hget, hverdict⟩
  | _ => exact Or.inr h

lemma proved_step (h : (platformStep crypto rt s request).Proved findingId) :
    Proves crypto findingId s request ∨ s.Proved findingId := by
  have hchange := platformStep_change crypto rt s request
  generalize platformStep crypto rt s request = s' at hchange h
  cases hchange with
  | proved user id scanRunId env finding validation runner report runs hcalls hfinding hstored
      hprove =>
      obtain ⟨stored, hget, hstatus⟩ := h
      rw [Dict.get?_set] at hget
      split_ifs at hget with hid
      · obtain rfl := Option.some.inj hget
        obtain ⟨plan, execution, reading, hplan, hrun, htimed, hcode, hout, hreading⟩ :=
          prove_verified hprove hstatus
        obtain ⟨_, hsome, -, hverdict, -⟩ := prove_ok hprove
        obtain rfl := Option.some.inj hsome
        exact Or.inl ⟨user, scanRunId, env, finding, plan, runner, execution, reading,
          hid ▸ hcalls, hid ▸ hfinding, ⟨validation, hid ▸ hstored, hverdict⟩, hplan, hrun, htimed,
          hcode, hout, hreading⟩
      · exact Or.inr ⟨stored, hget, hstatus⟩
  | deleted user projectId env project found _ _ _ =>
      obtain ⟨report, hget, hstatus⟩ := h
      exact Or.inr ⟨report, (s.within_deleted env projectId _).proofs _ _ hget, hstatus⟩
  | _ => exact Or.inr h

/-- **Where a stored approval request comes from**: from an eligible finding it was asked for, or
from a decision on it. -/
lemma get_approvals_step {id : String} {r : ApprovalRequest}
    (h : (platformStep crypto rt s request).world.approvals.get id = some r) :
    (∃ user action scanRunId env,
      Calls crypto user (.requestApproval r.findingId action scanRunId) env s request
        ∧ Eligible defaultPolicy s.gates r.findingId ∧ r.action = action ∧ r.status = .pending)
    ∨ (∃ user decision approvalId reason env old,
      Calls crypto user (.decide decision approvalId reason) env s request
        ∧ s.world.approvals.get approvalId = some old
        ∧ decision.target ∈ allowedTransitions old.status ∧ r.findingId = old.findingId
        ∧ r.action = old.action ∧ r.status = decision.target)
    ∨ s.world.approvals.get id = some r := by
  have hchange := platformStep_change crypto rt s request
  generalize platformStep crypto rt s request = s' at hchange h
  cases hchange with
  | worked user endpoint env op runs hcalls _ hop =>
      rcases approvals_workflowStep defaultPolicy rt s.world (s.workflowCall env op)
        with heq | ⟨called, hcalled, heq⟩
      · exact Or.inr (Or.inr (heq ▸ h))
      · dsimp only at h
        rw [heq] at h
        obtain rfl : op = .approval called := hcalled
        rcases get_approvalStep h with hold
          | ⟨findingId, action, _, _, scanRunId, hcall, heligible, rfl⟩
          | ⟨decision, approvalId, _, reason, _, old, hcall, hget, hallowed, rfl⟩
        · exact Or.inr (Or.inr hold)
        · obtain rfl : called = _ := hcall
          cases endpoint with
          | requestApproval _ _ _ =>
              cases hop
              exact Or.inl ⟨user, action, scanRunId, env, hcalls, heligible, rfl, rfl⟩
          | _ => cases hop
        · obtain rfl : called = _ := hcall
          cases endpoint with
          | decide _ _ _ =>
              cases hop
              exact Or.inr (Or.inl ⟨user, decision, approvalId, reason, env, old, hcalls, hget,
                hallowed, rfl, rfl, rfl⟩)
          | _ => cases hop
  | deleted user projectId env project found _ _ _ =>
      exact Or.inr (Or.inr ((s.within_deleted env projectId _).approvals _ _ h))
  | _ => exact Or.inr (Or.inr h)

lemma asked_step (h : (platformStep crypto rt s request).Asked findingId) :
    Asks crypto findingId s request ∨ s.Asked findingId := by
  obtain ⟨id, r, hget, rfl, haction⟩ := h
  rcases get_approvals_step hget with ⟨user, action, scanRunId, env, hcalls, heligible, hsame, -⟩
    | ⟨user, decision, approvalId, reason, env, old, -, hold, -, hfinding, hsame, -⟩ | hold
  · obtain ⟨hvalidated, hproved⟩ := eligible_gates heligible
    obtain rfl : action = .remediation := hsame.symm.trans haction
    exact Or.inl ⟨user, scanRunId, env, hcalls, hvalidated, hproved⟩
  · exact Or.inr ⟨approvalId, old, hold, hfinding.symm, hsame.symm.trans haction⟩
  · exact Or.inr ⟨id, r, hold, rfl, haction⟩

lemma approved_step (h : (platformStep crypto rt s request).Approved findingId) :
    Approves crypto findingId s request ∨ s.Approved findingId := by
  obtain ⟨id, r, hget, rfl, haction, hstatus⟩ := h
  rcases get_approvals_step hget with ⟨user, action, scanRunId, env, -, -, -, hpending⟩
    | ⟨user, decision, approvalId, reason, env, old, hcalls, hold, hallowed, hfinding, hsame,
      htarget⟩
    | hold
  · rw [hstatus] at hpending
    cases hpending
  · cases decision with
    | approve =>
        have hpending : old.status = .pending := by
          revert hallowed
          cases old.status <;> decide
        exact Or.inl ⟨user, approvalId, reason, env, old, hcalls, role_of_approve hcalls, hold,
          hfinding.symm, hsame.symm.trans haction, hpending⟩
    | _ =>
        rw [hstatus] at htarget
        cases htarget
  · exact Or.inr ⟨id, r, hold, rfl, haction, hstatus⟩

lemma proposed_step {proposal : RemediationProposal} (hsound : s.Sound)
    (h : Holds findingId proposal (platformStep crypto rt s request).world) :
    Proposes crypto rt findingId proposal s request ∨ Holds findingId proposal s.world := by
  have hchange := platformStep_change crypto rt s request
  generalize platformStep crypto rt s request = s' at hchange h
  cases hchange with
  | worked user endpoint env op runs hcalls _ hop =>
      rcases holds_workflowStep hsound.records h with hrecords | hold
      · obtain rfl : op = .propose findingId := hrecords.1
        cases endpoint with
        | propose _ =>
            cases hop
            exact Or.inl ⟨user, env, hcalls, hrecords⟩
        | _ => cases hop
      · exact Or.inr hold
  | deleted user projectId env project found _ _ _ =>
      obtain ⟨record, hget, hproposal⟩ := h
      exact Or.inr
        ⟨record, (s.within_deleted env projectId _).records _ _ hget, hproposal⟩
  | _ => exact Or.inr h

/-! ## The chain -/

/-- What a fix has behind it, the last step first. -/
def custody (crypto : Crypto) (rt : Runtime) (findingId : String)
    (proposal : RemediationProposal) : List (Milestone Platform Request) :=
  [⟨fun s => Holds findingId proposal s.world, Proposes crypto rt findingId proposal⟩,
    ⟨Platform.Approved findingId, Approves crypto findingId⟩,
    ⟨Platform.Asked findingId, Asks crypto findingId⟩,
    ⟨Platform.Proved findingId, Proves crypto findingId⟩,
    ⟨Platform.Validated findingId, Validates crypto findingId⟩,
    ⟨Platform.Found findingId, Detects crypto rt findingId⟩]

/-- A recorded proposal has all of it behind it. -/
lemma custody_inOrder (users : UserTable) (files : Path → Option (List UInt8))
    (requests : List Request) {proposal : RemediationProposal}
    (h : Holds findingId proposal
      (exec (platformStep crypto rt) (Platform.start users files) requests).world) :
    InOrder (platformStep crypto rt) (Platform.start users files)
      ((custody crypto rt findingId proposal).map Milestone.By) requests := by
  refine exec_history Platform.Sound (fun s request hs => hs.step request)
    (Platform.sound_start users files) ?_ ?_ ?_ requests ?_
  · simp only [custody, List.forall_mem_cons]
    exact ⟨fun s request hs => proposed_step hs, fun s request _ => approved_step,
      fun s request _ => asked_step, fun s request _ => proved_step,
      fun s request _ => validated_step, fun s request _ => found_step, by simp⟩
  · simp only [custody, List.isChain_cons_cons]
    refine ⟨?_, ?_, ?_, ?_, ?_, .singleton _⟩
    · rintro s request hs ⟨user, env, -, -, ⟨r, hnewest, hauth⟩, -⟩
      obtain ⟨hmem, hfinding⟩ := ApprovalStore.findForFinding_mem hnewest
      exact ⟨r.id, r, hs.approvals.get_id hmem, hfinding, hauth⟩
    · rintro s request - ⟨user, approvalId, reason, env, pending, -, -, hget, hfinding, haction, -⟩
      exact ⟨approvalId, pending, hget, hfinding, haction⟩
    · rintro s request - ⟨user, scanRunId, env, -, -, hproved⟩
      exact hproved
    · rintro s request - ⟨user, scanRunId, env, finding, plan, runner, execution, reading, -, -,
        hvalidated, -⟩
      exact hvalidated
    · rintro s request - ⟨user, providerName, scanRunId, env, finding, provider, response, -,
        hfinding, -⟩
      exact ⟨finding, hfinding⟩
  · simp only [custody, List.forall_mem_cons]
    refine ⟨?_, ?_, ?_, ?_, ?_, ?_, by simp⟩
    · rintro ⟨record, hget, -⟩
      cases hget
    · rintro ⟨id, r, hget, -⟩
      cases hget
    · rintro ⟨id, r, hget, -⟩
      cases hget
    · rintro ⟨report, hget, -⟩
      cases hget
    · rintro ⟨report, hget, -⟩
      cases hget
    · rintro ⟨finding, hget⟩
      cases hget
  · intro m hm
    cases hm
    exact h

lemma files_foldl_removeFinding (s : Platform) (findingIds : List String) :
    (findingIds.foldl Platform.removeFinding s).world.files = s.world.files := by
  induction findingIds generalizing s with
  | nil => rfl
  | cons id ids ih => exact ih (s.removeFinding id)

/-- **What changes a file**: PREPARE, the deletion of its project, or a confirmed application. -/
lemma files_step {path : Path}
    (h : (platformStep crypto rt s request).world.files path ≠ s.world.files path) :
    Prepares crypto path s request ∨ Removes crypto path s request
      ∨ ∃ findingId proposal, Applies crypto rt findingId proposal path s request := by
  have hchange := platformStep_change crypto rt s request
  obtain ⟨s', hstep⟩ : ∃ s', platformStep crypto rt s request = s' := ⟨_, rfl⟩
  rw [hstep] at hchange h
  cases hchange with
  | worked user endpoint env op runs hcalls _ hop =>
      have hwork := workflowStep_change defaultPolicy rt s.world (s.workflowCall env op)
      obtain ⟨world, hworld⟩ :
          ∃ world, workflowStep defaultPolicy rt s.world (s.workflowCall env op) = world := ⟨_, rfl⟩
      rw [hworld] at hwork hstep h
      cases hwork with
      | applied findingId confirmed adm source patched hcalled hadm hread hpatch _ =>
          obtain ⟨hoffered, htarget⟩ := admission_ok.1 hadm
          obtain ⟨hrecord, hproposal, -, -⟩ := offeredProposal_ok.1 hoffered
          obtain ⟨rfl, hgate, hrepo⟩ := applyTarget_ok htarget
          obtain rfl : op = .apply findingId true := hcalled
          have hpath : path = adm.path := by
            by_contra hne
            exact h (if_neg hne)
          subst hpath
          cases endpoint with
          | apply _ _ =>
              cases hop
              refine Or.inr (Or.inr ⟨findingId, adm.proposal, user, env, source, patched, hcalls,
                approvedRemediation_of_gatePasses hgate, ⟨adm.record, hrecord, hproposal⟩, hrepo,
                hread, hpatch, ?_⟩)
              rw [hstep]
              exact if_pos rfl
          | _ => cases hop
      | _ => exact absurd rfl h
  | prepared user endpoint env hcalls hprepares =>
      refine Or.inl ⟨user, endpoint, env, hcalls, hprepares, ?_⟩
      by_contra hnone
      rw [Option.not_isSome_iff_eq_none] at hnone
      refine h ?_
      show (env.preparation.written path).or (s.world.files path) = s.world.files path
      rw [hnone, Option.none_or]
  | deleted user projectId env project found hcalls _ _ =>
      refine Or.inr (Or.inl ⟨user, projectId, env, hcalls, ?_⟩)
      by_contra hkept
      refine h ((if_neg hkept).trans ?_)
      rw [files_foldl_removeFinding]
  | _ => exact absurd rfl h

/-- **Every change of a file is accounted for.**  In every run of requests, whoever makes them and
in whatever order: a request changes a file only as PREPARE, or as the deletion of a project, or as
the confirmed application of a proposal by a user who may apply it.  In the last case, the run so
far contains, each before the next: a scan that reports the finding; a validation in which the model
gives the verdict of a true positive; a proof whose harness succeeds; a request for remediation,
while the finding is validated and proved; its approval by a manager; and the recording of that very
proposal. -/
theorem file_custody (crypto : Crypto) (rt : Runtime) (users : UserTable)
    (files : Path → Option (List UInt8)) (requests : List Request) (request : Request) (path : Path)
    (hchanged : (exec (platformStep crypto rt) (.start users files) (requests ++ [request])
      ).world.files path
        ≠ (exec (platformStep crypto rt) (.start users files) requests).world.files path) :
    let s := exec (platformStep crypto rt) (.start users files) requests
    Prepares crypto path s request ∨ Removes crypto path s request
      ∨ ∃ findingId proposal, Applies crypto rt findingId proposal path s request
        ∧ InOrder (platformStep crypto rt) (.start users files)
          [Proposes crypto rt findingId proposal, Approves crypto findingId, Asks crypto findingId,
            Proves crypto findingId, Validates crypto findingId, Detects crypto rt findingId]
          requests := by
  rw [exec_concat] at hchanged
  rcases files_step hchanged with hprepares | hremoves | ⟨findingId, proposal, happlies⟩
  · exact Or.inl hprepares
  · exact Or.inr (Or.inl hremoves)
  · obtain ⟨user, env, source, patched, -, -, hholds, -⟩ := id happlies
    exact Or.inr (Or.inr ⟨findingId, proposal, happlies,
      custody_inOrder users files requests hholds⟩)

/-! ## A fix by a manager -/

/-- Full confidence is a confidence. -/
lemma confident_mem : (0 : Rat) ≤ 1 ∧ (1 : Rat) ≤ 1 := ⟨by decide, by decide⟩

/-- What a model answers that has no doubts. -/
def confirmingResponse : LLMResponse where
  verdict := .truePositive
  confidence := 1
  reasoning := "the parameter reaches the shell"
  evidenceUsed := []
  missingEvidence := []
  recommendedNextStep := .prove
  confidence_mem := confident_mem

/-- The reply that it is read from. -/
def confirmingReply : String := "\x7b\"verdict\": \"true_positive\"\x7d"

/-- The time of all requests below. -/
def fixTime : DateTime := ⟨0, some 0⟩

/-- A model without doubts, a host on which the injected command runs, and the project of the sample
file. -/
def fixEnv : RequestEnv where
  utcnow := fixTime
  moment := ⟨fixTime, "a", "a-event"⟩
  execution := ⟨"execution", fixTime, fixTime⟩
  scanStamps := ⟨"run", "prepare", ⟨"scan", fixTime, fixTime⟩, fixTime, fixTime⟩
  createdAt _ := fixTime
  surroundings :=
    (projectCall systemRuntime systemText systemText (.propose systemFinding) 1 "a").env
  validateEnv :=
    { provider := fun name => .ok ⟨name, none, fun _ => .ok confirmingReply.toList⟩
      limits := ⟨some 4300, some 1000⟩
      modelValidate := fun pairs =>
        if pairs.any fun pair => pair.1 = .of "verdict" then some confirmingResponse else none
      dumps := fun _ => ""
      sha256 := id
      redact := id
      utcnow := fixTime
      durationMs := 1 }
  proveEnv :=
    { windows := false
      repr := id
      templates := fun _ => ""
      chars := asciiTable
      host :=
        { mkdtemp := some "/tmp/sast_prove_1"
          writesScript := true
          environ := .empty
          subprocess _ := .completed 0 "PROVED:control_hit=0:injected_hit=1\n" "" }
      hostError := ""
      utcnow := fixTime
      durationMs := 1 }
  preparation := ⟨fun _ => none, .ok ()⟩
  order := ⟨List.dedup, List.nodup_dedup, fun _ _ => List.mem_dedup⟩
  removes _ := false

/-- The application starts with the demo users, and their manager does everything alone. -/
def managerRequests : List Request :=
  .account ⟨.startup fun username => ⟨username, "$2b$12$", fixTime⟩, fixTime⟩
    :: .account ⟨.login "manager" "demo123" "cookie", fixTime⟩
    :: [.scan "p", .validate systemFinding "huggingface" (some "run"),
      .prove systemFinding (some "run"), .requestApproval systemFinding .remediation (some "run"),
      .decide .approve "a" none, .propose systemFinding].map fun endpoint =>
        .call endpoint (some "cookie") fixEnv

/-- The application of the proposal. -/
def managerFix : Request := .call (.apply systemFinding true) (some "cookie") fixEnv

/-- The change that the fix makes has its chain of custody. -/
theorem file_custody_managerFix :
    ∃ findingId proposal,
      Applies suffixCrypto systemRuntime findingId proposal samplePath
        (exec (platformStep suffixCrypto systemRuntime)
          (.start .empty (oneFileWorkspace systemRuntime systemText)) managerRequests) managerFix
      ∧ InOrder (platformStep suffixCrypto systemRuntime)
        (.start .empty (oneFileWorkspace systemRuntime systemText))
        [Proposes suffixCrypto systemRuntime findingId proposal, Approves suffixCrypto findingId,
          Asks suffixCrypto findingId, Proves suffixCrypto findingId,
          Validates suffixCrypto findingId, Detects suffixCrypto systemRuntime findingId]
        managerRequests := by
  have hcustody := file_custody suffixCrypto systemRuntime .empty
    (oneFileWorkspace systemRuntime systemText) managerRequests managerFix samplePath
    (by decide +kernel)
  rcases hcustody with ⟨_, _, _, ⟨_, hcall, -⟩, -, hwritten⟩ | ⟨_, _, _, ⟨_, hcall, -⟩, -⟩ | hfix
  · cases hcall
    cases hwritten
  · cases hcall
  · exact hfix

end Sast
