import SastEngine.Remediation.Proposals
import SastEngine.Remediation.Verification

/-!
# Several fixes after one scan

Findings keep the line numbers of the scan, while every fix may insert an import and change the
number of lines.  Beside the workflow runs a record of where the lines of the file come from: for
each line of the current text, the line of the scanned text it stands for.  A fix rewrites the
statement of its own finding exactly when that statement still stands where the scan saw it.
-/

namespace Sast

variable {policy : ApprovalPolicy} {rt : Runtime}

/-! ## Where the lines of a file come from -/

/-- For each line of a text, the line of the scanned text it stands for; an inserted import stands
for none. -/
abbrev Origins := List (Option Nat)

/-- The origins at the time of the scan. -/
def scanOrigins (text : String) : Origins :=
  (List.range (splitlinesKeepends text.toList).length).map fun i => some (i + 1)

/-- The text of a line, without its end. -/
def lineAt (source : String) (line : Nat) : List Char :=
  rstripNewline (((splitlinesKeepends source.toList)[line - 1]?).getD [])

/-- How many lines a patch anchored at the line replaces. -/
def replacedCount (source : String) (line : Nat) : Nat :=
  1 + continuation (indentOf (lineAt source line)) ((splitlinesKeepends source.toList).drop line)

/-- The origins after a patch: the rewritten lines stand for the anchored one. -/
def movedOrigins (py : Stdlib) (proposal : RemediationProposal) (source : String)
    (origins : Origins) : Origins :=
  let anchored := (origins[proposal.line - 1]?).getD none
  let moved := spliceLines origins (proposal.line - 1)
    (proposal.line - 1 + replacedCount source proposal.line)
    ((replacementLines proposal.after).map fun _ => anchored)
  match proposal.importToAdd with
  | none => moved
  | some _ =>
      let lines := splitlinesKeepends source.toList
      match py.parse (patchedText proposal lines (lineAt source proposal.line)) with
      | .error _ => moved
      | .ok tree => spliceLines moved (docstringEnd tree.body) (docstringEnd tree.body) [none]

/-- The lines that stand for one of the given lines of the scan are `count` lines from index
`start` on. -/
def StandsAt (origins : Origins) (lines : Nat → Prop) (start count : Nat) : Prop :=
  ∀ k origin, origins[k]? = some origin →
    ((start ≤ k ∧ k < start + count) ↔ ∃ n, origin = some n ∧ lines n)

/-! ## The workflow with its origins -/

/-- The patch that a call applies, if it is a successful `apply`, with the text it was applied
to. -/
def appliedPatch (rt : Runtime) (world : World) (call : WorkflowCall) :
    Option (Admission × String × String) :=
  match call.op with
  | .apply findingId confirmed =>
      match admission call.env world findingId confirmed with
      | .error _ => none
      | .ok adm =>
          match readText rt world adm.path with
          | .error _ => none
          | .ok source =>
              match applyProposal rt.py adm.proposal source with
              | .error _ => none
              | .ok patched => some (adm, source, patched)
  | _ => none

/-- The world, with the origins of the lines of one file. -/
structure Tracked where
  world : World
  origins : Origins

variable (policy rt) in
/-- A call, and what it does to the lines of the file at `path`. -/
def trackedStep (path : Path) (state : Tracked) (call : WorkflowCall) : Tracked where
  world := workflowStep policy rt state.world call
  origins :=
    match appliedPatch rt state.world call with
    | some (adm, source, _) =>
        if adm.path = path then movedOrigins rt.py adm.proposal source state.origins
        else state.origins
    | none => state.origins

/-- At the scan. -/
def Tracked.initial (files : Path → Option (List UInt8)) (text : String) : Tracked where
  world := World.initial files
  origins := scanOrigins text

/-! ## Which statement a fix rewrites -/

section OneScan

-- `lines findingId` are the lines of the scanned text that belong to the statement with the sink
-- call of the finding.
variable (policy rt) (path : Path) (lines : String → Nat → Prop)

/-- A successful `apply` replaces exactly the lines of the finding's own statement; any other
`apply` is refused, and it and all other calls leave the files as they are. -/
def RewritesOwn (state : Tracked) (call : WorkflowCall) : Prop :=
  match call.op with
  | .apply findingId _ =>
      match appliedPatch rt state.world call with
      | some (adm, source, _) => adm.path = path →
          StandsAt state.origins (lines findingId) (adm.proposal.line - 1)
            (replacedCount source adm.proposal.line)
      | none => (∃ e, outcome rt state.world call = some (.error e))
          ∧ (workflowStep policy rt state.world call).files = state.world.files
  | _ => (workflowStep policy rt state.world call).files = state.world.files

/-- When a fix is applied, the finding's statement begins at the sink line of the scan, and its
other lines are those the layout gives it: the deeper-indented lines below, up to a blank or a
dedented one, and a closing bracket. -/
def FixedInPlace (scanned : String → Option CandidateFinding) (state : Tracked)
    (call : WorkflowCall) : Prop :=
  match call.op with
  | .apply findingId _ =>
      match appliedPatch rt state.world call with
      | some (adm, source, _) => adm.path = path → ∀ f, scanned findingId = some f →
          StandsAt state.origins (lines findingId) (f.sink.line - 1)
            (replacedCount source f.sink.line)
      | none => True
  | _ => True

end OneScan

/-! ## Proposals keep the line of the scan -/

/-- The proposal that a finding's record offers is anchored at the sink line of the scan. -/
lemma admission_line {files : Path → Option (List UInt8)} {pre : List WorkflowCall}
    {scanned : String → Option CandidateFinding} (hscan : ∀ call ∈ pre, call.env.finding = scanned)
    {env : Surroundings} {findingId : String} {confirmed : Bool} {adm : Admission}
    (h : admission env (worldAfter policy rt files pre) findingId confirmed = .ok adm) :
    ∃ f, scanned findingId = some f ∧ adm.proposal.line = f.sink.line := by
  obtain ⟨hoffered, -⟩ := admission_ok.1 h
  obtain ⟨hrecord, hproposal, -⟩ := offeredProposal_ok.1 hoffered
  obtain ⟨before, proposing, after, rfl, hop, -, record, hout, hrec⟩ :=
    holds_origin files ⟨adm.record, hrecord, hproposal⟩
  have hpropose : propose rt proposing.env (worldAfter policy rt files before) findingId
      = .ok record := by
    simpa [outcome, hop] using hout
  obtain ⟨f, approval, source, proposal, path, hfind, -, -, -, hbuild, rfl⟩ := propose_ok hpropose
  rw [hscan proposing (by simp)] at hfind
  rw [proposedRecord_proposal] at hrec
  obtain rfl := Option.some.inj hrec
  exact ⟨f, hfind, buildProposal_line hbuild⟩

/-! ## The calls -/

/-- What `appliedPatch` tells about an `apply`. -/
lemma appliedPatch_some {world : World} {call : WorkflowCall} {findingId : String}
    {confirmed : Bool} (hop : call.op = .apply findingId confirmed) {adm : Admission}
    {source patched : String} (h : appliedPatch rt world call = some (adm, source, patched)) :
    admission call.env world findingId confirmed = .ok adm := by
  simp only [appliedPatch, hop] at h
  split at h
  · simp at h
  · rename_i adm' hadm
    split at h
    · simp at h
    · split at h
      · simp at h
      · obtain ⟨rfl, -⟩ := Prod.mk.inj (Option.some.inj h)
        exact hadm

lemma appliedPatch_of_admission {world : World} {call : WorkflowCall} {findingId : String}
    {confirmed : Bool} (hop : call.op = .apply findingId confirmed) {adm : Admission}
    {source patched : String} (hadm : admission call.env world findingId confirmed = .ok adm)
    (hread : readText rt world adm.path = .ok source)
    (hpatch : applyProposal rt.py adm.proposal source = .ok patched) :
    appliedPatch rt world call = some (adm, source, patched) := by
  simp only [appliedPatch, hop, hadm, hread, hpatch]

/-- An `apply` without a patch is refused and touches no file. -/
lemma appliedPatch_none {world : World} {call : WorkflowCall} {findingId : String}
    {confirmed : Bool} (hop : call.op = .apply findingId confirmed)
    (h : appliedPatch rt world call = none) :
    (∃ e, outcome rt world call = some (.error e))
      ∧ (workflowStep policy rt world call).files = world.files := by
  simp only [outcome, workflowStep, hop]
  rcases apply_cases rt call.env world findingId confirmed with
    ⟨e, h'⟩ | ⟨adm, source, message, -, -, h'⟩ | ⟨adm, source, patched, hadm, hread, hpatch, h'⟩
  · rw [h']
    exact ⟨⟨e, rfl⟩, rfl⟩
  · rw [h']
    exact ⟨⟨_, rfl⟩, rfl⟩
  · simp [appliedPatch, hop, hadm, hread, hpatch] at h

/-- The other calls touch no file. -/
lemma workflowStep_files {world : World} {call : WorkflowCall}
    (hop : ∀ findingId confirmed, call.op ≠ .apply findingId confirmed) :
    (workflowStep policy rt world call).files = world.files := by
  have hchange := workflowStep_change policy rt world call
  generalize workflowStep policy rt world call = world' at hchange ⊢
  cases hchange with
  | approval op _ => rfl
  | refused _ => rfl
  | proposed f record _ _ => rfl
  | failed f confirmed adm source message hop' _ _ _ => exact absurd hop' (hop f confirmed)
  | applied f confirmed adm source patched hop' _ _ _ _ => exact absurd hop' (hop f confirmed)
  | verified f record _ _ => rfl

lemma exec_trackedStep_world (path : Path) (state : Tracked) (calls : List WorkflowCall) :
    (exec (trackedStep policy rt path) state calls).world
      = exec (workflowStep policy rt) state.world calls := by
  induction calls generalizing state with
  | nil => rfl
  | cons call calls ih => exact ih (trackedStep policy rt path state call)

lemma finding_callsOn {scanned snapshot : String} {ops : List (WorkflowOp × String)} :
    ∀ call ∈ callsOn rt scanned snapshot ops, call.env.finding = findingsOf rt scanned := by
  intro call hcall
  obtain ⟨op, -, rfl⟩ := List.mem_map.1 hcall
  rfl

/-- A patch of a sample run is in place if the finding's line is where the scan saw it. -/
lemma fixedInPlace_of_patch (rt : Runtime) (path : Path)
    (scanned : String → Option CandidateFinding) {lines : String → Nat → Prop} {state : Tracked}
    (call : WorkflowCall) (findingId text : String) (line : Nat) (hop : call.op = .apply findingId true)
    (hpatch : (appliedPatch rt state.world call).map (fun p => p.2.1) = some text)
    (hline : (scanned findingId).map (fun f => f.sink.line) = some line)
    (hstands : StandsAt state.origins (lines findingId) (line - 1) (replacedCount text line)) :
    FixedInPlace rt path lines scanned state call := by
  unfold FixedInPlace
  obtain ⟨⟨adm, source, patched⟩, happlied, rfl⟩ := Option.map_eq_some_iff.1 hpatch
  rw [hop, happlied]
  intro _ f hf
  rw [hf] at hline
  obtain rfl := Option.some.inj hline
  exact hstands

/-- The call is no `apply`. -/
def NoApply (call : WorkflowCall) : Prop := ∀ findingId confirmed, call.op ≠ .apply findingId confirmed

lemma appliedPatch_of_noApply {world : World} {call : WorkflowCall} (hop : NoApply call) :
    appliedPatch rt world call = none := by
  unfold appliedPatch
  split
  · rename_i findingId confirmed h
    exact absurd h (hop findingId confirmed)
  · rfl

/-- Calls other than `apply` move no line. -/
lemma exec_trackedStep_origins {path : Path} {calls : List WorkflowCall}
    (hcalls : ∀ call ∈ calls, NoApply call) (state : Tracked) :
    (exec (trackedStep policy rt path) state calls).origins = state.origins := by
  induction calls generalizing state with
  | nil => rfl
  | cons call calls ih =>
      rw [exec_cons, ih (fun c hc => hcalls c (List.mem_cons_of_mem _ hc))]
      simp [trackedStep, appliedPatch_of_noApply (hcalls call (List.mem_cons_self ..))]

lemma throughout_fixedInPlace_noApply {path : Path} {lines : String → Nat → Prop}
    {scanned : String → Option CandidateFinding} {calls : List WorkflowCall}
    (hcalls : ∀ call ∈ calls, NoApply call) (state : Tracked) :
    Throughout (trackedStep policy rt path) (FixedInPlace rt path lines scanned) state calls := by
  rw [throughout_iff]
  rintro pre call rest rfl
  have hop := hcalls call (by simp)
  unfold FixedInPlace
  split
  · rename_i findingId confirmed h
    exact absurd h (hop findingId confirmed)
  · trivial

section FixCalls

variable {scanned snapshot findingId requestId source patched : String} {f : CandidateFinding}
  {proposal : RemediationProposal}

lemma noApply_fixCalls_take :
    ∀ call ∈ (fixCalls rt scanned snapshot findingId requestId).take 3, NoApply call := by
  simp [fixCalls, NoApply, projectCall]

/-- The patch of a fix that goes through. -/
lemma appliedPatch_fixCalls {world : World} (hkeyed : RecordsKeyed world)
    (h : Fixes rt scanned findingId source f proposal patched)
    (hgate : GatePasses (approvedFor rt scanned snapshot world.approvals findingId requestId)
      findingId)
    (htext : sourceText rt world = some source) :
    ∃ record, appliedPatch rt
      (exec (workflowStep defaultPolicy rt) world
        ((fixCalls rt scanned snapshot findingId requestId).take 3))
      (projectCall rt scanned snapshot (.apply findingId true) 1 requestId)
        = some (⟨record, proposal, samplePath⟩, source, patched) := by
  obtain ⟨hopen, -, htext', record, hrecord, -, hproposal, hstatus⟩ :=
    exec_fixCalls_take hkeyed h hgate htext
  have hadm : admission (projectCall rt scanned snapshot (.apply findingId true) 1 requestId).env
      (exec (workflowStep defaultPolicy rt) world
        ((fixCalls rt scanned snapshot findingId requestId).take 3)) findingId true
        = .ok ⟨record, proposal, samplePath⟩ :=
    admission_projectCall hopen hrecord hproposal h.target_eq (by simp [hstatus])
  have hread := readText_sample htext'
  exact ⟨record, appliedPatch_of_admission rfl hadm hread h.applies⟩

/-- What a fix that goes through does to the lines of the file. -/
lemma exec_trackedStep_fixCalls {state : Tracked} (hkeyed : RecordsKeyed state.world)
    (h : Fixes rt scanned findingId source f proposal patched)
    (hgate : GatePasses
      (approvedFor rt scanned snapshot state.world.approvals findingId requestId) findingId)
    (htext : sourceText rt state.world = some source) :
    (exec (trackedStep defaultPolicy rt samplePath) state
      (fixCalls rt scanned snapshot findingId requestId)).origins
        = movedOrigins rt.py proposal source state.origins := by
  obtain ⟨record, hpatch⟩ := appliedPatch_fixCalls hkeyed h hgate htext
  have hsplit : fixCalls rt scanned snapshot findingId requestId
      = (fixCalls rt scanned snapshot findingId requestId).take 3
        ++ [projectCall rt scanned snapshot (.apply findingId true) 1 requestId] := rfl
  rw [hsplit, exec_concat, trackedStep, exec_trackedStep_world, hpatch,
    exec_trackedStep_origins noApply_fixCalls_take]
  simp

end FixCalls

/-- The calls of `fixedOnce` before the application of the fix. -/
def beforeFix : List WorkflowCall :=
  callsOn onceRuntime (callsText ["shlex", "os"] [false]) (callsText ["shlex", "os"] [true])
    ((fixOps (callFinding 3 4) "a").take 3)

/-- The application of the fix. -/
def fixCall : WorkflowCall :=
  projectCall onceRuntime (callsText ["shlex", "os"] [false]) (callsText ["shlex", "os"] [true])
    (.apply (callFinding 3 4) true) 1 "a"

lemma fixedOnce_eq : fixedOnce = beforeFix ++ fixCall :: [projectCall onceRuntime
    (callsText ["shlex", "os"] [false]) (callsText ["shlex", "os"] [true])
    (.verify (callFinding 3 4)) 1 "a"] := rfl

/-- The fix of the only call. -/
lemma exists_onlyFix : ∃ f proposal, Fixes onceRuntime (callsText ["shlex", "os"] [false])
    (callFinding 3 4) (callsText ["shlex", "os"] [false]) f proposal
    (callsText ["shlex", "os"] [true]) := by
  have hpasses : fixPasses onceRuntime (callsText ["shlex", "os"] [false]) (callFinding 3 4)
      (callsText ["shlex", "os"] [false]) (callsText ["shlex", "os"] [true]) = true := by
    decide +kernel
  exact exists_fixes hpasses (by decide +kernel)

lemma once_gatePasses : GatePasses (approvedFor onceRuntime (callsText ["shlex", "os"] [false])
    (callsText ["shlex", "os"] [true]) .empty (callFinding 3 4) "a") (callFinding 3 4) := by
  decide +kernel

lemma sourceText_once : sourceText onceRuntime (World.initial
    (oneFileWorkspace onceRuntime (callsText ["shlex", "os"] [false])))
      = some (callsText ["shlex", "os"] [false]) := by
  decide +kernel

/-- Where the statement of a finding stands when its fix is applied, in a run that rewrites
nothing else. -/
lemma standsAt_of_throughout (rt : Runtime) (lines : String → Nat → Prop) (start state : Tracked)
    (call : WorkflowCall) (findingId : String) {path : Path} {calls pre post : List WorkflowCall}
    {adm : Admission} {source patched : String}
    (h : Throughout (trackedStep policy rt path) (RewritesOwn policy rt path lines) start calls)
    (hcalls : calls = pre ++ call :: post)
    (hstate : exec (trackedStep policy rt path) start pre = state)
    (hop : call.op = .apply findingId true)
    (hpatch : appliedPatch rt state.world call = some (adm, source, patched))
    (hpath : adm.path = path) :
    StandsAt state.origins (lines findingId) (adm.proposal.line - 1)
      (replacedCount source adm.proposal.line) := by
  rw [throughout_iff] at h
  have hcall := h pre call post hcalls
  rw [hstate] at hcall
  unfold RewritesOwn at hcall
  rw [hop, hpatch] at hcall
  exact hcall hpath

/-- The state of `fixedThird` before its last `apply`. -/
def beforeThird : Tracked :=
  exec (trackedStep defaultPolicy thriceRuntime samplePath)
    (Tracked.initial (oneFileWorkspace thriceRuntime (callsText ["os"] [false, false, false]))
      (callsText ["os"] [false, false, false])) (fixedThird.take 7)

/-- The application of the third fix. -/
def thirdFixCall : WorkflowCall :=
  projectCall thriceRuntime (callsText ["os"] [false, false, false])
    (callsText ["shlex", "os"] [true, true, false]) (.apply (callFinding 2 5) true) 1 "c"

lemma fixedThird_eq : fixedThird = fixedThird.take 7 ++ thirdFixCall :: fixedThird.drop 8 := rfl

/-- The lines of the file before the last `apply`. -/
lemma beforeThird_origins :
    beforeThird.origins = [none, some 1, some 2, some 3, some 4, some 5] := by
  obtain ⟨f, proposal, hfix⟩ := exists_firstFix
  let initial := Tracked.initial (oneFileWorkspace thriceRuntime scannedThrice) scannedThrice
  have hmoved : (exec (trackedStep defaultPolicy thriceRuntime samplePath) initial
      (thriceFix (callFinding 2 3) "a")).origins
        = movedOrigins thriceRuntime.py proposal scannedThrice (scanOrigins scannedThrice) :=
    exec_trackedStep_fixCalls (initial_keyed _) hfix first_gatePasses sourceText_thrice
  have horigins := hfix.passes (show builtPasses thriceRuntime scannedThrice (callFinding 2 3)
    scannedThrice (fun _ proposal => movedOrigins thriceRuntime.py proposal scannedThrice
      (scanOrigins scannedThrice) = [none, some 1, some 2, some 3, some 4, some 5]) = true by
        decide +kernel)
  have hsplit : fixedThird.take 7 = thriceFix (callFinding 2 3) "a"
      ++ (thriceFix (callFinding 2 5) "c").take 3 := rfl
  rw [beforeThird, hsplit, exec_append, exec_trackedStep_origins noApply_fixCalls_take, hmoved]
  exact of_decide_eq_true horigins

/-- The patch of the last `apply`, anchored at the line of the scan. -/
lemma appliedPatch_thirdFixCall : ∃ adm,
    appliedPatch thriceRuntime beforeThird.world thirdFixCall
        = some (adm, patchedOnce, patchedTwice)
      ∧ adm.path = samplePath ∧ adm.proposal.line = 5 := by
  obtain ⟨f, proposal, hfix⟩ := exists_thirdFix
  obtain ⟨happrovals, htext⟩ := afterThird_four
  have hgate : GatePasses (approvedFor thriceRuntime scannedThrice patchedTwice
      (afterThird 4).approvals (callFinding 2 5) "c") (callFinding 2 5) := by
    rw [happrovals]
    exact third_gatePasses
  have hkeyed : RecordsKeyed (afterThird 4) := worldAfter_keyed _ _ _ _
  obtain ⟨record, hpatch⟩ := appliedPatch_fixCalls hkeyed hfix hgate htext
  have hsplit : fixedThird.take 7 = fixedThird.take 4
      ++ (thriceFix (callFinding 2 5) "c").take 3 := rfl
  have hworld : beforeThird.world = exec (workflowStep defaultPolicy thriceRuntime) (afterThird 4)
      ((thriceFix (callFinding 2 5) "c").take 3) := by
    rw [beforeThird, exec_trackedStep_world, hsplit, exec_append]
    rfl
  have hline : (findingsOf thriceRuntime scannedThrice (callFinding 2 5)).map
      (fun f => f.sink.line) = some 5 := by decide +kernel
  rw [hfix.found, Option.map_some] at hline
  rw [hworld]
  exact ⟨_, hpatch, rfl, (buildProposal_line hfix.built).trans (Option.some.inj hline)⟩

end Sast
