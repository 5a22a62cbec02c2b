import SastEngine.Lib.Interleaving
import SastEngine.Remediation.FailedWrites

/-!
# Interleaved applications of fixes

`apply` takes no lock: it reads the record, reads the file, computes the patched text, writes the
file and writes the record, and other applications come in between.  A task keeps the content it
has read together with the patches that were in it, so a write brings back the patches from the
time of the reading.
-/

namespace Sast

variable {rt : Runtime}

/-! ## Tasks -/

/-- Where an `apply` stands between two accesses. -/
inductive ApplyStage where
  | start
  | admitted (adm : Admission)
  | reading (adm : Admission) (source : String) (held : List (String × RemediationProposal))
  | refused (adm : Admission) (message : String)
  | computed (adm : Admission) (text : String) (held : List (String × RemediationProposal))
  | written (adm : Admission)
  | returned (result : Except RemediationError RemediationRecord)

/-- An `apply` in progress. -/
structure ApplyTask where
  env : Surroundings
  findingId : String
  confirmed : Bool
  stage : ApplyStage

/-- `file_path.write_text(patched)`: the file then holds exactly these patches. -/
def FixWorld.overwrite (s : FixWorld) (path : Path) (content : List UInt8)
    (held : List (String × RemediationProposal)) : FixWorld :=
  { s with
    world := s.world.write path content
    patches := s.patches.set path held }

lemma FixWorld.heldAt_overwrite (s : FixWorld) (path : Path) (content : List UInt8)
    (held : List (String × RemediationProposal)) (p : Path) :
    (s.overwrite path content held).heldAt p = if p = path then held else s.heldAt p := by
  simp only [FixWorld.heldAt, FixWorld.overwrite, Dict.get?_set]
  split_ifs <;> rfl

/-- The stage after the next access. -/
def ApplyTask.next (rt : Runtime) (s : FixWorld) (task : ApplyTask) : ApplyStage :=
  match task.stage with
  | .start =>
      match admission task.env s.world task.findingId task.confirmed with
      | .error e => .returned (.error e)
      | .ok adm => .admitted adm
  | .admitted adm =>
      match readText rt s.world adm.path with
      | .error e => .returned (.error e)
      | .ok source => .reading adm source (s.heldAt adm.path)
  | .reading adm source held =>
      match applyProposal rt.py adm.proposal source with
      | .error (.patchError message) => .refused adm message
      | .error (.raised message) => .returned (.error (.raised message))
      | .ok text => .computed adm text held
  | .refused _ message => .returned (.error (.gate message))
  | .computed adm _ _ => .written adm
  | .written adm => .returned (.ok (appliedRecord task.env adm.record))
  | .returned result => .returned result

/-- What the next access writes. -/
def ApplyTask.effect (rt : Runtime) (s : FixWorld) (task : ApplyTask) : FixWorld :=
  match task.stage with
  | .refused adm message => s.record .none (failedRecord adm.record message)
  | .computed adm text held =>
      s.overwrite adm.path (rt.encode text) ((task.findingId, adm.proposal) :: held)
  | .written adm => s.record .none (appliedRecord task.env adm.record)
  | .start | .admitted _ | .reading .. | .returned _ => s

/-- One atomic access of an `apply`. -/
def applyAccess (rt : Runtime) (s : FixWorld) (task : ApplyTask) : FixWorld × ApplyTask :=
  (task.effect rt s, { task with stage := task.next rt s })

/-- An `apply` that is started. -/
def applyTask (env : Surroundings) (findingId : String) (confirmed : Bool) : ApplyTask :=
  ⟨env, findingId, confirmed, .start⟩

/-- The task after some accesses with nothing in between. -/
def accesses (rt : Runtime) : Nat → FixWorld × ApplyTask → FixWorld × ApplyTask
  | 0, p => p
  | n + 1, p => accesses rt n (applyAccess rt p.1 p.2)

/-- A task that has returned makes no further access. -/
lemma accesses_returned (n : Nat) (s : FixWorld) {task : ApplyTask}
    {result : Except RemediationError RemediationRecord} (h : task.stage = .returned result) :
    accesses rt n (s, task) = (s, task) := by
  induction n with
  | zero => rfl
  | succ n ih =>
      have haccess : applyAccess rt s task = (s, task) := by
        cases task
        subst h
        rfl
      rw [accesses, haccess, ih]

/-- **With nothing in between the accesses are one `apply`.** -/
theorem accesses_alone (s : FixWorld) (env : Surroundings) (findingId : String)
    (confirmed : Bool) :
    accesses rt 5 (s, applyTask env findingId confirmed)
      = (s.apply rt env findingId confirmed .none,
        { applyTask env findingId confirmed with
          stage := .returned (apply rt env s.world findingId confirmed).1 }) := by
  unfold FixWorld.apply applyEnd apply applyTask
  cases hadm : admission env s.world findingId confirmed with
  | error e =>
      rw [accesses, applyAccess]
      simp only [ApplyTask.effect, ApplyTask.next, hadm]
      exact accesses_returned 4 s rfl
  | ok adm =>
      simp only [applyAdmitted]
      cases hread : readText rt s.world adm.path with
      | error e =>
          rw [accesses, accesses, applyAccess]
          simp only [applyAccess, ApplyTask.effect, ApplyTask.next, hadm, hread]
          exact accesses_returned 3 s rfl
      | ok source =>
          cases hpatch : applyProposal rt.py adm.proposal source with
          | ok text =>
              simp only [accesses, applyAccess, ApplyTask.effect, ApplyTask.next, hadm, hread,
                hpatch, FixWorld.overwrite, FixWorld.patch]
          | error failure =>
              cases failure with
              | patchError message =>
                  rw [accesses, accesses, accesses, accesses]
                  simp only [applyAccess, ApplyTask.effect, ApplyTask.next, hadm, hread, hpatch]
                  exact accesses_returned 1 _ rfl
              | raised message =>
                  rw [accesses, accesses, accesses]
                  simp only [applyAccess, ApplyTask.effect, ApplyTask.next, hadm, hread, hpatch]
                  exact accesses_returned 2 s rfl

/-! ## Fixes that are lost or doubled -/

/-- No fix is lost and none is applied twice: the file holds the patch of every record that says
applied, and no file holds the patch of a finding twice. -/
structure FixesKept (s : FixWorld) : Prop where
  held : ∀ findingId r, s.world.records.get? findingId = some r → r.status = .applied →
    s.InPlace findingId r
  once : ∀ path, (s.heldAt path).Nodup

/-- The task has come to its end. -/
def ApplyTask.finished (task : ApplyTask) : Bool :=
  match task.stage with
  | .returned _ => true
  | _ => false

/-- The task has made no access yet. -/
def ApplyTask.fresh (task : ApplyTask) : Bool :=
  match task.stage with
  | .start => true
  | _ => false

/-- The access loses and doubles nothing.  A write of the file brings back every patch that the
file holds by then: it was there when the content was read, or is that of the same proposal.  A
patch that can be computed is not computed from a content that holds it already. -/
def LosesNothing (rt : Runtime) (s : FixWorld) (task : ApplyTask) : Prop :=
  match task.stage with
  | .computed adm _ held => s.heldAt adm.path ⊆ (task.findingId, adm.proposal) :: held
  | .reading adm source held => (applyProposal rt.py adm.proposal source).isOk = true →
      (task.findingId, adm.proposal) ∉ held
  | _ => True

instance (s : FixWorld) (task : ApplyTask) : Decidable (LosesNothing rt s task) := by
  unfold LosesNothing
  split
  · exact inferInstanceAs (Decidable (∀ x, x ∈ _ → x ∈ _))
  · infer_instance
  · infer_instance

/-! ## The invariant -/

/-- The patches are in a text that was read. -/
def HeldIn (rt : Runtime) (source : String) (held : List (String × RemediationProposal)) : Prop :=
  ∃ content, rt.decode content = source ∧ ∀ entry ∈ held, HasPatch rt entry.2 content

/-- The record is that of the task's finding, and offers the proposal. -/
def ApplyTask.Offers (task : ApplyTask) (adm : Admission) : Prop :=
  adm.record.findingId = task.findingId ∧ adm.record.proposal = some adm.proposal

/-- What a task relies on between two accesses. -/
def ApplyTask.Sound (rt : Runtime) (s : FixWorld) (task : ApplyTask) : Prop :=
  match task.stage with
  | .start | .returned _ => True
  | .admitted adm | .refused adm _ => task.Offers adm
  | .reading adm source held =>
      task.Offers adm ∧ held.Nodup ∧ HeldIn rt source held
  | .computed adm text held =>
      task.Offers adm ∧ ((task.findingId, adm.proposal) :: held).Nodup
        ∧ ∀ entry ∈ (task.findingId, adm.proposal) :: held,
          HasPatch rt entry.2 (rt.encode text)
  | .written adm => task.Offers adm ∧ (task.findingId, adm.proposal) ∈ s.heldAt adm.path

/-- What holds between any two accesses. -/
structure PoolSound (rt : Runtime) (s : FixWorld) (tasks : List ApplyTask) : Prop where
  keyed : RecordsKeyed s.world
  kept : FixesKept s
  patches : PatchesHeld rt s
  tasks : ∀ task ∈ tasks, task.Sound rt s

section Access

variable {s : FixWorld} {task : ApplyTask}

lemma inPlace_mono {s' : FixWorld} (hmono : ∀ path, s.heldAt path ⊆ s'.heldAt path)
    {findingId : String} {r : RemediationRecord} (h : s.InPlace findingId r) :
    s'.InPlace findingId r := by
  obtain ⟨proposal, hproposal, path, hmem⟩ := h
  exact ⟨proposal, hproposal, path, hmono path hmem⟩

/-- An access that loses nothing takes no patch from a file. -/
lemma heldAt_effect (hloses : LosesNothing rt s task) (path : Path) :
    s.heldAt path ⊆ (task.effect rt s).heldAt path := by
  unfold ApplyTask.effect
  unfold LosesNothing at hloses
  cases hstage : task.stage with
  | computed adm text held =>
      simp only [hstage] at hloses
      intro entry hentry
      rw [FixWorld.heldAt_overwrite]
      split_ifs with hp
      · subst hp
        exact hloses hentry
      · exact hentry
  | start | admitted | reading | refused | written | returned => exact List.Subset.refl _

/-- An access that loses nothing leaves the other tasks what they rely on. -/
lemma ApplyTask.Sound.effect {other : ApplyTask} (hloses : LosesNothing rt s task)
    (h : other.Sound rt s) : other.Sound rt (task.effect rt s) := by
  unfold ApplyTask.Sound at h ⊢
  cases hstage : other.stage with
  | written adm =>
      simp only [hstage] at h ⊢
      exact ⟨h.1, heldAt_effect hloses adm.path h.2⟩
  | start | returned => trivial
  | admitted | reading | refused | computed => simpa only [hstage] using h

/-- What the task itself relies on after its access. -/
lemma ApplyTask.Sound.next {tasks : List ApplyTask} (h : PoolSound rt s tasks)
    (hloses : LosesNothing rt s task) (hsound : task.Sound rt s) :
    (applyAccess rt s task).2.Sound rt (applyAccess rt s task).1 := by
  simp only [applyAccess, ApplyTask.Sound, ApplyTask.next, ApplyTask.effect]
  unfold ApplyTask.Sound at hsound
  unfold LosesNothing at hloses
  cases hstage : task.stage with
  | start =>
      simp only
      cases hadm : admission task.env s.world task.findingId task.confirmed with
      | error e => trivial
      | ok adm =>
          obtain ⟨-, hproposal, -⟩ := offeredProposal_ok.1 (admission_ok.1 hadm).1
          exact ⟨admission_findingId h.keyed hadm, hproposal⟩
  | admitted adm =>
      simp only [hstage] at hsound ⊢
      cases hread : readText rt s.world adm.path with
      | error e => trivial
      | ok source =>
          obtain ⟨content, hcontent, hdecode⟩ := readText_ok hread
          refine ⟨hsound, h.kept.once adm.path, content, hdecode, ?_⟩
          rintro ⟨findingId, proposal⟩ hentry
          obtain ⟨held, hheld, hhas⟩ := h.patches adm.path findingId proposal hentry
          obtain rfl := Option.some.inj (hcontent.symm.trans hheld)
          exact hhas
  | reading adm source held =>
      simp only [hstage] at hsound hloses ⊢
      obtain ⟨hoffers, honce, content, rfl, hhas⟩ := hsound
      cases hpatch : applyProposal rt.py adm.proposal (rt.decode content) with
      | error failure => cases failure <;> first | exact hoffers | trivial
      | ok text =>
          refine ⟨hoffers, ?_, ?_⟩
          · exact List.nodup_cons.2 ⟨hloses (by rw [hpatch]; rfl), honce⟩
          · intro entry hentry
            rcases List.mem_cons.1 hentry with rfl | hentry
            · exact .written hpatch
            · exact .further adm.proposal (hhas entry hentry) hpatch
  | computed adm text held =>
      simp only [hstage] at hsound ⊢
      refine ⟨hsound.1, ?_⟩
      simp [FixWorld.heldAt_overwrite]
  | refused | written | returned => trivial

/-- The effect of an access keeps what holds of records and files. -/
lemma poolSound_effect {tasks : List ApplyTask} (h : PoolSound rt s tasks)
    (hloses : LosesNothing rt s task) (hsound : task.Sound rt s) :
    RecordsKeyed (task.effect rt s).world ∧ FixesKept (task.effect rt s)
      ∧ PatchesHeld rt (task.effect rt s) := by
  have hmono := heldAt_effect hloses
  unfold ApplyTask.Sound at hsound
  unfold ApplyTask.effect at hmono ⊢
  cases hstage : task.stage with
  | start | admitted | reading | returned => exact ⟨h.keyed, h.kept, h.patches⟩
  | refused adm message =>
      refine ⟨putRecord_keyed h.keyed _, ⟨?_, h.kept.once⟩, h.patches⟩
      intro findingId r hr happlied
      have hr : (s.world.putRecord (failedRecord adm.record message)).records.get? findingId
          = some r := hr
      rw [putRecord_get] at hr
      split_ifs at hr
      · obtain rfl := Option.some.inj hr
        cases happlied
      · exact h.kept.held findingId r hr happlied
  | written adm =>
      simp only [hstage] at hsound
      obtain ⟨⟨hid, hproposal⟩, hmem⟩ := hsound
      refine ⟨putRecord_keyed h.keyed _, ⟨?_, h.kept.once⟩, h.patches⟩
      intro findingId r hr happlied
      have hr : (s.world.putRecord (appliedRecord task.env adm.record)).records.get? findingId
          = some r := hr
      rw [putRecord_get] at hr
      split_ifs at hr with hf
      · obtain rfl := Option.some.inj hr
        obtain rfl : findingId = task.findingId := hf.trans hid
        exact ⟨adm.proposal, hproposal, adm.path, hmem⟩
      · exact h.kept.held findingId r hr happlied
  | computed adm text held =>
      simp only [hstage] at hsound hmono
      obtain ⟨-, honce, hhas⟩ := hsound
      refine ⟨h.keyed, ⟨?_, ?_⟩, ?_⟩
      · intro findingId r hr happlied
        exact inPlace_mono hmono (h.kept.held findingId r hr happlied)
      · intro path
        rw [FixWorld.heldAt_overwrite]
        split_ifs
        · exact honce
        · exact h.kept.once path
      · intro path findingId proposal hentry
        rw [FixWorld.heldAt_overwrite] at hentry
        simp only [FixWorld.overwrite, World.write]
        split_ifs at hentry with hp
        · exact ⟨rt.encode text, by rw [if_pos hp], hhas _ hentry⟩
        · obtain ⟨content, hcontent, hheld⟩ := h.patches path findingId proposal hentry
          exact ⟨content, by rw [if_neg hp, hcontent], hheld⟩

/-- One access among the others. -/
lemma PoolSound.access {pre post : List ApplyTask} (h : PoolSound rt s (pre ++ task :: post))
    (hloses : LosesNothing rt s task) :
    PoolSound rt (applyAccess rt s task).1 (pre ++ (applyAccess rt s task).2 :: post) := by
  have hsound : task.Sound rt s := h.tasks task (by simp)
  obtain ⟨hkeyed, hkept, hpatches⟩ := poolSound_effect h hloses hsound
  refine ⟨hkeyed, hkept, hpatches, ?_⟩
  intro other hother
  rcases List.mem_append.1 hother with hpre | hpost
  · exact (h.tasks other (List.mem_append_left _ hpre)).effect hloses
  · rcases List.mem_cons.1 hpost with rfl | hpost
    · exact ApplyTask.Sound.next h hloses hsound
    · exact (h.tasks other (List.mem_append_right _ (List.mem_cons_of_mem _ hpost))).effect hloses

end Access

/-! ## Interleavings -/

/-- Any number of applications of any findings, started and advanced in any order. -/
def interleave (rt : Runtime) (s : FixWorld) (moves : List (Move ApplyTask)) :
    Pool FixWorld ApplyTask :=
  exec (Pool.step (applyAccess rt)) ⟨s, []⟩ moves

/-- When all applications have finished, no fix is lost and none is applied twice. -/
def LosesNoFix (rt : Runtime) (s : FixWorld) (moves : List (Move ApplyTask)) : Prop :=
  (∀ task ∈ (interleave rt s moves).tasks, task.finished = true) →
    FixesKept (interleave rt s moves).shared

/-- Only fresh applications are started, and every access loses nothing. -/
def LosingNothing (rt : Runtime) (s : FixWorld) (moves : List (Move ApplyTask)) : Prop :=
  Throughout (Pool.step (applyAccess rt))
    (Pool.Allows (fun _ task => task.fresh = true) (LosesNothing rt)) ⟨s, []⟩ moves

/-- **Concurrent applications lose no fix** in every interleaving whose accesses lose nothing: in
every state that is reached, and so when all have finished, the files hold the patches of the
records that say applied, no finding's patch twice, and the patches are in their content. -/
theorem losesNoFix_of_losingNothing (rt : Runtime) (s : FixWorld) (hkeyed : RecordsKeyed s.world)
    (hkept : FixesKept s) (hheld : PatchesHeld rt s) (moves : List (Move ApplyTask))
    (hmoves : LosingNothing rt s moves) :
    LosesNoFix rt s moves ∧ ∀ pre post, moves = pre ++ post →
      FixesKept (interleave rt s pre).shared ∧ PatchesHeld rt (interleave rt s pre).shared := by
  have hsound : ∀ pre post, moves = pre ++ post →
      PoolSound rt (interleave rt s pre).shared (interleave rt s pre).tasks := by
    rintro pre post rfl
    refine Pool.exec_invariant (PoolSound rt) ?_ ?_ ?_ (throughout_append.1 hmoves).1
    · intro s tasks task h hfresh
      refine ⟨h.keyed, h.kept, h.patches, ?_⟩
      intro other hother
      rcases List.mem_append.1 hother with hold | hnew
      · exact h.tasks other hold
      · obtain rfl := List.mem_singleton.1 hnew
        unfold ApplyTask.fresh at hfresh
        unfold ApplyTask.Sound
        cases hstage : other.stage <;> simp_all
    · intro s pre task post h hloses
      exact h.access hloses
    · exact ⟨hkeyed, hkept, hheld, by simp⟩
  constructor
  · intro _
    exact (hsound moves [] (by simp)).kept
  · intro pre post heq
    exact ⟨(hsound pre post heq).kept, (hsound pre post heq).patches⟩

/-! ## Two fixes of one file -/

/-- The text of a file with two commands, of which some have been quoted. -/
def commandsText (first second : String) : String :=
  "import shlex\nos.system(" ++ first ++ ")\nos.system(" ++ second ++ ")\n"

/-- An interpreter that accepts the four texts, and ASCII files. -/
def commandsRuntime : Runtime where
  py := tabulatedPython
    ((["a", "shlex.quote(a)"].flatMap fun first => ["b", "shlex.quote(b)"].map fun second =>
      (commandsText first second, (⟨[]⟩ : Module)))) []
  decode := systemRuntime.decode
  encode := systemRuntime.encode

/-- The fix that quotes one of the commands. -/
def quotingProposal (findingId : String) (line : Nat) (command : String) :
    RemediationProposal where
  findingId := findingId
  vulnerabilityType := "command_injection"
  file := "app.py"
  line := line
  strategy := .shellQuote
  before := "os.system(" ++ command ++ ")"
  after := "os.system(shlex.quote(" ++ command ++ "))"
  rationale := shellQuoteRationale

/-- Its record. -/
def quotingRecord (findingId : String) (line : Nat) (command : String) : RemediationRecord where
  findingId := findingId
  approvalId := findingId
  status := .proposed
  proposal := some (quotingProposal findingId line command)
  createdAt := ⟨0, some 0⟩

/-- The approvals of both fixes. -/
def commandApprovals : ApprovalStore :=
  (exec (workflowStep defaultPolicy commandsRuntime) (World.initial fun _ => none)
    (["A", "B"].flatMap fun findingId =>
      [projectCall commandsRuntime "" "" (.approval (.request findingId .remediation "dev" none
        none)) 1 findingId,
      projectCall commandsRuntime "" "" (.approval (.decide .approve findingId "lead" none none)) 1
        findingId])).approvals

/-- Both fixes are approved and proposed. -/
def twoProposed : FixWorld where
  world :=
    { approvals := commandApprovals
      records := (Dict.empty.set "A" (quotingRecord "A" 2 "a")).set "B" (quotingRecord "B" 3 "b")
      files := oneFileWorkspace commandsRuntime (commandsText "a" "b") }
  rows := .empty
  patches := .empty

/-- The application of one of the fixes. -/
def commandTask (findingId : String) : ApplyTask :=
  applyTask (projectCall commandsRuntime "" "" (.apply findingId true) 2 findingId).env findingId
    true

/-- Both applications are started before the first one is advanced. -/
def commandStarts : List (Move ApplyTask) := [.start (commandTask "A"), .start (commandTask "B")]

lemma twoProposed_keyed : RecordsKeyed twoProposed.world := by
  intro findingId r h
  simp only [twoProposed, Dict.get?_set] at h
  split_ifs at h with hB hA
  · rw [← Option.some.inj h, hB]
    rfl
  · rw [← Option.some.inj h, hA]
    rfl
  · simp at h

lemma twoProposed_kept : FixesKept twoProposed where
  held := by
    intro findingId r h happlied
    simp only [twoProposed, Dict.get?_set] at h
    split_ifs at h
    · rw [← Option.some.inj h] at happlied
      cases happlied
    · rw [← Option.some.inj h] at happlied
      cases happlied
    · simp at h
  once := fun _ => List.nodup_nil

lemma twoProposed_held : PatchesHeld commandsRuntime twoProposed := by
  intro path findingId proposal h
  simp [FixWorld.heldAt, twoProposed] at h

/-- The second application reads the file after the first one has written it. -/
def orderedMoves : List (Move ApplyTask) :=
  commandStarts ++ [.advance 0, .advance 1, .advance 0, .advance 0, .advance 0, .advance 1,
    .advance 1, .advance 1, .advance 0, .advance 1]

/-- Then both fixes are in the file. -/
theorem losesNoFix_orderedMoves : LosesNoFix commandsRuntime twoProposed orderedMoves
    ∧ sourceText commandsRuntime (interleave commandsRuntime twoProposed orderedMoves).shared.world
      = some (commandsText "shlex.quote(a)" "shlex.quote(b)") := by
  refine ⟨(losesNoFix_of_losingNothing commandsRuntime twoProposed twoProposed_keyed
    twoProposed_kept twoProposed_held orderedMoves ?_).1, by decide +kernel⟩
  unfold LosingNothing
  decide +kernel

/-- Both applications read the file before either one writes it. -/
def lostMoves : List (Move ApplyTask) :=
  commandStarts ++ [.advance 0, .advance 1, .advance 0, .advance 1, .advance 0, .advance 1,
    .advance 0, .advance 1, .advance 0, .advance 1]

/-- **Concurrent applications can lose a fix**: both records say applied, and the file holds the
patch of the second one only. -/
theorem not_losesNoFix : ¬ LosesNoFix commandsRuntime twoProposed lostMoves := by
  intro h
  let last := (interleave commandsRuntime twoProposed lostMoves).shared
  have hfinished : ∀ task ∈ (interleave commandsRuntime twoProposed lostMoves).tasks,
      task.finished = true := by decide +kernel
  have hstatus : (last.world.records.get? "A").map RemediationRecord.status = some .applied := by
    decide +kernel
  have hheld : ∀ held ∈ last.patches.values, ∀ entry ∈ held, entry.1 ≠ "A" := by
    decide +kernel
  obtain ⟨r, hr, happlied⟩ := Option.map_eq_some_iff.1 hstatus
  obtain ⟨proposal, -, path, hmem⟩ := (h hfinished).held "A" r hr happlied
  change ("A", proposal) ∈ last.heldAt path at hmem
  unfold FixWorld.heldAt at hmem
  cases hpath : last.patches.get? path with
  | none => simp [hpath] at hmem
  | some held =>
      rw [hpath, Option.getD_some] at hmem
      exact hheld held (last.patches.mem_values_iff.2 ⟨path, hpath⟩) _ hmem rfl

end Sast
