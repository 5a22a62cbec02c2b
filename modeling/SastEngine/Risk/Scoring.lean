import Mathlib.Algebra.Ring.Int.Defs
import Mathlib.Order.Lattice
import SastEngine.Dedup.Service
import SastEngine.Lib.Thresholds
import SastEngine.Risk.Service
import SastEngine.Validate.Results

/-!
# Risk scoring

`risk/scoring.py`, and the assessments of `risk/service.py`.  A score is the clamped sum of what its
factors contribute.  More evidence never lowers the score, never makes the priority less urgent, and
never moves the deadline of an SLA that starts at the same time.
-/

namespace Sast

/-! ## The scorer -/

/-- `RiskFactor`. -/
structure RiskFactor where
  name : String
  value : String
  points : Int
  description : String
deriving DecidableEq

/-- `str.lower` and `str.upper`. -/
structure StringCase where
  lower : String → String
  upper : String → String

/-- `SEVERITY_WEIGHTS`. -/
def severityWeights : Dict String Int :=
  ⟨[("critical", 100), ("high", 75), ("medium", 50), ("low", 25), ("info", 5)], by decide⟩

/-- `PRIORITY_THRESHOLDS`. -/
def priorityThresholds : List (Int × Priority) :=
  [(90, .p0), (75, .p1), (50, .p2), (25, .p3), (0, .p4)]

/-- `RiskPolicy`. -/
structure RiskPolicy where
  severityWeights : Dict String Int := Sast.severityWeights
  validatedBonus : Int := 10
  proofBonus : Int := 10
  proofIncreasesPriority : Bool := true
  priorityThresholds : List (Int × Priority) := Sast.priorityThresholds

namespace RiskScorer

variable (policy : RiskPolicy) (letters : StringCase)

/-- `_priority_for`. -/
def priorityFor (score : Int) : Priority := grade policy.priorityThresholds .p4 score

/-- The factor of a false positive. -/
def falsePositiveFactor : RiskFactor where
  name := "validation"
  value := "false_positive"
  points := 0
  description := "LLM validation concluded the finding is a false positive; no risk assigned"

/-- `weight`. -/
def weight (severity : String) : Int :=
  (policy.severityWeights.get? (letters.lower severity)).getD 0

/-- The factor of the severity. -/
def severityFactor (severity : String) : RiskFactor :=
  match policy.severityWeights.get? (letters.lower severity) with
  | none =>
      { name := "severity", value := severity, points := 0
        description := "severity not in the known weight table; weighted 0 (not fabricated)" }
  | some weight =>
      { name := "severity", value := severity, points := weight
        description := s!"base severity weight ({letters.upper severity} = {weight})" }

/-- The factor of a verdict that leaves the finding standing. -/
def verdictFactor : Option Verdict → Option RiskFactor
  | some .truePositive => some
      { name := "validation", value := "true_positive", points := policy.validatedBonus
        description := "validated as a true positive (exploitable candidate)" }
  | some .uncertain => some
      { name := "validation", value := "uncertain", points := 0
        description := "validation uncertain - not confirmed, no bonus" }
  | _ => none

/-- The factor of a proof. -/
def proofFactor : Option ProofStatus → Option RiskFactor
  | some .verified => some <|
      if policy.proofIncreasesPriority then
        { name := "proof", value := "verified", points := policy.proofBonus
          description := "sandboxed proof verified exploitability" }
      else
        { name := "proof", value := "verified", points := 0
          description := "proof verified but policy does not increase priority" }
  | _ => none

/-- `score`. -/
def score (finding : CandidateFinding) (validation : Option ValidationResult)
    (proof : Option ProofResult) : Int × Priority × List RiskFactor :=
  let verdict := validation.map ValidationResult.verdict
  let status := proof.map ProofResult.status
  if verdict = some .falsePositive then (0, .p4, [falsePositiveFactor])
  else
    let base := weight policy letters finding.severity
    let confirmed := if verdict = some .truePositive then base + policy.validatedBonus else base
    let total :=
      if status = some .verified ∧ policy.proofIncreasesPriority = true then
        confirmed + policy.proofBonus
      else confirmed
    let score := max 0 (min 100 total)
    (score, priorityFor policy score,
      severityFactor policy letters finding.severity
        :: ((verdictFactor policy verdict).toList ++ (proofFactor policy status).toList))

end RiskScorer

/-! ## Assessments -/

/-- `RiskAssessment`, with the fields that no other stage decides anything by. -/
structure AssessmentReport extends RiskAssessment where
  vulnerabilityType : String
  severity : String
  riskScore : Int
  factors : List RiskFactor
  assessedAt : DateTime
  relatedFindingIds : List String := []
deriving DecidableEq

namespace RiskService

variable (policy : RiskPolicy) (letters : StringCase) (utcnow : DateTime)

/-- `assess`. -/
def assess (finding : CandidateFinding) (validation : Option ValidationResult)
    (proof : Option ProofResult) (assessedAt : Option DateTime) : AssessmentReport :=
  let scored := RiskScorer.score policy letters finding validation proof
  { findingId := finding.id
    vulnerabilityType := finding.vulnerabilityType
    severity := finding.severity
    riskScore := scored.1
    priority := scored.2.1
    factors := scored.2.2
    assessedAt := assessedAt.getD utcnow }

/-- `assess_group`. -/
def assessGroup (group : DeduplicationGroup) (validation : Option ValidationResult)
    (proof : Option ProofResult) (assessedAt : Option DateTime) : AssessmentReport :=
  { assess policy letters utcnow group.representativeFinding validation proof assessedAt with
    relatedFindingIds := group.memberFindingIds.insertionSort (· ≤ ·) }

end RiskService

/-! ## What a score goes by -/

/-- A finding with what is known about it. -/
structure RiskSubject where
  finding : CandidateFinding
  validation : Option ValidationResult
  proof : Option ProofResult

namespace RiskSubject

variable (policy : RiskPolicy) (letters : StringCase) (subject : RiskSubject)

/-- The verdict on the finding. -/
def verdict : Option Verdict := subject.validation.map ValidationResult.verdict

/-- The status of its proof. -/
def status : Option ProofStatus := subject.proof.map ProofResult.status

/-- How much the verdict says against the finding: no verdict is as good as an uncertain one. -/
def standing : Nat :=
  match subject.verdict with
  | some .falsePositive => 0
  | some .truePositive => 2
  | _ => 1

/-- The points before they are clamped. -/
def points : Int :=
  RiskScorer.weight policy letters subject.finding.severity
    + (if subject.verdict = some .truePositive then policy.validatedBonus else 0)
    + if subject.status = some .verified ∧ policy.proofIncreasesPriority = true then
        policy.proofBonus
      else 0

/-- There is at least as much evidence against the second finding. -/
structure AtMost (subject subject' : RiskSubject) : Prop where
  weight : RiskScorer.weight policy letters subject.finding.severity
    ≤ RiskScorer.weight policy letters subject'.finding.severity
  standing : subject.standing ≤ subject'.standing
  proved : subject.status = some .verified → subject'.status = some .verified

end RiskSubject

/-- `_PRIORITY_RANK`. -/
def Priority.rank : Priority → Nat
  | .p0 => 0
  | .p1 => 1
  | .p2 => 2
  | .p3 => 3
  | .p4 => 4

/-- Bonuses do not count against a finding, and no later threshold has a more urgent priority. -/
structure RiskPolicy.Rewards (policy : RiskPolicy) : Prop where
  validated : 0 ≤ policy.validatedBonus
  proof : 0 ≤ policy.proofBonus
  thresholds : policy.priorityThresholds.Pairwise fun upper lower => upper.2.rank ≤ lower.2.rank

/-- A more urgent priority has no later deadline. -/
def SLAPolicy.Tightens (policy : SLAPolicy) : Prop :=
  ∀ urgent priority, urgent.rank ≤ priority.rank → ∀ duration,
    policy.durationFor priority = some duration →
      ∃ shorter, policy.durationFor urgent = some shorter ∧ shorter ≤ duration

lemma rewards_default : RiskPolicy.Rewards {} where
  validated := by decide
  proof := by decide
  thresholds := by
    show priorityThresholds.Pairwise _
    decide

lemma tightens_default : defaultDeadlines.Tightens := by
  intro urgent priority hrank duration hduration
  have hshorter : ∀ urgent priority : Priority, urgent.rank ≤ priority.rank →
      ∀ duration ∈ defaultDeadlines.durationFor priority,
        (defaultDeadlines.durationFor urgent).any (· ≤ duration) = true := by
    intro urgent priority
    cases urgent <;> cases priority <;> decide
  have hany := hshorter urgent priority hrank duration hduration
  cases hurgent : defaultDeadlines.durationFor urgent with
  | none => simp [hurgent] at hany
  | some shorter => exact ⟨shorter, rfl, by simpa [hurgent] using hany⟩

lemma rank_le_p4 (priority : Priority) : priority.rank ≤ Priority.p4.rank := by
  cases priority <;> decide

/-! ## Scores -/

section Scores

variable {policy : RiskPolicy} {letters : StringCase} {subject subject' : RiskSubject}

lemma score_falsePositive {finding : CandidateFinding} {validation : Option ValidationResult}
    {proof : Option ProofResult}
    (h : validation.map ValidationResult.verdict = some .falsePositive) :
    RiskScorer.score policy letters finding validation proof
      = (0, .p4, [RiskScorer.falsePositiveFactor]) := if_pos h

/-- The score of a finding that stands. -/
lemma score_standing (h : subject.verdict ≠ some .falsePositive) :
    RiskScorer.score policy letters subject.finding subject.validation subject.proof
      = (max 0 (min 100 (subject.points policy letters)),
        RiskScorer.priorityFor policy (max 0 (min 100 (subject.points policy letters))),
        RiskScorer.severityFactor policy letters subject.finding.severity
          :: ((RiskScorer.verdictFactor policy subject.verdict).toList
            ++ (RiskScorer.proofFactor policy subject.status).toList)) := by
  have hpoints : (if subject.status = some .verified ∧ policy.proofIncreasesPriority = true then
        (if subject.verdict = some .truePositive then
            RiskScorer.weight policy letters subject.finding.severity + policy.validatedBonus
          else RiskScorer.weight policy letters subject.finding.severity) + policy.proofBonus
      else if subject.verdict = some .truePositive then
          RiskScorer.weight policy letters subject.finding.severity + policy.validatedBonus
        else RiskScorer.weight policy letters subject.finding.severity)
      = subject.points policy letters := by
    simp only [RiskSubject.points]
    split_ifs <;> omega
  rw [← hpoints]
  exact if_neg h

/-- **A score is transparent**: its factors account for all points. -/
lemma sum_factors (h : subject.verdict ≠ some .falsePositive) :
    ((RiskScorer.score policy letters subject.finding subject.validation subject.proof).2.2.map
      RiskFactor.points).sum = subject.points policy letters := by
  have hseverity : (RiskScorer.severityFactor policy letters subject.finding.severity).points
      = RiskScorer.weight policy letters subject.finding.severity := by
    rw [RiskScorer.severityFactor, RiskScorer.weight]
    cases policy.severityWeights.get? (letters.lower subject.finding.severity) <;> rfl
  have hverdict : ((RiskScorer.verdictFactor policy subject.verdict).toList.map
        RiskFactor.points).sum
      = if subject.verdict = some .truePositive then policy.validatedBonus else 0 := by
    cases subject.verdict with
    | none => rfl
    | some verdict => cases verdict <;> simp [RiskScorer.verdictFactor]
  have hproof : ((RiskScorer.proofFactor policy subject.status).toList.map RiskFactor.points).sum
      = if subject.status = some .verified ∧ policy.proofIncreasesPriority = true then
          policy.proofBonus
        else 0 := by
    cases subject.status with
    | none => rfl
    | some status =>
        cases status with
        | verified => cases h : policy.proofIncreasesPriority <;> simp [RiskScorer.proofFactor, h]
        | _ => simp [RiskScorer.proofFactor]
  rw [score_standing h, List.map_cons, List.sum_cons, List.map_append, List.sum_append, hseverity,
    hverdict, hproof, RiskSubject.points, Int.add_assoc]

/-- A score is between 0 and 100. -/
lemma score_mem (policy : RiskPolicy) (letters : StringCase) (subject : RiskSubject) :
    let score := (RiskScorer.score policy letters subject.finding subject.validation
      subject.proof).1
    0 ≤ score ∧ score ≤ 100 := by
  by_cases h : subject.verdict = some .falsePositive
  · rw [score_falsePositive h]
    simp
  · rw [score_standing h]
    omega

lemma verdict_of_standing (h : subject.standing ≤ subject'.standing) :
    (subject.verdict = some .truePositive → subject'.verdict = some .truePositive)
      ∧ (subject'.verdict = some .falsePositive → subject.verdict = some .falsePositive) := by
  simp only [RiskSubject.standing] at h
  cases hv : subject.verdict with
  | none => cases hv' : subject'.verdict with
    | none => simp
    | some verdict' => cases verdict' <;> simp_all
  | some verdict => cases hv' : subject'.verdict with
    | none => cases verdict <;> simp_all
    | some verdict' => cases verdict <;> cases verdict' <;> simp_all

lemma points_mono (hpolicy : policy.Rewards) (h : subject.AtMost policy letters subject') :
    subject.points policy letters ≤ subject'.points policy letters := by
  have hvalidated := hpolicy.validated
  have hproof := hpolicy.proof
  have hverdict : (if subject.verdict = some .truePositive then policy.validatedBonus else 0)
      ≤ if subject'.verdict = some .truePositive then policy.validatedBonus else 0 := by
    split_ifs with hless hmore hmore
    · exact le_rfl
    · exact absurd ((verdict_of_standing h.standing).1 hless) hmore
    · exact hvalidated
    · exact le_rfl
  have hstatus : (if subject.status = some .verified ∧ policy.proofIncreasesPriority = true then
        policy.proofBonus else 0)
      ≤ if subject'.status = some .verified ∧ policy.proofIncreasesPriority = true then
          policy.proofBonus else 0 := by
    split_ifs with hless hmore hmore
    · exact le_rfl
    · exact absurd ⟨h.proved hless.1, hless.2⟩ hmore
    · exact hproof
    · exact le_rfl
  have hweight := h.weight
  simp only [RiskSubject.points]
  omega

/-- A higher score has no less urgent priority. -/
lemma priorityFor_mono (hpolicy : policy.Rewards) {less more : Int} (h : less ≤ more) :
    (RiskScorer.priorityFor policy more).rank ≤ (RiskScorer.priorityFor policy less).rank :=
  grade_mono (fun urgent priority : Priority => urgent.rank ≤ priority.rank)
    (fun _ => le_rfl) hpolicy.thresholds (fun _ _ => rank_le_p4 _) h

end Scores

/-! ## More evidence -/

/-- The assessment of a finding with what is known about it. -/
def RiskSubject.assess (policy : RiskPolicy) (letters : StringCase) (utcnow : DateTime)
    (subject : RiskSubject) (assessedAt : Option DateTime) : AssessmentReport :=
  RiskService.assess policy letters utcnow subject.finding subject.validation subject.proof
    assessedAt

section MoreEvidence

variable {policy : RiskPolicy} {letters : StringCase} {subject subject' : RiskSubject}

lemma score_mono (hpolicy : policy.Rewards) (h : subject.AtMost policy letters subject') :
    (RiskScorer.score policy letters subject.finding subject.validation subject.proof).1
        ≤ (RiskScorer.score policy letters subject'.finding subject'.validation subject'.proof).1
      ∧ (RiskScorer.score policy letters subject'.finding subject'.validation
          subject'.proof).2.1.rank
        ≤ (RiskScorer.score policy letters subject.finding subject.validation
          subject.proof).2.1.rank := by
  by_cases hless : subject.verdict = some .falsePositive
  · rw [score_falsePositive hless]
    exact ⟨(score_mem policy letters subject').1, rank_le_p4 _⟩
  · have hmore : subject'.verdict ≠ some .falsePositive := fun hmore =>
      hless ((verdict_of_standing h.standing).2 hmore)
    have hpoints := points_mono hpolicy h
    have hscore : max 0 (min 100 (subject.points policy letters))
        ≤ max 0 (min 100 (subject'.points policy letters)) :=
      max_le_max_left 0 (min_le_min_left 100 hpoints)
    rw [score_standing hless, score_standing hmore]
    exact ⟨hscore, priorityFor_mono hpolicy hscore⟩

/-- The SLA of a more urgent assessment, started at the same time, is due no later. -/
lemma createSla_mono {deadlines : SLAPolicy} (hdeadlines : deadlines.Tightens)
    {urgent assessment : RiskAssessment} (h : urgent.priority.rank ≤ assessment.priority.rank)
    {utcnow : DateTime} {startedAt : Option DateTime} {record : SLARecord}
    (hrecord : SLAService.createSla deadlines utcnow assessment startedAt = .ok record) :
    ∃ record', SLAService.createSla deadlines utcnow urgent startedAt = .ok record'
      ∧ ∀ due, record.dueAt = some due →
        ∃ sooner, record'.dueAt = some sooner ∧ sooner.instant ≤ due.instant := by
  obtain ⟨started, hstarted, hrecord⟩ := bind_eq_ok.1 hrecord
  obtain rfl := pure_eq_ok.1 hrecord
  refine ⟨_, bind_eq_ok.2 ⟨started, hstarted, rfl⟩, fun due hdue => ?_⟩
  obtain ⟨duration, hduration, rfl⟩ := Option.map_eq_some_iff.1 hdue
  obtain ⟨shorter, hshorter, hle⟩ := hdeadlines _ _ h duration hduration
  refine ⟨SLAService.addDuration started shorter, by rw [hshorter]; rfl, ?_⟩
  simp only [DateTime.instant, DateTime.asAwareUtc, SLAService.addDuration]
  cases started.utcoffset with
  | none => exact Int.add_le_add_left hle started.clock
  | some offset => exact Int.sub_le_sub_right (Int.add_le_add_left hle started.clock) offset

/-- **More evidence never helps a finding.**  Under a policy whose bonuses do not count against a
finding and whose thresholds grade in order, a severity of at least the weight, a verdict of at
least the standing and a proof where there was one yield at least the score and at least as urgent a
priority; and with deadlines that tighten with the priority, an SLA started on that assessment is
due no later than one started on the other at the same time.  The score is between 0 and 100, and
the clamped sum of the points of its factors. -/
theorem assess_mono (policy : RiskPolicy) (hpolicy : policy.Rewards) (deadlines : SLAPolicy)
    (hdeadlines : deadlines.Tightens) (letters : StringCase) (subject subject' : RiskSubject)
    (h : subject.AtMost policy letters subject') (utcnow : DateTime)
    (assessedAt startedAt : Option DateTime) :
    let report := subject.assess policy letters utcnow assessedAt
    let report' := subject'.assess policy letters utcnow assessedAt
    report.riskScore = max 0 (min 100 (report.factors.map RiskFactor.points).sum)
      ∧ report.riskScore ≤ report'.riskScore ∧ report'.priority.rank ≤ report.priority.rank
      ∧ ∀ record, SLAService.createSla deadlines utcnow report.toRiskAssessment startedAt
          = .ok record →
        ∃ record', SLAService.createSla deadlines utcnow report'.toRiskAssessment startedAt
            = .ok record'
          ∧ ∀ due, record.dueAt = some due →
            ∃ sooner, record'.dueAt = some sooner ∧ sooner.instant ≤ due.instant := by
  obtain ⟨hscore, hpriority⟩ := score_mono hpolicy h
  refine ⟨?_, hscore, hpriority, fun record hrecord =>
    createSla_mono hdeadlines hpriority hrecord⟩
  simp only [RiskSubject.assess, RiskService.assess]
  by_cases hfalse : subject.verdict = some .falsePositive
  · rw [score_falsePositive hfalse]
    rfl
  · rw [sum_factors hfalse, score_standing hfalse]

end MoreEvidence

/-! ## The default policy -/

/-- The weights of the severities. -/
lemma weight_default (letters : StringCase) (severity : String) :
    (letters.lower severity = "critical" ∧ RiskScorer.weight {} letters severity = 100)
      ∨ (letters.lower severity = "high" ∧ RiskScorer.weight {} letters severity = 75)
      ∨ (letters.lower severity ≠ "critical" ∧ letters.lower severity ≠ "high"
        ∧ RiskScorer.weight {} letters severity ≤ 50) := by
  have hweight : RiskScorer.weight {} letters severity
      = (severityWeights.get? (letters.lower severity)).getD 0 := rfl
  rw [hweight]
  generalize letters.lower severity = lowered
  by_cases hcritical : lowered = "critical"
  · exact Or.inl ⟨hcritical, by rw [hcritical]; decide⟩
  · by_cases hhigh : lowered = "high"
    · exact Or.inr (Or.inl ⟨hhigh, by rw [hhigh]; decide⟩)
    · refine Or.inr (Or.inr ⟨hcritical, hhigh, ?_⟩)
      simp only [severityWeights, Dict.get?, Dict.getEntry, Ne.symm hcritical, Ne.symm hhigh,
        if_false]
      split_ifs <;> simp

/-- **The most urgent priority** is for critical findings that no verdict dismisses, and for high
ones that are both validated and proved. -/
lemma p0_default {letters : StringCase} {subject : RiskSubject} :
    (RiskScorer.score {} letters subject.finding subject.validation subject.proof).2.1 = .p0
      ↔ (letters.lower subject.finding.severity = "critical"
          ∧ subject.verdict ≠ some .falsePositive)
        ∨ letters.lower subject.finding.severity = "high"
          ∧ subject.verdict = some .truePositive ∧ subject.status = some .verified := by
  have hp0 : ∀ score, RiskScorer.priorityFor {} score = .p0 ↔ 90 ≤ score := by
    intro score
    show grade priorityThresholds .p4 score = .p0 ↔ 90 ≤ score
    simp only [priorityThresholds, grade_cons, grade_nil]
    split_ifs <;> simp_all
  by_cases hfalse : subject.verdict = some .falsePositive
  · rw [score_falsePositive hfalse]
    simp [hfalse]
  · have hpoints : subject.points {} letters
        = RiskScorer.weight {} letters subject.finding.severity
          + (if subject.verdict = some .truePositive then 10 else 0)
          + if subject.status = some .verified then 10 else 0 := by
      simp [RiskSubject.points]
    rw [score_standing hfalse, hp0, hpoints]
    rcases weight_default letters subject.finding.severity with ⟨hlower, hweight⟩
      | ⟨hlower, hweight⟩ | ⟨hcritical, hhigh, hweight⟩
    · simp only [hlower, hweight, hfalse, ne_eq, not_false_eq_true, and_self, true_or, iff_true]
      split_ifs <;> omega
    · simp only [hlower, hweight]
      split_ifs <;> simp_all
    · simp only [hcritical, hhigh, false_and, or_self, iff_false]
      split_ifs <;> omega

/-- The priority follows from the score, also where there is none. -/
lemma priority_default (letters : StringCase) (subject : RiskSubject) :
    (RiskScorer.score {} letters subject.finding subject.validation subject.proof).2.1
      = RiskScorer.priorityFor {}
        (RiskScorer.score {} letters subject.finding subject.validation subject.proof).1 := by
  by_cases hfalse : subject.verdict = some .falsePositive
  · rw [score_falsePositive hfalse]
    decide
  · rw [score_standing hfalse]

/-- Upper and lower case of ASCII texts. -/
def asciiCase : StringCase where
  lower text := String.ofList (text.toList.map Char.toLower)
  upper text := String.ofList (text.toList.map Char.toUpper)

/-- A finding of high severity, without a flow. -/
def highFinding : CandidateFinding where
  id := "f"
  vulnerabilityType := "command_injection"
  severity := "HIGH"
  confidence := 1
  source := { kind := "flask_request", file := "app.py", line := 3, snippet := "request.args" }
  sink := { kind := "os_system", file := "app.py", line := 4, snippet := "os.system(c)" }
  taintPath := []
  evidence :=
    { sourceSnippet := "", sinkSnippet := "", taintPath := [], relevantLines := []
      sanitizerObservations := [] }

/-- The finding before anything else is known about it. -/
def candidateSubject : RiskSubject := ⟨highFinding, none, none⟩

/-- The finding once it is validated and proved. -/
def provedSubject : RiskSubject where
  finding := highFinding
  validation := some ⟨"f", .truePositive, ⟨0, some 0⟩⟩
  proof := some ⟨"f", "command_injection", .verified, ⟨0, some 0⟩⟩

theorem assess_mono_proved :
    (candidateSubject.assess {} asciiCase ⟨0, some 0⟩ none).riskScore = 75
      ∧ (provedSubject.assess {} asciiCase ⟨0, some 0⟩ none).riskScore = 95
      ∧ (candidateSubject.assess {} asciiCase ⟨0, some 0⟩ none).riskScore
        ≤ (provedSubject.assess {} asciiCase ⟨0, some 0⟩ none).riskScore
      ∧ (provedSubject.assess {} asciiCase ⟨0, some 0⟩ none).priority.rank
        ≤ (candidateSubject.assess {} asciiCase ⟨0, some 0⟩ none).priority.rank := by
  have hmore : candidateSubject.AtMost {} asciiCase provedSubject :=
    ⟨le_rfl, by decide, fun h => by cases h⟩
  obtain ⟨-, hscore, hpriority, -⟩ := assess_mono {} rewards_default defaultDeadlines
    tightens_default asciiCase candidateSubject provedSubject hmore ⟨0, some 0⟩ none none
  exact ⟨by decide +kernel, by decide +kernel, hscore, hpriority⟩

end Sast
