import SastEngine.Lib.Except
import SastEngine.Validate.Evidence
import SastEngine.Validate.Fences
import SastEngine.Validate.Results

/-!
# Validation by a language model

`LLMProvider.validate` of `validate/providers/base.py` and `ValidationService.validate`: a model is
asked for a verdict on the evidence of a finding, once more if its answer cannot be used, and not a
third time.  The model itself, `json.dumps` of the evidence, and what Pydantic makes of an object
are parameters.
-/

namespace Sast

/-- `NextStep`. -/
inductive NextStep where
  | prove
  | discard
  | manualReview
deriving DecidableEq

/-- `LLMResponse`. -/
structure LLMResponse where
  verdict : Verdict
  confidence : Rat
  reasoning : String
  evidenceUsed : List String
  missingEvidence : List String
  recommendedNextStep : NextStep
  confidence_mem : 0 ≤ confidence ∧ confidence ≤ 1

/-- `ValidationRequest`. -/
structure ValidationRequest where
  findingId : String
  evidence : ValidationEvidence
  provider : String
  model : Option String

/-- `ValidationMetadata`. -/
structure ValidationMetadata where
  provider : String
  model : Option String
  durationMs : Rat
  retryCount : Nat
  evidenceHash : String

/-- `ValidationResult`, with the fields that no other stage decides anything by. -/
structure ValidationReport extends ValidationResult where
  confidence : Rat
  reasoning : String
  evidenceUsed : List String
  missingEvidence : List String
  recommendedNextStep : NextStep
  model : Option String
  evidence : ValidationEvidence
  metadata : ValidationMetadata
  confidence_mem : 0 ≤ confidence ∧ confidence ≤ 1

/-- How a validation fails: with a `ConfigurationError`, or with another exception. -/
inductive ValidateError where
  | configuration (message : String)
  | raised (message : String)
deriving DecidableEq

/-- A provider that has been configured: `_complete` is one call of the model. -/
structure LLMProvider where
  providerName : String
  model : Option String
  complete : String → Except ValidateError (List Char)

/-- What a validation takes from the libraries and from its surroundings.  `provider` is
`get_provider`. -/
structure ValidateEnv where
  provider : String → Except String LLMProvider
  limits : JsonLimits
  modelValidate : List (Str × Json) → Option LLMResponse
  dumps : ValidationEvidence → String
  sha256 : String → String
  redact : String → String
  utcnow : DateTime
  durationMs : Rat

/-- `REPAIR_PROMPT`. -/
def repairPrompt : String :=
  "Your previous response was not valid JSON and could not be parsed.\n\n"
    ++ "Resend ONLY a single valid JSON object (no markdown, no commentary) with exactly this "
    ++ "shape:\n\x7b\n"
    ++ "  \"verdict\": \"true_positive\" | \"false_positive\" | \"uncertain\",\n"
    ++ "  \"confidence\": 0.0-1.0,\n"
    ++ "  \"reasoning\": \"string\",\n"
    ++ "  \"evidence_used\": [\"string\"],\n"
    ++ "  \"missing_evidence\": [\"string\"],\n"
    ++ "  \"recommended_next_step\": \"prove\" | \"discard\" | \"manual_review\"\n"
    ++ "\x7d\n"

/-- `build_repair_prompt`. -/
def buildRepairPrompt (originalPrompt : String) : String :=
  repairPrompt ++ "\n\nEVIDENCE PACKAGE (unchanged):\n" ++ originalPrompt

/-- The answer in place of one that could not be used twice. -/
def untrustedResponse : LLMResponse where
  verdict := .uncertain
  confidence := 0
  reasoning := "The model returned malformed output even after a repair "
    ++ "retry; the response was not trusted. Manual review is required."
  evidenceUsed := []
  missingEvidence := ["structured model output (JSON)"]
  recommendedNextStep := .manualReview
  confidence_mem := ⟨by decide, by decide⟩

/-- What is raised by `parse_llm_response`. -/
def LoadsError.text : LoadsError → String
  | .decode => "JSONDecodeError"
  | .digits => "ValueError"
  | .recursion => "RecursionError"

variable (env : ValidateEnv)

/-- One completion, parsed. -/
def ask (provider : LLMProvider) (prompt : String) : Except ValidateError (Option LLMResponse) := do
  let raw ← provider.complete prompt
  (parseLlmResponse env.limits env.modelValidate raw).mapError fun e => .raised e.text

/-- The answer that counts, and the number of retries.  The loop of the source makes at most
one. -/
def settle (provider : LLMProvider) (prompt : String) :
    Except ValidateError (LLMResponse × Nat) := do
  match ← ask env provider prompt with
  | some response => return (response, 0)
  | none =>
      match ← ask env provider (buildRepairPrompt prompt) with
      | some response => return (response, 1)
      | none => return (untrustedResponse, 1)

/-- `_result`. -/
def validationReport (provider : LLMProvider) (request : ValidationRequest)
    (response : LLMResponse) (retryCount : Nat) : ValidationReport where
  findingId := request.findingId
  verdict := response.verdict
  validatedAt := env.utcnow
  confidence := response.confidence
  reasoning := response.reasoning
  evidenceUsed := response.evidenceUsed
  missingEvidence := response.missingEvidence
  recommendedNextStep := response.recommendedNextStep
  model := provider.model
  evidence := request.evidence
  metadata :=
    { provider := provider.providerName
      model := provider.model
      durationMs := env.durationMs
      retryCount := retryCount
      evidenceHash := env.sha256 (env.dumps request.evidence) }
  confidence_mem := response.confidence_mem

/-- `LLMProvider.validate`. -/
def LLMProvider.validate (provider : LLMProvider) (request : ValidationRequest) :
    Except ValidateError ValidationReport := do
  let (response, retryCount) ← settle env provider (env.dumps request.evidence)
  return validationReport env provider request response retryCount

/-- `ValidationService.validate`, without the sources of the files. -/
def validateFinding (finding : CandidateFinding) (providerName : String) :
    Except ValidateError ValidationReport := do
  let provider ← (env.provider providerName).mapError .configuration
  provider.validate env
    { findingId := finding.id
      evidence := buildValidationEvidence env.redact .empty finding
      provider := provider.providerName
      model := provider.model }

variable {env}

/-- The model gave the verdict in an answer that could be used: the first, or the one to the repair
prompt where the first could not. -/
inductive Answered (env : ValidateEnv) (provider : LLMProvider) (prompt : String)
    (response : LLMResponse) : Prop
  | first : ask env provider prompt = .ok (some response) → Answered env provider prompt response
  | repaired : ask env provider prompt = .ok none →
      ask env provider (buildRepairPrompt prompt) = .ok (some response) →
      Answered env provider prompt response

lemma settle_ok {provider : LLMProvider} {prompt : String} {response : LLMResponse}
    {retryCount : Nat} (h : settle env provider prompt = .ok (response, retryCount)) :
    Answered env provider prompt response ∨ response = untrustedResponse := by
  obtain ⟨first, hfirst, h⟩ := bind_eq_ok.1 h
  cases first with
  | some answer =>
      obtain ⟨rfl, -⟩ := Prod.mk.inj (pure_eq_ok.1 h)
      exact Or.inl (.first hfirst)
  | none =>
      obtain ⟨second, hsecond, h⟩ := bind_eq_ok.1 h
      cases second with
      | some answer =>
          obtain ⟨rfl, -⟩ := Prod.mk.inj (pure_eq_ok.1 h)
          exact Or.inl (.repaired hfirst hsecond)
      | none =>
          obtain ⟨rfl, -⟩ := Prod.mk.inj (pure_eq_ok.1 h)
          exact Or.inr rfl

/-- **What a validation reports**: on the finding it was asked about, the verdict that the model
gave in an answer that could be used, or else that it is uncertain. -/
lemma validateFinding_ok {finding : CandidateFinding} {providerName : String}
    {report : ValidationReport} (h : validateFinding env finding providerName = .ok report) :
    report.findingId = finding.id ∧
      ∃ provider response, env.provider providerName = .ok provider
        ∧ report.verdict = response.verdict
        ∧ (Answered env provider
            (env.dumps (buildValidationEvidence env.redact .empty finding)) response
          ∨ response = untrustedResponse) := by
  obtain ⟨provider, hprovider, h⟩ := bind_eq_ok.1 h
  obtain ⟨⟨response, retryCount⟩, hsettle, h⟩ := bind_eq_ok.1 h
  obtain rfl := pure_eq_ok.1 h
  exact ⟨rfl, provider, response, mapError_eq_ok.1 hprovider, rfl, settle_ok hsettle⟩

/-- A finding is found to be a true positive only by the model. -/
lemma validateFinding_truePositive {finding : CandidateFinding} {providerName : String}
    {report : ValidationReport} (h : validateFinding env finding providerName = .ok report)
    (hverdict : report.verdict = .truePositive) :
    ∃ provider response, env.provider providerName = .ok provider
      ∧ Answered env provider (env.dumps (buildValidationEvidence env.redact .empty finding))
        response
      ∧ response.verdict = .truePositive := by
  obtain ⟨-, provider, response, hprovider, heq, hanswered | rfl⟩ := validateFinding_ok h
  · exact ⟨provider, response, hprovider, hanswered, heq ▸ hverdict⟩
  · rw [hverdict] at heq
    cases heq

end Sast
