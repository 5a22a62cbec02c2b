import SastEngine.Core.Time
import SastEngine.Lib.Dict

/-!
# Validation and proof results

The results of the stages VALIDATE and PROVE and their registries, of `validate/models.py`,
`validate/store.py`, `prove/models.py` and `prove/store.py`, as far as other stages read them.
-/

namespace Sast

/-- `Verdict`. -/
inductive Verdict where
  | truePositive
  | falsePositive
  | uncertain
deriving DecidableEq

/-- The literal a verdict is written as. -/
def Verdict.text : Verdict → String
  | .truePositive => "true_positive"
  | .falsePositive => "false_positive"
  | .uncertain => "uncertain"

/-- `ValidationResult`. -/
structure ValidationResult where
  findingId : String
  verdict : Verdict
  validatedAt : DateTime
deriving DecidableEq

/-- `ProofStatus`. -/
inductive ProofStatus where
  | verified
  | notVerified
  | blocked
  | error
deriving DecidableEq

/-- The literal a proof status is written as. -/
def ProofStatus.text : ProofStatus → String
  | .verified => "verified"
  | .notVerified => "not_verified"
  | .blocked => "blocked"
  | .error => "error"

/-- `ProofResult`. -/
structure ProofResult where
  findingId : String
  vulnerabilityType : String
  status : ProofStatus
  createdAt : DateTime
deriving DecidableEq

/-- `ValidationStore`. -/
abbrev ValidationStore := Dict String ValidationResult

/-- `record` of the validation store. -/
def ValidationStore.record (store : ValidationStore) (result : ValidationResult) :
    ValidationStore :=
  store.set result.findingId result

/-- `ProofStore`. -/
abbrev ProofStore := Dict String ProofResult

/-- `record` of the proof store. -/
def ProofStore.record (store : ProofStore) (result : ProofResult) : ProofStore :=
  store.set result.findingId result

end Sast
