import SastEngine.Core.Time

/-!
# Remediation contracts

The records of `remediation/models.py`.
-/

namespace Sast

/-- `RemediationStatus`. -/
inductive RemediationStatus where
  | proposed
  | noFixAvailable
  | applied
  | verified
  | stillPresent
  | error
deriving DecidableEq

/-- The literal a status is written as. -/
def RemediationStatus.text : RemediationStatus → String
  | .proposed => "proposed"
  | .noFixAvailable => "no_fix_available"
  | .applied => "applied"
  | .verified => "verified"
  | .stillPresent => "still_present"
  | .error => "error"

/-- The strategies of a proposal. -/
inductive Strategy where
  | parameterizeQuery
  | shellArgumentVector
  | shellQuote
  | noAutomaticFix
deriving DecidableEq

/-- `RemediationProposal`. -/
structure RemediationProposal where
  findingId : String
  vulnerabilityType : String
  file : String
  line : Nat
  strategy : Strategy
  before : String
  after : String
  importToAdd : Option String := none
  rationale : String
deriving DecidableEq

/-- `RemediationRecord`. -/
structure RemediationRecord where
  findingId : String
  approvalId : String
  status : RemediationStatus
  proposal : Option RemediationProposal := none
  appliedAt : Option DateTime := none
  appliedBy : Option String := none
  verifiedAt : Option DateTime := none
  verification : Option String := none
  error : Option String := none
  createdAt : DateTime
deriving DecidableEq

end Sast
