import SastEngine.Core.Time
import SastEngine.Lib.Dict
import SastEngine.Scan.Models

/-!
# DefectDojo tickets

`defectdojo/service.py`: creating the remote counterpart of a finding, alone or in a batch, and the
local tickets.  What the remote side answers is an input; the findings it has created are recorded
beside the tickets.
-/

namespace Sast

/-- The settings that decide whether the integration is enabled. -/
structure DefectDojoConfig where
  url : String
  apiKey : String
  enabled : Bool

/-- `is_configured` of the client. -/
def DefectDojoConfig.isConfigured (config : DefectDojoConfig) : Bool :=
  config.url ≠ "" ∧ config.apiKey ≠ ""

/-- `is_enabled` of the client. -/
def DefectDojoConfig.isEnabled (config : DefectDojoConfig) : Bool :=
  config.enabled && config.isConfigured

/-- The literal type of `DefectDojoTicket.status`. -/
inductive TicketStatus where
  | pending
  | created
  | synced
  | error
deriving DecidableEq

/-- `DefectDojoTicket`. -/
structure DefectDojoTicket where
  findingId : String
  defectdojoFindingId : Option Int := none
  defectdojoUrl : String := ""
  status : TicketStatus := .pending
  errorMessage : Option String := none
  createdAt : DateTime
  updatedAt : Option DateTime := none
  payload : CandidateFinding
deriving DecidableEq

/-- How `create_finding` of the client ends: with the id and address of the new finding, with a
`DefectDojoClientError`, or with another exception. -/
inductive ApiAnswer where
  | created (id : Int) (url : String)
  | refused (message : String)
  | raised (message : String)
deriving DecidableEq

/-- What one creation reads from its surroundings. -/
structure DojoAttempt where
  answer : ApiAnswer
  createdAt : DateTime
  updatedAt : DateTime

/-- The tickets by finding, and the findings created on the remote side with their ids. -/
structure DojoState where
  tickets : Dict String DefectDojoTicket
  remote : List (String × Int)

/-- No tickets, and nothing on the remote side. -/
def DojoState.empty : DojoState := ⟨.empty, []⟩

/-- `get_ticket`. -/
def DojoState.getTicket (s : DojoState) (findingId : String) : Option DefectDojoTicket :=
  s.tickets.get? findingId

/-- `_persist_ticket`. -/
def DojoState.persistTicket (s : DojoState) (ticket : DefectDojoTicket) : DojoState :=
  { s with tickets := s.tickets.set ticket.findingId ticket }

/-- The message of a ticket made while the integration is disabled. -/
def notEnabledMessage : String :=
  "DefectDojo integration is not enabled. "
    ++ "Configure SAST_DEFECTDOJO_URL, SAST_DEFECTDOJO_API_KEY, "
    ++ "and SAST_DEFECTDOJO_ENABLED=true."

/-- The ticket that `create_ticket` starts from. -/
def newTicket (finding : CandidateFinding) (attempt : DojoAttempt) : DefectDojoTicket where
  findingId := finding.id
  createdAt := attempt.createdAt
  payload := finding

/-- `create_ticket`; an exception that is not a client error passes through. -/
def createTicket (config : DefectDojoConfig) (s : DojoState) (finding : CandidateFinding)
    (attempt : DojoAttempt) : Except String DefectDojoTicket × DojoState :=
  let ticket := newTicket finding attempt
  if config.isEnabled then
    match attempt.answer with
    | .created id url =>
        let ticket := { ticket with
          defectdojoFindingId := some id, defectdojoUrl := url, status := .created,
          updatedAt := some attempt.updatedAt }
        (.ok ticket, { s with remote := s.remote ++ [(finding.id, id)] }.persistTicket ticket)
    | .refused message =>
        let ticket := { ticket with
          status := .error, errorMessage := some message, updatedAt := some attempt.updatedAt }
        (.ok ticket, s.persistTicket ticket)
    | .raised message => (.error message, s)
  else
    let ticket := { ticket with status := .error, errorMessage := some notEnabledMessage }
    (.ok ticket, s.persistTicket ticket)

/-- The ticket is there and counts as synced already. -/
def alreadySynced (existing : Option DefectDojoTicket) : Bool :=
  existing.any fun ticket => ticket.status ∈ [.created, .synced]

/-- `DefectDojoSyncResult`; nothing is ever updated. -/
structure SyncResult where
  total : Nat
  created : Nat := 0
  errors : Nat := 0
  tickets : List DefectDojoTicket := []
  errorMessages : List String := []

/-- The result with one more ticket. -/
def SyncResult.add (result : SyncResult) (ticket : DefectDojoTicket) : SyncResult :=
  let result := { result with tickets := result.tickets ++ [ticket] }
  if ticket.status ∈ [.created, .synced] then { result with created := result.created + 1 }
  else
    { result with
      errors := result.errors + 1
      errorMessages := result.errorMessages
        ++ (ticket.errorMessage.filter fun message => message ≠ "").toList }

/-- The loop of `sync_findings`, over the findings with what a creation would meet. -/
def syncLoop (config : DefectDojoConfig) :
    List (CandidateFinding × DojoAttempt) → SyncResult → DojoState →
      Except String SyncResult × DojoState
  | [], result, s => (.ok result, s)
  | (finding, attempt) :: findings, result, s =>
      if alreadySynced (s.getTicket finding.id) then syncLoop config findings result s
      else
        match createTicket config s finding attempt with
        | (.ok ticket, s) => syncLoop config findings (result.add ticket) s
        | (.error message, s) => (.error message, s)

/-- `sync_findings`. -/
def syncFindings (config : DefectDojoConfig) (s : DojoState)
    (findings : List (CandidateFinding × DojoAttempt)) : Except String SyncResult × DojoState :=
  syncLoop config findings { total := findings.length } s

/-! ## Calls -/

/-- A call of the service. -/
inductive DojoCall where
  | create (config : DefectDojoConfig) (finding : CandidateFinding) (attempt : DojoAttempt)
  | sync (config : DefectDojoConfig) (findings : List (CandidateFinding × DojoAttempt))

/-- The tickets and the remote side after a call. -/
def dojoStep (s : DojoState) : DojoCall → DojoState
  | .create config finding attempt => (createTicket config s finding attempt).2
  | .sync config findings => (syncFindings config s findings).2

end Sast
