import Moira.Idempotency.Ledger

/-!
# Public responses

The row of a response, the terminal updates it receives, and what a caller is answered: the public
response of a successful execution, the status and code of a failed one.

Left out: tenant and user ids, and timestamps other than the creation of the row.
-/

namespace Moira

open ExecutionFailureClass

inductive PublicResponseStatus
  | inProgress
  | completed
  | failed
  | cancelled
  deriving DecidableEq

/-! ## Terminal updates -/

/-- `output_summary`: what a response row keeps of the output text. -/
structure OutputSummary where
  persistenceMode : String
  output : Option (Nat × Option String) := none

structure ResponseTerminalUpdate where
  routeId : Option Uuid := none
  providerId : Option Uuid := none
  providerModelId : Option Uuid := none
  outputSummary : OutputSummary
  usage : UsageSummary := {}
  failureClass : Option String := none
  failureMessage : Option String := none

section

variable (hasher : IdempotencyHasher) (persistenceMode : String)

def outputSummaryOf (outputText : Option String) : OutputSummary where
  persistenceMode := persistenceMode
  output := some ((outputText.map (·.utf8ByteSize)).getD 0, outputText.map hasher.hash)

def terminalUpdateFromOutcome (outcome : ExecutionOutcome) (failure : Option ExecutionFailure) :
    ResponseTerminalUpdate where
  routeId := outcome.route.map (·.routeId)
  providerId := outcome.model.map (·.providerId)
  providerModelId := outcome.model.map (·.providerModelId)
  outputSummary := outputSummaryOf hasher persistenceMode outcome.outputText
  usage := outcome.usage
  failureClass := failure.map (·.failureClass.code)
  failureMessage := failure.map (·.message)

def failureUpdate (failure : ExecutionFailure) : ResponseTerminalUpdate where
  outputSummary := { persistenceMode }
  failureClass := some failure.failureClass.code
  failureMessage := some failure.message

def cancellationUpdate (outcome : Option ExecutionOutcome) : ResponseTerminalUpdate :=
  let failure := ExecutionFailure.new requestCancelled "stream cancelled"
  match outcome with
  | some outcome => terminalUpdateFromOutcome hasher persistenceMode outcome (some failure)
  | none => failureUpdate persistenceMode failure

end

/-! ## What a caller is answered -/

/-- The columns of a response row that an answer is built from. -/
structure PublicResponseRecord where
  id : Uuid
  executionId : Uuid
  requestId : String
  createdAt : Nat
  status : PublicResponseStatus
  routeId : Option Uuid := none
  routeKey : Option String := none
  providerType : Option String := none
  providerModelId : Option Uuid := none
  modelKey : Option String := none
  conversationPublicId : Option String := none
  outputSummary : Option OutputSummary := none
  usage : UsageSummary := {}
  metadata : Json := .null
  outputPersisted : Bool := false

inductive PublicOutputContentPart
  | outputText (text : String)
  | outputUnavailable (reason : String)
  deriving DecidableEq

structure PublicOutputItem where
  role : String
  content : List PublicOutputContentPart
  deriving DecidableEq

structure PublicResponse where
  id : String
  object : String
  createdAt : Nat
  status : PublicResponseStatus
  executionId : String
  requestId : String
  route : Option (Uuid × String)
  model : Option (Uuid × String × String)
  conversation : Option String
  output : List PublicOutputItem
  citations : List String
  usage : UsageSummary
  metadata : Json
  outputPersisted : Bool
  deriving DecidableEq

/-- Why a completed response is served without its text. -/
def outputUnavailableReason (record : PublicResponseRecord) : String :=
  if record.outputPersisted then "persisted_output_not_loaded"
  else match record.outputSummary.map (·.persistenceMode) with
    | some "none" => "persistence_disabled"
    | some "plain_content" | some "encrypted_content" => "content_persistence_not_implemented"
    | _ => "metadata_only_persistence"

def publicOutput (record : PublicResponseRecord) : Option String → List PublicOutputItem
  | some text => [{ role := "assistant", content := [.outputText text] }]
  | none =>
    if record.status = .completed then
      [{ role := "assistant", content := [.outputUnavailable (outputUnavailableReason record)] }]
    else []

def publicResponseFromRecord (record : PublicResponseRecord) (outputText : Option String)
    (citations : List String) : PublicResponse where
  id := "resp_" ++ toString record.id
  object := "response"
  createdAt := record.createdAt
  status := record.status
  executionId := "exec_" ++ toString record.executionId
  requestId := record.requestId
  route :=
    match record.routeId, record.routeKey with
    | some id, some key => some (id, key)
    | _, _ => none
  model :=
    match record.providerModelId, record.providerType, record.modelKey with
    | some id, some provider, some key => some (id, provider, key)
    | _, _, _ => none
  conversation := record.conversationPublicId
  output := publicOutput record outputText
  citations := citations
  usage := record.usage
  metadata := record.metadata
  outputPersisted := record.outputPersisted

/-- The HTTP status of a failed execution. -/
def failureHttpStatus : ExecutionFailureClass → Nat
  | invalidExecutionRequest | structuredOutputInvalid => 422
  | routeForbidden | modelForbidden | credentialForbidden => 403
  | noEligibleModel | modelNotFound | routeNotFound | agentProfileNotFound
  | credentialNotFound => 404
  | agentProfileDisabled | skillUnavailable => 409
  | capacityExhausted => 429
  | providerTimeout | deadlineExceeded => 504
  | contentKeyUnavailable => 503
  | contentDecryptionFailed | contentEnvelopeUnsupported | contentKeyAbandoned => 500
  | _ => 502

/-- The status, the code and the body a caller receives. -/
structure HttpAnswer where
  status : Nat
  code : Option String
  body : PublicResponse ⊕ ErrorDetail

/-- What the handler makes of the result, for the request it answers. -/
def httpAnswer (requestId : String) : Except AppError PublicResponse → HttpAnswer
  | .ok response => { status := 200, code := none, body := .inl response }
  | .error err =>
    { status := err.status, code := some err.code, body := .inr (err.errorResponse requestId) }

end Moira
