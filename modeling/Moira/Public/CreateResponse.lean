import Moira.Lib.Program
import Moira.Public.Response

/-!
# Creating a response

`create_response`, from the admission of the caller to the answer, with its idempotency:

- the execution, the terminal update of the response, and the finishing write to the ledger

`?` is the failure of the program. The services between the ledger statements (conversations, the
response row, the audit log, the execution itself) are operations that answer a value or an error.
-/

namespace Moira.Public

open ExecutionFailureClass

/-! ## The request -/

/-- What `create_response` reads of its caller and request. -/
structure CallInput where
  key : Option String
  requestId : String
  actorFingerprint : String
  unkeyedActorFingerprint : String
  legacyActorFingerprint : String
  /-- `normalized_request_bytes` of the application and the body. -/
  requestBytes : String

/-- The columns of the execution policy that are read here. -/
structure ApplicationExecutionPolicy where
  responsesEnabled : Bool
  rateLimitRequestsPerMinute : Int
  persistenceMode : String

/-- A conversation the response belongs to. -/
structure ConversationLink where
  conversationId : String
  citations : List String

/-! ## Operations -/

/-- Which statement of `create_response` reads the ledger. -/
inductive ReadSite
  | probe
  | conflict
  | replay

/-- The answer of a write: what the caller sees, and whether it was committed. -/
structure Written (α : Type) where
  result : Except AppError α
  committed : Bool

inductive ResponseOp
  | authorize
  | executionPolicy (applicationId : Option Uuid)
  | checkRateLimit (limit : Int)
  | prepareExecution
  | now
  | getIdempotencyRecord (site : ReadSite) (p : Position)
  | claimInsert (record : IdempotencyRecord)
  | newConversationService
  | prepareResponseConversation
  | insertResponseStarted (conversation : Option String)
  | audit (action : String)
  | newExecutionService
  | execute
  | completeResponse (update : ResponseTerminalUpdate)
  | recordAssistant (link : ConversationLink) (outputText : Option String)
  | failResponse (update : ResponseTerminalUpdate)
  | finishIdempotency (p : Position) (status : Int) (body : Json) (resourceId : Option String)

abbrev ResponseOp.Ans : ResponseOp → Type
  | authorize => Except AppError (Option Uuid)
  | executionPolicy _ => Except AppError ApplicationExecutionPolicy
  | checkRateLimit _ => Except AppError Unit
  | prepareExecution => Except AppError Unit
  | now => Nat
  | getIdempotencyRecord .. => Except AppError (Option IdempotencyRecord)
  | claimInsert _ => Written Bool
  | newConversationService => Except AppError Unit
  | prepareResponseConversation => Except AppError (Option ConversationLink)
  | insertResponseStarted _ => Except AppError PublicResponseRecord
  | audit _ => Except AppError Unit
  | newExecutionService => Except AppError Unit
  | execute => Except AppError ExecutionOutcome
  | completeResponse _ => Except AppError PublicResponseRecord
  | recordAssistant .. => Except AppError Unit
  | failResponse _ => Except AppError PublicResponseRecord
  | finishIdempotency .. => Written Unit

abbrev responseSig : Sig where
  Op := ResponseOp
  Ans := ResponseOp.Ans

abbrev Create (α : Type) := Prog responseSig AppError α

namespace Create

abbrev ask (o : ResponseOp) : Create o.Ans :=
  Prog.ask (S := responseSig) o

abbrev orFail {α : Type} (result : Except AppError α) : Create α :=
  Prog.ofExcept result

end Create

open Create

/-! ## The ledger -/

/-- `idempotency_record` sets the expiry this far ahead, in seconds. -/
def retentionSeconds : Nat :=
  24 * 60 * 60

def operation : String :=
  "response.create"

def executionInProgress : AppError :=
  .conflict "execution_in_progress" "execution is in progress"

def idempotencyConflict : AppError :=
  .conflict "idempotency_conflict" "same Idempotency-Key was used with a different request"

/-- What `serde` makes of a public response and of a stored body. -/
structure ResponseCodec where
  encode : PublicResponse → Json
  decode : Json → Except String PublicResponse

variable (hasher : IdempotencyHasher) (codec : ResponseCodec) (input : CallInput)

/-- The position a request claims. -/
def currentPosition (key : String) : Position where
  keyHash := hasher.hash key
  actorFingerprint := input.actorFingerprint
  operation := operation

/-- The earlier spellings of that position. -/
def legacyPositions (key : String) : List Position :=
  [(hasher.legacyHash key, input.actorFingerprint),
    (hasher.hash key, input.unkeyedActorFingerprint),
    (hasher.legacyHash key, input.unkeyedActorFingerprint),
    (hasher.hash key, input.legacyActorFingerprint),
    (hasher.legacyHash key, input.legacyActorFingerprint)].map
    fun (keyHash, actorFingerprint) => { keyHash, actorFingerprint, operation }

/-- `replayed_idempotency_state`: a row that was found, as a state or as a refusal. -/
def replayedIdempotencyState (existing : IdempotencyRecord) : Except AppError Position :=
  if !hasher.verify input.requestBytes existing.requestHash then .error idempotencyConflict
  else if existing.responseBody.isNone then .error executionInProgress
  else .ok existing.position

/-- The first of the positions that holds a live row. -/
def probe : List Position → Create (Option IdempotencyRecord)
  | [] => pure none
  | p :: rest => do
    match ← orFail (← ask (.getIdempotencyRecord .probe p)) with
    | some existing => pure (some existing)
    | none => probe rest

/-- `IdempotencyRepository::claim_idempotency`: `none` when the row was inserted. -/
def claimRecord (record : IdempotencyRecord) : Create (Option IdempotencyRecord) := do
  if ← orFail (← ask (.claimInsert record)).result then pure none
  else
    match ← orFail (← ask (.getIdempotencyRecord .conflict record.position)) with
    | some existing => pure (some existing)
    | none => .fail executionInProgress

def claimKey (key : String) : Create Position := do
  match ← probe (legacyPositions hasher input key) with
  | some existing => orFail (replayedIdempotencyState hasher input existing)
  | none => do
    let now ← ask .now
    let record : IdempotencyRecord :=
      { position := currentPosition hasher input key
        requestHash := hasher.hash input.requestBytes
        expiresAt := now + retentionSeconds }
    match ← claimRecord record with
    | none => pure record.position
    | some existing => orFail (replayedIdempotencyState hasher input existing)

/-- `claim_idempotency`: the position of the row, when the caller sent a key. -/
def claimIdempotency : Create (Option Position) :=
  match input.key with
  | none => pure none
  | some key => do
    let p ← claimKey hasher input key
    pure (some p)

/-- The error message of a stored body, `/error/message`. -/
def storedMessage (body : Json) : String :=
  (((body.get "error").bind (Json.get "message")).bind Json.asStr).getD "idempotent execution failed"

/-- What a finished row is answered with. -/
def replayAnswer (record : IdempotencyRecord) (body : Json) : Except AppError PublicResponse :=
  if 400 ≤ record.responseStatus.getD 200 then
    .error (.coded 502 "execution_failed" (storedMessage body))
  else
    match codec.decode body with
    | .ok response => .ok response
    | .error err => .error (.internal ("decode idempotent response: " ++ err))

/-- Read the row again, and answer from it when it is finished. -/
def replayIdempotency (p : Position) : Create (Option PublicResponse) := do
  match ← orFail (← ask (.getIdempotencyRecord .replay p)) with
  | none => pure none
  | some record =>
    match record.responseBody with
    | none => pure none
    | some body => do
      let response ← orFail (replayAnswer codec record body)
      pure (some response)

/-- The finishing write, when there is a state. -/
def finish (state : Option Position) (status : Int) (body : Json) (resourceId : String) :
    Create Unit := do
  match state with
  | none => pure ()
  | some p => orFail (← ask (.finishIdempotency p status body (some resourceId))).result

/-! ## The response -/

def responsesDisabled : AppError :=
  .coded 403 "responses_disabled" "responses are disabled for this application"

/-- Everything before the claim: `require`, the policy, the rate limit, `prepare_execution`. -/
def admission : Create ApplicationExecutionPolicy := do
  let applicationId ← orFail (← ask .authorize)
  let policy ← orFail (← ask (.executionPolicy applicationId))
  if !policy.responsesEnabled then .fail responsesDisabled
  else do
    orFail (← ask (.checkRateLimit policy.rateLimitRequestsPerMinute))
    orFail (← ask .prepareExecution)
    pure policy

/-- `record_conversation_assistant`. -/
def recordConversationAssistant (link : Option ConversationLink) (outputText : Option String) :
    Create Unit :=
  match link with
  | none => pure ()
  | some link => do orFail (← ask (.recordAssistant link outputText))

def respondSucceeded (policy : ApplicationExecutionPolicy) (state : Option Position)
    (link : Option ConversationLink) (outcome : ExecutionOutcome) : Create PublicResponse := do
  let update := terminalUpdateFromOutcome hasher policy.persistenceMode outcome none
  let record ← orFail (← ask (.completeResponse update))
  recordConversationAssistant link outcome.outputText
  let response := publicResponseFromRecord record outcome.outputText
    ((link.map (·.citations)).getD [])
  orFail (← ask (.audit "response.completed"))
  finish state 200 (codec.encode response) response.id
  pure response

/-- The failure an outcome reports. -/
def reportedFailure (outcome : ExecutionOutcome) : ExecutionFailure :=
  outcome.failure.getD (.new internalError "execution failed without a failure class")

/-- The body stored for a failed execution. -/
def failureBody (failure : ExecutionFailure) : Json :=
  .obj [("error", .obj [("code", .str failure.failureClass.code), ("message", .str failure.message),
    ("request_id", .str input.requestId)])]

def respondFailed (policy : ApplicationExecutionPolicy) (state : Option Position)
    (outcome : ExecutionOutcome) : Create PublicResponse := do
  let failure := reportedFailure outcome
  let update := terminalUpdateFromOutcome hasher policy.persistenceMode outcome (some failure)
  let record ← orFail (← ask (.failResponse update))
  let status := failureHttpStatus failure.failureClass
  orFail (← ask (.audit "response.failed"))
  finish state status (failureBody input failure) ("resp_" ++ toString record.id)
  .fail (.coded status failure.failureClass.code failure.message)

/-- After the claim: prepare, execute and settle. -/
def respond (policy : ApplicationExecutionPolicy) (state : Option Position) :
    Create PublicResponse := do
  orFail (← ask .newConversationService)
  let link ← orFail (← ask .prepareResponseConversation)
  let _ ← orFail (← ask (.insertResponseStarted (link.map (·.conversationId))))
  orFail (← ask (.audit "response.started"))
  orFail (← ask .newExecutionService)
  let outcome ← orFail (← ask .execute)
  match outcome.status with
  | .succeeded => respondSucceeded hasher codec policy state link outcome
  | .failed | .cancelled => respondFailed hasher input policy state outcome

/-- The replay, or the execution when there is nothing to replay. -/
def replayOrRespond (policy : ApplicationExecutionPolicy) :
    Option Position → Create PublicResponse
  | none => respond hasher codec input policy none
  | some p => do
    match ← replayIdempotency codec p with
    | some response => pure response
    | none => respond hasher codec input policy (some p)

def createResponse : Create PublicResponse := do
  let policy ← admission
  let state ← claimIdempotency hasher input
  replayOrRespond hasher codec input policy state

end Moira.Public
