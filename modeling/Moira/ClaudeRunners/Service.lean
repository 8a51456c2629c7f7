import Moira.ClaudeRunners.Mirror

/-!
# The service of the runners

`get`, `submit_authorization_code`, `finalize` and `delete`, with the credential chain that
`finalize` hands the token to. Every statement, every transaction of one row, every call of the
runner service and the two ends of the credential's transaction is one operation.

Any number of calls over the mirror and the credentials. A call that is cancelled takes no further
step.

- a row is locked by the transaction that writes it, so that each is one step
- while the database is down any statement may fail, and a commit may have been made all the same
- the runner service answers what it likes, late or out of order; an idempotency record may hold any
  credential
- runners are provisioned, and providers come and go
-/

namespace Moira

namespace ClaudeRunners

/-! ## The runner service, as Moira sees it -/

structure RunnerControlError where
  status : Option Nat := none
  code : Option String := none

/-- The contract's `state` is a text: a newer runner service may know more of them. -/
structure RunnerStatus where
  state : String
  authorizationUrl : Option String := none
  expiresAt : Option String := none
  errorCode : Option String := none

def runnerServiceDisabled : AppError :=
  .coded 503 "runner_service_disabled"
    "containerised Claude runners are not enabled in this deployment"

def runnerTokenUnavailable : AppError :=
  .conflict "runner_token_unavailable"
    "this runner's token has already been retrieved and cannot be read again"

def relayedNotFound : AppError :=
  .coded 404 "runner_not_found" "the runner was not found"

/-- What the status of the reply alone says. -/
def mapControlStatus : Option Nat → AppError
  | some 404 => relayedNotFound
  | some 409 => runnerWrongState
  | some 410 => runnerTokenUnavailable
  | some 400 => .coded 422 "runner_request_rejected" "the runner service rejected the request"
  | some 401 | some 403 =>
    .coded 503 "runner_service_unauthorized" "Moira is not authorized to call the runner service"
  | _ => .coded 503 "runner_service_unavailable" "the runner service could not be reached"

/-- A code that is known goes before the status. -/
def mapControlError (error : RunnerControlError) : AppError :=
  if error.code = some "runner_not_found" then relayedNotFound
  else if error.code = some "runner_wrong_state" then runnerWrongState
  else if error.code = some "token_already_retrieved" then runnerTokenUnavailable
  else mapControlStatus error.status

/-! ## Credentials -/

/-- `CredentialSecret::OAuth2` -/
structure OAuth2Secret where
  accessToken : String
  refreshToken : Option String := none
  tokenType : Option String := none
  expiresAt : Option Int := none

/-- A request for a credential of type `oauth2`. -/
structure CredentialCreateRequest where
  providerId : Uuid
  scope : CredentialScope
  secret : OAuth2Secret
  displayName : Option String
  priority : Int
  expiresAt : Option Int
  metadata : Json

structure CredentialRecord where
  id : Uuid
  providerId : Uuid
  scope : CredentialScope
  displayName : Option String
  priority : Int
  expiresAt : Option Int
  metadata : Json

def validateCredentialScope (request : CredentialCreateRequest) : Except AppError Unit :=
  if request.priority < 0 then .error (.badRequest "credential priority must be non-negative")
  else validateCredentialScopeShape request.scope

/-- The arm of `oauth2`. -/
def validateCredentialSecret (secret : OAuth2Secret) : Except AppError Unit :=
  Admin.requireNonEmpty "access_token" secret.accessToken

def credentialRecord (id : Uuid) (request : CredentialCreateRequest) : CredentialRecord where
  id := id
  providerId := request.providerId
  scope := request.scope
  displayName := request.displayName
  priority := request.priority
  expiresAt := request.expiresAt
  metadata := request.metadata

/-! ## Operations -/

/-- How a transaction ends: what the caller sees, and whether it was committed. -/
structure Ended (α : Type) where
  result : Except AppError α
  committed : Bool

inductive MirrorOp
  | select (id : Uuid)
  | status (reference : String)
  | submitCode (reference code : String)
  | fetchToken (reference : String)
  | deleteContainer (reference : String)
  | transition (id : Uuid) («from» : List ClaudeRunnerState) (update : RunnerStateUpdate)
  | softDelete (id : Uuid) (expectedVersion : Int)
  /-- The transaction of an admin command up to its mutation: a record that is found is replayed. -/
  | claimCommand (operation : String) (idempotencyKey : Option String) (request : CredentialCreateRequest)
  | providerIsActive (id : Uuid)
  /-- `Uuid::now_v7` -/
  | newId
  | encrypt (id : Uuid) (request : CredentialCreateRequest)
  | insertCredential (record : CredentialRecord)
  /-- The other end of the command: a credential is committed, a refusal is at most recorded. -/
  | closeCommand (outcome : Except AppError CredentialRecord)
  | answer (result : Except AppError (Option ClaudeRunnerRecord))

abbrev MirrorOp.Ans : MirrorOp → Type
  | select _ => Except AppError (Option ClaudeRunnerRecord)
  | status _ => Except RunnerControlError RunnerStatus
  | submitCode .. | deleteContainer _ => Except RunnerControlError Unit
  | fetchToken _ => Except RunnerControlError String
  | transition .. => Ended ClaudeRunnerRecord
  | softDelete .. | closeCommand _ => Ended Unit
  | claimCommand .. => Except AppError (Option CredentialRecord)
  | providerIsActive _ => Except AppError Bool
  | newId => Uuid
  | encrypt .. | insertCredential _ => Except AppError Unit
  | answer _ => Unit

abbrev mirrorSig : Sig where
  Op := MirrorOp
  Ans := MirrorOp.Ans

abbrev Service (α : Type) := Prog mirrorSig AppError α

namespace Service

abbrev ask (o : MirrorOp) : Service o.Ans :=
  Prog.ask (S := mirrorSig) o

abbrev orFail {α : Type} (result : Except AppError α) : Service α :=
  Prog.ofExcept result

/-- `map_err(map_control_error)?` -/
def control {α : Type} : Except RunnerControlError α → Service α
  | .ok a => .ret a
  | .error error => .fail (mapControlError error)

end Service

open Service

/-! ## Calls -/

structure Deployment where
  /-- The runner service is configured. -/
  controlEnabled : Bool
  /-- `DateTime::parse_from_rfc3339`, in UTC. -/
  parseRfc3339 : String → Option Int

structure ClaudeRunnerFinalizeRequest where
  providerId : Uuid
  displayName : Option String := none
  metadata : Json := .null

inductive Call
  | get (id : Uuid)
  | submitAuthorizationCode (id : Uuid) (code : String)
  | finalize (id : Uuid) (request : ClaudeRunnerFinalizeRequest)
  | delete (id : Uuid) (expectedVersion : Int)

structure Request where
  actor : Actor
  idempotencyKey : Option String := none
  call : Call

variable (deployment : Deployment) (actor : Actor)

/-- `self.control()?` -/
def requireControl : Service Unit :=
  if deployment.controlEnabled then pure () else orFail (.error runnerServiceDisabled)

def selectRunner (id : Uuid) : Service ClaudeRunnerRecord := do
  match ← orFail (← ask (.select id)) with
  | some record => pure record
  | none => orFail (.error (runnerNotFound id))

def transition (id : Uuid) («from» : List ClaudeRunnerState) (update : RunnerStateUpdate) :
    Service ClaudeRunnerRecord := do
  orFail (← ask (.transition id «from» update)).result

def applyRefresh (record : ClaudeRunnerRecord) (status : RunnerStatus) : Service ClaudeRunnerRecord :=
  match stateFromContract status.state with
  | none => pure record
  | some state =>
    if record.state = .linked then pure record
    else transition record.id nonTerminalStates
      { state, authorizationUrl := status.authorizationUrl, errorCode := status.errorCode
        expiresAt := status.expiresAt.bind deployment.parseRfc3339 }

/-- The mirror, refreshed while the runner can still be moving. -/
def get (id : Uuid) : Service ClaudeRunnerRecord := do
  orFail (actor.require "moira:runners:read")
  let record ← selectRunner id
  if record.state.isTerminal || !deployment.controlEnabled then pure record
  else
    match ← ask (.status record.runnerReference) with
    | .ok status => applyRefresh deployment record status
    | .error error =>
      -- a runner that the service has forgotten has come to its end
      if error.status = some 404 then
        transition record.id nonTerminalStates { state := some .expired }
      else orFail (.error (mapControlError error))

def submitAuthorizationCode (id : Uuid) (code : String) : Service ClaudeRunnerRecord := do
  orFail (actor.require "moira:runners:write")
  if (trim code).isEmpty then
    orFail (.error (.coded 422 "runner_request_rejected" "an authorization code is required"))
  else
    let record ← selectRunner id
    requireControl deployment
    if record.state ≠ .awaitingAuthorization then orFail (.error runnerWrongState)
    else
      control (← ask (.submitCode record.runnerReference (trim code)))
      transition id [.awaitingAuthorization] { state := some .exchanging }

/-- The mutation of `credential.create`. -/
def insertedCredential (request : CredentialCreateRequest) : Service CredentialRecord := do
  if ← orFail (← ask (.providerIsActive request.providerId)) then
    orFail (validateCredentialScope request)
    orFail (authorizeCredentialScope actor request.scope)
    orFail (validateCredentialSecret request.secret)
    let id ← ask .newId
    orFail (← ask (.encrypt id request))
    orFail (← ask (.insertCredential (credentialRecord id request)))
    pure (credentialRecord id request)
  else orFail (.error (.notFound ("provider " ++ toString request.providerId)))

/-- An admin command: its claim, its mutation, and how its transaction ends. -/
def createCredential (idempotencyKey : Option String) (request : CredentialCreateRequest) :
    Service CredentialRecord := do
  orFail (actor.require "moira:credentials:write")
  match ← orFail (← ask (.claimCommand "credential.create" idempotencyKey request)) with
  | some replayed => pure replayed
  | none =>
    let outcome ← (insertedCredential actor request).attempt
    orFail (← ask (.closeCommand outcome)).result
    orFail outcome

/-- What a finalized runner asks the credential chain for. -/
def finalizedCredential (record : ClaudeRunnerRecord) (request : ClaudeRunnerFinalizeRequest)
    (token : String) : CredentialCreateRequest where
  providerId := request.providerId
  scope := record.scope
  secret := { accessToken := token, tokenType := some "Bearer" }
  displayName := request.displayName <|> some ("claude-runner " ++ record.label)
  priority := 100
  expiresAt := none
  metadata := request.metadata

/-- The token is read once, stored as a credential, and the row is linked to it after that. -/
def finalize (idempotencyKey : Option String) (id : Uuid) (request : ClaudeRunnerFinalizeRequest) :
    Service ClaudeRunnerRecord := do
  orFail (actor.require "moira:runners:write")
  orFail (actor.require "moira:credentials:write")
  let record ← get deployment actor id
  if record.state ≠ .ready then orFail (.error runnerWrongState)
  else
    requireControl deployment
    let token ← control (← ask (.fetchToken record.runnerReference))
    let credential ← createCredential actor idempotencyKey (finalizedCredential record request token)
    transition id [.ready] { state := some .linked, credentialId := some credential.id }

/-- The container goes first. -/
def delete (id : Uuid) (expectedVersion : Int) : Service Unit := do
  orFail (actor.require "moira:runners:delete")
  let record ← selectRunner id
  if record.version ≠ expectedVersion then orFail (.error versionConflict)
  else
    if deployment.controlEnabled then control (← ask (.deleteContainer record.runnerReference))
    orFail (← ask (.softDelete id expectedVersion)).result

def run (request : Request) : Service (Option ClaudeRunnerRecord) :=
  match request.call with
  | .get id => do pure (some (← get deployment request.actor id))
  | .submitAuthorizationCode id code => do
    pure (some (← submitAuthorizationCode deployment request.actor id code))
  | .finalize id finalizeRequest => do
    pure (some (← finalize deployment request.actor request.idempotencyKey id finalizeRequest))
  | .delete id expectedVersion => do
    delete deployment request.actor id expectedVersion
    pure none

/-- A call and its answer. -/
def code (request : Request) : Unit → Prog mirrorSig Empty (Option Unit) := fun _ => do
  let result ← (run deployment request).attempt
  Prog.ask (S := mirrorSig) (.answer result)
  pure none

/-! ## What a call has seen -/

structure Seen where
  /-- The runner as the call was told last. -/
  mirror : Option ClaudeRunnerRecord := none
  /-- There is no such runner. -/
  missing : Bool := false
  /-- The token endpoint was asked. -/
  tokenRead : Bool := false
  /-- Why the credential chain has refused the request. -/
  refusal : Option AppError := none
  /-- The credential that the call has committed. -/
  stored : Option Uuid := none
  /-- The credential that the call has linked its row to. -/
  linked : Option Uuid := none
  /-- The commit of the credential or the link came back as an error. -/
  broken : Bool := false
  answered : Option (Except AppError (Option ClaudeRunnerRecord)) := none

namespace Seen

def record (seen : Seen) : (o : MirrorOp) → o.Ans → Seen
  | .select _, .ok (some record) => { seen with mirror := some record }
  | .select _, .ok none => { seen with missing := true }
  | .fetchToken _, _ => { seen with tokenRead := true }
  | .transition _ _ update, ended =>
    match update.credentialId with
    | some credentialId =>
      { seen with
        linked := if ended.committed then some credentialId else seen.linked
        broken := seen.broken || !ended.result.isOk
        mirror := ended.result.toOption <|> seen.mirror }
    | none => { seen with mirror := ended.result.toOption <|> seen.mirror }
  | .claimCommand .., .error error => { seen with refusal := some error }
  | .closeCommand (.error error), _ => { seen with refusal := some error }
  | .closeCommand (.ok credential), ended =>
    { seen with
      stored := if ended.committed then some credential.id else seen.stored
      broken := seen.broken || !ended.result.isOk }
  | .answer result, _ => { seen with answered := some result }
  | _, _ => seen

end Seen

/-! ## The world -/

/-- A row of `provider_credentials`, with the call that has committed it. -/
structure StoredCredential where
  record : CredentialRecord
  call : Nat

structure World where
  rows : List ClaudeRunnerRow := []
  credentials : List StoredCredential := []
  /-- The providers that are not deleted. -/
  providers : List Uuid := []
  down : Bool := false
  seen : Nat → Seen := fun _ => {}

namespace World

variable (w : World) (i : Nat)

/--
How a transaction over the rows ends: `outcome` is what it comes to, and a statement that is not
`possible` fails.
-/
def settle {α : Type} [DecidableEq α] (possible : Bool)
    (outcome : Except AppError (α × List ClaudeRunnerRow)) (ended : Ended α) : Option World :=
  match outcome, ended with
  | .ok (a, rows), ⟨.ok b, true⟩ => if possible ∧ a = b then some { w with rows } else none
  | .ok (_, rows), ⟨.error _, true⟩ => if possible ∧ w.down then some { w with rows } else none
  | .ok _, ⟨.error _, false⟩ => if w.down ∨ possible = false then some w else none
  | .error error, ⟨.error error', false⟩ => if error = error' ∨ w.down then some w else none
  | _, _ => none

/-- How the transaction of a credential ends. -/
def close (outcome : Except AppError CredentialRecord) (ended : Ended Unit) : Option World :=
  match outcome, ended with
  | .ok record, ⟨result, true⟩ =>
    if result.isOk ∨ w.down then
      some { w with credentials := { record, call := i } :: w.credentials }
    else none
  | .ok _, ⟨.error _, false⟩ => if w.down then some w else none
  | .ok _, ⟨.ok _, false⟩ => none
  | .error _, ⟨result, _⟩ => if result.isOk ∨ w.down then some w else none

def respond : (o : MirrorOp) → o.Ans → Option World
  | .select id, .ok found => if found = (findRow w.rows id).map (·.record) then some w else none
  | .select _, .error _ => if w.down then some w else none
  | .transition id «from» update, ended =>
    w.settle update.fits (transitionRow w.rows id «from» update) ended
  | .softDelete id expectedVersion, ended => w.settle true (softDelete w.rows id expectedVersion) ended
  | .providerIsActive id, .ok active => if active = decide (id ∈ w.providers) then some w else none
  | .providerIsActive _, .error _ => if w.down then some w else none
  | .insertCredential record, .ok _ =>
    if w.credentials.all fun c => c.record.id ≠ record.id then some w else none
  | .closeCommand outcome, ended => w.close i outcome ended
  | .status _, _ | .submitCode .., _ | .fetchToken _, _ | .deleteContainer _, _ | .claimCommand .., _
  | .newId, _ | .encrypt .., _ | .insertCredential _, .error _ | .answer _, _ => some w

/-- The call writes down what it was answered. -/
def see (o : MirrorOp) (x : o.Ans) : World :=
  { w with seen := Function.update w.seen i ((w.seen i).record o x) }

end World

inductive WorldEvent
  /-- The row that `provision` inserts. -/
  | provision (id : Uuid) (label runnerReference : String) (scope : CredentialScope)
      (expiresAt : Option Int) (metadata : Json)
  | providers (providers : List Uuid)
  | database (down : Bool)

def grant (i : Nat) (w : World) (o : MirrorOp) (x : o.Ans) : Option World :=
  (w.respond i o x).map fun w' => w'.see i o x

def nature (w : World) : WorldEvent → Option World
  | .provision id label runnerReference scope expiresAt metadata =>
    if w.rows.all fun row => row.record.id ≠ id then
      some { w with
        rows := { record := { id, label, runnerReference, scope, expiresAt, metadata } } :: w.rows }
    else none
  | .providers providers => some { w with providers }
  | .database down => some { w with down }

variable (requests : Nat → Request)

def mirrors : System Nat where
  sig _ := mirrorSig
  Point _ := Unit
  code i := code deployment (requests i)
  World := World
  Event := WorldEvent
  grant := grant
  nature := nature

/-- No call has made a step yet, and no runner is provisioned. -/
def mirrorsInitial : (mirrors deployment requests).State where
  world := {}
  proc i := code deployment (requests i) ()

end ClaudeRunners

end Moira
