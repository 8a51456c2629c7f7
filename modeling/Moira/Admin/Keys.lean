import Moira.Admin.Command
import Moira.Lib.System
import Moira.Runtime.Traffic

/-!
# Api-key administration

`create_system_key`, `create_consumer_key` and `rotate_key`: the commands that answer with a raw
key. Each is one admin command, so an idempotent replay is answered from the ledger, without the
secret. Audit rows are left out.
-/

namespace Moira.Admin

structure ApiKeyRecord where
  id : Uuid
  applicationId : Option Uuid
  displayName : String
  keyPrefix : String
  fingerprint : String
  pepperVersion : String
  scopes : List String
  status : KeyStatus := .active
  expiresAt : Option Int
  lastUsedAt : Option Int := none
  createdAt : Int
  updatedAt : Int
  revokedAt : Option Int := none
  deriving DecidableEq

/-- A row of `system_api_keys` or `consumer_api_keys`. -/
structure StoredKey where
  record : ApiKeyRecord
  keyHash : String
  deletedAt : Option Int := none
  deriving DecidableEq

structure GeneratedApiKey where
  rawKey : String
  keyPrefix : String
  keyHash : String
  fingerprint : String
  pepperVersion : String

structure ApiKeySecretResponse where
  resource : ApiKeyRecord
  secret : Option String
  secretRetrievable : Bool

def sanitizedKeyResponse (resource : ApiKeyRecord) : ApiKeySecretResponse where
  resource := resource
  secret := none
  secretRetrievable := false

structure SystemKeyCreateRequest where
  displayName : String
  scopes : List String
  expiresAt : Option Int
  deriving DecidableEq

structure ConsumerKeyCreateRequest where
  applicationId : Uuid
  displayName : String
  scopes : List String
  expiresAt : Option Int
  deriving DecidableEq

structure ApiKeyRotateRequest where
  revokePreviousImmediately : Bool
  expiresAt : Option Int
  deriving DecidableEq

inductive KeyCommand
  | createSystemKey (request : SystemKeyCreateRequest)
  | createConsumerKey (request : ConsumerKeyCreateRequest)
  | rotateKey (table : ApiKeyTable) (id : Uuid) (request : ApiKeyRotateRequest)
  deriving DecidableEq

namespace KeyCommand

def requiredScope : KeyCommand → String
  | createSystemKey _ => "moira:system-keys:write"
  | createConsumerKey _ => "moira:consumer-keys:write"
  | rotateKey .system .. => "moira:system-keys:rotate"
  | rotateKey .consumer .. => "moira:consumer-keys:rotate"

def operation : KeyCommand → String
  | createSystemKey _ => "system_key.create"
  | createConsumerKey _ => "consumer_key.create"
  | rotateKey .system .. => "system_key.rotate"
  | rotateKey .consumer .. => "consumer_key.rotate"

end KeyCommand

/-- What the ledger answers a repeated command of the actor with. -/
structure KeyReplay where
  operation : String
  key : String
  command : KeyCommand
  answer : Except AppError ApiKeySecretResponse

structure KeyAdmin where
  now : Int := 0
  /-- The applications that are not deleted. -/
  applications : List Uuid := []
  systemKeys : List StoredKey := []
  consumerKeys : List StoredKey := []
  ledger : List KeyReplay := []
  /-- What the actor's calls have been answered with. -/
  answers : List ApiKeySecretResponse := []

namespace KeyAdmin

variable (s : KeyAdmin)

def keys : ApiKeyTable → List StoredKey
  | .system => s.systemKeys
  | .consumer => s.consumerKeys

def setKeys (rows : List StoredKey) : ApiKeyTable → KeyAdmin
  | .system => { s with systemKeys := rows }
  | .consumer => { s with consumerKeys := rows }

/-- `where id = $1 and deleted_at is null`. -/
def findKey (table : ApiKeyTable) (id : Uuid) : Option StoredKey :=
  (s.keys table).find? fun row => row.record.id = id ∧ row.deletedAt.isNone

end KeyAdmin

/-! ## The commands -/

def requireNonEmpty (label value : String) : Except AppError Unit :=
  if (trim value).isEmpty then .error (.badRequest (label ++ " must not be empty")) else .ok ()

def systemKeyScopeEscalation : AppError :=
  .coded 403 "system_key_scope_escalation"
    "principal cannot mint scopes broader than its effective scopes"

/-- What a create may put into a key. -/
def validateKeyRequest (actor : Actor) (displayName : String) (scopes : List String) :
    Except AppError (List String) := do
  requireNonEmpty "display_name" displayName
  if scopes.isEmpty then throw (.badRequest "api key scopes must not be empty")
  let normalized ← normalizeScopes scopes
  if ¬actor.canGrant normalized then throw systemKeyScopeEscalation
  return normalized

/-- The row an insert writes. -/
def newKey (now : Int) (id : Uuid) (applicationId : Option Uuid) (displayName : String)
    (scopes : List String) (expiresAt : Option Int) (generated : GeneratedApiKey) : StoredKey where
  record :=
    { id, applicationId, displayName, keyPrefix := generated.keyPrefix
      fingerprint := generated.fingerprint, pepperVersion := generated.pepperVersion, scopes
      expiresAt, createdAt := now, updatedAt := now }
  keyHash := generated.keyHash

/-- `key_rotation_sql`: everything but the key material and the status stays. -/
def rotatedKey (now : Int) (generated : GeneratedApiKey) (row : StoredKey) : StoredKey :=
  { row with
    keyHash := generated.keyHash
    record := { row.record with
      keyPrefix := generated.keyPrefix
      fingerprint := generated.fingerprint
      pepperVersion := generated.pepperVersion
      status := .active
      revokedAt := none
      updatedAt := now } }

/-- The body of a command, with what `ApiKeyHasher::generate` and `Uuid::now_v7` return in it. -/
def mutate (actor : Actor) (generated : Except AppError GeneratedApiKey) (newId : Uuid) (s : KeyAdmin) :
    KeyCommand → Except AppError (ApiKeySecretResponse × KeyAdmin)
  | .createSystemKey request => do
    let scopes ← validateKeyRequest actor request.displayName request.scopes
    let generated ← generated
    let row := newKey s.now newId none request.displayName scopes request.expiresAt generated
    return ({ resource := row.record, secret := some generated.rawKey, secretRetrievable := true },
      { s with systemKeys := row :: s.systemKeys })
  | .createConsumerKey request => do
    let scopes ← validateKeyRequest actor request.displayName request.scopes
    if request.applicationId ∉ s.applications then
      throw (.notFound ("application " ++ toString request.applicationId))
    let generated ← generated
    let row := newKey s.now newId (some request.applicationId) request.displayName scopes
      request.expiresAt generated
    return ({ resource := row.record, secret := some generated.rawKey, secretRetrievable := true },
      { s with consumerKeys := row :: s.consumerKeys })
  | .rotateKey table id _ => do
    let generated ← generated
    match s.findKey table id with
    | none => throw (.notFound ("api key " ++ toString id))
    | some row =>
      let rotated := rotatedKey s.now generated row
      let rows := (s.keys table).map fun other => if other = row then rotated else other
      return ({ resource := rotated.record, secret := some generated.rawKey, secretRetrievable := true },
        s.setKeys rows table)

/-! ## Calls -/

/-- How the transaction of a call ends. -/
inductive CommandFate
  | committed
  /-- Committed, and the caller is told otherwise. -/
  | answerLost
  | aborted
  deriving DecidableEq

structure KeyCall where
  command : KeyCommand
  idempotencyKey : Option String := none
  generated : Except AppError GeneratedApiKey
  newId : Uuid
  fate : CommandFate := .committed

/-- The answer of a failure that is replayed. -/
def replayedFailure (error : AppError) : AppError :=
  let response := error.errorResponse ""
  .replayed
    { status := error.status, code := response.code, messageKey := response.messageKey
      message := response.message, messageArgs := response.messageArgs, details := response.details }

namespace KeyAdmin

variable (s : KeyAdmin)

/-- What the ledger has for a call. -/
def replay (call : KeyCall) : Option KeyReplay :=
  call.idempotencyKey.bind fun key =>
    s.ledger.find? fun entry => entry.operation = call.command.operation ∧ entry.key = key

/-- `finalize_idempotency`, for a call with a key. -/
def finalized (call : KeyCall) (answer : Except AppError ApiKeySecretResponse) : KeyAdmin :=
  match call.idempotencyKey with
  | none => s
  | some key =>
    { s with
      ledger :=
        { operation := call.command.operation, key, command := call.command, answer } :: s.ledger }

end KeyAdmin

/-- A call of the actor: its answer, and the state after it. -/
def executeKey (actor : Actor) (s : KeyAdmin) (call : KeyCall) :
    Except AppError ApiKeySecretResponse × KeyAdmin :=
  match actor.require call.command.requiredScope with
  | .error error => (.error error, s)
  | .ok () =>
    match s.replay call with
    | some entry => (if entry.command = call.command then entry.answer else .error idempotencyConflict, s)
    | none =>
      if call.fate = .aborted then (.error .sqlx, s)
      else
        match mutate actor call.generated call.newId s call.command with
        | .error error =>
          (.error error,
            if error.isCacheableAdminFailure then s.finalized call (.error (replayedFailure error)) else s)
        | .ok (response, mutated) =>
          let s := mutated.finalized call (.ok (sanitizedKeyResponse response.resource))
          (if call.fate = .committed then .ok response else .error .sqlx, s)

inductive KeyMove
  | call (call : KeyCall)
  /-- The other principals create, rotate, revoke and delete what they like. -/
  | others (applications : List Uuid) (systemKeys consumerKeys : List StoredKey)
  /-- A record of the ledger expires. -/
  | expire (operation key : String)
  | elapse (micros : Nat)

/-- One move. -/
def keyStep (actor : Actor) (s : KeyAdmin) : KeyMove → Option KeyAdmin
  | .call call =>
    match executeKey actor s call with
    | (.ok response, s) => some { s with answers := response :: s.answers }
    | (.error _, s) => some s
  | .others applications systemKeys consumerKeys =>
    some { s with applications, systemKeys, consumerKeys }
  | .expire operation key =>
    some { s with ledger := s.ledger.filter fun entry => ¬(entry.operation = operation ∧ entry.key = key) }
  | .elapse micros => some { s with now := s.now + micros }

end Moira.Admin
