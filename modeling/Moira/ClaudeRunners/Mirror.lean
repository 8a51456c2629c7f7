import Moira.Admin.Keys

/-!
# Claude runners

What Moira keeps about the runners of the runner service, and the statements that write it. Audit
rows and `created_at`, `updated_at` are left out.

A credential scope is what the credential of a runner is sealed under.
-/

namespace Moira.ClaudeRunners

inductive ClaudeRunnerState
  | provisioning
  | awaitingAuthorization
  | exchanging
  | ready
  | linked
  | failed
  | expired
  deriving DecidableEq

namespace ClaudeRunnerState

/-- A read of such a runner asks nobody. -/
def isTerminal : ClaudeRunnerState → Bool
  | linked | failed | expired => true
  | _ => false

end ClaudeRunnerState

/-- Every state that a refresh may write over. -/
def nonTerminalStates : List ClaudeRunnerState :=
  [.provisioning, .awaitingAuthorization, .exchanging, .ready]

theorem mem_nonTerminalStates {state : ClaudeRunnerState} :
    state ∈ nonTerminalStates ↔ state.isTerminal = false := by
  cases state <;> decide

/-- `linked` is not among them: it is Moira's own state. -/
def stateFromContract (value : String) : Option ClaudeRunnerState :=
  if value = "provisioning" then some .provisioning
  else if value = "awaiting_authorization" then some .awaitingAuthorization
  else if value = "exchanging" then some .exchanging
  else if value = "ready" then some .ready
  else if value = "failed" then some .failed
  else if value = "expired" then some .expired
  else none

theorem stateFromContract_ne_linked {value : String} {state : ClaudeRunnerState}
    (h : stateFromContract value = some state) : state ≠ .linked := by
  rintro rfl
  simp only [stateFromContract] at h
  repeat' split at h
  all_goals cases h

/-! ## Scopes -/

inductive CredentialScope
  | global
  | tenant (externalTenantId : String)
  | application (applicationId : Uuid) (externalTenantId : Option String)
  | user (externalUserId : String) (applicationId : Option Uuid) (externalTenantId : Option String)
  deriving DecidableEq

namespace CredentialScope

def applicationId : CredentialScope → Option Uuid
  | application applicationId _ => some applicationId
  | user _ applicationId _ => applicationId
  | _ => none

end CredentialScope

/-- `char::is_control` -/
def isControl (c : Char) : Bool :=
  c.toNat ≤ 0x1f || (0x7f ≤ c.toNat && c.toNat ≤ 0x9f)

/-- `validate_opaque_id` -/
def validateOpaqueId (label value : String) (max : Nat) : Except AppError Unit :=
  if value.isEmpty then .error (.badRequest (label ++ " must not be empty"))
  else if max < value.utf8ByteSize then
    .error (.badRequest (label ++ " must be at most " ++ toString max ++ " characters"))
  else if value.toList.any isControl then
    .error (.badRequest (label ++ " must not contain control characters"))
  else .ok ()

def parseExternalTenantId (value : String) : Except AppError Unit :=
  validateOpaqueId "external_tenant_id" value 256

def parseExternalUserId (value : String) : Except AppError Unit :=
  validateOpaqueId "external_user_id" value 256

def validateCredentialScopeShape : CredentialScope → Except AppError Unit
  | .global => .ok ()
  | .tenant externalTenantId => parseExternalTenantId externalTenantId
  | .application _ externalTenantId => externalTenantId.forM parseExternalTenantId
  | .user externalUserId _ externalTenantId => do
    parseExternalUserId externalUserId
    externalTenantId.forM parseExternalTenantId

def authorizeCredentialScope (actor : Actor) (scope : CredentialScope) : Except AppError Unit :=
  match actor.internalApplicationId with
  | none => .ok ()
  | some boundApp =>
    match scope.applicationId with
    | none =>
      .error (.forbidden "consumer principals may manage only application-bound credentials")
    | some scopeApp =>
      if scopeApp = boundApp then .ok ()
      else .error (.forbidden "consumer principal cannot manage credentials for another application")

/-! ## Rows -/

structure ClaudeRunnerRecord where
  id : Uuid
  label : String
  runnerReference : String
  state : ClaudeRunnerState := .provisioning
  authorizationUrl : Option String := none
  errorCode : Option String := none
  expiresAt : Option Int := none
  credentialId : Option Uuid := none
  providerId : Option Uuid := none
  scope : CredentialScope := .global
  metadata : Json := .null
  version : Int := 1
  deriving DecidableEq

/-- A row of `claude_runners`. -/
structure ClaudeRunnerRow where
  record : ClaudeRunnerRecord
  deleted : Bool := false
  deriving DecidableEq

/-- What a refresh or a transition writes. -/
structure RunnerStateUpdate where
  state : Option ClaudeRunnerState := none
  authorizationUrl : Option String := none
  errorCode : Option String := none
  expiresAt : Option Int := none
  credentialId : Option Uuid := none

/-- What the columns of the row can hold. -/
def RunnerStateUpdate.fits (update : RunnerStateUpdate) : Bool :=
  (update.errorCode.all fun code => code.length ≤ 64 && !code.toList.contains '\x00') &&
    update.authorizationUrl.all fun url => !url.toList.contains '\x00'

def runnerNotFound (id : Uuid) : AppError :=
  .coded 404 "runner_not_found" ("claude runner " ++ toString id ++ " was not found")

def runnerWrongState : AppError :=
  .conflict "runner_wrong_state" "the runner is not in a state that permits this operation"

def versionConflict : AppError :=
  .conflict "resource_version_conflict" "resource version does not match If-Match"

/-- `set … = coalesce($n, …)`, with the trigger that bumps the version. -/
def RunnerStateUpdate.apply (update : RunnerStateUpdate) (record : ClaudeRunnerRecord) :
    ClaudeRunnerRecord :=
  { record with
    state := update.state.getD record.state
    authorizationUrl := update.authorizationUrl <|> record.authorizationUrl
    errorCode := update.errorCode <|> record.errorCode
    expiresAt := update.expiresAt <|> record.expiresAt
    credentialId := update.credentialId <|> record.credentialId
    version := record.version + 1 }

/-- `where id = $1 and deleted_at is null` -/
def findRow (rows : List ClaudeRunnerRow) (id : Uuid) : Option ClaudeRunnerRow :=
  rows.find? fun row => row.record.id = id && !row.deleted

/-- An update of the rows with `where id = $1 and deleted_at is null`. -/
def updateRow (rows : List ClaudeRunnerRow) (id : Uuid) (f : ClaudeRunnerRow → ClaudeRunnerRow) :
    List ClaudeRunnerRow :=
  rows.map fun row => if row.record.id = id && !row.deleted then f row else row

/-- `transition`: the row is locked, its state is checked, and it is written. -/
def transitionRow (rows : List ClaudeRunnerRow) (id : Uuid) («from» : List ClaudeRunnerState)
    (update : RunnerStateUpdate) : Except AppError (ClaudeRunnerRecord × List ClaudeRunnerRow) :=
  match findRow rows id with
  | none => .error (runnerNotFound id)
  | some row =>
    if row.record.state ∈ «from» then
      .ok (update.apply row.record,
        updateRow rows id fun row => { row with record := update.apply row.record })
    else .error runnerWrongState

/-- `soft_delete`: the row is locked, its version is checked, and it is marked. -/
def softDelete (rows : List ClaudeRunnerRow) (id : Uuid) (expectedVersion : Int) :
    Except AppError (Unit × List ClaudeRunnerRow) :=
  match findRow rows id with
  | none => .error (runnerNotFound id)
  | some row =>
    if row.record.version ≠ expectedVersion then .error versionConflict
    else .ok ((), updateRow rows id fun row =>
      { row with deleted := true, record := { row.record with version := row.record.version + 1 } })

end Moira.ClaudeRunners
