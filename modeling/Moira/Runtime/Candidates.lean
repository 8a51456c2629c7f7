import Mathlib.Data.Prod.Lex
import Moira.Execution.Types
import Moira.Lib.Ranking

/-!
# Credentials and candidates

The rows of `provider_credentials`, the two triggers of the table, and the statements that update
it.

Every one of them bumps `version`: the trigger fires before any update of the table.

The routing policies that apply to a request, with their models and providers.
-/

namespace Moira

/-- The payload of a notification on `moira_runtime_config`. -/
structure RuntimeConfigChange where
  resourceType : String
  /-- The id as `Uuid::parse_str` reads it. -/
  resourceId : Option Uuid

/-- `notify_moira_runtime_config_change`: after insert, update or delete. -/
def notifyRuntimeConfigChange (tableName : String) (id : Uuid) : List RuntimeConfigChange :=
  [{ resourceType := tableName, resourceId := some id }]

structure EncryptedSecret where
  algorithm : String
  version : Int
  encryptedDataKey : String
  nonce : String
  ciphertext : String

inductive CredentialStatus
  | active
  | disabled
  | expired
  | deleted
  | validationFailed

/-- A row of `provider_credentials`, without `created_at` and `updated_at`. -/
structure CredentialRow where
  id : Uuid
  providerId : Uuid
  credentialType : String
  scopeType : String
  externalTenantId : Option String := none
  applicationId : Option Uuid := none
  externalUserId : Option String := none
  encrypted : EncryptedSecret
  secretFingerprint : String
  maskedSecret : String
  status : CredentialStatus := .active
  priority : Int := 100
  expiresAt : Option Int := none
  lastValidatedAt : Option Int := none
  lastUsedAt : Option Int := none
  metadata : Json
  displayName : Option String := none
  deletedAt : Option Int := none
  version : Int := 1

/-- `moira_bump_resource_version`, before update. -/
def bumpResourceVersion (old new : CredentialRow) : CredentialRow :=
  { new with version := old.version + 1 }

def providerCredentials : Table Uuid CredentialRow RuntimeConfigChange where
  key := CredentialRow.id
  before := bumpResourceVersion
  after row := notifyRuntimeConfigChange "provider_credentials" row.id

/-- An update of `provider_credentials`. -/
structure CredentialStatement where
  /-- The `where` clause. -/
  reaches : CredentialRow → Bool
  set : CredentialRow → CredentialRow
  /-- No statement writes the columns the secret is bound to. -/
  keepsIdentity : ∀ row, (set row).id = row.id ∧ (set row).providerId = row.providerId ∧
    (set row).credentialType = row.credentialType ∧ (set row).scopeType = row.scopeType ∧
    (set row).externalTenantId = row.externalTenantId ∧
    (set row).applicationId = row.applicationId ∧ (set row).externalUserId = row.externalUserId

namespace CredentialStatement

def run (statement : CredentialStatement) (rows : List CredentialRow) : List CredentialRow :=
  providerCredentials.updateWhere statement.reaches statement.set rows

def notifications (statement : CredentialStatement) (rows : List CredentialRow) :
    List RuntimeConfigChange :=
  providerCredentials.announced statement.reaches statement.set rows

/-- What the statement makes of one row. -/
def stored (statement : CredentialStatement) (row : CredentialRow) : CredentialRow :=
  providerCredentials.stored statement.reaches statement.set row

/-- `touch_credential_used`: no guard on the version, none on `deleted_at`. -/
def touchCredentialUsed (now : Int) (credentialId : Uuid) : CredentialStatement where
  reaches row := row.id = credentialId
  set row := { row with lastUsedAt := some now }
  keepsIdentity _ := by simp

variable {statement : CredentialStatement} {rows : List CredentialRow} {id : Uuid}

theorem key_set (row : CredentialRow) :
    providerCredentials.key (providerCredentials.before row (statement.set row)) =
      providerCredentials.key row :=
  (statement.keepsIdentity row).1

theorem lookup_run : providerCredentials.lookup (statement.run rows) id =
    (providerCredentials.lookup rows id).map statement.stored :=
  Table.lookup_updateWhere key_set

/-- **A statement that reaches a row bumps its version**, whatever it sets. -/
theorem version_stored (row : CredentialRow) :
    (statement.stored row).version = row.version + (if statement.reaches row then 1 else 0) := by
  unfold stored Table.stored
  split
  · rfl
  · simp

theorem mem_notifications {change : RuntimeConfigChange} :
    change ∈ statement.notifications rows ↔ ∃ row ∈ rows, statement.reaches row = true ∧
      change = { resourceType := "provider_credentials", resourceId := some row.id } := by
  unfold notifications
  rw [Table.mem_announced]
  have hid (row : CredentialRow) : (statement.set row).id = row.id := (statement.keepsIdentity row).1
  simp [providerCredentials, notifyRuntimeConfigChange, bumpResourceVersion, hid]

end CredentialStatement

end Moira

namespace Moira.Routing

/-! ## Tables -/

inductive RowStatus
  | active
  | disabled
  | deleted
  deriving DecidableEq

inductive ProviderType
  | openAiCompatible
  | openAi
  | anthropic
  | gemini
  | deepSeek
  | azureOpenAi
  | local
  | custom
  | chatgptOauth
  deriving DecidableEq

structure RoutingPolicyRow where
  id : Uuid
  applicationId : Option Uuid := none
  externalTenantId : Option String := none
  routeId : Uuid
  providerId : Uuid
  providerModelId : Uuid
  priority : Nat := 100
  weight : Nat := 1
  status : RowStatus := .active
  deleted : Bool := false
  deriving DecidableEq

structure ProviderRow where
  id : Uuid
  providerType : ProviderType
  status : RowStatus := .active
  deleted : Bool := false
  deriving DecidableEq

structure ProviderModelRow where
  id : Uuid
  providerId : Uuid
  modelKey : String
  capabilities : Json := .obj []
  status : RowStatus := .active
  deleted : Bool := false
  deriving DecidableEq

structure RuntimePolicyRow where
  providerId : Uuid
  limits : ProviderRuntimePolicy
  status : RowStatus := .active
  deriving DecidableEq

/-- The tables of the join, with their primary keys. -/
structure RoutingTables where
  policies : List RoutingPolicyRow := []
  providers : List ProviderRow := []
  models : List ProviderModelRow := []
  runtimePolicies : List RuntimePolicyRow := []
  policies_key : (policies.map RoutingPolicyRow.id).Nodup := by decide
  providers_key : (providers.map ProviderRow.id).Nodup := by decide
  models_key : (models.map ProviderModelRow.id).Nodup := by decide
  runtimePolicies_key : (runtimePolicies.map RuntimePolicyRow.providerId).Nodup := by decide

/-! ## The query -/

/-- A row of the join. -/
structure JoinedPolicy where
  policy : RoutingPolicyRow
  provider : ProviderRow
  model : ProviderModelRow
  runtimePolicy : Option RuntimePolicyRow
  deriving DecidableEq

/-- What a request is matched with. -/
structure CandidateQuery where
  routeId : Uuid
  applicationId : Option Uuid
  externalTenantId : Option String

def RoutingPolicyRow.join (tables : RoutingTables) (policy : RoutingPolicyRow) :
    Option JoinedPolicy := do
  let provider ← Rows.find ProviderRow.id tables.providers policy.providerId
  let model ← Rows.find ProviderModelRow.id tables.models policy.providerModelId
  if model.providerId = policy.providerId then
    some { policy, provider, model
           runtimePolicy := Rows.find RuntimePolicyRow.providerId tables.runtimePolicies provider.id }
  else none

/-- The `where` clause. -/
def JoinedPolicy.applies (query : CandidateQuery) (row : JoinedPolicy) : Bool :=
  row.policy.routeId = query.routeId ∧
    row.policy.status = .active ∧ row.policy.deleted = false ∧
    row.provider.status = .active ∧ row.provider.deleted = false ∧
    row.model.status = .active ∧ row.model.deleted = false ∧
    (row.policy.applicationId = none ∨ row.policy.applicationId = query.applicationId) ∧
    (row.policy.externalTenantId = none ∨ row.policy.externalTenantId = query.externalTenantId) ∧
    (row.runtimePolicy.map RuntimePolicyRow.status).getD .active = .active

/-- The first column of the order: the narrower scope first. -/
def RoutingPolicyRow.scopeRank (policy : RoutingPolicyRow) : Nat :=
  match policy.applicationId, policy.externalTenantId with
  | some _, some _ => 0
  | some _, none => 1
  | none, some _ => 2
  | none, none => 3

abbrev RankKey := Nat ×ₗ Nat ×ₗ Natᵒᵈ ×ₗ Uuid ×ₗ Uuid

/-- The `order by` clause. -/
def JoinedPolicy.rankKey (row : JoinedPolicy) : RankKey :=
  toLex (row.policy.scopeRank, toLex (row.policy.priority, toLex (OrderDual.toDual row.policy.weight,
    toLex (row.provider.id, row.model.id))))

/-- The rows of the join that apply. -/
def RoutingTables.applicable (tables : RoutingTables) (query : CandidateQuery) : List JoinedPolicy :=
  (tables.policies.filterMap fun policy => policy.join tables).filter (JoinedPolicy.applies query)

/-- `list_model_candidates` -/
def listModelCandidates (tables : RoutingTables) (query : CandidateQuery) (limit : Nat) :
    List JoinedPolicy :=
  Rows.top JoinedPolicy.rankKey limit (tables.applicable query)

/-- The limits of a provider that has none of its own. -/
def defaultRuntimePolicy : ProviderRuntimePolicy where
  requestTimeoutMs := 120000
  streamIdleTimeoutMs := 30000
  retryLimit := 2
  retryBaseDelayMs := 100
  retryMaxDelayMs := 2000

/-- The columns of the row that the execution reads. -/
def JoinedPolicy.candidate (row : JoinedPolicy) : ModelCandidate where
  policyId := row.policy.id
  providerId := row.provider.id
  providerModelId := row.model.id
  modelKey := row.model.modelKey
  runtimePolicy := (row.runtimePolicy.map RuntimePolicyRow.limits).getD defaultRuntimePolicy

/-! ## The selection -/

/-- `SUPPORTS_RESPONSE_FORMAT` of the three clients that state it. -/
structure ResponseFormats where
  openAi : Bool
  azure : Bool
  deepSeek : Bool

/-- `provider_emits_output_schema` -/
def providerEmitsOutputSchema (formats : ResponseFormats) : ProviderType → Bool
  | .openAi | .openAiCompatible | .local => formats.openAi
  | .azureOpenAi => formats.azure
  | .deepSeek => formats.deepSeek
  | .anthropic | .gemini => true
  | .custom | .chatgptOauth => false

def structuredOutputCapability : String := "structured_output"

/-- `capabilities_match` -/
def capabilitiesMatch (formats : ResponseFormats) (providerType : ProviderType) (capabilities : Json)
    (required : List String) : Bool :=
  required.all fun capability =>
    if capability = structuredOutputCapability && !providerEmitsOutputSchema formats providerType then
      false
    else
      (match capabilities.get capability with
        | some (.bool b) => b
        | _ => false) ||
      (match capabilities.get "capabilities" with
        | some (.arr values) => values.any fun value => value.asStr = some capability
        | _ => false)

/-- The row passes the hints of the command and the capabilities of its policy. -/
def JoinedPolicy.passes (formats : ResponseFormats) (command : ExecutionCommand)
    (policy : EffectiveExecutionPolicy) (row : JoinedPolicy) : Bool :=
  command.providerHint.all (row.provider.id = ·) && command.modelHint.all (row.model.id = ·) &&
    capabilitiesMatch formats row.provider.providerType row.model.capabilities
      policy.requiredCapabilities

/-- The rows that `select_candidates` keeps; an empty list is the failure `no_eligible_model`. -/
def selectedRows (tables : RoutingTables) (formats : ResponseFormats) (limit : Nat)
    (command : ExecutionCommand) (policy : EffectiveExecutionPolicy) (query : CandidateQuery) :
    List JoinedPolicy :=
  (listModelCandidates tables query limit).filter (JoinedPolicy.passes formats command policy)

/-- `select_candidates`, from a lookup that succeeds. -/
def selectCandidates (tables : RoutingTables) (formats : ResponseFormats) (limit : Nat)
    (command : ExecutionCommand) (policy : EffectiveExecutionPolicy) (query : CandidateQuery) :
    Except ExecutionFailure (List ModelCandidate) :=
  match selectedRows tables formats limit command policy query with
  | [] => .error (.new .noEligibleModel "no eligible model candidate matched policy")
  | rows => .ok (rows.map JoinedPolicy.candidate)

end Moira.Routing
