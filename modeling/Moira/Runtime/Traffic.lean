import Moira.Execution.Properties.Touch
import Moira.Runtime.Candidates

/-!
# Runtime caches and what clears them

What a notification on `moira_runtime_config` clears, and the cache of built provider clients.

The writes that serving a request makes in tables with triggers: `last_used_at` of the credential an
execution used, and `last_used_at` of the api key a caller signed in with.

- `RuntimeCacheKey` — the key `runtime_handle` looks a client up under
-/

namespace Moira

/-! ## The classifier -/

inductive CircuitResetScope
  | all
  | provider (id : Uuid)
  | model (id : Uuid)
  | unaffected

structure InvalidationPlan where
  caches : Bool
  circuits : CircuitResetScope

def InvalidationPlan.everything : InvalidationPlan where
  caches := true
  circuits := .all

def circuitUnaffectedResourceTypes : List String :=
  ["agent_profiles", "application_conversation_policies", "application_embedding_policies",
    "application_execution_policies", "application_memory_policies",
    "application_retrieval_policies", "applications", "auth_provider_settings",
    "consumer_api_keys", "provider_credentials", "provider_runtime_policies", "route_definitions",
    "routing_policies", "system_api_keys", "trusted_jwt_issuers"]

def runtimeDataResourceTypes : List String :=
  ["conversations", "memory_records", "rag_collections", "rag_documents"]

/-- `invalidation_plan`; `none` is a payload that does not parse. -/
def invalidationPlan : Option RuntimeConfigChange → InvalidationPlan
  | none => .everything
  | some { resourceId := none, .. } => .everything
  | some { resourceType, resourceId := some id } =>
    if resourceType = "providers" then { caches := true, circuits := .provider id }
    else if resourceType = "provider_models" then { caches := true, circuits := .model id }
    -- the only arm that clears no cache
    else if resourceType ∈ runtimeDataResourceTypes then
      { caches := false, circuits := .unaffected }
    else if resourceType ∈ circuitUnaffectedResourceTypes then
      { caches := true, circuits := .unaffected }
    else .everything

theorem caches_invalidationPlan (change : RuntimeConfigChange) (id : Uuid)
    (hid : change.resourceId = some id) : (invalidationPlan (some change)).caches = false ↔
      change.resourceType ∈ runtimeDataResourceTypes := by
  obtain ⟨resourceType, resourceId⟩ := change
  obtain rfl : resourceId = some id := hid
  simp only [invalidationPlan, InvalidationPlan.everything]
  by_cases hdata : resourceType ∈ runtimeDataResourceTypes
  · have hprovider : resourceType ≠ "providers" := by
      rintro rfl; simp [runtimeDataResourceTypes] at hdata
    have hmodel : resourceType ≠ "provider_models" := by
      rintro rfl; simp [runtimeDataResourceTypes] at hdata
    simp [hprovider, hmodel, hdata]
  · simp only [hdata, if_false, iff_false]
    split_ifs <;> simp

/-! ## The caches of a replica -/

structure RuntimeCacheKey where
  providerId : Uuid
  providerVersion : Int
  modelId : Uuid
  modelVersion : Int
  credentialId : Uuid
  credentialVersion : Int
  runtimePolicyVersion : Int
  deriving DecidableEq

structure RuntimeCacheEntry (H : Type) where
  handle : H
  expiresAt : Int
  insertedAt : Int

/-- `ProviderRuntimeCache`: the built provider clients. -/
structure ProviderRuntimeCache (H : Type) where
  entries : List (RuntimeCacheKey × RuntimeCacheEntry H)

namespace ProviderRuntimeCache

variable {H : Type}

def get (cache : ProviderRuntimeCache H) (key : RuntimeCacheKey) (now : Int) : Option H :=
  ((cache.entries.lookup key).filter fun entry => now < entry.expiresAt).map (·.handle)

def invalidateAll (_ : ProviderRuntimeCache H) : ProviderRuntimeCache H where
  entries := []

end ProviderRuntimeCache

/-- What a replica holds that a notification can clear. -/
structure RuntimeInvalidationTargets (H C A : Type) where
  /-- The provider configurations, by provider. -/
  cache : List (Uuid × C)
  runtimeHandles : ProviderRuntimeCache H
  /-- The enabled sign-in methods. -/
  authSettings : Option A

/-- `apply_invalidation`, without the circuit breakers. -/
def applyInvalidation {H C A : Type} (targets : RuntimeInvalidationTargets H C A)
    (change : RuntimeConfigChange) : RuntimeInvalidationTargets H C A :=
  if (invalidationPlan (some change)).caches then
    { cache := [], runtimeHandles := targets.runtimeHandles.invalidateAll, authSettings := none }
  else targets

/-! ## Api keys -/

inductive KeyStatus
  | active
  | revoked
  | expired
  | deleted
  deriving DecidableEq

/-- A row of `system_api_keys` or `consumer_api_keys`; neither has a `version`. -/
structure ApiKeyRow where
  id : Uuid
  applicationId : Option Uuid
  keyPrefix : String
  keyHash : String
  scopes : List String
  status : KeyStatus := .active
  expiresAt : Option Int := none
  lastUsedAt : Option Int := none
  deletedAt : Option Int := none

inductive ApiKeyTable
  | system
  | consumer
  deriving DecidableEq

def ApiKeyTable.name : ApiKeyTable → String
  | system => "system_api_keys"
  | consumer => "consumer_api_keys"

def ApiKeyTable.rows (table : ApiKeyTable) : Table Uuid ApiKeyRow RuntimeConfigChange where
  key := ApiKeyRow.id
  after row := notifyRuntimeConfigChange table.name row.id

/-- The parts of the key hasher that authentication calls; `verify` is the Argon2 check. -/
structure ApiKeyHasher where
  prefixLength : Nat
  verify : String → String → Except AppError Bool

def ApiKeyHasher.keyPrefix (hasher : ApiKeyHasher) (rawKey : String) : String :=
  String.ofList (rawKey.toList.take hasher.prefixLength)

/-- What authentication by key says about the caller. -/
structure KeyActor where
  table : ApiKeyTable
  apiKeyId : Uuid
  applicationId : Option Uuid
  scopes : List String

/-- The rows with the key's first characters that are live. -/
def candidateKeys (hasher : ApiKeyHasher) (now : Int) (rawKey : String) (rows : List ApiKeyRow) :
    List ApiKeyRow :=
  rows.filter fun row => row.keyPrefix = hasher.keyPrefix rawKey && row.deletedAt.isNone &&
    row.status = .active && row.expiresAt.all (now < ·)

/-- The first row whose hash the key matches. -/
def verifiedRow (hasher : ApiKeyHasher) (rawKey : String) :
    List ApiKeyRow → Except AppError ApiKeyRow
  | [] => .error (.unauthorized "invalid api key")
  | row :: rows => do
    if ← hasher.verify rawKey row.keyHash then pure row else verifiedRow hasher rawKey rows

/-- `verify_api_key`, up to its `UPDATE`. -/
def verifyApiKey (hasher : ApiKeyHasher) (now : Int) (table : ApiKeyTable) (rawKey : String)
    (rows : List ApiKeyRow) : Except AppError KeyActor := do
  let row ← verifiedRow hasher rawKey (candidateKeys hasher now rawKey rows)
  pure { table, apiKeyId := row.id, applicationId := row.applicationId, scopes := row.scopes }

theorem mem_of_verifiedRow {hasher : ApiKeyHasher} {rawKey : String} {rows : List ApiKeyRow}
    {row : ApiKeyRow} (h : verifiedRow hasher rawKey rows = .ok row) : row ∈ rows := by
  induction rows with
  | nil => cases h
  | cons first rest ih =>
    unfold verifiedRow at h
    cases hverify : hasher.verify rawKey first.keyHash with
    | error err => simp [hverify, bind, Except.bind] at h
    | ok verified =>
      cases verified with
      | true =>
        simp only [hverify, bind, Except.bind, pure, Except.pure, if_true, Except.ok.injEq] at h
        simp [h]
      | false =>
        simp only [hverify, bind, Except.bind, Bool.false_eq_true, if_false] at h
        simp [ih h]

theorem mem_of_verifyApiKey {hasher : ApiKeyHasher} {now : Int} {table : ApiKeyTable}
    {rawKey : String} {rows : List ApiKeyRow} {actor : KeyActor}
    (h : verifyApiKey hasher now table rawKey rows = .ok actor) :
    ∃ row ∈ rows, row.id = actor.apiKeyId := by
  unfold verifyApiKey at h
  cases hrow : verifiedRow hasher rawKey (candidateKeys hasher now rawKey rows) with
  | error err => simp [hrow, bind, Except.bind] at h
  | ok row =>
    simp only [hrow, bind, Except.bind, pure, Except.pure, Except.ok.injEq] at h
    have hmem := mem_of_verifiedRow hrow
    exact ⟨row, (List.mem_filter.mp hmem).1, by rw [← h]⟩

/-! ## The database -/

/-- The tables that a `RuntimeCacheKey` is computed from, and the ones that traffic writes. -/
structure RuntimeDb where
  credentials : List CredentialRow
  apiKeys : ApiKeyTable → List ApiKeyRow
  /-- `providers.version`. -/
  providerVersion : Uuid → Option Int
  /-- `provider_models.version`. -/
  modelVersion : Uuid → Option Int
  /-- `provider_runtime_policies.version` of a provider. -/
  runtimePolicyVersion : Uuid → Option Int

namespace RuntimeDb

def credentialVersion (db : RuntimeDb) (id : Uuid) : Option Int :=
  (providerCredentials.lookup db.credentials id).map (·.version)

/-- The key `runtime_handle` computes for a provider, a model and a credential. -/
def runtimeCacheKey (db : RuntimeDb) (providerId modelId credentialId : Uuid) :
    Option RuntimeCacheKey := do
  let providerVersion ← db.providerVersion providerId
  let modelVersion ← db.modelVersion modelId
  let credentialVersion ← db.credentialVersion credentialId
  pure
    { providerId, providerVersion, modelId, modelVersion, credentialId, credentialVersion
      runtimePolicyVersion := (db.runtimePolicyVersion providerId).getD 1 }

/-- `update … set last_used_at = now() where id = $1` on the table the caller signed in with. -/
def touchApiKeyUsed (db : RuntimeDb) (now : Int) (table : ApiKeyTable) (id : Uuid) :
    RuntimeDb × List RuntimeConfigChange :=
  ({ db with
      apiKeys := fun t =>
        if t = table then
          table.rows.updateWhere (·.id = id) ({ · with lastUsedAt := some now }) (db.apiKeys table)
        else db.apiKeys t },
    table.rows.announced (·.id = id) ({ · with lastUsedAt := some now }) (db.apiKeys table))

/-- An update of `provider_credentials`. -/
def runCredentials (db : RuntimeDb) (statement : CredentialStatement) :
    RuntimeDb × List RuntimeConfigChange :=
  ({ db with credentials := statement.run db.credentials }, statement.notifications db.credentials)

end RuntimeDb

/-! ## Requests -/

/-- A request that was served: an execution, with what it was answered, or an authentication. -/
inductive Served
  | execution (now : Int) (settings : RuntimeSettings) (command : ExecutionCommand)
      (exchanges : List (Prog.Exchange execSig)) (outcome : ExecutionOutcome)
  | authentication (now : Int) (table : ApiKeyTable) (rawKey : String) (actor : KeyActor)

/-- The request ended well, on what the database held when it arrived. -/
def Served.Successful (hasher : ApiKeyHasher) (db : RuntimeDb) : Served → Prop
  | .execution _ settings command exchanges outcome =>
    Prog.After (executeWithEvents settings command) exchanges (.ret outcome) ∧
      outcome.status = .succeeded ∧
      ∀ e ∈ exchanges, resolvesKnown (fun id => ∃ row ∈ db.credentials, row.id = id) e.1 e.2
  | .authentication now table rawKey actor =>
    verifyApiKey hasher now table rawKey (db.apiKeys table) = .ok actor

/-- The statements of an execution in tables with triggers: `touch_credential_used` alone. -/
def serveExchanges (now : Int) (db : RuntimeDb) :
    List (Prog.Exchange execSig) → RuntimeDb × List RuntimeConfigChange
  | [] => (db, [])
  | ⟨.touchCredentialUsed credentialId, .ok _⟩ :: rest =>
    let (db, changes) := db.runCredentials (.touchCredentialUsed now credentialId)
    let (db, later) := serveExchanges now db rest
    (db, changes ++ later)
  | _ :: rest => serveExchanges now db rest

/-- The database after a request, and the notifications it emitted. -/
def serve (db : RuntimeDb) : Served → RuntimeDb × List RuntimeConfigChange
  | .execution now _ _ exchanges _ => serveExchanges now db exchanges
  | .authentication now table _ actor => db.touchApiKeyUsed now table actor.apiKeyId

def serveAll (db : RuntimeDb) : List Served → RuntimeDb × List RuntimeConfigChange
  | [] => (db, [])
  | request :: rest =>
    let (db, changes) := serve db request
    let (db, later) := serveAll db rest
    (db, changes ++ later)

/-- Every request of the sequence ended well, with no other write in between. -/
def AllSuccessful (hasher : ApiKeyHasher) (db : RuntimeDb) : List Served → Prop
  | [] => True
  | request :: rest =>
    request.Successful hasher db ∧ AllSuccessful hasher (serve db request).1 rest

/--
**Traffic is not a configuration change**: versions and cache keys are the same throughout, no
notification clears the caches of a replica, and the handles it has cached are found again.
-/
structure NotAConfigChange (db : RuntimeDb) (requests : List Served) : Prop where
  versions : ∀ n id,
    (serveAll db (requests.take n)).1.credentialVersion id = db.credentialVersion id
  notifications : ∀ change ∈ (serveAll db requests).2,
    (invalidationPlan (some change)).caches = false
  cacheKeys : ∀ n providerId modelId credentialId,
    (serveAll db (requests.take n)).1.runtimeCacheKey providerId modelId credentialId =
      db.runtimeCacheKey providerId modelId credentialId
  handles : ∀ {H C A : Type} (targets : RuntimeInvalidationTargets H C A) key now handle,
    targets.runtimeHandles.get key now = some handle →
      ((serveAll db requests).2.foldl applyInvalidation targets).runtimeHandles.get key now =
        some handle

end Moira
