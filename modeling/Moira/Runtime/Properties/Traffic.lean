import Moira.Execution.Properties.Attempts
import Moira.Runtime.Traffic

/-!
# Every request looks like a configuration change

`last_used_at` is written through the same triggers as configuration.
-/

namespace Moira

variable {db : RuntimeDb} {hasher : ApiKeyHasher} {now : Int}

/-- The credential has a row. -/
def RuntimeDb.HasCredential (db : RuntimeDb) (id : Uuid) : Prop :=
  ∃ row ∈ db.credentials, row.id = id

variable {id : Uuid}

theorem hasCredential_iff :
    db.HasCredential id ↔ ∃ row, providerCredentials.lookup db.credentials id = some row := by
  constructor
  · rintro ⟨row, hmem, hid⟩
    rw [← Option.isSome_iff_exists]
    simpa [Table.lookup] using ⟨row, hmem, hid⟩
  · rintro ⟨row, hrow⟩
    exact ⟨row, Table.mem_of_lookup hrow, Table.key_of_lookup hrow⟩

/-! ## The statements of an execution -/

theorem hasCredential_runCredentials {statement : CredentialStatement} :
    (db.runCredentials statement).1.HasCredential id ↔ db.HasCredential id := by
  rw [hasCredential_iff, hasCredential_iff]
  simp [RuntimeDb.runCredentials, CredentialStatement.lookup_run]

theorem credentialVersion_runCredentials (statement : CredentialStatement) {row : CredentialRow}
    (hrow : providerCredentials.lookup db.credentials id = some row) :
    (db.runCredentials statement).1.credentialVersion id =
      some (row.version + (if statement.reaches row then 1 else 0)) := by
  simp only [RuntimeDb.credentialVersion, RuntimeDb.runCredentials, CredentialStatement.lookup_run,
    hrow, Option.map_some, CredentialStatement.version_stored]

variable {v : Int}

theorem credentialVersion_le_runCredentials (statement : CredentialStatement)
    (hv : db.credentialVersion id = some v) :
    ∃ v', (db.runCredentials statement).1.credentialVersion id = some v' ∧ v ≤ v' := by
  obtain ⟨row, hrow, rfl⟩ := Option.map_eq_some_iff.mp hv
  refine ⟨_, credentialVersion_runCredentials statement hrow, ?_⟩
  split <;> omega

theorem credentialVersion_le_serveExchanges (exchanges : List (Prog.Exchange execSig))
    (hv : db.credentialVersion id = some v) :
    ∃ v', (serveExchanges now db exchanges).1.credentialVersion id = some v' ∧ v ≤ v' := by
  fun_induction serveExchanges now db exchanges generalizing v with
  | case1 db => exact ⟨v, hv, by omega⟩
  | case2 db credentialId _ rest db₁ changes hrun db₂ later hlater ih =>
    obtain ⟨v₁, hv₁, hle⟩ := credentialVersion_le_runCredentials
      (.touchCredentialUsed now credentialId) hv
    rw [hrun] at hv₁
    obtain ⟨v₂, hv₂, hle'⟩ := ih hv₁
    rw [hlater] at hv₂
    exact ⟨v₂, hv₂, by omega⟩
  | case3 db e rest hother ih => exact ih hv

variable {exchanges : List (Prog.Exchange execSig)}

theorem credentialVersion_lt_serveExchanges {u : Unit}
    (htouch : ⟨.touchCredentialUsed id, .ok u⟩ ∈ exchanges)
    (hv : db.credentialVersion id = some v) :
    ∃ v', (serveExchanges now db exchanges).1.credentialVersion id = some v' ∧ v < v' := by
  fun_induction serveExchanges now db exchanges generalizing v with
  | case1 db => simp at htouch
  | case2 db credentialId _ rest db₁ changes hrun db₂ later hlater ih =>
    obtain rfl : (db.runCredentials (.touchCredentialUsed now credentialId)).1 = db₁ := by rw [hrun]
    rcases List.mem_cons.mp htouch with heq | hrest
    · -- this one reaches the row, and the rest does not take it back
      obtain rfl : id = credentialId := by simpa using congrArg Sigma.fst heq
      obtain ⟨row, hrow, rfl⟩ := Option.map_eq_some_iff.mp hv
      have hid : row.id = id := Table.key_of_lookup hrow
      have hbumped := credentialVersion_runCredentials (.touchCredentialUsed now id) hrow
      obtain ⟨v', hv', hle⟩ := credentialVersion_le_serveExchanges rest hbumped
      rw [hlater] at hv'
      refine ⟨v', hv', ?_⟩
      simp only [CredentialStatement.touchCredentialUsed, hid, decide_true, if_true] at hle
      omega
    · obtain ⟨v₁, hv₁, hle⟩ := credentialVersion_le_runCredentials
        (.touchCredentialUsed now credentialId) hv
      obtain ⟨v', hv', hlt⟩ := ih hrest hv₁
      rw [hlater] at hv'
      exact ⟨v', hv', by omega⟩
  | case3 db e rest hother ih =>
    rcases List.mem_cons.mp htouch with heq | hrest
    · exact absurd heq.symm (hother id u)
    · exact ih hrest hv

theorem mem_serveExchanges {u : Unit} (htouch : ⟨.touchCredentialUsed id, .ok u⟩ ∈ exchanges)
    (hhas : db.HasCredential id) :
    { resourceType := "provider_credentials", resourceId := some id } ∈
      (serveExchanges now db exchanges).2 := by
  fun_induction serveExchanges now db exchanges with
  | case1 db => simp at htouch
  | case2 db credentialId _ rest db₁ changes hrun db₂ later hlater ih =>
    obtain ⟨rfl, rfl⟩ := Prod.mk.injEq .. ▸ hrun
    rw [List.mem_append]
    rcases List.mem_cons.mp htouch with heq | hrest
    · obtain rfl : id = credentialId := by simpa using congrArg Sigma.fst heq
      obtain ⟨row, hmem, rfl⟩ := hhas
      exact .inl (CredentialStatement.mem_notifications.mpr
        ⟨row, hmem, by simp [CredentialStatement.touchCredentialUsed], rfl⟩)
    · rw [hlater] at ih
      exact .inr (ih hrest (hasCredential_runCredentials.mpr hhas))
  | case3 db e rest hother ih =>
    rcases List.mem_cons.mp htouch with heq | hrest
    · exact absurd heq.symm (hother id u)
    · exact ih hrest hhas

/-! ## One request -/

theorem exists_touch {settings : RuntimeSettings} {command : ExecutionCommand}
    {outcome : ExecutionOutcome}
    (h : (Served.execution now settings command exchanges outcome).Successful hasher db) :
    ∃ id u, ⟨.touchCredentialUsed id, .ok u⟩ ∈ exchanges ∧ db.HasCredential id := by
  obtain ⟨hrun, hsucceeded, hknown⟩ := h
  obtain ⟨⟨o, x⟩, hmem, htouch⟩ := executeWithEvents_touches hrun hknown hsucceeded
  cases o with
  | touchCredentialUsed id =>
    cases x with
    | ok u => exact ⟨id, u, hmem, htouch⟩
    | error err => exact htouch.elim
  | _ => exact htouch.elim

/-- **A successful execution bumps the version** of the credential it used, and with it the cache
key. -/
theorem execution_bumps_version {settings : RuntimeSettings} {command : ExecutionCommand}
    {exchanges : List (Prog.Exchange execSig)} {outcome : ExecutionOutcome}
    (h : (Served.execution now settings command exchanges outcome).Successful hasher db) :
    ∃ id v v', db.credentialVersion id = some v ∧
      (serve db (.execution now settings command exchanges outcome)).1.credentialVersion id =
        some v' ∧ v < v' := by
  obtain ⟨id, u, hmem, hhas⟩ := exists_touch h
  obtain ⟨row, hrow⟩ := hasCredential_iff.mp hhas
  have hv : db.credentialVersion id = some row.version := by
    simp [RuntimeDb.credentialVersion, hrow]
  obtain ⟨v', hv', hlt⟩ := credentialVersion_lt_serveExchanges hmem hv
  exact ⟨id, row.version, v', hv, hv', hlt⟩

theorem mem_touchApiKeyUsed (now : Int) {table : ApiKeyTable} {row : ApiKeyRow}
    (h : row ∈ db.apiKeys table) :
    { resourceType := table.name, resourceId := some row.id } ∈
      (db.touchApiKeyUsed now table row.id).2 := by
  unfold RuntimeDb.touchApiKeyUsed
  rw [Table.mem_announced]
  exact ⟨row, h, by simp, by simp [ApiKeyTable.rows, notifyRuntimeConfigChange]⟩

/-- **A successful request emits a notification that clears the caches.** -/
theorem serve_clears_caches {request : Served} (h : request.Successful hasher db) :
    ∃ change ∈ (serve db request).2, (invalidationPlan (some change)).caches = true := by
  cases request with
  | execution now settings command exchanges outcome =>
    obtain ⟨id, u, hmem, hhas⟩ := exists_touch h
    refine ⟨_, mem_serveExchanges hmem hhas, ?_⟩
    rw [← Bool.not_eq_false, caches_invalidationPlan _ id rfl]
    simp [runtimeDataResourceTypes]
  | authentication now table rawKey actor =>
    obtain ⟨row, hmem, hid⟩ := mem_of_verifyApiKey h
    have hchange := mem_touchApiKeyUsed now hmem
    rw [hid] at hchange
    refine ⟨_, hchange, ?_⟩
    rw [← Bool.not_eq_false, caches_invalidationPlan _ actor.apiKeyId rfl]
    cases table <;> simp [runtimeDataResourceTypes, ApiKeyTable.name]

/-! ## A sequence of requests -/

theorem notAConfigChange_nil : NotAConfigChange db [] where
  versions n id := by simp [serveAll]
  notifications change h := by simp [serveAll] at h
  cacheKeys n providerId modelId credentialId := by simp [serveAll]
  handles targets key now handle h := h

/--
**Only the empty sequence of requests is no configuration change**: the first request of any other
one already emits a notification that clears the caches.
-/
theorem notAConfigChange_iff {requests : List Served} (h : AllSuccessful hasher db requests) :
    NotAConfigChange db requests ↔ requests = [] := by
  constructor
  · intro hsame
    cases requests with
    | nil => rfl
    | cons request rest =>
      obtain ⟨change, hmem, hclears⟩ := serve_clears_caches h.1
      have hspared := hsame.notifications change (List.mem_append_left _ hmem)
      rw [hclears] at hspared
      cases hspared
  · rintro rfl
    exact notAConfigChange_nil

namespace Trial

/-- The Argon2 check, on the one key that is used below. -/
def apiKeyHasher : ApiKeyHasher where
  prefixLength := 20
  verify rawKey keyHash := .ok (rawKey = "moira_app_0123456789abcdef" && keyHash = "$argon2id$1")

/-- One credential, and one consumer key. -/
def runtimeDb : RuntimeDb where
  credentials :=
    [{ id := 30, providerId := 11, credentialType := "api_key", scopeType := "global"
       encrypted :=
        { algorithm := "aes-256-gcm", version := 1, encryptedDataKey := "k", nonce := "n"
          ciphertext := "c" }
       secretFingerprint := "f", maskedSecret := "****", metadata := .obj [] }]
  apiKeys
    | .system => []
    | .consumer =>
      [{ id := 40, applicationId := some 50, keyPrefix := "moira_app_0123456789"
         keyHash := "$argon2id$1", scopes := [] }]
  providerVersion _ := some 1
  modelVersion _ := some 1
  runtimePolicyVersion _ := none

/-- The provider answers. -/
def answered : List (Prog.Exchange execSig) × Except AppError ExecutionOutcome :=
  (executeWithEvents settings command).runWith (env (.ok { text := "hi" }) (.done ())) 0

def outcome : ExecutionOutcome where
  requestId := "req-1"
  executionId := 1
  status := .succeeded
  outputText := some "hi"
  structuredOutput := none
  usage := {}
  route := some { routeId := 20, routeKey := "default", agentProfileId := none }
  model := some (modelDecision command candidate)
  attempts := [attemptSummary 100 1 candidate 30 none {}]
  failure := none

def signedIn : KeyActor where
  table := .consumer
  apiKeyId := 40
  applicationId := some 50
  scopes := []

/-- The caller signs in, and its execution succeeds. -/
def requests : List Served :=
  [.authentication 7 .consumer "moira_app_0123456789abcdef" signedIn,
    .execution 8 settings command answered.1 outcome]

def signedInDb : RuntimeDb :=
  (serve runtimeDb (.authentication 7 .consumer "moira_app_0123456789abcdef" signedIn)).1

theorem requests_successful : AllSuccessful apiKeyHasher runtimeDb requests := by
  refine ⟨rfl, ⟨Prog.after_runWith_ret (by decide +kernel), rfl, ?_⟩, trivial⟩
  unfold resolvesKnown
  decide +kernel

end Trial

theorem execution_bumps_version_served :
    ∃ id v v', Trial.signedInDb.credentialVersion id = some v ∧
      (serve Trial.signedInDb (.execution 8 Trial.settings Trial.command Trial.answered.1
        Trial.outcome)).1.credentialVersion id = some v' ∧ v < v' :=
  execution_bumps_version Trial.requests_successful.2.1

theorem notAConfigChange_iff_served :
    AllSuccessful Trial.apiKeyHasher Trial.runtimeDb Trial.requests ∧
      (NotAConfigChange Trial.runtimeDb Trial.requests ↔ Trial.requests = []) :=
  ⟨Trial.requests_successful, notAConfigChange_iff Trial.requests_successful⟩

theorem traffic_changes_config :
    AllSuccessful Trial.apiKeyHasher Trial.runtimeDb Trial.requests ∧
      Trial.runtimeDb.credentialVersion 30 = some 1 ∧
      (serveAll Trial.runtimeDb Trial.requests).1.credentialVersion 30 = some 2 ∧
      (serveAll Trial.runtimeDb Trial.requests).2.map (·.resourceType) =
        ["consumer_api_keys", "provider_credentials"] ∧
      ¬ NotAConfigChange Trial.runtimeDb Trial.requests := by
  refine ⟨Trial.requests_successful, rfl, by decide +kernel, by decide +kernel, fun h => ?_⟩
  have hsame := h.versions 2 30
  have hbumped : (serveAll Trial.runtimeDb (Trial.requests.take 2)).1.credentialVersion 30 =
      some 2 := by decide +kernel
  rw [hbumped] at hsame
  cases hsame

end Moira
