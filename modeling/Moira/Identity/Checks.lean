import Moira.Identity.Statements
import Moira.Lib.System
import Moira.Security.Authz

/-!
# Checks

`AdminIdentityService`, `AuthProviderSettingsService` and `JwtIssuerAdminService` check a call
before they write anything. The checks read the tables through the pool, outside of the transaction
that writes; they run in any monad that has these reads (`Pool`).

The calls on `auth_provider_settings` and `trusted_jwt_issuers`, each made after the one before it
has answered. A call reads what is committed, and its transaction is the only one that is open.

- `ConsoleCall.run` — a call that succeeds; `none` when it is refused
-/

namespace Moira.Identity

/-! ## Checks -/

/-- What a check can do: read the tables, refuse, and ask whether a JWKS address is denied. -/
structure Pool (m : Type → Type) where
  fetch : (q : Query) → m q.Row
  orFail : {α : Type} → Except AppError α → m α
  rejectDeniedJwksUrl : String → m Unit

/-- What the services take from libraries and from the configuration. -/
structure Libraries where
  /-- `url::Url::parse` of an `https` address with a host. -/
  isHttpsUrl : String → Bool
  /-- `ApiKeyHasher::prefix` -/
  keyPrefix : String → String
  /-- `serde_json::to_value` of a request. -/
  requestJson : String → List (Option String) → Json
  /-- `actor_identity_bytes` -/
  actorIdentity : Actor → String
  /-- `serde_json::to_value` of an answer. -/
  responseJson : String → Uuid → Json

def notPrimary : AppError :=
  .coded 403 "admin_identity_not_primary"
    "only a primary admin identity may manage other admin identities"

def unregisteredTrustedIssuer (message : String) : AppError :=
  .coded 400 "unregistered_trusted_issuer" message

def requireNonEmpty (label value : String) : Except AppError Unit :=
  if (trim value).isEmpty then .error (.badRequest (label ++ " must not be empty")) else .ok ()

section Checks

variable {m : Type → Type} [Monad m] (pool : Pool m) (lib : Libraries)

/-- The ownership check: the caller's own grant has to be primary. -/
def requirePrimaryActor (actor : Actor) (issuer : Option String) : m Unit :=
  match actor.actorType with
  | .systemKey | .devAdmin => pure ()
  | .anonymous | .consumerKey => pool.orFail (.error notPrimary)
  | .trustedJwt =>
    match issuer, actor.subject with
    | some issuer, some subject => do
      let grant ← pool.fetch (.findActiveGrant issuer subject)
      pool.orFail (if grant.any (·.isPrimary) then .ok () else .error notPrimary)
    | _, _ => pool.orFail (.error notPrimary)

def resolveActiveIssuer (issuer : String) : m Uuid := do
  match ← pool.fetch (.resolveActiveIssuer issuer) with
  | some id => pure id
  | none =>
    pool.orFail (.error (unregisteredTrustedIssuer
      "the target issuer is not a registered, active trusted JWT issuer"))

/-- At most one policy: a second one is refused, never chosen from. -/
def singlePolicy : List GoverningAuthPolicy → Except AppError (Option GoverningAuthPolicy)
  | [] => .ok none
  | [policy] => .ok (some policy)
  | _ => .error duplicateEnabledProvider

/-- The provider bound to the trusted issuer; only without one, an unbound one of its string. -/
def admissionPolicy (issuer : String) (trustedJwtIssuerId : Uuid) :
    m (Option GoverningAuthPolicy) := do
  match ← pool.orFail (singlePolicy (← pool.fetch (.policiesBoundTo trustedJwtIssuerId))) with
  | some policy => pure (some policy)
  | none => pool.orFail (singlePolicy (← pool.fetch (.unboundPolicies issuer)))

def rejectSelfAssertingConsoleIssuer : Option Uuid → m Unit
  | none => pure ()
  | some issuerId => do
    match ← pool.fetch (.trustedIssuerScopesClaim issuerId) with
    | none =>
      pool.orFail (.error (unregisteredTrustedIssuer
        "the linked trusted JWT issuer is not registered and active"))
    | some (some _) =>
      pool.orFail (.error (.coded 400 "console_issuer_must_not_assert_scopes"
        "a console issuer must not map a scopes claim"))
    | some none => pure ()

def rejectIssuerShadowingATrustedIssuer (issuer : Option String)
    (trustedJwtIssuerId : Option Uuid) : m Unit :=
  match issuer with
  | none => pure ()
  | some issuer => do
    let colliding ← pool.fetch (.trustedIssuerIdsForIssuer issuer trustedJwtIssuerId)
    pool.orFail
      (if colliding.isEmpty then .ok ()
      else .error (.conflict "auth_provider_issuer_shadows_trusted_issuer"
        "this issuer is already registered as a trusted JWT issuer that the provider is not bound to"))

def rejectDuplicateEnabledProvider (trustedJwtIssuerId : Option Uuid) (enabled : Bool)
    (excludeRow : Option Uuid) : m Unit :=
  if !enabled then pure ()
  else
    match trustedJwtIssuerId with
    | none => pure ()
    | some issuerId => do
      let existing ← pool.fetch (.enabledProvidersOnTrustedIssuer issuerId excludeRow)
      pool.orFail (if existing.isEmpty then .ok () else .error duplicateEnabledProvider)

def getProvider (id : Uuid) : m AuthProviderRow := do
  match ← pool.fetch (.getProvider id) with
  | some row => pure row
  | none => pool.orFail (.error (authProviderNotFound id))

def validateMethodShape (complete : Bool) : Except AppError Unit :=
  if complete then .ok () else .error methodConfigIncomplete

def validateUrls (urls redirectUris : List String) : Except AppError Unit :=
  match (urls ++ redirectUris).find? fun url => !lib.isHttpsUrl url with
  | none => .ok ()
  | some url =>
    .error (.coded 400 "auth_provider_url_not_allowed" (url ++ " is not an absolute https URL"))

/-- `str::contains("..")` -/
def containsDots : List Char → Bool
  | '.' :: '.' :: _ => true
  | _ :: rest => containsDots rest
  | [] => false

/-- Whether an allow-list entry looks like a domain. -/
def isDomain (domain : String) : Bool :=
  let value := (trim domain).toList
  !value.isEmpty && value.contains '.' && value.head? ≠ some '.' && value.getLast? ≠ some '.' &&
    !containsDots value && value.all fun c => c.isAlphanum || c = '.' || c = '-'

def validateEmailDomains (domains : List String) : Except AppError Unit :=
  match domains.find? fun domain => !isDomain domain with
  | none => .ok ()
  | some domain =>
    .error (.coded 400 "invalid_request" ("\"" ++ domain ++ "\" is not a valid email domain"))

/-- What `create` checks before its command. -/
def createProviderChecks (actor : Actor) (issuer : Option String)
    (request : AuthProviderCreateRequest) : m Unit := do
  pool.orFail (actor.require "moira:auth-settings:write")
  requirePrimaryActor pool actor issuer
  pool.orFail (requireNonEmpty "display_name" request.displayName)
  pool.orFail (validateMethodShape (methodShape request.method request.issuer request.discoveryUrl
    request.authorizationUrl request.tokenUrl request.jwksUrl request.clientId))
  pool.orFail (validateUrls lib
    (request.discoveryUrl.toList ++ request.authorizationUrl.toList ++ request.tokenUrl.toList ++
      request.userinfoUrl.toList ++ request.jwksUrl.toList) request.redirectUris)
  pool.orFail (validateEmailDomains request.allowedEmailDomains)
  rejectSelfAssertingConsoleIssuer pool request.trustedJwtIssuerId
  rejectIssuerShadowingATrustedIssuer pool request.issuer request.trustedJwtIssuerId
  rejectDuplicateEnabledProvider pool request.trustedJwtIssuerId request.enabled none

/-- What `patch` checks: the two last guards run against the row as it will be. -/
def patchProviderChecks (actor : Actor) (issuer : Option String) (id : Uuid)
    (request : AuthProviderPatchRequest) : m Unit := do
  pool.orFail (actor.require "moira:auth-settings:write")
  requirePrimaryActor pool actor issuer
  pool.orFail ((request.displayName.map (requireNonEmpty "display_name")).getD (.ok ()))
  pool.orFail (validateUrls lib
    (request.discoveryUrl.toList ++ request.authorizationUrl.toList ++ request.tokenUrl.toList ++
      request.userinfoUrl.toList ++ request.jwksUrl.toList) (request.redirectUris.getD []))
  pool.orFail ((request.allowedEmailDomains.map validateEmailDomains).getD (.ok ()))
  rejectSelfAssertingConsoleIssuer pool request.trustedJwtIssuerId
  if request.issuer.isSome || request.trustedJwtIssuerId.isSome || request.enabled = some true then do
    let current ← getProvider pool id
    let binding := request.trustedJwtIssuerId <|> current.trustedJwtIssuerId
    rejectIssuerShadowingATrustedIssuer pool (request.issuer <|> current.issuer) binding
    rejectDuplicateEnabledProvider pool binding (request.enabled.getD current.enabled) (some id)

def setProviderEnabledChecks (actor : Actor) (issuer : Option String) (id : Uuid)
    (enabled : Bool) : m Unit := do
  pool.orFail (actor.require "moira:auth-settings:write")
  requirePrimaryActor pool actor issuer
  if enabled then do
    let current ← getProvider pool id
    pool.orFail (validateMethodShape current.hasMethodShape)
    rejectDuplicateEnabledProvider pool current.trustedJwtIssuerId true (some id)

def deleteProviderChecks (actor : Actor) (issuer : Option String) : m Unit := do
  pool.orFail (actor.require "moira:auth-settings:delete")
  requirePrimaryActor pool actor issuer

def jwtAlgorithms : List String :=
  ["RS256", "RS384", "RS512", "PS256", "PS384", "PS512", "ES256", "ES384", "EdDSA"]

def validateJwtAlgorithmList (values : List String) : Except AppError Unit :=
  if values.isEmpty then .error (.badRequest "allowed_algorithms must not be empty")
  else
    match values.find? fun value => !jwtAlgorithms.contains value with
    | none => .ok ()
    | some value => .error (.badRequest ("unsupported JWT algorithm " ++ value))

def createIssuerChecks (actor : Actor) (request : TrustedJwtIssuerCreateRequest) : m Unit := do
  pool.orFail (actor.require "moira:jwt-issuers:write")
  pool.rejectDeniedJwksUrl request.jwksUrl

def patchIssuerChecks (actor : Actor) (request : TrustedJwtIssuerPatchRequest) : m Unit := do
  pool.orFail (actor.require "moira:jwt-issuers:write")
  match request.jwksUrl with
  | some jwksUrl => pool.rejectDeniedJwksUrl jwksUrl
  | none => pure ()
  pool.orFail ((request.allowedAlgorithms.map validateJwtAlgorithmList).getD (.ok ()))

def rejectIfIssuerHasActiveGrants (id : Uuid) : m Unit := do
  let grants ← pool.fetch (.countActiveGrantsForTrustedIssuer id)
  pool.orFail
    (if grants = 0 then .ok ()
    else .error (.conflict "trusted_issuer_has_active_grants"
      (toString grants ++ " active admin identity grant(s) were made through this trusted JWT " ++
        "issuer; revoke them before retiring it")))

def setIssuerEnabledChecks (actor : Actor) (id : Uuid) (enabled : Bool) : m Unit := do
  pool.orFail (actor.require "moira:jwt-issuers:delete")
  if enabled then pure () else rejectIfIssuerHasActiveGrants pool id

def deleteIssuerChecks (actor : Actor) (id : Uuid) : m Unit := do
  pool.orFail (actor.require "moira:jwt-issuers:write")
  rejectIfIssuerHasActiveGrants pool id

end Checks

/-! ## The console's calls -/

inductive ConsoleCall
  | createProvider (actor : Actor) (issuer : Option String) (id : Uuid)
      (request : AuthProviderCreateRequest)
  | patchProvider (actor : Actor) (issuer : Option String) (id : Uuid) (expectedVersion : Int)
      (request : AuthProviderPatchRequest)
  | setProviderEnabled (actor : Actor) (issuer : Option String) (id : Uuid) (expectedVersion : Int)
      (enabled : Bool)
  | deleteProvider (actor : Actor) (issuer : Option String) (id : Uuid) (expectedVersion : Int)
  | createIssuer (actor : Actor) (id : Uuid) (request : TrustedJwtIssuerCreateRequest)
  | patchIssuer (actor : Actor) (id : Uuid) (expectedVersion : Int)
      (request : TrustedJwtIssuerPatchRequest)
  | setIssuerEnabled (actor : Actor) (id : Uuid) (expectedVersion : Int) (enabled : Bool)
  | deleteIssuer (actor : Actor) (id : Uuid) (expectedVersion : Int)

/-- A call with what it meets outside of the tables: the clock and the JWKS policy. -/
structure ConsoleRequest where
  call : ConsoleCall
  now : Nat := 0
  rejectDeniedJwksUrl : String → Except AppError Unit := fun _ => .ok ()

inductive ConsoleMove
  | call (request : ConsoleRequest)
  /-- Claims, redemptions, transfers and revocations. -/
  | grants (grants : List AdminIdentityGrant)

/-- The checks read the committed tables. -/
def tablesPool (t : Tables) (rejectDeniedJwksUrl : String → Except AppError Unit) :
    Pool (Except AppError) where
  fetch q := .ok (q.answer t)
  orFail result := result
  rejectDeniedJwksUrl := rejectDeniedJwksUrl

/-! ## Writes -/

/-- The rows after a transaction with one statement. -/
def writeRows {ρ : Type} (key : ρ → Uuid) (pass : Store Nat Uuid ρ → Nat → ρ → Bool) (rows : List ρ)
    (change : Except AppError (Change ρ)) : Option (List ρ) :=
  match change with
  | .error _ => none
  | .ok change => (Store.putAll key pass 0 { rows } change.rows).map (·.visible key 0)

def Tables.writeProviders (t : Tables) (change : Except AppError (Change AuthProviderRow)) :
    Option Tables :=
  (writeRows (·.id) passesProviderIndexes t.providers change).map fun providers =>
    { t with providers }

def Tables.writeIssuers (t : Tables) (change : Except AppError (Change TrustedJwtIssuerRow)) :
    Option Tables :=
  (writeRows (·.id) passesIssuerIndexes t.issuers change).map fun issuers => { t with issuers }

namespace ConsoleRequest

variable (lib : Libraries) (t : Tables) (request : ConsoleRequest)

/-- What the call checks before its transaction. -/
def checks : Except AppError Unit :=
  let pool := tablesPool t request.rejectDeniedJwksUrl
  match request.call with
  | .createProvider actor issuer _ body => createProviderChecks pool lib actor issuer body
  | .patchProvider actor issuer id _ body => patchProviderChecks pool lib actor issuer id body
  | .setProviderEnabled actor issuer id _ enabled =>
    setProviderEnabledChecks pool actor issuer id enabled
  | .deleteProvider actor issuer _ _ => deleteProviderChecks pool actor issuer
  | .createIssuer actor _ body => do
    createIssuerChecks pool actor body
    validateJwtAlgorithmList body.allowedAlgorithms
    requireNonEmpty "issuer" body.issuer
  | .patchIssuer actor _ _ body => patchIssuerChecks pool actor body
  | .setIssuerEnabled actor id _ enabled => setIssuerEnabledChecks pool actor id enabled
  | .deleteIssuer actor id _ => deleteIssuerChecks pool actor id

/-- What the call writes. -/
def write : Option Tables :=
  match request.call with
  | .createProvider _ _ id body => t.writeProviders (createProvider t.providers id body)
  | .patchProvider _ _ id version body => t.writeProviders (patchProvider t.providers id version body)
  | .setProviderEnabled _ _ id version enabled =>
    t.writeProviders (setProviderEnabled t.providers id version enabled)
  | .deleteProvider _ _ id version =>
    t.writeProviders (softDeleteProvider t.providers id version request.now)
  | .createIssuer _ id body => t.writeIssuers (createIssuer t.issuers id body)
  | .patchIssuer _ id version body => t.writeIssuers (patchIssuer t.issuers id version body)
  | .setIssuerEnabled _ id version enabled =>
    t.writeIssuers (setIssuerStatus t.issuers id version enabled)
  | .deleteIssuer _ id version => t.writeIssuers (softDeleteIssuer t.issuers id version request.now)

/-- The tables after a call that succeeds. -/
def run : Option Tables :=
  match request.checks lib t with
  | .error _ => none
  | .ok _ => request.write t

end ConsoleRequest

/-- A call, or whatever the other services do to the grants in between. -/
def consoleStep (lib : Libraries) (t : Tables) : ConsoleMove → Option Tables
  | .call request => request.run lib t
  | .grants grants => some { t with grants }

end Moira.Identity
