import Moira.Identity.Rows
import Moira.Lib.Batch

/-!
# What the repositories write

Each statement reads the rows its transaction sees and says which row versions it writes. The
`before update` trigger bumps the version of every row that is written.

- `insertGrant`, `setPrimary`, `revokeGrant`, `markSetupClaimed` — under the ownership lock
- `insertInvite`, `revokeInvite`, `consumeInvite`
- the statements on `auth_provider_settings` and on `trusted_jwt_issuers`

The unique indexes are functions from rows to the value they index; `none` is a row the partial
index leaves out.
-/

namespace Moira.Identity

/-- The row versions a statement writes, and what it returns. -/
structure Change (ρ : Type) where
  rows : List ρ
  result : ρ

/-- A new row: its primary key must not be there yet. -/
def inserted {ρ : Type} (key : ρ → Uuid) (violation : AppError) (rows : List ρ) (row : ρ) :
    Except AppError (Change ρ) :=
  if rows.any fun other => key other = key row then .error violation
  else .ok { rows := [row], result := row }

def versionConflict : AppError :=
  .conflict "resource_version_conflict" "resource version does not match If-Match"

/-! ## `admin_identities` -/

structure AdminIdentityGrantInsert where
  id : Uuid
  trustedJwtIssuerId : Uuid
  issuer : String
  subject : String
  email : String
  emailVerified : Bool
  grantedScopes : List String
  grantedByActorType : String
  grantedBySubject : Option String

def grantNotFound (id : Uuid) : AppError :=
  .coded 404 "admin_identity_not_found" ("admin identity " ++ toString id ++ " was not found")

def alreadyRevoked (id : Uuid) : AppError :=
  .conflict "admin_identity_already_revoked"
    ("admin identity " ++ toString id ++ " has already been revoked")

def lastPrimary : AppError :=
  .conflict "admin_identity_last_primary"
    "this is the last admin identity that can manage other admins"

def alreadyClaimed : AppError :=
  .conflict "admin_identity_already_claimed" "this identity has already been granted admin access"

namespace AdminIdentityGrant

/-- `admin_identities_issuer_subject_active_unique` -/
def issuerSubject (grant : AdminIdentityGrant) : Option (String × String) :=
  some (grant.issuer, grant.subject)

/-- `admin_identities_single_active_primary` -/
def primarySlot (grant : AdminIdentityGrant) : Option Unit :=
  if grant.isActivePrimary then some () else none

def bumped (grant : AdminIdentityGrant) : AdminIdentityGrant :=
  { grant with version := grant.version + 1 }

end AdminIdentityGrant

section Grants

variable (grants : List AdminIdentityGrant)

/-- The grant is primary if there is no active primary yet. -/
def insertGrant (insert : AdminIdentityGrantInsert) :
    Except AppError (Change AdminIdentityGrant) :=
  inserted (·.id) alreadyClaimed grants
    { id := insert.id, trustedJwtIssuerId := insert.trustedJwtIssuerId, issuer := insert.issuer
      subject := insert.subject, email := some insert.email, emailVerified := insert.emailVerified
      grantedScopes := insert.grantedScopes, grantedByActorType := insert.grantedByActorType
      grantedBySubject := insert.grantedBySubject
      isPrimary := !grants.any (·.isActivePrimary) }

def lockGrant (id : Uuid) : Except AppError AdminIdentityGrant :=
  match grants.find? fun row => row.id = id with
  | some grant => .ok grant
  | none => .error (grantNotFound id)

def requireAnotherActivePrimary (excluding : Uuid) : Except AppError Unit :=
  if grants.any fun row => row.isActivePrimary && row.id ≠ excluding then .ok ()
  else .error lastPrimary

def demoteActivePrimariesOtherThan (excluding : Uuid) : List AdminIdentityGrant :=
  (grants.filter fun row => row.isActivePrimary && row.id ≠ excluding).map fun row =>
    { row.bumped with isPrimary := false }

/-- Setting the flag moves it; clearing the last one is refused. -/
def setPrimary (id : Uuid) (expectedVersion : Int) (isPrimary : Bool) :
    Except AppError (Change AdminIdentityGrant) := do
  let current ← lockGrant grants id
  if current.status ≠ .active then throw (alreadyRevoked id)
  if current.version ≠ expectedVersion then throw versionConflict
  if current.isPrimary && !isPrimary then requireAnotherActivePrimary grants id
  let demoted :=
    if isPrimary && !current.isPrimary then demoteActivePrimariesOtherThan grants id else []
  let grant := { current.bumped with isPrimary }
  return { rows := demoted ++ [grant], result := grant }

def revokeGrant (id : Uuid) (now : Nat) : Except AppError (Change AdminIdentityGrant) := do
  let current ← lockGrant grants id
  if current.status ≠ .active then throw (alreadyRevoked id)
  if current.isPrimary then requireAnotherActivePrimary grants id
  let grant := { current.bumped with status := .revoked, revokedAt := some now, isPrimary := false }
  return { rows := [grant], result := grant }

end Grants

/-- `where id and claimed = false`: the first claimant is never rewritten. -/
def markSetupClaimed (setup : SetupState) (adminIdentityId : Uuid) (now : Nat) : SetupState :=
  if setup.claimed then setup
  else { claimed := true, claimedAdminIdentityId := some adminIdentityId, claimedAt := some now }

/-! ## `admin_invites` -/

structure AdminInviteInsert where
  id : Uuid
  tokenPrefix : String
  tokenHash : String
  constraint : AdminInviteConstraint
  value : String
  createdBySubject : Option String
  createdByActorType : String
  expiresAt : Nat

/-- `admin_invites_token_prefix_active_unique` -/
def AdminInviteRow.prefixKey (invite : AdminInviteRow) : Option String :=
  some invite.tokenPrefix

section Invites

variable (invites : List AdminInviteRow)

def insertInvite (insert : AdminInviteInsert) : Except AppError (Change AdminInviteRow) :=
  inserted (·.id) .sqlx invites
    { id := insert.id, tokenPrefix := insert.tokenPrefix, tokenHash := insert.tokenHash
      constraint := insert.constraint, value := insert.value, expiresAt := insert.expiresAt
      createdBySubject := insert.createdBySubject
      createdByActorType := insert.createdByActorType }

def revokeInvite (id : Uuid) (now : Nat) : Except AppError (Change AdminInviteRow) :=
  match invites.find? fun row => row.id = id with
  | none => .error inviteNotFound
  | some current =>
    match current.status with
    | .consumed => .error alreadyConsumed
    | .revoked => .error inviteRevoked
    | .pending =>
      let invite :=
        { current with status := .revoked, revokedAt := some now, version := current.version + 1 }
      .ok { rows := [invite], result := invite }

/-- The single-winner gate. `clock` is `Utc::now()`, `now` the start of the transaction. -/
def consumeInvite (id : Uuid) (issuer subject : String) (adminIdentityId : Uuid)
    (clock now : Nat) : Except AppError (Change AdminInviteRow) :=
  match invites.find? fun row => row.id = id with
  | none => .error inviteNotFound
  | some locked =>
    match requireRedeemable locked clock with
    | .error err => .error err
    | .ok _ =>
      let invite :=
        { locked with
          status := .consumed, consumedAt := some now, consumedIssuer := some issuer
          consumedSubject := some subject, consumedAdminIdentityId := some adminIdentityId
          version := locked.version + 1 }
      .ok { rows := [invite], result := invite }

end Invites

/-! ## `auth_provider_settings` -/

structure AuthProviderCreateRequest where
  method : AuthMethod
  displayName : String
  enabled : Bool := false
  issuer : Option String := none
  discoveryUrl : Option String := none
  authorizationUrl : Option String := none
  tokenUrl : Option String := none
  userinfoUrl : Option String := none
  jwksUrl : Option String := none
  clientId : Option String := none
  requestedScopes : List String := []
  allowedEmailDomains : List String := []
  allowedAlgorithms : List String := []
  expectedAudiences : List String := []
  redirectUris : List String := []
  trustedJwtIssuerId : Option Uuid := none
  metadata : Json := .obj []

structure AuthProviderPatchRequest where
  displayName : Option String := none
  enabled : Option Bool := none
  issuer : Option String := none
  discoveryUrl : Option String := none
  authorizationUrl : Option String := none
  tokenUrl : Option String := none
  userinfoUrl : Option String := none
  jwksUrl : Option String := none
  clientId : Option String := none
  requestedScopes : Option (List String) := none
  allowedEmailDomains : Option (List String) := none
  allowedAlgorithms : Option (List String) := none
  expectedAudiences : Option (List String) := none
  redirectUris : Option (List String) := none
  trustedJwtIssuerId : Option Uuid := none
  metadata : Option Json := none

def authProviderNotFound (id : Uuid) : AppError :=
  .coded 404 "auth_provider_not_found" ("auth provider " ++ toString id ++ " was not found")

def duplicateEnabledProvider : AppError :=
  .conflict "duplicate_enabled_provider_for_issuer"
    "more than one enabled auth provider is bound to this trusted JWT issuer"

def duplicateAuthProvider : AppError :=
  .conflict "duplicate_auth_provider"
    "an auth provider is already configured for this method and issuer"

def methodConfigIncomplete : AppError :=
  .coded 400 "auth_provider_method_config_incomplete"
    "the auth provider configuration is incomplete for this method"

/-- `auth_provider_settings_method_shape`, and the check the service makes of it. -/
def methodShape (method : AuthMethod)
    (issuer discoveryUrl authorizationUrl tokenUrl jwksUrl clientId : Option String) : Bool :=
  match method with
  | .jwks => jwksUrl.isSome && clientId.isNone
  | .googleOauth | .genericOidc => clientId.isSome && (issuer.isSome || discoveryUrl.isSome)
  | .githubOauth =>
    clientId.isSome && authorizationUrl.isSome && tokenUrl.isSome && issuer.isNone &&
      discoveryUrl.isNone

namespace AuthProviderRow

variable (row : AuthProviderRow)

/-- `auth_provider_settings_method_issuer_active_unique` -/
def methodIssuer : Option (AuthMethod × String) :=
  if row.isLive then some (row.method, row.issuer.getD "") else none

/-- `auth_provider_settings_one_enabled_per_trusted_issuer`: nulls are distinct. -/
def enabledBinding : Option Uuid :=
  if row.isEnabled then row.trustedJwtIssuerId else none

def hasMethodShape : Bool :=
  methodShape row.method row.issuer row.discoveryUrl row.authorizationUrl row.tokenUrl row.jwksUrl
    row.clientId

end AuthProviderRow

section Providers

variable (providers : List AuthProviderRow)

/-- A row that breaks the check constraint is not written. -/
def checkedProvider (row : AuthProviderRow) : Except AppError (Change AuthProviderRow) :=
  if row.hasMethodShape then .ok { rows := [row], result := row } else .error methodConfigIncomplete

def createProvider (id : Uuid) (request : AuthProviderCreateRequest) :
    Except AppError (Change AuthProviderRow) := do
  let change ← checkedProvider
    { id, method := request.method, displayName := request.displayName, enabled := request.enabled
      issuer := request.issuer, discoveryUrl := request.discoveryUrl
      authorizationUrl := request.authorizationUrl, tokenUrl := request.tokenUrl
      userinfoUrl := request.userinfoUrl, jwksUrl := request.jwksUrl, clientId := request.clientId
      requestedScopes := request.requestedScopes
      allowedEmailDomains := request.allowedEmailDomains
      allowedAlgorithms := request.allowedAlgorithms
      expectedAudiences := request.expectedAudiences, redirectUris := request.redirectUris
      trustedJwtIssuerId := request.trustedJwtIssuerId, metadata := request.metadata }
  inserted (·.id) duplicateAuthProvider providers change.result

/-- `lock_auth_provider_version` -/
def lockProvider (id : Uuid) (expectedVersion : Int) : Except AppError AuthProviderRow :=
  match providers.find? fun row => row.id = id && row.isLive with
  | none => .error (authProviderNotFound id)
  | some current => if current.version ≠ expectedVersion then .error versionConflict else .ok current

/-- `coalesce` of every field of the request with the stored one. -/
def AuthProviderPatchRequest.applyTo (request : AuthProviderPatchRequest) (row : AuthProviderRow) :
    AuthProviderRow :=
  { row with
    displayName := request.displayName.getD row.displayName
    enabled := request.enabled.getD row.enabled
    issuer := request.issuer <|> row.issuer
    discoveryUrl := request.discoveryUrl <|> row.discoveryUrl
    authorizationUrl := request.authorizationUrl <|> row.authorizationUrl
    tokenUrl := request.tokenUrl <|> row.tokenUrl
    userinfoUrl := request.userinfoUrl <|> row.userinfoUrl
    jwksUrl := request.jwksUrl <|> row.jwksUrl
    clientId := request.clientId <|> row.clientId
    requestedScopes := request.requestedScopes.getD row.requestedScopes
    allowedEmailDomains := request.allowedEmailDomains.getD row.allowedEmailDomains
    allowedAlgorithms := request.allowedAlgorithms.getD row.allowedAlgorithms
    expectedAudiences := request.expectedAudiences.getD row.expectedAudiences
    redirectUris := request.redirectUris.getD row.redirectUris
    trustedJwtIssuerId := request.trustedJwtIssuerId <|> row.trustedJwtIssuerId
    metadata := request.metadata.getD row.metadata
    version := row.version + 1 }

def patchProvider (id : Uuid) (expectedVersion : Int) (request : AuthProviderPatchRequest) :
    Except AppError (Change AuthProviderRow) := do
  let current ← lockProvider providers id expectedVersion
  checkedProvider (request.applyTo current)

def setProviderEnabled (id : Uuid) (expectedVersion : Int) (enabled : Bool) :
    Except AppError (Change AuthProviderRow) := do
  let current ← lockProvider providers id expectedVersion
  checkedProvider { current with enabled, version := current.version + 1 }

def softDeleteProvider (id : Uuid) (expectedVersion : Int) (now : Nat) :
    Except AppError (Change AuthProviderRow) := do
  let current ← lockProvider providers id expectedVersion
  checkedProvider
    { current with
      status := .deleted, enabled := false, deletedAt := some now, version := current.version + 1 }

end Providers

/-! ## `trusted_jwt_issuers` -/

structure TrustedJwtIssuerCreateRequest where
  issuer : String
  jwksUrl : String
  expectedAudiences : List String := []
  allowedAlgorithms : List String := ["RS256"]
  subjectClaim : String := "sub"
  userIdClaim : Option String := none
  tenantIdClaim : Option String := none
  applicationIdClaim : Option String := none
  rolesClaim : Option String := none
  scopesClaim : Option String := none
  delegatedUserClaim : Option String := none
  delegatedTenantClaim : Option String := none
  clockSkewSeconds : Int := 60
  allowDelegation : Bool := false

structure TrustedJwtIssuerPatchRequest where
  jwksUrl : Option String := none
  expectedAudiences : Option (List String) := none
  allowedAlgorithms : Option (List String) := none
  subjectClaim : Option String := none
  userIdClaim : Option String := none
  tenantIdClaim : Option String := none
  applicationIdClaim : Option String := none
  rolesClaim : Option String := none
  scopesClaim : Option String := none
  delegatedUserClaim : Option String := none
  delegatedTenantClaim : Option String := none
  clockSkewSeconds : Option Int := none
  allowDelegation : Option Bool := none

def issuerNotFound (id : Uuid) : AppError :=
  .notFound ("trusted JWT issuer " ++ toString id)

def duplicateTrustedJwtIssuer : AppError :=
  .conflict "duplicate_trusted_jwt_issuer"
    "a trusted JWT issuer is already registered for this issuer"

/-- `trusted_jwt_issuers_issuer_active_unique` -/
def TrustedJwtIssuerRow.issuerKey (row : TrustedJwtIssuerRow) : Option String :=
  if row.isLive then some row.issuer else none

section Issuers

variable (issuers : List TrustedJwtIssuerRow)

def createIssuer (id : Uuid) (request : TrustedJwtIssuerCreateRequest) :
    Except AppError (Change TrustedJwtIssuerRow) :=
  inserted (·.id) duplicateTrustedJwtIssuer issuers
    { id, issuer := request.issuer, jwksUrl := request.jwksUrl
      expectedAudiences := request.expectedAudiences
      allowedAlgorithms := request.allowedAlgorithms, subjectClaim := request.subjectClaim
      userIdClaim := request.userIdClaim, tenantIdClaim := request.tenantIdClaim
      applicationIdClaim := request.applicationIdClaim, rolesClaim := request.rolesClaim
      scopesClaim := request.scopesClaim, delegatedUserClaim := request.delegatedUserClaim
      delegatedTenantClaim := request.delegatedTenantClaim
      clockSkewSeconds := request.clockSkewSeconds, allowDelegation := request.allowDelegation }

/-- `lock_and_match_version` on the issuer's row. -/
def lockIssuer (id : Uuid) (expectedVersion : Int) : Except AppError TrustedJwtIssuerRow :=
  match issuers.find? fun row => row.id = id && row.isLive with
  | none => .error (issuerNotFound id)
  | some current => if current.version ≠ expectedVersion then .error versionConflict else .ok current

def TrustedJwtIssuerPatchRequest.applyTo (request : TrustedJwtIssuerPatchRequest)
    (row : TrustedJwtIssuerRow) : TrustedJwtIssuerRow :=
  { row with
    jwksUrl := request.jwksUrl.getD row.jwksUrl
    expectedAudiences := request.expectedAudiences.getD row.expectedAudiences
    allowedAlgorithms := request.allowedAlgorithms.getD row.allowedAlgorithms
    subjectClaim := request.subjectClaim.getD row.subjectClaim
    userIdClaim := request.userIdClaim <|> row.userIdClaim
    tenantIdClaim := request.tenantIdClaim <|> row.tenantIdClaim
    applicationIdClaim := request.applicationIdClaim <|> row.applicationIdClaim
    rolesClaim := request.rolesClaim <|> row.rolesClaim
    scopesClaim := request.scopesClaim <|> row.scopesClaim
    delegatedUserClaim := request.delegatedUserClaim <|> row.delegatedUserClaim
    delegatedTenantClaim := request.delegatedTenantClaim <|> row.delegatedTenantClaim
    clockSkewSeconds := request.clockSkewSeconds.getD row.clockSkewSeconds
    allowDelegation := request.allowDelegation.getD row.allowDelegation
    version := row.version + 1 }

def patchIssuer (id : Uuid) (expectedVersion : Int) (request : TrustedJwtIssuerPatchRequest) :
    Except AppError (Change TrustedJwtIssuerRow) := do
  let current ← lockIssuer issuers id expectedVersion
  let row := request.applyTo current
  return { rows := [row], result := row }

/-- The service passes `active` or `disabled`. -/
def setIssuerStatus (id : Uuid) (expectedVersion : Int) (enabled : Bool) :
    Except AppError (Change TrustedJwtIssuerRow) := do
  let current ← lockIssuer issuers id expectedVersion
  let row :=
    { current with
      status := if enabled then .active else .disabled, version := current.version + 1 }
  return { rows := [row], result := row }

def softDeleteIssuer (id : Uuid) (expectedVersion : Int) (now : Nat) :
    Except AppError (Change TrustedJwtIssuerRow) := do
  let current ← lockIssuer issuers id expectedVersion
  let row :=
    { current with status := .deleted, deletedAt := some now, version := current.version + 1 }
  return { rows := [row], result := row }

end Issuers

/-! ## Tables with their transactions -/

abbrev GrantStore := Store Nat Uuid AdminIdentityGrant
abbrev InviteStore := Store Nat Uuid AdminInviteRow
abbrev ProviderStore := Store Nat Uuid AuthProviderRow
abbrev IssuerStore := Store Nat Uuid TrustedJwtIssuerRow

/-! A version passes the unique indexes of its table. -/

def passesGrantIndexes (S : GrantStore) (i : Nat) (v : AdminIdentityGrant) : Bool :=
  S.clear (·.id) (·.issuerSubject) i v && S.clear (·.id) (·.primarySlot) i v

def passesInviteIndexes (S : InviteStore) (i : Nat) (v : AdminInviteRow) : Bool :=
  S.clear (·.id) (·.prefixKey) i v

def passesProviderIndexes (S : ProviderStore) (i : Nat) (v : AuthProviderRow) : Bool :=
  S.clear (·.id) (·.methodIssuer) i v && S.clear (·.id) (·.enabledBinding) i v

def passesIssuerIndexes (S : IssuerStore) (i : Nat) (v : TrustedJwtIssuerRow) : Bool :=
  S.clear (·.id) (·.issuerKey) i v

/-! What a violation is answered with, where it is not a plain database error. -/

def grantViolation (S : GrantStore) (i : Nat) (v : AdminIdentityGrant) : Option AppError :=
  if S.taken (·.id) (·.issuerSubject) i v then some alreadyClaimed else none

def providerViolation (S : ProviderStore) (i : Nat) (v : AuthProviderRow) : Option AppError :=
  if S.taken (·.id) (·.methodIssuer) i v then some duplicateAuthProvider
  else if S.taken (·.id) (·.enabledBinding) i v then some duplicateEnabledProvider
  else none

def issuerViolation (S : IssuerStore) (i : Nat) (v : TrustedJwtIssuerRow) : Option AppError :=
  if S.taken (·.id) (·.issuerKey) i v then some duplicateTrustedJwtIssuer else none

end Moira.Identity
