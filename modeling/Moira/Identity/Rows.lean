import Moira.Execution.Types

/-!
# Admin identities

The rows of `admin_identities`, `setup_state`, `admin_invites`, `trusted_jwt_issuers` and
`auth_provider_settings`, and what the services read of them outside of a transaction.

- `Query` — the pool reads; `Query.answer` is what they return

`created_at`, `updated_at` and the audit rows are left out. No statement sets `deleted_at` on
`admin_identities` or on `admin_invites`, so these two tables have no such column here.
-/

namespace Moira.Identity

inductive AdminIdentityStatus
  | active
  | revoked
  deriving DecidableEq

/-- A row of `admin_identities`. -/
structure AdminIdentityGrant where
  id : Uuid
  trustedJwtIssuerId : Uuid
  issuer : String
  subject : String
  email : Option String
  emailVerified : Bool
  grantedScopes : List String
  grantedByActorType : String
  grantedBySubject : Option String
  isPrimary : Bool
  status : AdminIdentityStatus := .active
  revokedAt : Option Nat := none
  version : Int := 1
  deriving DecidableEq

namespace AdminIdentityGrant

variable (grant : AdminIdentityGrant)

def isActive : Bool :=
  grant.status = .active

/-- The predicate of `admin_identities_single_active_primary`. -/
def isActivePrimary : Bool :=
  grant.isActive && grant.isPrimary

end AdminIdentityGrant

/-- The one row of `setup_state`. -/
structure SetupState where
  claimed : Bool := false
  claimedAdminIdentityId : Option Uuid := none
  claimedAt : Option Nat := none

inductive AdminInviteConstraint
  | email
  | domain
  deriving DecidableEq

inductive AdminInviteStatus
  | pending
  | consumed
  | revoked
  deriving DecidableEq

/-- A row of `admin_invites`; the constraint and its value are one of two columns. -/
structure AdminInviteRow where
  id : Uuid
  tokenPrefix : String
  tokenHash : String
  constraint : AdminInviteConstraint
  value : String
  status : AdminInviteStatus := .pending
  expiresAt : Nat
  createdBySubject : Option String
  createdByActorType : String
  consumedAt : Option Nat := none
  consumedIssuer : Option String := none
  consumedSubject : Option String := none
  consumedAdminIdentityId : Option Uuid := none
  revokedAt : Option Nat := none
  version : Int := 1
  deriving DecidableEq

def AdminInviteRow.isExpired (invite : AdminInviteRow) (now : Nat) : Bool :=
  invite.expiresAt ≤ now

inductive ResourceStatus
  | active
  | disabled
  | deleted
  deriving DecidableEq

/-- A row of `trusted_jwt_issuers`. -/
structure TrustedJwtIssuerRow where
  id : Uuid
  issuer : String
  jwksUrl : String
  expectedAudiences : List String := []
  allowedAlgorithms : List String := ["RS256"]
  subjectClaim : String := "sub"
  userIdClaim : Option String := none
  tenantIdClaim : Option String := none
  applicationIdClaim : Option String := none
  rolesClaim : Option String := none
  scopesClaim : Option String := none
  delegatedUserClaim : Option String := none
  delegatedTenantClaim : Option String := none
  clockSkewSeconds : Int := 60
  allowDelegation : Bool := false
  status : ResourceStatus := .active
  deletedAt : Option Nat := none
  version : Int := 1
  deriving DecidableEq

def TrustedJwtIssuerRow.isLive (row : TrustedJwtIssuerRow) : Bool :=
  row.deletedAt.isNone

/-- `status = 'active' and deleted_at is null` -/
def TrustedJwtIssuerRow.isActive (row : TrustedJwtIssuerRow) : Bool :=
  row.status = .active && row.isLive

inductive AuthMethod
  | googleOauth
  | genericOidc
  | jwks
  | githubOauth
  deriving DecidableEq

/-- A row of `auth_provider_settings`. -/
structure AuthProviderRow where
  id : Uuid
  method : AuthMethod
  displayName : String
  enabled : Bool := false
  issuer : Option String := none
  discoveryUrl : Option String := none
  authorizationUrl : Option String := none
  tokenUrl : Option String := none
  userinfoUrl : Option String := none
  jwksUrl : Option String := none
  clientId : Option String := none
  requestedScopes : List String := []
  allowedEmailDomains : List String := []
  allowedAlgorithms : List String := []
  expectedAudiences : List String := []
  redirectUris : List String := []
  trustedJwtIssuerId : Option Uuid := none
  metadata : Json := .obj []
  status : ResourceStatus := .active
  deletedAt : Option Nat := none
  version : Int := 1
  deriving DecidableEq

namespace AuthProviderRow

variable (row : AuthProviderRow)

def isLive : Bool :=
  row.deletedAt.isNone

/-- `deleted_at is null and status = 'active' and enabled` -/
def isEnabled : Bool :=
  row.isLive && row.status = .active && row.enabled

end AuthProviderRow

/-- What is committed. -/
structure Tables where
  grants : List AdminIdentityGrant := []
  setup : SetupState := {}
  invites : List AdminInviteRow := []
  issuers : List TrustedJwtIssuerRow := []
  providers : List AuthProviderRow := []

/-- What an admission decision is made under. -/
structure GoverningAuthPolicy where
  id : Uuid
  allowedEmailDomains : List String
  deriving DecidableEq

def AuthProviderRow.policy (row : AuthProviderRow) : GoverningAuthPolicy where
  id := row.id
  allowedEmailDomains := row.allowedEmailDomains

/-! ## Pool reads -/

inductive Query
  | findActiveGrant (issuer subject : String)
  | resolveActiveIssuer (issuer : String)
  /-- The first stage of `admission_policy`. -/
  | policiesBoundTo (trustedJwtIssuerId : Uuid)
  /-- The second stage of `admission_policy`. -/
  | unboundPolicies (issuer : String)
  | findInviteByPrefix (tokenPrefix : String)
  | countActiveGrantsForTrustedIssuer (id : Uuid)
  | getProvider (id : Uuid)
  | trustedIssuerScopesClaim (id : Uuid)
  | trustedIssuerIdsForIssuer (issuer : String) (excludeBinding : Option Uuid)
  | enabledProvidersOnTrustedIssuer (id : Uuid) (excludeRow : Option Uuid)

namespace Query

abbrev Row : Query → Type
  | findActiveGrant .. => Option AdminIdentityGrant
  | resolveActiveIssuer _ => Option Uuid
  | policiesBoundTo _ => List GoverningAuthPolicy
  | unboundPolicies _ => List GoverningAuthPolicy
  | findInviteByPrefix _ => Option AdminInviteRow
  | countActiveGrantsForTrustedIssuer _ => Nat
  | getProvider _ => Option AuthProviderRow
  | trustedIssuerScopesClaim _ => Option (Option String)
  | trustedIssuerIdsForIssuer .. => List Uuid
  | enabledProvidersOnTrustedIssuer .. => List Uuid

/-- `$2::uuid is null or id <> $2` -/
def notExcluded (exclude : Option Uuid) (id : Uuid) : Bool :=
  exclude.all (· ≠ id)

def answer (t : Tables) : (q : Query) → q.Row
  | findActiveGrant issuer subject =>
    t.grants.find? fun row => row.issuer = issuer && row.subject = subject && row.isActive
  | resolveActiveIssuer issuer =>
    (t.issuers.find? fun row => row.issuer = issuer && row.isActive).map (·.id)
  | policiesBoundTo id =>
    (t.providers.filter fun row => row.isEnabled && row.trustedJwtIssuerId = some id).map (·.policy)
  | unboundPolicies issuer =>
    (t.providers.filter fun row =>
      row.isEnabled && row.issuer = some issuer && row.trustedJwtIssuerId.isNone).map (·.policy)
  | findInviteByPrefix tokenPrefix =>
    t.invites.find? fun row => row.tokenPrefix = tokenPrefix
  | countActiveGrantsForTrustedIssuer id =>
    (t.grants.filter fun row => row.trustedJwtIssuerId = id && row.isActive).length
  | getProvider id => t.providers.find? fun row => row.id = id && row.isLive
  | trustedIssuerScopesClaim id =>
    (t.issuers.find? fun row => row.id = id && row.isActive).map (·.scopesClaim)
  | trustedIssuerIdsForIssuer issuer exclude =>
    (t.issuers.filter fun row =>
      row.issuer = issuer && row.isActive && notExcluded exclude row.id).map (·.id)
  | enabledProvidersOnTrustedIssuer id exclude =>
    (t.providers.filter fun row =>
      row.isEnabled && row.trustedJwtIssuerId = some id && notExcluded exclude row.id).map (·.id)

end Query

/-! ## Who may be granted -/

/-- `str::to_ascii_lowercase` -/
def toAsciiLowercase (s : String) : String :=
  s.map Char.toLower

/-- `str::rsplit_once`: what stands before and after the last separator. -/
def rsplitOnce (separator : Char) : List Char → Option (List Char × List Char)
  | [] => none
  | c :: rest =>
    match rsplitOnce separator rest with
    | some (before, after) => some (c :: before, after)
    | none => if c = separator then some ([], rest) else none

/-- The lower-cased text after the last `@`. -/
def emailDomain (email : String) : Option String :=
  match rsplitOnce '@' (trim email).toList with
  | none => none
  | some (localPart, domain) =>
    if (trim (String.ofList localPart)).isEmpty || (trim (String.ofList domain)).isEmpty then none
    else some (toAsciiLowercase (trim (String.ofList domain)))

def domainNotAllowed : AppError :=
  .coded 403 "admin_claim_domain_not_allowed"
    "this email domain is not allowed to claim an admin identity"

def emailNotVerified : AppError :=
  .coded 403 "admin_claim_email_not_verified" "the email address for this identity is not verified"

/-- Deny by default: an empty allow-list admits nobody. -/
def evaluateClaimPolicy (email : String) (emailVerified : Bool) :
    Option GoverningAuthPolicy → Except AppError Unit
  | none => .error domainNotAllowed
  | some policy =>
    if !emailVerified then .error emailNotVerified
    else
      match emailDomain email with
      | none =>
        .error (.coded 400 "admin_claim_email_required"
          "a usable email address is required to claim an admin identity")
      | some domain =>
        if policy.allowedEmailDomains.any fun allowed => toAsciiLowercase (trim allowed) = domain then
          .ok ()
        else .error domainNotAllowed

def alreadyConsumed : AppError :=
  .conflict "invite_already_consumed" "this invitation has already been redeemed"

def inviteRevoked : AppError :=
  .coded 403 "invite_revoked" "this invitation has been revoked"

def inviteExpired : AppError :=
  .coded 403 "invite_expired" "this invitation has expired"

def inviteNotFound : AppError :=
  .coded 404 "invite_not_found" "no invitation matches this token"

/-- Refuse an invite that is consumed, revoked or past its expiry. -/
def requireRedeemable (invite : AdminInviteRow) (now : Nat) : Except AppError Unit :=
  match invite.status with
  | .consumed => .error alreadyConsumed
  | .revoked => .error inviteRevoked
  | .pending => if invite.isExpired now then .error inviteExpired else .ok ()

/-- The invite's own constraint on the address. -/
def evaluateInviteConstraint (invite : AdminInviteRow) (email : String) : Except AppError Unit :=
  match emailDomain email with
  | none =>
    .error (.coded 400 "admin_claim_email_required"
      "a usable email address is required to redeem an invitation")
  | some domain =>
    match invite.constraint with
    | .email =>
      if toAsciiLowercase (trim email) = toAsciiLowercase (trim invite.value) then .ok ()
      else .error (.coded 403 "invite_email_mismatch"
        "this invitation was issued for a different email address")
    | .domain =>
      if domain = toAsciiLowercase (trim invite.value) then .ok ()
      else .error (.coded 403 "invite_domain_mismatch"
        "this invitation was issued for a different email domain")

example : emailDomain " Ada@Example.COM " = some "example.com" := by decide +kernel
example : emailDomain "@example.com" = none := by decide +kernel

end Moira.Identity
