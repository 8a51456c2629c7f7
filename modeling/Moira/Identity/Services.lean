import Moira.Admin.Command
import Moira.Identity.Checks

/-!
# Identity calls

The calls of `AdminIdentityService`, `AuthProviderSettingsService` and `JwtIssuerAdminService`:
their checks, and the transaction they write in.
-/

namespace Moira.Identity

open Admin (AdminOp AdminPoint AdminCommandSpec AdminCommandMutation AdminCommandRunner
  AdminCommandOutcome)

/-! ## Calls -/

structure ClaimAdminIdentityRequest where
  issuer : String
  subject : String
  email : String
  emailVerified : Bool
  scopes : List String
  setupToken : Option String := none

structure AdminInviteCreateRequest where
  constraint : AdminInviteConstraint
  value : String
  expiresInSeconds : Nat

structure AdminInviteRedeemRequest where
  token : String
  email : String
  emailVerified : Bool

/-- A verified issuer and subject, and nothing else. -/
structure TrustedJwtIdentity where
  issuer : String
  subject : String

inductive Call
  | claim (actor : Actor) (request : ClaimAdminIdentityRequest)
  | createInvite (actor : Actor) (request : AdminInviteCreateRequest)
  | revokeInvite (actor : Actor) (id : Uuid)
  | redeemInvite (identity : TrustedJwtIdentity) (request : AdminInviteRedeemRequest)
  | setIdentityPrimary (actor : Actor) (issuer : Option String) (id : Uuid) (expectedVersion : Int)
      (isPrimary : Bool)
  | revokeIdentity (actor : Actor) (issuer : Option String) (id : Uuid)
  | createProvider (actor : Actor) (issuer : Option String) (request : AuthProviderCreateRequest)
  | patchProvider (actor : Actor) (issuer : Option String) (id : Uuid) (expectedVersion : Int)
      (request : AuthProviderPatchRequest)
  | setProviderEnabled (actor : Actor) (issuer : Option String) (id : Uuid) (expectedVersion : Int)
      (enabled : Bool)
  | deleteProvider (actor : Actor) (issuer : Option String) (id : Uuid) (expectedVersion : Int)
  | createIssuer (actor : Actor) (request : TrustedJwtIssuerCreateRequest)
  | patchIssuer (actor : Actor) (id : Uuid) (expectedVersion : Int)
      (request : TrustedJwtIssuerPatchRequest)
  | setIssuerEnabled (actor : Actor) (id : Uuid) (expectedVersion : Int) (enabled : Bool)
  | deleteIssuer (actor : Actor) (id : Uuid) (expectedVersion : Int)

/-- A call with the `Idempotency-Key` of its request. -/
structure Request where
  call : Call
  idempotencyKey : Option String := none

/-- What a call answers with; the notices of the answers are left out. -/
inductive Response
  | identity (grant : AdminIdentityGrant)
  | invite (invite : AdminInviteRow) (secret : Option String)
  | provider (row : AuthProviderRow)
  | issuer (row : TrustedJwtIssuerRow)
  | deleted

/-! ## Statements -/

inductive GrantStatement
  | insertGrant (insert : AdminIdentityGrantInsert)
  | setPrimary (id : Uuid) (expectedVersion : Int) (isPrimary : Bool)
  | revokeGrant (id : Uuid)

inductive InviteStatement
  | insertInvite (insert : AdminInviteInsert)
  | revokeInvite (id : Uuid)
  | consumeInvite (id : Uuid) (issuer subject : String) (adminIdentityId : Uuid)

inductive ProviderStatement
  | create (id : Uuid) (request : AuthProviderCreateRequest)
  | patch (id : Uuid) (expectedVersion : Int) (request : AuthProviderPatchRequest)
  | setEnabled (id : Uuid) (expectedVersion : Int) (enabled : Bool)
  | softDelete (id : Uuid) (expectedVersion : Int)

inductive IssuerStatement
  | create (id : Uuid) (request : TrustedJwtIssuerCreateRequest)
  | patch (id : Uuid) (expectedVersion : Int) (request : TrustedJwtIssuerPatchRequest)
  | setStatus (id : Uuid) (expectedVersion : Int) (enabled : Bool)
  | softDelete (id : Uuid) (expectedVersion : Int)

/-- `clock` is `Utc::now()`, `now` the start of the transaction. -/
def GrantStatement.change (grants : List AdminIdentityGrant) (now : Nat) :
    GrantStatement → Except AppError (Change AdminIdentityGrant)
  | insertGrant insert => Identity.insertGrant grants insert
  | setPrimary id expectedVersion isPrimary => Identity.setPrimary grants id expectedVersion isPrimary
  | revokeGrant id => Identity.revokeGrant grants id now

def InviteStatement.change (invites : List AdminInviteRow) (clock now : Nat) :
    InviteStatement → Except AppError (Change AdminInviteRow)
  | insertInvite insert => Identity.insertInvite invites insert
  | revokeInvite id => Identity.revokeInvite invites id now
  | consumeInvite id issuer subject adminIdentityId =>
    Identity.consumeInvite invites id issuer subject adminIdentityId clock now

def ProviderStatement.change (providers : List AuthProviderRow) (now : Nat) :
    ProviderStatement → Except AppError (Change AuthProviderRow)
  | create id request => createProvider providers id request
  | patch id expectedVersion request => patchProvider providers id expectedVersion request
  | setEnabled id expectedVersion enabled => setProviderEnabled providers id expectedVersion enabled
  | softDelete id expectedVersion => softDeleteProvider providers id expectedVersion now

def IssuerStatement.change (issuers : List TrustedJwtIssuerRow) (now : Nat) :
    IssuerStatement → Except AppError (Change TrustedJwtIssuerRow)
  | create id request => createIssuer issuers id request
  | patch id expectedVersion request => patchIssuer issuers id expectedVersion request
  | setStatus id expectedVersion enabled => setIssuerStatus issuers id expectedVersion enabled
  | softDelete id expectedVersion => softDeleteIssuer issuers id expectedVersion now

/-- The statements of a transaction. Those on the grants take the ownership lock first. -/
inductive Statement
  | grant (s : GrantStatement)
  | markSetupClaimed (adminIdentityId : Uuid)
  | invite (s : InviteStatement)
  | provider (s : ProviderStatement)
  | issuer (s : IssuerStatement)

abbrev Statement.Result : Statement → Type
  | grant _ => AdminIdentityGrant
  | markSetupClaimed _ => Unit
  | invite _ => AdminInviteRow
  | provider _ => AuthProviderRow
  | issuer _ => TrustedJwtIssuerRow

/-! ## Operations -/

structure GeneratedToken where
  rawKey : String
  keyPrefix : String
  keyHash : String

inductive IdentityOp
  /-- The transaction and the idempotency ledger of the call. -/
  | command (o : AdminOp Response)
  | fetch (q : Query)
  | rejectDeniedJwksUrl (url : String)
  /-- `ApiKeyHasher::verify` -/
  | verify (token hash : String)
  /-- `ApiKeyHasher::generate` -/
  | generate
  /-- `Uuid::now_v7` -/
  | newId
  | statement (s : Statement)
  | insertAudit (action : String)

abbrev IdentityOp.Ans : IdentityOp → Type
  | command o => o.Ans
  | fetch q => Except AppError q.Row
  | rejectDeniedJwksUrl _ => Except AppError Unit
  | verify .. => Except AppError Bool
  | generate => Except AppError GeneratedToken
  | newId => Uuid
  | statement s => Except AppError s.Result
  | insertAudit _ => Except AppError Unit

abbrev identitySig : Sig where
  Op := IdentityOp
  Ans := IdentityOp.Ans

abbrev Service (α : Type) := Prog identitySig AppError α

namespace Service

abbrev ask (o : IdentityOp) : Service o.Ans :=
  Prog.ask (S := identitySig) o

abbrev orFail {α : Type} (result : Except AppError α) : Service α :=
  Prog.ofExcept result

end Service

open Service

/-- The checks of a call read through the pool of its process. -/
def servicePool : Pool (Prog identitySig AppError) where
  fetch q := do orFail (← ask (.fetch q))
  orFail := orFail
  rejectDeniedJwksUrl url := do orFail (← ask (.rejectDeniedJwksUrl url))

/-! ## Commands -/

/-- What a command does inside of its transaction. -/
inductive Mutation
  | claim (insert : AdminIdentityGrantInsert)
  | redeemInvite (insert : AdminIdentityGrantInsert) (inviteId : Uuid)
  | setPrimary (id : Uuid) (expectedVersion : Int) (isPrimary : Bool)
  | revokeIdentity (id : Uuid)
  | createInvite (insert : AdminInviteInsert) (secret : String)
  | revokeInvite (id : Uuid)
  | createProvider (request : AuthProviderCreateRequest)
  | createIssuer (request : TrustedJwtIssuerCreateRequest)

variable (lib : Libraries)

/-- `AdminCommandMutation::new` -/
def commandMutation (operation : String) (response : Response) (status : UInt16) (id : Uuid) :
    AdminCommandMutation Response where
  clientResponse := response
  replayResponse := lib.responseJson operation id
  status := status
  resourceId := some (toString id)

def statement (s : Statement) : Service s.Result := do
  orFail (← ask (.statement s))

def insertAudit (action : String) : Service Unit := do
  orFail (← ask (.insertAudit action))

/-- What a command does under the runner's savepoint. -/
def mutation : Mutation → Service (AdminCommandMutation Response)
  | .claim insert => do
    let grant ← statement (.grant (.insertGrant insert))
    statement (.markSetupClaimed grant.id)
    insertAudit "admin_identity.claim"
    pure (commandMutation lib "admin_identity.claim" (.identity grant) 201 grant.id)
  | .redeemInvite insert inviteId => do
    let grant ← statement (.grant (.insertGrant insert))
    let _ ← statement (.invite (.consumeInvite inviteId insert.issuer insert.subject grant.id))
    statement (.markSetupClaimed grant.id)
    insertAudit "admin_invite.redeem"
    pure (commandMutation lib "admin_invite.redeem" (.identity grant) 201 grant.id)
  | .setPrimary id expectedVersion isPrimary => do
    let grant ← statement (.grant (.setPrimary id expectedVersion isPrimary))
    insertAudit "admin_identity.set_primary"
    pure (commandMutation lib "admin_identity.set_primary" (.identity grant) 200 grant.id)
  | .revokeIdentity id => do
    let grant ← statement (.grant (.revokeGrant id))
    insertAudit "admin_identity.revoke"
    pure (commandMutation lib "admin_identity.revoke" (.identity grant) 200 grant.id)
  | .createInvite insert secret => do
    let row ← statement (.invite (.insertInvite insert))
    insertAudit "admin_invite.create"
    pure (commandMutation lib "admin_invite.create" (.invite row (some secret)) 201 row.id)
  | .revokeInvite id => do
    let row ← statement (.invite (.revokeInvite id))
    insertAudit "admin_invite.revoke"
    pure (commandMutation lib "admin_invite.revoke" (.invite row none) 200 row.id)
  | .createProvider request => do
    let id ← ask .newId
    let row ← statement (.provider (.create id request))
    insertAudit "auth_provider.create"
    pure (commandMutation lib "auth_provider.create" (.provider row) 201 row.id)
  | .createIssuer request => do
    orFail (validateJwtAlgorithmList request.allowedAlgorithms)
    orFail (requireNonEmpty "issuer" request.issuer)
    let id ← ask .newId
    let row ← statement (.issuer (.create id request))
    insertAudit "jwt_issuer.create"
    pure (commandMutation lib "jwt_issuer.create" (.issuer row) 201 row.id)

/-- A command that is ready to run. -/
structure Prepared where
  spec : AdminCommandSpec
  mutation : Mutation

/-- `admin_command_spec` -/
def commandSpec (idempotencyKey : Option String) (actor : Actor) (operation : String) (path : Json)
    (request : List (Option String)) : AdminCommandSpec where
  operation := operation
  path := path
  request := lib.requestJson operation request
  idempotency := idempotencyKey.map fun key => { key, actorIdentity := lib.actorIdentity actor }

/-! ## Calls up to their transaction -/

/-- A call ends with an answer, or goes on as a command. -/
inductive Started
  | done (response : Response)
  | command (prepared : Prepared)

/-- A transaction with one statement and its audit row: `commit_with_audit`. -/
def writeWithAudit (s : Statement) (action : String) : Service s.Result := do
  orFail (← ask (.command .begin))
  let row ← statement s
  insertAudit action
  orFail (← ask (.command .commit)).result
  pure row

def requireSystemKey (actor : Actor) : Except AppError Unit :=
  if actor.actorType ≠ .systemKey then
    .error (.unauthorized "claiming an admin identity requires a system key")
  else .ok ()

def rejectSetupToken (setupToken : Option String) : Except AppError Unit :=
  if setupToken.isSome then
    .error (.coded 400 "setup_token_not_supported"
      "the one-time setup token path is not available on this deployment")
  else .ok ()

def claim (idempotencyKey : Option String) (actor : Actor) (request : ClaimAdminIdentityRequest) :
    Service Started := do
  orFail (rejectSetupToken request.setupToken)
  orFail (requireSystemKey actor)
  orFail (actor.require "moira:admin")
  orFail (requireNonEmpty "issuer" request.issuer)
  orFail (requireNonEmpty "subject" request.subject)
  let grantedScopes ← orFail (normalizeScopes request.scopes)
  let trustedJwtIssuerId ← resolveActiveIssuer servicePool request.issuer
  let policy ← admissionPolicy servicePool request.issuer trustedJwtIssuerId
  orFail (evaluateClaimPolicy request.email request.emailVerified policy)
  let id ← ask .newId
  pure (.command
    { spec := commandSpec lib idempotencyKey actor "admin_identity.claim"
        (.obj [("issuer", .str request.issuer), ("subject", .str request.subject)])
        ([some request.issuer, some request.subject, some request.email] ++ request.scopes.map some)
      mutation := .claim
        { id, trustedJwtIssuerId, issuer := request.issuer, subject := request.subject
          email := trim request.email, emailVerified := request.emailVerified, grantedScopes
          grantedByActorType := "system_key", grantedBySubject := actor.subject } })

/-- Prefix lookup, then verification of the token against the stored hash. -/
def resolveInvite (token : String) : Service AdminInviteRow := do
  if (trim token).isEmpty then .fail inviteNotFound
  else
    match ← servicePool.fetch (.findInviteByPrefix (lib.keyPrefix (trim token))) with
    | none => .fail inviteNotFound
    | some candidate =>
      if ← orFail (← ask (.verify (trim token) candidate.tokenHash)) then pure candidate
      else .fail inviteNotFound

def redeemActor (identity : TrustedJwtIdentity) (trustedJwtIssuerId : Uuid) : Actor where
  actorType := .trustedJwt
  subject := some identity.subject
  trustedJwtIssuerId := some trustedJwtIssuerId

def redeemInvite (idempotencyKey : Option String) (identity : TrustedJwtIdentity)
    (request : AdminInviteRedeemRequest) : Service Started := do
  let invite ← resolveInvite lib request.token
  orFail (requireRedeemable invite (← ask (.command .utcNow)))
  orFail (evaluateInviteConstraint invite (trim request.email))
  let trustedJwtIssuerId ← resolveActiveIssuer servicePool identity.issuer
  let policy ← admissionPolicy servicePool identity.issuer trustedJwtIssuerId
  orFail (evaluateClaimPolicy (trim request.email) request.emailVerified policy)
  let id ← ask .newId
  pure (.command
    { spec := commandSpec lib idempotencyKey (redeemActor identity trustedJwtIssuerId)
        "admin_invite.redeem"
        (.obj [("issuer", .str identity.issuer), ("subject", .str identity.subject)])
        [some (toString invite.id), some (trim request.email), some (toString request.emailVerified)]
      mutation := .redeemInvite
        { id, trustedJwtIssuerId, issuer := identity.issuer, subject := identity.subject
          email := trim request.email, emailVerified := request.emailVerified
          grantedScopes := ["moira:admin"], grantedByActorType := "admin_invite"
          grantedBySubject := invite.createdBySubject } invite.id })

/-- `MAX_INVITE_EXPIRY_SECONDS` -/
def maxInviteExpirySeconds : Nat := 72 * 60 * 60

/-- `MIN_INVITE_EXPIRY_SECONDS` -/
def minInviteExpirySeconds : Nat := 60

def validatedInviteLifetime (seconds : Nat) : Except AppError Nat :=
  if maxInviteExpirySeconds < seconds then
    .error (.coded 422 "admin_invite_expiry_too_long"
      ("an invitation may not last longer than " ++ toString maxInviteExpirySeconds ++ " seconds"))
  else if seconds < minInviteExpirySeconds then
    .error (.coded 422 "invalid_request"
      ("an invitation must last at least " ++ toString minInviteExpirySeconds ++ " seconds"))
  else .ok seconds

def normalizeInviteConstraint (constraint : AdminInviteConstraint) (value : String) :
    Except AppError String := do
  requireNonEmpty "value" value
  let normalized := toAsciiLowercase (trim value)
  match constraint with
  | .email =>
    if (emailDomain normalized).isNone then
      throw (.coded 422 "invalid_request"
        "an email-constrained invitation requires a usable email address")
  | .domain =>
    if normalized.toList.contains '@' || !normalized.toList.contains '.' then
      throw (.coded 422 "invalid_request"
        "a domain-constrained invitation requires a bare domain, not an address")
  return normalized

def constraintLabel : AdminInviteConstraint → String
  | .email => "email"
  | .domain => "domain"

def inviteCreatorActorType (actor : Actor) : Except AppError String :=
  match actor.actorType with
  | .systemKey => .ok "system_key"
  | .trustedJwt => .ok "trusted_jwt"
  | .devAdmin => .ok "dev_admin"
  | .anonymous | .consumerKey =>
    .error (.forbidden "this credential type may not create admin invitations")

def createInvite (idempotencyKey : Option String) (actor : Actor)
    (request : AdminInviteCreateRequest) : Service Started := do
  orFail (actor.require "moira:admins:invite")
  let value ← orFail (normalizeInviteConstraint request.constraint request.value)
  let now ← ask (.command .utcNow)
  let lifetime ← orFail (validatedInviteLifetime request.expiresInSeconds)
  let generated ← orFail (← ask .generate)
  let id ← ask .newId
  let createdByActorType ← orFail (inviteCreatorActorType actor)
  pure (.command
    { spec := commandSpec lib idempotencyKey actor "admin_invite.create"
        (.obj [("constraint", .str (constraintLabel request.constraint))])
        [some request.value, some (toString request.expiresInSeconds)]
      mutation := .createInvite
        { id, tokenPrefix := generated.keyPrefix, tokenHash := generated.keyHash
          constraint := request.constraint, value, createdBySubject := actor.subject
          createdByActorType, expiresAt := now + lifetime } generated.rawKey })

def revokeInviteCommand (idempotencyKey : Option String) (actor : Actor) (id : Uuid) :
    Service Started := do
  orFail (actor.require "moira:admins:invite")
  pure (.command
    { spec := commandSpec lib idempotencyKey actor "admin_invite.revoke"
        (.obj [("invite_id", .str (toString id))]) []
      mutation := .revokeInvite id })

def setIdentityPrimary (idempotencyKey : Option String) (actor : Actor) (issuer : Option String)
    (id : Uuid) (expectedVersion : Int) (isPrimary : Bool) : Service Started := do
  requirePrimaryActor servicePool actor issuer
  pure (.command
    { spec :=
        { commandSpec lib idempotencyKey actor "admin_identity.set_primary"
            (.obj [("admin_identity_id", .str (toString id))]) [some (toString isPrimary)] with
          expectedVersion := some expectedVersion }
      mutation := .setPrimary id expectedVersion isPrimary })

def revokeIdentity (idempotencyKey : Option String) (actor : Actor) (issuer : Option String)
    (id : Uuid) : Service Started := do
  requirePrimaryActor servicePool actor issuer
  pure (.command
    { spec := commandSpec lib idempotencyKey actor "admin_identity.revoke"
        (.obj [("admin_identity_id", .str (toString id))]) []
      mutation := .revokeIdentity id })

/-- A call from its start. -/
def start (request : Request) : Service Started :=
  let key := request.idempotencyKey
  match request.call with
  | .claim actor body => claim lib key actor body
  | .createInvite actor body => createInvite lib key actor body
  | .revokeInvite actor id => revokeInviteCommand lib key actor id
  | .redeemInvite identity body => redeemInvite lib key identity body
  | .setIdentityPrimary actor issuer id expectedVersion isPrimary =>
    setIdentityPrimary lib key actor issuer id expectedVersion isPrimary
  | .revokeIdentity actor issuer id => revokeIdentity lib key actor issuer id
  | .createProvider actor issuer body => do
    createProviderChecks servicePool lib actor issuer body
    pure (.command
      { spec := commandSpec lib key actor "auth_provider.create" (.obj [])
          [some body.displayName, body.issuer]
        mutation := .createProvider body })
  | .patchProvider actor issuer id expectedVersion body => do
    patchProviderChecks servicePool lib actor issuer id body
    let row ← writeWithAudit (.provider (.patch id expectedVersion body)) "auth_provider.update"
    pure (.done (.provider row))
  | .setProviderEnabled actor issuer id expectedVersion enabled => do
    setProviderEnabledChecks servicePool actor issuer id enabled
    let row ← writeWithAudit (.provider (.setEnabled id expectedVersion enabled))
      (if enabled then "auth_provider.enable" else "auth_provider.disable")
    pure (.done (.provider row))
  | .deleteProvider actor issuer id expectedVersion => do
    deleteProviderChecks servicePool actor issuer
    let _ ← writeWithAudit (.provider (.softDelete id expectedVersion)) "auth_provider.delete"
    pure (.done .deleted)
  | .createIssuer actor body => do
    createIssuerChecks servicePool actor body
    pure (.command
      { spec := commandSpec lib key actor "jwt_issuer.create" (.obj [])
          [some body.issuer, some body.jwksUrl]
        mutation := .createIssuer body })
  | .patchIssuer actor id expectedVersion body => do
    patchIssuerChecks servicePool actor body
    let row ← writeWithAudit (.issuer (.patch id expectedVersion body)) "jwt_issuer.update"
    pure (.done (.issuer row))
  | .setIssuerEnabled actor id expectedVersion enabled => do
    setIssuerEnabledChecks servicePool actor id enabled
    let row ← writeWithAudit (.issuer (.setStatus id expectedVersion enabled))
      (if enabled then "jwt_issuer.enable" else "jwt_issuer.disable")
    pure (.done (.issuer row))
  | .deleteIssuer actor id expectedVersion => do
    deleteIssuerChecks servicePool actor id
    let _ ← writeWithAudit (.issuer (.softDelete id expectedVersion)) "jwt_issuer.delete"
    pure (.done .deleted)

/-! ## Control points -/

inductive Point
  | start
  | command (prepared : Prepared) (point : AdminPoint)

/-- The runner's operations are the call's; its mutation is the command's. -/
def commandOp (m : Mutation) : (o : AdminOp Response) → Prog identitySig Empty o.Ans
  | .mutate => (mutation lib m).attempt
  | o => Prog.ask (S := identitySig) (.command o)

/-- The end of a call that does not run a command: the transaction is dropped, the caller answered.
-/
def answer (result : Except AppError Response) : Prog identitySig Empty (Option Point) := do
  Prog.ask (S := identitySig) (.command .drop)
  Prog.ask (S := identitySig) (.command (.reply (result.map fun response =>
    { response, status := 200, resourceId := none, replayed := false })))
  pure none

/-- The control points of a call; a command is `Admin.code` with its mutation in place. -/
def code (runner : AdminCommandRunner Response) (request : Request) :
    Point → Prog identitySig Empty (Option Point)
  | .start => do
    match ← (start lib request).attempt with
    | .ok (.command prepared) => pure (some (.command prepared .start))
    | .ok (.done response) => answer (.ok response)
    | .error err => answer (.error err)
  | .command prepared point => do
    let next ← (Admin.code runner prepared.spec point).interpret (commandOp lib prepared.mutation)
    pure (next.map (.command prepared))

end Moira.Identity
