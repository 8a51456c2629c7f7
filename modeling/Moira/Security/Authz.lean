import Mathlib.Data.List.Destutter
import Mathlib.Data.List.Sort
import Moira.Execution.Types

/-!
# Authorization

Scopes, and what the principal of a request may do and hand on.

- `hasScope`, `require` — what an actor may do
-/

namespace Moira

inductive ActorType
  | anonymous
  | devAdmin
  | systemKey
  | consumerKey
  | trustedJwt
  deriving DecidableEq

/-- The principal of a request. -/
structure Actor where
  actorType : ActorType := .anonymous
  scopes : List String := []
  subject : Option String := none
  apiKeyId : Option Uuid := none
  trustedJwtIssuerId : Option Uuid := none
  internalApplicationId : Option Uuid := none
  /-- The application the caller asserts. -/
  applicationId : Option String := none
  tenantId : Option String := none
  externalTenantId : Option String := none
  externalUserId : Option String := none
  delegatedSubject : Option String := none

def adminScope : String := "moira:admin"

def adminScopes : List String :=
  [adminScope, "moira:setup:read", "moira:applications:read", "moira:applications:write",
    "moira:applications:delete", "moira:providers:read", "moira:providers:write",
    "moira:providers:delete", "moira:models:read", "moira:models:write", "moira:models:delete",
    "moira:credentials:read", "moira:credentials:write", "moira:credentials:rotate",
    "moira:credentials:disable", "moira:credentials:delete", "moira:jwt-issuers:read",
    "moira:jwt-issuers:write", "moira:jwt-issuers:delete", "moira:system-keys:read",
    "moira:system-keys:write", "moira:system-keys:rotate", "moira:system-keys:revoke",
    "moira:consumer-keys:read", "moira:consumer-keys:write", "moira:consumer-keys:rotate",
    "moira:consumer-keys:revoke", "moira:audit:read", "moira:auth-settings:read",
    "moira:auth-settings:write", "moira:auth-settings:delete", "moira:admins:read",
    "moira:admins:invite", "moira:identity:delegate", "moira:routes:read", "moira:routes:write",
    "moira:routes:delete", "moira:routing-policies:read", "moira:routing-policies:write",
    "moira:routing-policies:delete", "moira:agent-profiles:read", "moira:agent-profiles:write",
    "moira:agent-profiles:delete", "moira:skills:read", "moira:skills:write",
    "moira:skills:delete", "moira:evals:read", "moira:evals:write", "moira:evals:delete",
    "moira:flows:read", "moira:flows:write", "moira:flows:delete", "moira:graph:read",
    "moira:runners:read", "moira:runners:write", "moira:runners:delete",
    "moira:runtime-policies:read", "moira:runtime-policies:write", "moira:routing-defaults:read",
    "moira:routing-defaults:write", "moira:runtime:diagnose", "moira:responses:create",
    "moira:responses:stream", "moira:responses:read", "moira:executions:read", "moira:usage:read",
    "moira:capabilities:read", "moira:execution-policies:read", "moira:execution-policies:write",
    "moira:execution:override-route", "moira:execution:override-model",
    "moira:execution:override-provider", "moira:execution:override-credential",
    "moira:execution:override-timeout", "moira:execution:override-priority",
    "moira:execution:override-complexity-hint", "moira:execution:use-tools",
    "moira:conversations:create", "moira:conversations:read", "moira:conversations:write",
    "moira:conversations:delete", "moira:conversations:export", "moira:memories:create",
    "moira:memories:read", "moira:memories:write", "moira:memories:delete",
    "moira:rag-collections:read", "moira:rag-collections:write", "moira:rag-collections:delete",
    "moira:rag-documents:read", "moira:rag-documents:write", "moira:rag-documents:delete",
    "moira:rag-documents:ingest", "moira:conversation-policies:read",
    "moira:conversation-policies:write", "moira:memory-policies:read",
    "moira:memory-policies:write", "moira:retrieval-policies:read",
    "moira:retrieval-policies:write", "moira:embedding-policies:read",
    "moira:embedding-policies:write", "moira:memory:extract", "moira:memory:diagnose",
    "moira:retrieval:diagnose"]

def isKnownScope (scope : String) : Bool :=
  adminScopes.contains scope

/-- The actor types for which `moira:admin` implies every other scope. -/
def adminImplyingActorTypes : List ActorType :=
  [.devAdmin, .systemKey, .trustedJwt]

namespace Actor

variable (actor : Actor)

def adminScopeImpliesAll : Bool :=
  adminImplyingActorTypes.contains actor.actorType

def hasScope (requiredScope : String) : Bool :=
  actor.scopes.contains requiredScope ||
    (actor.adminScopeImpliesAll && actor.scopes.contains adminScope)

/-- `AuthorizationService::require` -/
def require (requiredScope : String) : Except AppError Unit :=
  if ¬isKnownScope requiredScope then .error (.internal ("unknown required scope " ++ requiredScope))
  else if actor.hasScope requiredScope then .ok ()
  else .error (.forbidden ("missing required scope " ++ requiredScope))

/-- Whether the actor may mint a key carrying `requested`. -/
def canGrant (requested : List String) : Bool :=
  actor.adminScopeImpliesAll && requested.all fun scope => actor.hasScope scope

end Actor

def scopeInvalid (message : String) : AppError :=
  .coded 422 "scope_invalid" message

/-- One scope of a request. -/
def normalizeScope (scope : String) : Except AppError String :=
  let scope := trim scope
  if scope.isEmpty then .error (scopeInvalid "api key scopes must not contain empty values")
  else if ¬isKnownScope scope then .error (scopeInvalid ("unknown scope " ++ scope))
  else .ok scope

/-- The scopes of a request, as they are stored. -/
def normalizeScopes (scopes : List String) : Except AppError (List String) := do
  let normalized ← scopes.mapM normalizeScope
  return (normalized.insertionSort (· ≤ ·)).destutter (· ≠ ·)

end Moira
