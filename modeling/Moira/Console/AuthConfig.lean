import Moira.Identity.Rows

/-!
# Sign-in providers of the console

`resolveAuthConfigs` makes a list of configurations from the rows that the service holds and from
the secrets that the console holds itself.

The cache key and the message keys of a failure are left out.
-/

namespace Moira.Console

open Identity (AuthMethod ResourceStatus)

/-! ## Ids and issuers -/

def consoleOauthProviderId : List Char :=
  "moira-console-idp".toList

def consoleIssuerPathPrefix : List Char :=
  "/idp/".toList

/-- `[a-z0-9]` -/
def isSlugEnd (c : Char) : Bool :=
  ('a' ≤ c && c ≤ 'z') || ('0' ≤ c && c ≤ '9')

/-- `[a-z0-9-]` -/
def isSlugChar (c : Char) : Bool :=
  isSlugEnd c || c = '-'

/-- `(?:[a-z0-9-]{0,30}[a-z0-9])?$` -/
def isSlugTail (tail : List Char) : Bool :=
  match tail.getLast? with
  | none => true
  | some last => tail.dropLast.length ≤ 30 && tail.dropLast.all isSlugChar && isSlugEnd last

/-- `PROVIDER_SLUG_PATTERN` -/
def isProviderSlug : List Char → Bool
  | [] => false
  | first :: tail => isSlugEnd first && isSlugTail tail

def trimTrailingSlash (value : List Char) : List Char :=
  if value.getLast? = some '/' then value.dropLast else value

def unusableSlug (slug : List Char) : String :=
  "\"" ++ String.ofList slug ++
    "\" is not a usable provider slug (/^[a-z0-9](?:[a-z0-9-]\x7b0,30\x7d[a-z0-9])?$/). It becomes a " ++
    "URL path segment in the OAuth redirect URI and a value in `account.providerId`, " ++
    "neither of which can be changed after the first sign-in."

def consoleIssuerForSlug (bffIssuerUrl slug : List Char) : Except String (List Char) :=
  if !isProviderSlug slug then .error (unusableSlug slug)
  else .ok (trimTrailingSlash bffIssuerUrl ++ consoleIssuerPathPrefix ++ slug)

/-- The id built from a slug. -/
def providerIdOfSlug (slug : List Char) : List Char :=
  consoleOauthProviderId ++ '-' :: slug

/-- `none` is a refusal. -/
def consoleProviderIdFor (bffIssuerUrl consoleIssuer : List Char) : Option (List Char) :=
  let base := trimTrailingSlash bffIssuerUrl
  if trimTrailingSlash consoleIssuer = base then some consoleOauthProviderId
  else
    let front := base ++ consoleIssuerPathPrefix
    if !front.isPrefixOf consoleIssuer then none
    else
      let slug := consoleIssuer.drop front.length
      if !isProviderSlug slug then none
      else some (providerIdOfSlug slug)

/-! ## Resolution -/

inductive AuthConfigProblem
  | noEnabledProvider
  | methodNotInteractive
  | providerEndpointsIncomplete
  | allowedEmailDomainsEmpty
  | providerNotBoundToTrustedJwtIssuer
  | trustedJwtIssuerNotResolvable
  | consoleSecretUnavailable

inductive ConsoleSecretDrift
  | inSync
  | consoleSecretMissing
  | clientIdMismatch
  | moiraClientIdMissing
  deriving DecidableEq

/-- A row of `auth_provider_settings` as the service lists it. -/
structure AuthProviderSettingsRecord where
  id : String
  method : AuthMethod := .genericOidc
  enabled : Bool := true
  requestedScopes : List String := []
  allowedEmailDomains : List String := []
  status : ResourceStatus := .active
  version : Int := 1
  authorizationUrl : Option String := none
  clientId : Option String := none
  discoveryUrl : Option String := none
  issuer : Option String := none
  tokenUrl : Option String := none
  trustedJwtIssuerId : Option String := none
  userinfoUrl : Option String := none

structure TrustedJwtIssuerRecord where
  id : String
  issuer : List Char
  status : ResourceStatus := .active

/-- A configuration that a human can sign in through. -/
structure ResolvedAuthConfig (bffIssuerUrl : List Char) where
  providerId : List Char
  consoleIssuer : List Char
  trustedJwtIssuerId : String
  method : AuthMethod
  moiraProviderId : String
  moiraProviderVersion : Int
  issuer : Option String
  discoveryUrl : Option String
  authorizationUrl : Option String
  tokenUrl : Option String
  userInfoUrl : Option String
  clientId : String
  clientSecret : String
  scopes : List String
  allowedEmailDomains : List String
  derived : consoleProviderIdFor bffIssuerUrl consoleIssuer = some providerId

structure AuthConfigProviderProblem where
  moiraProviderId : String
  problem : AuthConfigProblem
  drift : Option ConsoleSecretDrift := none

inductive AuthConfigsResolution (bffIssuerUrl : List Char)
  | ok (configs : List (ResolvedAuthConfig bffIssuerUrl)) (problems : List AuthConfigProviderProblem)
  | failure (problem : AuthConfigProblem) (drift : Option ConsoleSecretDrift)

/-- A text that is there and not empty. -/
def isGiven (value : Option String) : Bool :=
  value.any (· ≠ "")

def hasUsableEndpoints (row : AuthProviderSettingsRecord) : Bool :=
  if isGiven row.discoveryUrl then true
  else if !isGiven row.authorizationUrl || !isGiven row.tokenUrl then false
  -- Without an id token the profile can only come from the userinfo endpoint.
  else if row.method = .githubOauth then isGiven row.userinfoUrl
  else true

def isInteractiveMethod (method : AuthMethod) : Bool :=
  method = .googleOauth || method = .genericOidc || method = .githubOauth

/-- `sealed` is the client id that the stored secret belongs to. -/
def classifySecretDrift (moiraClientId : Option String) (sealed : Option String) : ConsoleSecretDrift :=
  if !isGiven moiraClientId then .moiraClientIdMissing
  else
    match sealed with
    | none => .consoleSecretMissing
    | some clientId => if moiraClientId = some clientId then .inSync else .clientIdMismatch

/-- What `resolveAuthConfigs` reads. -/
structure AuthConfigsInput where
  rows : List AuthProviderSettingsRecord
  trustedIssuers : List TrustedJwtIssuerRecord
  bffIssuerUrl : List Char
  sealed : String → Option String
  secrets : String → Option String

namespace AuthConfigsInput

variable (input : AuthConfigsInput)

def enabledRows : List AuthProviderSettingsRecord :=
  input.rows.filter fun row => row.enabled && row.status = .active

/-- A later issuer replaces an earlier one with its id. -/
def issuersById (id : String) : Option TrustedJwtIssuerRecord :=
  (input.trustedIssuers.filter fun issuer => issuer.status = .active).reverse.find? fun issuer =>
    issuer.id = id

end AuthConfigsInput

section Resolution

variable (toLowerCase : List Char → List Char) (input : AuthConfigsInput)

def resolveOne (row : AuthProviderSettingsRecord) :
    Except AuthConfigProviderProblem (ResolvedAuthConfig input.bffIssuerUrl) :=
  let problem (kind : AuthConfigProblem) (drift : Option ConsoleSecretDrift) :
      Except AuthConfigProviderProblem (ResolvedAuthConfig input.bffIssuerUrl) :=
    .error { moiraProviderId := row.id, problem := kind, drift := drift }
  if !isInteractiveMethod row.method then problem .methodNotInteractive none
  else if !hasUsableEndpoints row then problem .providerEndpointsIncomplete none
  else if row.allowedEmailDomains.isEmpty then problem .allowedEmailDomainsEmpty none
  else if !isGiven row.trustedJwtIssuerId then problem .providerNotBoundToTrustedJwtIssuer none
  else
    match input.issuersById (row.trustedJwtIssuerId.getD "") with
    | none => problem .trustedJwtIssuerNotResolvable none
    | some trustedIssuer =>
      match hderived : consoleProviderIdFor input.bffIssuerUrl trustedIssuer.issuer with
      | none => problem .trustedJwtIssuerNotResolvable none
      | some providerId =>
        let drift := classifySecretDrift row.clientId (input.sealed row.id)
        let clientSecret := input.secrets row.id
        if drift ≠ .inSync || !isGiven clientSecret then problem .consoleSecretUnavailable (some drift)
        else
          .ok
            { providerId
              consoleIssuer := trustedIssuer.issuer
              trustedJwtIssuerId := row.trustedJwtIssuerId.getD ""
              method := row.method
              moiraProviderId := row.id
              moiraProviderVersion := row.version
              issuer := row.issuer
              discoveryUrl := row.discoveryUrl
              authorizationUrl := row.authorizationUrl
              tokenUrl := row.tokenUrl
              userInfoUrl := row.userinfoUrl
              clientId := row.clientId.getD ""
              clientSecret := clientSecret.getD ""
              scopes := row.requestedScopes
              allowedEmailDomains := row.allowedEmailDomains.map fun domain =>
                String.ofList (toLowerCase domain.toList)
              derived := hderived }

/-- Every enabled row, in the order of the ids. -/
def resolveAuthConfigs : AuthConfigsResolution input.bffIssuerUrl :=
  if input.enabledRows.isEmpty then .failure .noEnabledProvider none
  else
    let sorted := input.enabledRows.mergeSort fun a b => a.id ≤ b.id
    let resolved := sorted.map (resolveOne toLowerCase input)
    let configs := resolved.filterMap Except.toOption
    let problems := resolved.filterMap fun
      | .error problem => some problem
      | .ok _ => none
    if configs.isEmpty then
      match problems.head? with
      | none => .failure .noEnabledProvider none
      | some first => .failure first.problem first.drift
    else .ok configs problems

end Resolution

/-! ## Sessions -/

/-- A session with the field `providerId`, if it is a text. -/
structure SessionWithProvider where
  id : String
  providerId : Option (List Char)

inductive SessionProviderError
  /-- `UnknownSessionProviderError` -/
  | unknown (sessionId : String)
  /-- `UnresolvableSessionProviderError` -/
  | unresolvable (providerId : List Char)

def sessionProviderId (session : SessionWithProvider) : Except SessionProviderError (List Char) :=
  match session.providerId with
  | none => .error (.unknown session.id)
  | some [] => .error (.unknown session.id)
  | some stamped => .ok stamped

/-- The configuration that a session names. -/
def resolveSessionProviderIn {bffIssuerUrl : List Char} (configs : List (ResolvedAuthConfig bffIssuerUrl))
    (session : SessionWithProvider) : Except SessionProviderError (ResolvedAuthConfig bffIssuerUrl) :=
  match sessionProviderId session with
  | .error error => .error error
  | .ok providerId =>
    match configs.find? fun candidate => candidate.providerId = providerId with
    | none => .error (.unresolvable providerId)
    | some config => .ok config

/-! ## The allow-list -/

/-- Deny by default. `toLowerCase` is the one of the language. -/
def isEmailDomainAllowed (toLowerCase : List Char → List Char) (email : List Char)
    (allowedDomains : List (List Char)) : Bool :=
  if allowedDomains.isEmpty then false
  else
    -- What stands before and after `email.lastIndexOf("@")`.
    match Identity.rsplitOnce '@' email with
    | none => false
    | some (before, after) =>
      -- `at <= 0 || at === email.length - 1`
      if before.isEmpty || after.isEmpty then false
      else allowedDomains.any fun allowed => toLowerCase allowed = toLowerCase after

end Moira.Console
