import Moira.Identity.Rows
import Moira.Lib.Program

/-!
# Connecting a language model

`runConnectChain` makes or finds, one after another, what a call to a self-hosted model needs: a
provider, its models, a credential, and a routing policy for each model.

- `providerStep`, `modelsLoop`, `credentialStep`, `enableStep`, `policiesLoop` — the steps
- `runConnectChain` — the chain

The locals of the function that its `catch` blocks read are passed along with what is thrown.
-/

namespace Moira.Console

namespace Connect

open Identity (ResourceStatus)

/-! ## Rows and calls -/

structure ProviderRecord where
  id : String
  baseUrl : Option String := none
  status : ResourceStatus := .active
  version : Int := 1

structure ProviderModelRecord where
  id : String
  modelKey : String
  status : ResourceStatus := .active
  version : Int := 1

structure ProviderCredentialRecord where
  id : String
  providerId : String
  status : ResourceStatus := .active
  version : Int := 1

structure RouteDefinitionRecord where
  id : String

structure RoutingPolicyRecord where
  id : String
  routeId : String
  providerId : String
  providerModelId : String
  status : ResourceStatus := .active
  version : Int := 1

/-- One page of a list. -/
structure ListResponse (ρ : Type) where
  data : List ρ
  hasMore : Bool := false

/-- The calls of the client. An `enable` carries the version of `If-Match`. -/
inductive Op
  | listProviders (limit : Nat)
  | createProvider (providerType displayName baseUrl idempotencyKey : String)
  | listProviderModels (providerId : String) (limit : Nat)
  | createProviderModel (providerId modelKey idempotencyKey : String)
  | enableProviderModel (id : String) (version : Int)
  | listProviderCredentials (providerId : String) (limit : Nat)
  /-- `none` is a placeholder that is generated. -/
  | createProviderCredential (providerId : String) (placeholderKey : Option String) (idempotencyKey : String)
  | enableProviderCredential (id : String) (version : Int)
  | enableProvider (id : String) (version : Int)
  | findRouteByKey (routeKey : String)
  | listRoutingPolicies (limit : Nat)
  | createRoutingPolicy (routeId providerId providerModelId : String) (priority weight : Nat)
      (idempotencyKey : String)
  | enableRoutingPolicy (id : String) (version : Int)

def Op.Row : Op → Type
  | .listProviders _ => ListResponse ProviderRecord
  | .createProvider .. => ProviderRecord
  | .listProviderModels .. => ListResponse ProviderModelRecord
  | .createProviderModel .. => ProviderModelRecord
  | .enableProviderModel .. => ProviderModelRecord
  | .listProviderCredentials .. => ListResponse ProviderCredentialRecord
  | .createProviderCredential .. => ProviderCredentialRecord
  | .enableProviderCredential .. => ProviderCredentialRecord
  | .enableProvider .. => ProviderRecord
  | .findRouteByKey _ => Option RouteDefinitionRecord
  | .listRoutingPolicies _ => ListResponse RoutingPolicyRecord
  | .createRoutingPolicy .. => RoutingPolicyRecord
  | .enableRoutingPolicy .. => RoutingPolicyRecord

/-- A call gives a row, a page, or the text of what it throws. -/
def sig : Sig where
  Op := Op
  Ans o := Except String o.Row

def listPageLimit : Nat := 200

def generalRouteKey : String := "general"

/-! ## What a chain tells -/

inductive ConnectStepName
  | provider
  | providerModel
  | providerCredential
  | providerEnable
  | routingPolicy
  deriving DecidableEq

inductive StepOutcome
  | created
  | reused
  | enabled
  | skipped
  deriving DecidableEq

structure LlmConnectStepView where
  step : ConnectStepName
  outcome : StepOutcome
  detail : Option String

/-- What has been written so far. -/
structure ConnectState where
  providerId : Option String := none
  providerModelIds : List String := []
  keyRowId : Option String := none
  providerEnabled : Bool := false
  routingPolicyIds : List String := []
  deriving DecidableEq

/-- A chain that stopped part-way. -/
structure LlmProvisioningError where
  step : ConnectStepName
  messageKey : String
  state : ConnectState
  trace : List LlmConnectStepView
  cause : Option String := none

structure ConnectChainOptions where
  baseUrl : String
  displayName : String
  modelKeys : List String
  placeholderKey : Option String := none

structure ConnectChainResult where
  providerId : String
  state : ConnectState
  trace : List LlmConnectStepView

/-- Refuses a page that was truncated. -/
def findOnPage {ρ : Type} (page : ListResponse ρ) (isMatch : ρ → Bool) (step : ConnectStepName)
    (state : ConnectState) (trace : List LlmConnectStepView) : Except LlmProvisioningError (Option ρ) :=
  match page.data.find? isMatch with
  | some hit => .ok (some hit)
  | none =>
    if page.hasMore then .error { step, messageKey := "console.llm.list_truncated", state, trace }
    else .ok none

/-! ## Locals and what is thrown -/

/-- The variables that outlive a step. -/
structure Locals where
  state : ConnectState := {}
  trace : List LlmConnectStepView := []
  modelIds : List String := []
  policyIds : List String := []

inductive Thrown
  | provisioning (error : LlmProvisioningError)
  | client (cause : String)

/-- What is thrown inside of a `try`, with the locals at that moment. -/
abbrev Body (α : Type) := Prog sig (Locals × Thrown) α

def call (l : Locals) (o : Op) : Body o.Row :=
  Prog.ask (S := sig) o >>= fun
    | .ok row => .ret row
    | .error cause => .fail (l, .client cause)

def orThrow {α : Type} (l : Locals) : Except LlmProvisioningError α → Body α
  | .ok a => .ret a
  | .error error => .fail (l, .provisioning error)

/-- `state` is the one that is thrown with a failed call. -/
def rethrowAsStep (step : ConnectStepName) (state : Locals → ConnectState) :
    Locals × Thrown → LlmProvisioningError
  | (_, .provisioning error) => error
  | (l, .client cause) =>
    { step
      messageKey := "console.llm.connect_step_failed"
      state := state l
      trace := l.trace
      cause := some cause }

def Locals.push (l : Locals) (step : ConnectStepName) (outcome : StepOutcome)
    (detail : Option String) : Locals :=
  { l with trace := l.trace ++ [⟨step, outcome, detail⟩] }

/-- `existing.status === "active" ? existing : await client.enable…` -/
def repair (l : Locals) (o : Op) (status : ResourceStatus) (existing : o.Row) : Body o.Row :=
  if status = .active then .ret existing else call l o

/-- A row that is found is reused, and enabled if it is not active. -/
def foundOutcome (status : ResourceStatus) : StepOutcome :=
  if status = .active then .reused else .enabled

/-! ## The steps -/

section Steps

variable (options : ConnectChainOptions)

def providerStep (l : Locals) : Body (ProviderRecord × Locals) := do
  let page ← call l (.listProviders listPageLimit)
  let existing ← orThrow l
    (findOnPage page (fun row => row.baseUrl = some options.baseUrl && row.status ≠ .deleted) .provider {} [])
  match existing with
  | some existing => .ret (existing, l.push .provider .reused (some existing.id))
  | none => do
    let provider ← call l
      (.createProvider "open_ai_compatible" options.displayName options.baseUrl
        ("llm-provider:" ++ options.baseUrl))
    .ret (provider, l.push .provider .created (some provider.id))

variable (provider : ProviderRecord)

def Locals.pushModel (l : Locals) (id modelKey : String) (outcome : StepOutcome) : Locals :=
  { l.push .providerModel outcome (some modelKey) with modelIds := l.modelIds ++ [id] }

def modelsLoop (page : ListResponse ProviderModelRecord) : List String → Locals → Body Locals
  | [], l => .ret l
  | modelKey :: modelKeys, l => do
    let existing ← orThrow l
      (findOnPage page (fun row => row.modelKey = modelKey && row.status ≠ .deleted) .providerModel
        { l.state with providerModelIds := l.modelIds } l.trace)
    match existing with
    | some existing => do
      let repaired ← repair l (.enableProviderModel existing.id existing.version) existing.status existing
      modelsLoop page modelKeys (l.pushModel repaired.id modelKey (foundOutcome existing.status))
    | none => do
      let created ← call l
        (.createProviderModel provider.id modelKey ("llm-model:" ++ provider.id ++ ":" ++ modelKey))
      modelsLoop page modelKeys (l.pushModel created.id modelKey .created)

def modelsStep (l : Locals) : Body Locals := do
  let page ← call l (.listProviderModels provider.id listPageLimit)
  modelsLoop provider page options.modelKeys l

def Locals.setKeyRow (l : Locals) (id : String) (outcome : StepOutcome) : Locals :=
  { l.push .providerCredential outcome (some id) with state := { l.state with keyRowId := some id } }

def credentialStep (l : Locals) : Body Locals := do
  let page ← call l (.listProviderCredentials provider.id listPageLimit)
  let existing ← orThrow l
    (findOnPage page (fun row => row.providerId = provider.id && row.status ≠ .deleted) .providerCredential
      l.state l.trace)
  match existing with
  | some existing => do
    let repaired ← repair l (.enableProviderCredential existing.id existing.version) existing.status existing
    .ret (l.setKeyRow repaired.id (foundOutcome existing.status))
  | none => do
    let created ← call l
      (.createProviderCredential provider.id options.placeholderKey ("llm-credential:" ++ provider.id))
    .ret (l.setKeyRow created.id .created)

def Locals.setEnabled (l : Locals) (outcome : StepOutcome) (detail : Option String) : Locals :=
  { l.push .providerEnable outcome detail with state := { l.state with providerEnabled := true } }

/-- The provider is the one that the call answers with from here on. -/
def enableStep (l : Locals) : Body (ProviderRecord × Locals) :=
  if provider.status = .active then .ret (provider, l.setEnabled .skipped none)
  else do
    let enabled ← call l (.enableProvider provider.id provider.version)
    .ret (enabled, l.setEnabled .created (some enabled.id))

def Locals.pushPolicy (l : Locals) (id : String) (outcome : StepOutcome) : Locals :=
  { l.push .routingPolicy outcome (some id) with policyIds := l.policyIds ++ [id] }

def policiesLoop (routeId : String) (page : ListResponse RoutingPolicyRecord) :
    List String → Locals → Body Locals
  | [], l => .ret l
  | providerModelId :: modelIds, l => do
    let existing ← orThrow l
      (findOnPage page
        (fun row => row.routeId = routeId && row.providerId = provider.id &&
          row.providerModelId = providerModelId && row.status ≠ .deleted)
        .routingPolicy { l.state with routingPolicyIds := l.policyIds } l.trace)
    match existing with
    | some existing => do
      let repaired ← repair l (.enableRoutingPolicy existing.id existing.version) existing.status existing
      policiesLoop routeId page modelIds (l.pushPolicy repaired.id (foundOutcome existing.status))
    | none => do
      let created ← call l
        (.createRoutingPolicy routeId provider.id providerModelId 100 1
          ("llm-policy:" ++ routeId ++ ":" ++ provider.id ++ ":" ++ providerModelId))
      policiesLoop routeId page modelIds (l.pushPolicy created.id .created)

def policiesStep (l : Locals) : Body Locals := do
  let route ← call l (.findRouteByKey generalRouteKey)
  let route ← orThrow l <|
    match route with
    | some route => .ok route
    | none =>
      .error
        { step := .routingPolicy
          messageKey := "console.llm.general_route_missing"
          state := l.state
          trace := l.trace }
  let page ← call l (.listRoutingPolicies listPageLimit)
  let l ← policiesLoop provider route.id page l.modelIds l
  .ret { l with state := { l.state with routingPolicyIds := l.policyIds } }

end Steps

/-! ## The chain -/

def runConnectChain (options : ConnectChainOptions) : Prog sig LlmProvisioningError ConnectChainResult := do
  let (provider, l) ← (providerStep options {}).mapFail (rethrowAsStep .provider fun l => l.state)
  let l : Locals := { l with state := { l.state with providerId := some provider.id } }
  let l ← (modelsStep options provider l).mapFail
    (rethrowAsStep .providerModel fun l => { l.state with providerModelIds := l.modelIds })
  let l : Locals := { l with state := { l.state with providerModelIds := l.modelIds } }
  if l.modelIds.isEmpty then
    .fail
      { step := .providerModel
        messageKey := "console.llm.model_required"
        state := l.state
        trace := l.trace }
  else do
    let l ← (credentialStep options provider l).mapFail (rethrowAsStep .providerCredential fun l => l.state)
    let (provider, l) ← (enableStep provider l).mapFail (rethrowAsStep .providerEnable fun l => l.state)
    let l ← (policiesStep provider l).mapFail (rethrowAsStep .routingPolicy fun l => l.state)
    .ret { providerId := provider.id, state := l.state, trace := l.trace }

end Connect

end Moira.Console
