import Mathlib.Algebra.Group.Nat.Defs
import Moira.Domain.Failure
import Moira.Domain.AppError

/-!
# The data of an execution

Commands, policies, candidates, attempts, runtime events and outcomes, with the pure functions
that compute one from another.

Left out: tenant and user identifiers, display names, timestamps and latencies. They are copied
into rows and events and no decision of the execution path reads them.
-/

namespace Moira

open ExecutionFailureClass

/-! ## Usage -/

structure UsageSummary where
  inputTokens : Option Nat := none
  outputTokens : Option Nat := none
  cachedInputTokens : Option Nat := none
  reasoningTokens : Option Nat := none
  totalTokens : Option Nat := none
  deriving DecidableEq

/-- Whether the provider reported any token counts at all. -/
def usageWasReported (usage : UsageSummary) : Bool :=
  usage.inputTokens.isSome || usage.outputTokens.isSome || usage.cachedInputTokens.isSome ||
    usage.reasoningTokens.isSome || usage.totalTokens.isSome

/-- Every count fits the `bigint` column it is stored in. -/
def UsageSummary.fitsBigint (usage : UsageSummary) : Bool :=
  [usage.inputTokens, usage.outputTokens, usage.cachedInputTokens, usage.reasoningTokens,
    usage.totalTokens].all fun count => count.all (· < 2 ^ 63)

/-! ## Settings -/

def usizeMax : Nat := 2 ^ 64 - 1

def u64Max : Nat := 2 ^ 64 - 1

/-- `as i32` on a `usize`. -/
def asI32 (n : Nat) : Int :=
  (n : Int).bmod (2 ^ 32)

/-- The runtime settings the execution path reads, with the JSON parser it calls. -/
structure RuntimeSettings where
  defaultExecutionTimeoutMs : Nat
  maximumExecutionTimeoutMs : Nat
  maximumRetriesPerCandidate : Nat
  maximumProviderFallbackCandidates : Nat
  maximumTotalUpstreamAttempts : Nat
  internalStreamQueueCapacity : Nat
  parseJson : String → Option Json

/-! ## Commands -/

structure CallerRuntimeIdentity where
  actorType : String
  applicationId : Option Uuid
  scopes : List String

structure ExecutionOptions where
  timeoutMs : Option Nat := none
  stream : Bool := false
  requiredCapabilities : List String := []
  allowFallback : Bool := true
  maxFallbacks : Option Nat := none
  maxRetries : Option Nat := none
  outputSchema : Option Json := none
  priority : Option Int := none
  complexityHint : Option Nat := none

structure ExecutionCommand where
  requestId : String
  executionId : Uuid
  identity : CallerRuntimeIdentity
  applicationId : Option Uuid
  messages : List String
  routeHint : Option String := none
  providerHint : Option Uuid := none
  modelHint : Option Uuid := none
  credentialHint : Option Uuid := none
  agentProfileHint : Option Uuid := none
  options : ExecutionOptions := {}

/-- Admin scope stands for every override, except for a consumer key. -/
def hasRuntimeScope (command : ExecutionCommand) (required : String) : Bool :=
  command.identity.scopes.contains required ||
    (command.identity.scopes.contains "moira:admin" && command.identity.actorType ≠ "ConsumerKey")

structure EffectiveExecutionPolicy where
  timeoutMs : Nat
  maxRetries : Nat
  maxFallbacks : Nat
  requiredCapabilities : List String
  allowFallback : Bool

/-- The override a command asks for without the scope that allows it, if any. -/
def forbiddenOverride (command : ExecutionCommand) : Option ExecutionFailure :=
  if command.routeHint.isSome && !hasRuntimeScope command "moira:execution:override-route" then
    some (.new routeForbidden "route override is not authorized")
  else if command.providerHint.isSome &&
      !hasRuntimeScope command "moira:execution:override-provider" then
    some (.new modelForbidden "provider override is not authorized")
  else if command.modelHint.isSome && !hasRuntimeScope command "moira:execution:override-model" then
    some (.new modelForbidden "model override is not authorized")
  else if command.options.priority.isSome &&
      !hasRuntimeScope command "moira:execution:override-priority" then
    some (.new modelForbidden "priority override is not authorized")
  else if command.options.complexityHint.isSome &&
      !hasRuntimeScope command "moira:execution:override-complexity-hint" then
    some (.new modelForbidden "complexity hint override is not authorized")
  else none

/-- `ExecutionPolicyService::evaluate`. -/
def evaluate (settings : RuntimeSettings) (command : ExecutionCommand) :
    Except ExecutionFailure EffectiveExecutionPolicy :=
  match forbiddenOverride command with
  | some failure => .error failure
  | none => .ok
    { timeoutMs := min (command.options.timeoutMs.getD settings.defaultExecutionTimeoutMs)
        settings.maximumExecutionTimeoutMs
      maxRetries := min (command.options.maxRetries.getD settings.maximumRetriesPerCandidate)
        settings.maximumRetriesPerCandidate
      maxFallbacks :=
        min (command.options.maxFallbacks.getD settings.maximumProviderFallbackCandidates)
          settings.maximumProviderFallbackCandidates
      requiredCapabilities := command.options.requiredCapabilities
      allowFallback := command.options.allowFallback }

/-! ## Routes and candidates -/

structure RouteDecision where
  routeId : Uuid
  routeKey : String
  agentProfileId : Option Uuid
  deriving DecidableEq

inductive AgentProfileResolution
  | active (profileKey : String)
  | disabled (profileKey : String)
  | missing

/-- The `reason` the operator-side signals carry. -/
def agentProfileReason : AgentProfileResolution → String
  | .active _ => "active"
  | .disabled _ => "disabled"
  | .missing => "missing"

def agentProfileFailure (route : RouteDecision) (agentProfileId : Uuid) :
    AgentProfileResolution → ExecutionFailure
  | .active profileKey => .new agentProfileNotFound
      ("route '" ++ route.routeKey ++ "' resolved agent profile '" ++ profileKey ++ "' (" ++
        toString agentProfileId ++ ") but the execution refused it; " ++
        "this is a bug in Moira, not in your configuration")
  | .disabled profileKey => .new agentProfileDisabled
      ("route '" ++ route.routeKey ++ "' requires agent profile '" ++ profileKey ++ "' (" ++
        toString agentProfileId ++ "), which is disabled; " ++
        "re-enable that profile or point the route at an active one")
  | .missing => .new agentProfileNotFound
      ("route '" ++ route.routeKey ++ "' requires agent profile " ++ toString agentProfileId ++
        ", which no longer exists; create the profile or point the route at an existing one")

/-- The limits of a provider; the columns are checked to be non-negative. -/
structure ProviderRuntimePolicy where
  requestTimeoutMs : Nat
  streamIdleTimeoutMs : Nat
  retryLimit : Nat
  retryBaseDelayMs : Nat
  retryMaxDelayMs : Nat
  circuitFailureThreshold : Int := 5
  circuitOpenDurationMs : Int := 30000
  version : Int := 1
  deriving DecidableEq

structure ModelCandidate where
  policyId : Uuid
  providerId : Uuid
  providerModelId : Uuid
  modelKey : String
  runtimePolicy : ProviderRuntimePolicy
  deriving DecidableEq

inductive AttemptSelectionReason
  | explicitHint
  | priority
  | fallbackAfterFailure
  deriving DecidableEq

/-- Why the candidate at this index of the ranked list is the one tried. -/
def attemptSelectionReason (command : ExecutionCommand) (index : Nat)
    (candidate : ModelCandidate) : AttemptSelectionReason :=
  if command.modelHint = some candidate.providerModelId ∨
      command.providerHint = some candidate.providerId then .explicitHint
  else if index = 0 then .priority
  else .fallbackAfterFailure

structure ModelDecision where
  policyId : Uuid
  providerId : Uuid
  providerModelId : Uuid
  modelKey : String
  explicitHint : Bool
  deriving DecidableEq

def modelDecision (command : ExecutionCommand) (candidate : ModelCandidate) : ModelDecision where
  policyId := candidate.policyId
  providerId := candidate.providerId
  providerModelId := candidate.providerModelId
  modelKey := candidate.modelKey
  explicitHint := command.modelHint = some candidate.providerModelId

structure EffectiveRuntimePolicy where
  timeoutMs : Nat
  maxRetries : Nat

def effectiveRuntimePolicy (policy : EffectiveExecutionPolicy) (runtime : ProviderRuntimePolicy) :
    EffectiveRuntimePolicy where
  timeoutMs := min policy.timeoutMs runtime.requestTimeoutMs
  maxRetries := min policy.maxRetries runtime.retryLimit

/-- How many candidates the fallback loop may visit. -/
def maxCandidates (policy : EffectiveExecutionPolicy) : Nat :=
  if policy.allowFallback then min (policy.maxFallbacks + 1) usizeMax else 1

/-! ## Attempts and outcomes -/

inductive AttemptStatus
  | started
  | succeeded
  | failed
  | cancelled
  deriving DecidableEq

def attemptStatusForFailure (failureClass : ExecutionFailureClass) : AttemptStatus :=
  if failureClass = requestCancelled then .cancelled else .failed

inductive ExecutionStatus
  | succeeded
  | failed
  | cancelled
  deriving DecidableEq

def executionStatusForFailure (failureClass : ExecutionFailureClass) : ExecutionStatus :=
  if failureClass = requestCancelled then .cancelled else .failed

structure ProviderAttemptSummary where
  attemptId : Uuid
  attemptNumber : Int
  providerId : Uuid
  providerModelId : Uuid
  credentialId : Uuid
  status : AttemptStatus
  failureClass : Option ExecutionFailureClass
  usage : UsageSummary
  deriving DecidableEq

def attemptSummary (attemptId : Uuid) (attemptNumber : Int) (candidate : ModelCandidate)
    (credentialId : Uuid) (failureClass : Option ExecutionFailureClass) (usage : UsageSummary) :
    ProviderAttemptSummary where
  attemptId := attemptId
  attemptNumber := attemptNumber
  providerId := candidate.providerId
  providerModelId := candidate.providerModelId
  credentialId := credentialId
  status := (failureClass.map attemptStatusForFailure).getD .succeeded
  failureClass := failureClass
  usage := usage

structure ExecutionOutcome where
  requestId : String
  executionId : Uuid
  status : ExecutionStatus
  outputText : Option String
  structuredOutput : Option Json
  usage : UsageSummary
  route : Option RouteDecision
  model : Option ModelDecision
  attempts : List ProviderAttemptSummary
  failure : Option ExecutionFailure
  deriving DecidableEq

/-- What a failed outcome reports as its usage: the last attempt that reported any. -/
def usageReportedBy (attempts : List ProviderAttemptSummary) : UsageSummary :=
  ((attempts.reverse.find? fun attempt => usageWasReported attempt.usage).map (·.usage)).getD {}

def failedOutcome (command : ExecutionCommand) (route : Option RouteDecision)
    (model : Option ModelDecision) (attempts : List ProviderAttemptSummary)
    (failure : ExecutionFailure) : ExecutionOutcome where
  requestId := command.requestId
  executionId := command.executionId
  status := executionStatusForFailure failure.failureClass
  outputText := none
  structuredOutput := none
  usage := usageReportedBy attempts
  route := route
  model := model
  attempts := attempts
  failure := some failure

structure ToolCallRecord where
  toolName : String
  outcome : String
  deriving DecidableEq

/-- What one provider call produced. -/
structure ExecutionRunOutput where
  text : String
  structuredOutput : Option Json := none
  usage : UsageSummary := {}
  providerRequestId : Option String := none
  toolCalls : List ToolCallRecord := []

/-- A failed provider call, with what the provider reported before it failed. -/
structure FailedAttempt where
  failure : ExecutionFailure
  usage : UsageSummary := {}
  toolCalls : List ToolCallRecord := []

/-- The Unicode `White_Space` characters. -/
def isWhiteSpace (c : Char) : Bool :=
  let n := c.toNat
  (0x09 ≤ n && n ≤ 0x0D) || n = 0x20 || n = 0x85 || n = 0xA0 || n = 0x1680 ||
    (0x2000 ≤ n && n ≤ 0x200A) || n = 0x2028 || n = 0x2029 || n = 0x202F || n = 0x205F || n = 0x3000

/-- `str::trim`. -/
def trim (s : String) : String :=
  String.ofList ((s.toList.dropWhile isWhiteSpace).reverse.dropWhile isWhiteSpace).reverse

def structuredOutputNotJson : String :=
  "the model's reply to a schema-constrained request was not JSON, so no structured output " ++
    "could be produced"

/-- The value a schema-carrying reply is parsed into. -/
def structuredOutputFromText (parseJson : String → Option Json) (wantsStructured : Bool)
    (text : String) : Except ExecutionFailure (Option Json) :=
  if !wantsStructured then .ok none
  else match parseJson (trim text) with
    | some value => .ok (some value)
    | none => .error (.new structuredOutputInvalid structuredOutputNotJson)

/-! ## Runtime events -/

inductive RuntimeEvent
  | executionStarted
  | routingStarted
  | routeSelected (routeId : Uuid) (routeKey : String)
  | agentProfileUnavailable (agentProfileId : Uuid) (reason : String) (routeId : Uuid)
  | modelSelected (model : ModelDecision)
  | candidateRanked (candidates : List (Uuid × Uuid × Nat × AttemptSelectionReason))
  | providerAttemptStarted (attemptId : Uuid) (attemptNumber : Int) (providerId modelId : Uuid)
  | outputTextDelta (text : String)
  | toolCallStarted (internalCallId name : String) (arguments : Json)
  | toolCallDelta (id internalCallId : String) (content : Json)
  | toolCallCompleted
  | toolResult (attemptId : Uuid) (record : ToolCallRecord)
  | usageUpdated (usage : UsageSummary)
  | providerAttemptFailed (attemptId : Uuid) (failureClass : ExecutionFailureClass)
  | fallbackSelected (fromProvider : Uuid) (failureClass : Option ExecutionFailureClass)
      (toProvider : Option (Uuid × Nat))
  | executionCompleted (attemptId : Uuid)
  | executionFailed (failureClass : ExecutionFailureClass)
  deriving DecidableEq

/-- The output text an event carries. -/
def RuntimeEvent.delta? : RuntimeEvent → Option String
  | .outputTextDelta text => some text
  | _ => none

structure RuntimeEventEnvelope where
  sequence : Nat
  event : RuntimeEvent
  deriving DecidableEq

/-- The items of a provider stream. -/
inductive RuntimeStreamItem
  | textDelta (text : String)
  | toolCallStarted (internalCallId name : String) (arguments : Json)
  | toolCallDelta (id internalCallId : String) (content : Json)
  | usageUpdated (usage : UsageSummary)
  | finalMetadata (providerRequestId : Option String)

end Moira
