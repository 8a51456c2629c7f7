import Mathlib.Logic.Basic

/-!
# Execution failures

The failure classes of an execution, their public codes, and the three dispositions the retry
loop, the fallback loop and the circuit breaker read off a class.

A failure carries its own `retryable` and `fallbackEligible` flags: `ExecutionFailure.new` reads
them off the class, and a handful of places clamp them afterwards (`clamp`), because output has
already reached the caller or because the exhausted capacity is not the provider's.
-/

namespace Moira

/-- Identifiers are compared and never computed with. -/
abbrev Uuid := Nat

inductive ExecutionFailureClass
  | invalidExecutionRequest
  | applicationUnavailable
  | routeNotFound
  | routeForbidden
  | agentProfileNotFound
  | agentProfileDisabled
  | skillUnavailable
  | modelNotFound
  | modelForbidden
  | modelCapabilityMismatch
  | noEligibleModel
  | credentialNotFound
  | credentialForbidden
  | credentialExpired
  | credentialDisabled
  | credentialDecryptionFailed
  | providerConfigurationInvalid
  | providerUnavailable
  | providerRateLimited
  | providerTimeout
  | providerConnectionFailed
  | providerAuthenticationFailed
  | providerInvalidResponse
  | providerUpstreamError
  | circuitOpen
  | capacityExhausted
  | requestCancelled
  | deadlineExceeded
  | structuredOutputInvalid
  | streamBackpressureExceeded
  | contentDecryptionFailed
  | contentEnvelopeUnsupported
  | contentKeyUnavailable
  | contentKeyAbandoned
  | internalError
  deriving DecidableEq

namespace ExecutionFailureClass

/-- The public error code of a class. -/
def code : ExecutionFailureClass → String
  | invalidExecutionRequest => "invalid_execution_request"
  | applicationUnavailable => "application_unavailable"
  | routeNotFound => "route_not_found"
  | routeForbidden => "route_forbidden"
  | agentProfileNotFound => "agent_profile_not_found"
  | agentProfileDisabled => "agent_profile_disabled"
  | skillUnavailable => "skill_unavailable"
  | modelNotFound => "model_not_found"
  | modelForbidden => "model_forbidden"
  | modelCapabilityMismatch => "model_capability_mismatch"
  | noEligibleModel => "no_eligible_model"
  | credentialNotFound => "credential_not_found"
  | credentialForbidden => "credential_forbidden"
  | credentialExpired => "credential_expired"
  | credentialDisabled => "credential_disabled"
  | credentialDecryptionFailed => "credential_decryption_failed"
  | providerConfigurationInvalid => "provider_configuration_invalid"
  | providerUnavailable => "provider_unavailable"
  | providerRateLimited => "provider_rate_limited"
  | providerTimeout => "provider_timeout"
  | providerConnectionFailed => "provider_connection_failed"
  | providerAuthenticationFailed => "provider_authentication_failed"
  | providerInvalidResponse => "provider_invalid_response"
  | providerUpstreamError => "provider_upstream_error"
  | circuitOpen => "circuit_open"
  | capacityExhausted => "capacity_exhausted"
  | requestCancelled => "request_cancelled"
  | deadlineExceeded => "deadline_exceeded"
  | structuredOutputInvalid => "structured_output_invalid"
  | streamBackpressureExceeded => "stream_backpressure_exceeded"
  | contentDecryptionFailed => "content_decryption_failed"
  | contentEnvelopeUnsupported => "content_envelope_unsupported"
  | contentKeyUnavailable => "content_key_unavailable"
  | contentKeyAbandoned => "content_key_abandoned"
  | internalError => "internal_error"

end ExecutionFailureClass

open ExecutionFailureClass

/-- Whether the same provider and model are worth trying again. -/
def isRetryable : ExecutionFailureClass → Bool
  | providerTimeout | providerConnectionFailed | providerRateLimited | providerUnavailable
  | providerUpstreamError | circuitOpen | capacityExhausted => true
  | _ => false

/-- Whether a different provider is worth trying. -/
def isFallbackEligible : ExecutionFailureClass → Bool
  | credentialNotFound | providerTimeout | providerConnectionFailed | providerRateLimited
  | providerUnavailable | providerUpstreamError | circuitOpen | capacityExhausted => true
  | _ => false

structure ExecutionFailure where
  failureClass : ExecutionFailureClass
  message : String
  retryable : Bool
  fallbackEligible : Bool
  deriving DecidableEq

namespace ExecutionFailure

def new (failureClass : ExecutionFailureClass) (message : String) : ExecutionFailure where
  failureClass := failureClass
  message := message
  retryable := isRetryable failureClass
  fallbackEligible := isFallbackEligible failureClass

/-- The clamp applied once output is committed: never retry, never fall back. -/
def clamp (failure : ExecutionFailure) : ExecutionFailure :=
  { failure with retryable := false, fallbackEligible := false }

/-- A failure that ends the execution: neither a retry nor a fallback may follow it. -/
def Final (failure : ExecutionFailure) : Prop :=
  failure.retryable = false ∧ failure.fallbackEligible = false

theorem clamp_final (failure : ExecutionFailure) : failure.clamp.Final :=
  ⟨rfl, rfl⟩

end ExecutionFailure

/-! ## The failures the execution path builds itself -/

def cancelledFailure : ExecutionFailure :=
  .new requestCancelled "execution stream was cancelled by its consumer"

def deadlineFailure : ExecutionFailure :=
  .new deadlineExceeded "execution exceeded its total deadline"

def attemptTimeoutFailure (boundedByTotalDeadline outputCommitted : Bool) : ExecutionFailure :=
  let failure :=
    if boundedByTotalDeadline then deadlineFailure
    else .new providerTimeout "provider request exceeded effective deadline"
  if outputCommitted then failure.clamp else failure

/-- Terminal persistence overran its budget after a provider call that succeeded. -/
def terminalPersistenceDeadlineFailure : ExecutionFailure :=
  { attemptTimeoutFailure true true with
    message := "execution exceeded its total deadline while persisting terminal state" }

inductive CapacityScope
  | global
  | providerRequest
  | providerStream
  | application
  | user
  | limiterRegistry
  deriving DecidableEq

def CapacityScope.message : CapacityScope → String
  | global => "global execution capacity is exhausted"
  | providerRequest => "provider request capacity is exhausted"
  | providerStream => "provider stream capacity is exhausted"
  | application => "application execution capacity is exhausted"
  | user => "user execution capacity is exhausted"
  | limiterRegistry => "dynamic limiter registry capacity is exhausted"

/-- A capacity refusal is never retried, and falls back only when the provider is what is full. -/
def capacityFailure (scope : CapacityScope) : ExecutionFailure :=
  { ExecutionFailure.new capacityExhausted scope.message with
    retryable := false
    fallbackEligible := scope = .providerRequest ∨ scope = .providerStream }

theorem cancelledFailure_final : cancelledFailure.Final :=
  ⟨rfl, rfl⟩

theorem attemptTimeoutFailure_final (bounded : Bool) : (attemptTimeoutFailure bounded true).Final :=
  ExecutionFailure.clamp_final _

theorem streamBackpressure_final (message : String) :
    (ExecutionFailure.new streamBackpressureExceeded message).Final :=
  ⟨rfl, rfl⟩

theorem structuredOutputInvalid_final (message : String) :
    (ExecutionFailure.new structuredOutputInvalid message).Final :=
  ⟨rfl, rfl⟩

end Moira
