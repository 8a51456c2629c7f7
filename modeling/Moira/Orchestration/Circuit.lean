import Mathlib.Logic.Function.Basic
import Moira.Lib.System
import Moira.Runtime.Traffic

/-!
# Circuit breakers

`CircuitBreakerRegistry`: one entry for each pair of a provider and a model, in memory.

- `beforeCall`, `onSuccess`, `onFailure`, `resetForResource` — each holds the lock of the map from
  its first line to its last, so that it is one step
-/

namespace Moira

open ExecutionFailureClass

/-- What a breaker reads of a `ProviderRuntimePolicyRecord`. -/
structure RuntimePolicy where
  version : Int
  circuitFailureThreshold : Int
  circuitOpenDurationMs : Int

/-- `Duration::from_millis(circuit_open_duration_ms as u64)`, in nanoseconds. -/
def RuntimePolicy.openFor (policy : RuntimePolicy) : Nat :=
  (policy.circuitOpenDurationMs % 18446744073709551616).toNat * 1000000

inductive CircuitState
  | closed
  | «open»
  | halfOpen
  deriving DecidableEq

structure CircuitEntry where
  state : CircuitState
  /-- An `i32`, which wraps. -/
  failureCount : Int
  openedAt : Option Nat
  policyVersion : Int

def CircuitEntry.closed (policyVersion : Int) : CircuitEntry where
  state := .closed
  failureCount := 0
  openedAt := none
  policyVersion := policyVersion

/-- Whether the circuit has been open for as long as the policy says. -/
def CircuitEntry.pastDuration (entry : CircuitEntry) (policy : RuntimePolicy) (now : Nat) : Bool :=
  entry.openedAt.any fun opened => policy.openFor ≤ now - opened

/-- A provider and one of its models. -/
abbrev CircuitKey := Uuid × Uuid

structure CircuitBreakerRegistry where
  states : CircuitKey → Option CircuitEntry := fun _ => none

/-- Whether a failure is evidence that the provider itself is unhealthy. -/
def isCircuitFailure : ExecutionFailureClass → Bool
  | providerTimeout | providerConnectionFailed | providerUnavailable | providerInvalidResponse
  | providerUpstreamError | providerRateLimited => true
  | _ => false

def circuitOpenFailure : ExecutionFailure :=
  .new circuitOpen "provider circuit is open"

namespace CircuitBreakerRegistry

variable (registry : CircuitBreakerRegistry) (key : CircuitKey)

def insert (entry : CircuitEntry) : CircuitBreakerRegistry where
  states := Function.update registry.states key (some entry)

/-- `entry(key).or_insert(closed)` -/
def entryOr (policy : RuntimePolicy) : CircuitEntry :=
  (registry.states key).getD (.closed policy.version)

/-- The entry a call under this policy finds: one of another version is replaced. -/
def current (policy : RuntimePolicy) : CircuitEntry :=
  if (registry.entryOr key policy).policyVersion ≠ policy.version then .closed policy.version
  else registry.entryOr key policy

def beforeCall (policy : RuntimePolicy) (now : Nat) :
    Except ExecutionFailure CircuitState × CircuitBreakerRegistry :=
  let entry := registry.current key policy
  match entry.state with
  | .closed | .halfOpen => (.ok entry.state, registry.insert key entry)
  | .open =>
    if entry.pastDuration policy now then
      (.ok .halfOpen, registry.insert key { entry with state := .halfOpen })
    else (.error circuitOpenFailure, registry.insert key entry)

def onSuccess : CircuitBreakerRegistry :=
  registry.insert key (.closed 0)

def onFailure (policy : RuntimePolicy) (failureClass : ExecutionFailureClass) (now : Nat) :
    CircuitBreakerRegistry :=
  if isCircuitFailure failureClass then
    let entry := registry.entryOr key policy
    let failureCount := (entry.failureCount + 1).bmod 4294967296
    let counted := { entry with failureCount, policyVersion := policy.version }
    if entry.state = .halfOpen ∨ policy.circuitFailureThreshold ≤ failureCount then
      registry.insert key { counted with state := .open, openedAt := some now }
    else registry.insert key counted
  else registry

def resetForResource : CircuitResetScope → CircuitBreakerRegistry
  | .provider providerId =>
    { states := fun key => if key.1 ≠ providerId then registry.states key else none }
  | .model modelId => { states := fun key => if key.2 ≠ modelId then registry.states key else none }
  | .unaffected => registry
  | .all => {}

/-- Whether a call would be refused as `CircuitOpen`. -/
def refused (policy : RuntimePolicy) (now : Nat) : Bool :=
  match (registry.beforeCall key policy now).1 with
  | .ok _ => false
  | .error _ => true

end CircuitBreakerRegistry

/-! ## Runs -/

inductive BreakerMove
  | beforeCall (key : CircuitKey) (policy : RuntimePolicy)
  | onSuccess (key : CircuitKey)
  | onFailure (key : CircuitKey) (policy : RuntimePolicy) (failureClass : ExecutionFailureClass)
  | reset (scope : CircuitResetScope)
  | elapse (nanos : Nat)

structure BreakerState where
  registry : CircuitBreakerRegistry := {}
  now : Nat := 0

/-- One operation of any call, or time. -/
def breakerStep (s : BreakerState) : BreakerMove → Option BreakerState
  | .beforeCall key policy =>
    some { s with registry := (s.registry.beforeCall key policy s.now).2 }
  | .onSuccess key => some { s with registry := s.registry.onSuccess key }
  | .onFailure key policy failureClass =>
    some { s with registry := s.registry.onFailure key policy failureClass s.now }
  | .reset scope => some { s with registry := s.registry.resetForResource scope }
  | .elapse nanos => some { s with now := s.now + nanos }

end Moira
