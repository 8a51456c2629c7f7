import Moira.Lib.System
import Moira.Orchestration.RateLimit

/-!
# Permits

`ConcurrencyController::acquire` without the cluster layer, as a call that takes one scope after
another. Between two scopes it may wait for a registry's mutex, so the calls interleave there; a
refused or dropped call gives back what it has, permit by permit.

One Redis counter that any number of replicas take slots from. `acquire_cluster_slot` runs the
acquire script; a dropped `ClusterPermitGuard` hands the release script to a detached task, which
may land later or never.
-/

namespace Moira

/-- The four registries, in the order `acquire` goes through them. -/
inductive LimiterScope
  | providerRequest
  | providerStream
  | application
  | user
  deriving DecidableEq

namespace LimiterScope

/-- What a registry is keyed by. -/
def Key : LimiterScope → Type
  | providerRequest | providerStream | application => Uuid
  | user => String

instance : (scope : LimiterScope) → DecidableEq scope.Key
  | providerRequest | providerStream | application => inferInstanceAs (DecidableEq Nat)
  | user => inferInstanceAs (DecidableEq String)

/-- The scope a refusal names. -/
def capacityScope : LimiterScope → CapacityScope
  | providerRequest => .providerRequest
  | providerStream => .providerStream
  | application => .application
  | user => .user

/-- The order of `acquire`. -/
def order : List LimiterScope :=
  [providerRequest, providerStream, application, user]

end LimiterScope

/-- The arguments of `ConcurrencyController::new`. -/
structure ConcurrencyLimits where
  globalLimit : Nat
  applicationLimit : Nat
  userLimit : Nat
  maxDynamicLimiters : Nat

/-- The arguments of `acquire`. -/
structure AcquireArgs where
  providerId : Uuid
  providerRequestLimit : Nat
  isStream : Bool
  providerStreamLimit : Nat
  applicationId : Option Uuid
  externalUserId : Option String

/-- The key and the limit a call passes for a scope, if it takes that scope. -/
def AcquireArgs.wants (limits : ConcurrencyLimits) (args : AcquireArgs) :
    (scope : LimiterScope) → Option (scope.Key × Nat)
  | .providerRequest => some (args.providerId, args.providerRequestLimit)
  | .providerStream => if args.isStream then some (args.providerId, args.providerStreamLimit) else none
  | .application => args.applicationId.map fun id => (id, max limits.applicationLimit 1)
  | .user => (args.externalUserId.filter (· ≠ "")).map fun id => (id, max limits.userLimit 1)

inductive AcquireStage
  | entered
  /-- Has the global permit, and these scopes to go. -/
  | acquiring (rest : List LimiterScope)
  /-- Returned its `ExecutionPermits`. -/
  | held
  /-- Gives back what it has: refused, or dropped. -/
  | dropping (refused : Option CapacityScope)

/-- A call, or the `ExecutionPermits` it has returned. -/
structure AcquireCall where
  args : AcquireArgs
  stage : AcquireStage

structure ConcurrencyController (limits : ConcurrencyLimits) where
  now : Nat := 0
  /-- The permits the global semaphore has left. -/
  available : Nat := max limits.globalLimit 1
  /-- The calls that have one of its permits. -/
  globalLive : List Nat := []
  registries : (scope : LimiterScope) → Limiters scope.Key := fun _ => {}
  calls : Nat → Option AcquireCall := fun _ => none

inductive ConcurrencyMove
  | enter (call : Nat) (args : AcquireArgs)
  | takeGlobal (call : Nat)
  /-- The next scope, with the key that is evicted for it. -/
  | take (call : Nat) (scope : LimiterScope) (evicted : Option scope.Key)
  | finish (call : Nat)
  /-- The `ExecutionPermits`, or the future of a call, is dropped. -/
  | drop (call : Nat)
  | dropGlobal (call : Nat)
  | dropPermit (call : Nat) (scope : LimiterScope) (permit : DynamicPermit scope.Key)
  /-- The call has given back everything. -/
  | leave (call : Nat)
  | elapse (nanos : Nat)

namespace ConcurrencyController

variable {limits : ConcurrencyLimits} (s : ConcurrencyController limits)

def setCall (call : Nat) (state : Option AcquireCall) : ConcurrencyController limits :=
  { s with calls := Function.update s.calls call state }

def setStage (call : Nat) (args : AcquireArgs) (stage : AcquireStage) : ConcurrencyController limits :=
  s.setCall call (some { args, stage })

def setRegistry (scope : LimiterScope) (l : Limiters scope.Key) : ConcurrencyController limits :=
  { s with registries := Function.update s.registries scope l }

/-- One scope of `acquire`. -/
def take (call : Nat) (args : AcquireArgs) (scope : LimiterScope) (rest : List LimiterScope)
    (evicted : Option scope.Key) : Option (ConcurrencyController limits) :=
  match args.wants limits scope with
  | none => if evicted.isNone then some (s.setStage call args (.acquiring rest)) else none
  | some (key, limit) => do
    let (result, l) ← (s.registries scope).acquireDynamicLimiter s.now call key limit
      scope.capacityScope (max limits.maxDynamicLimiters 1) evicted
    match result with
    | .ok () => some ((s.setRegistry scope l).setStage call args (.acquiring rest))
    | .error refused => some ((s.setRegistry scope l).setStage call args (.dropping (some refused)))

/-- The call has no permit. -/
def HasNone (call : Nat) : Prop :=
  call ∉ s.globalLive ∧
    ∀ scope ∈ LimiterScope.order, ∀ permit ∈ (s.registries scope).live, permit.call ≠ call

instance (call : Nat) : Decidable (s.HasNone call) :=
  inferInstanceAs (Decidable (_ ∧ _))

end ConcurrencyController

/-- One move. -/
def concurrencyStep (limits : ConcurrencyLimits) (s : ConcurrencyController limits) :
    ConcurrencyMove → Option (ConcurrencyController limits)
  | .enter call args =>
    if (s.calls call).isNone then some (s.setStage call args .entered) else none
  | .takeGlobal call => do
    let { args, stage := .entered } ← s.calls call | none
    if s.available = 0 then some (s.setStage call args (.dropping (some .global)))
    else
      some ({ s with available := s.available - 1, globalLive := call :: s.globalLive }.setStage call
        args (.acquiring LimiterScope.order))
  | .take call scope evicted => do
    let { args, stage := .acquiring (next :: rest) } ← s.calls call | none
    if next = scope then s.take call args scope rest evicted else none
  | .finish call => do
    let { args, stage := .acquiring [] } ← s.calls call | none
    some (s.setStage call args .held)
  | .drop call => do
    let { args, stage } ← s.calls call
    match stage with
    | .dropping _ => none
    | .entered | .acquiring _ | .held => some (s.setStage call args (.dropping none))
  | .dropGlobal call => do
    let { stage := .dropping _, .. } ← s.calls call | none
    if call ∈ s.globalLive then
      some { s with available := s.available + 1, globalLive := s.globalLive.erase call }
    else none
  | .dropPermit call scope permit => do
    let { stage := .dropping _, .. } ← s.calls call | none
    if permit.call = call ∧ permit ∈ (s.registries scope).live then
      some (s.setRegistry scope ((s.registries scope).dropPermit permit))
    else none
  | .leave call => do
    let { stage := .dropping _, .. } ← s.calls call | none
    if s.HasNone call then some (s.setCall call none) else none
  | .elapse nanos => some { s with now := s.now + nanos }

/-! ## Slots of the cluster -/

/-- A slot that was granted, and by which replica it is held. -/
structure ClusterPermit where
  replica : Nat
  grantedAt : Nat
  deriving DecidableEq

/-- The counter, the clock, and the permits whose release has not landed. -/
structure ClusterPermits where
  db : RedisDb := fun _ => none
  now : Nat := 0
  /-- Granted, and the release neither landed nor lost. -/
  outstanding : List ClusterPermit := []
  crashed : List Nat := []

inductive PermitMove
  /-- The script runs; its reply reaches the replica, or is lost. -/
  | acquire (replica : Nat) (delivered : Bool)
  | release (permit : ClusterPermit)
  | loseRelease (permit : ClusterPermit)
  | crash (replica : Nat)
  | elapse (nanos : Nat)

namespace ClusterPermits

variable (key : String) (limit ttl : Nat) (s : ClusterPermits)

/-- The counter, as the scripts read it. -/
def counter : Int :=
  (s.db.get s.now key).getD 0

/-- The permits that live replicas hold. -/
def held : List ClusterPermit :=
  s.outstanding.filter fun permit => permit.replica ∉ s.crashed

def acquire (replica : Nat) (delivered : Bool) : ClusterPermits :=
  let (acquired, db) := tryAcquirePermit s.db s.now key limit ttl
  if acquired ∧ delivered then
    { s with db, outstanding := { replica, grantedAt := s.now } :: s.outstanding }
  else { s with db }

def release (permit : ClusterPermit) : ClusterPermits :=
  { s with
    db := (permitReleaseScript s.db s.now key).2
    outstanding := s.outstanding.erase permit }

end ClusterPermits

/-- One move of the cluster. -/
def permitStep (key : String) (limit ttl : Nat) (s : ClusterPermits) :
    PermitMove → Option ClusterPermits
  | .acquire replica delivered =>
    if replica ∈ s.crashed then none else some (s.acquire key limit ttl replica delivered)
  | .release permit => if permit ∈ s.outstanding then some (s.release key permit) else none
  | .loseRelease permit =>
    if permit ∈ s.outstanding then some { s with outstanding := s.outstanding.erase permit } else none
  | .crash replica => some { s with crashed := replica :: s.crashed }
  | .elapse nanos => some { s with now := s.now + nanos }

/-- The lifetime of a counter after its last acquire, in nanoseconds. -/
def permitTtl (ttl : Nat) : Nat :=
  redisMillis ttl * 1000000

end Moira
