import Mathlib.Algebra.GroupWithZero.Nat
import Mathlib.Logic.Function.Basic
import Moira.Domain.AppError
import Moira.Domain.Failure
import Moira.Infra.Redis

/-!
# Limiters

A registry of `DynamicLimiter`s. An entry points at its limiter, and so does every permit, so that a
permit returns its slot to the limiter it was taken from, wherever the registry's entry now points.

Fixed windows, in the memory of a process or in Redis.

- `InMemoryRateLimiter.check` — a bucket for each key; the oldest one makes room for a new key
- `inMemoryResults`, `clusterResults` — the answers to a sequence of checks
-/

namespace Moira

structure DynamicLimiter where
  limit : Nat
  active : Nat

structure LimiterEntry where
  /-- The allocation of the `Arc`. -/
  limiter : Nat
  lastUsed : Nat

/-- A live `DynamicPermit`, with the key it was taken for and the call that has it. -/
structure DynamicPermit (K : Type) where
  call : Nat
  key : K
  limiter : Nat
  deriving DecidableEq

/-- A registry, with the limiters it has allocated and the permits that are alive. -/
structure Limiters (K : Type) where
  registry : List (K × LimiterEntry) := []
  limiters : Nat → DynamicLimiter := fun _ => { limit := 1, active := 0 }
  allocated : Nat := 0
  live : List (DynamicPermit K) := []

namespace Limiters

variable {K : Type} [DecidableEq K] (l : Limiters K)

def entry (key : K) : Option LimiterEntry :=
  l.registry.lookup key

/-- The permits that are alive for a key. -/
def livePermits (key : K) : Nat :=
  l.live.countP fun permit => permit.key = key

def activeOf (entry : LimiterEntry) : Nat :=
  (l.limiters entry.limiter).active

/-- `DynamicLimiter::set_limit` and the new `last_used`, on a registered key. -/
def touch (now : Nat) (key : K) (limit limiter : Nat) : Limiters K :=
  { l with
    registry := l.registry.map fun pair =>
      if pair.1 = key then (key, { pair.2 with lastUsed := now }) else pair
    limiters := Function.update l.limiters limiter
      { l.limiters limiter with limit := max limit 1 } }

/-- The entry of a key that is not registered. -/
def register (now : Nat) (key : K) (limit : Nat) : Limiters K :=
  { l with
    registry := (key, { limiter := l.allocated, lastUsed := now }) :: l.registry
    limiters := Function.update l.limiters l.allocated { limit := max limit 1, active := 0 }
    allocated := l.allocated + 1 }

/-- `DynamicLimiter::try_acquire` -/
def tryAcquire (call : Nat) (key : K) (limiter : Nat) : Option (Limiters K) :=
  let current := l.limiters limiter
  if current.limit ≤ current.active then none
  else
    some { l with
      limiters := Function.update l.limiters limiter { current with active := current.active + 1 }
      live := { call, key, limiter } :: l.live }

/-- The end of `acquire_dynamic_limiter`, when there is an entry or room for one. -/
def acquireEntry (now call : Nat) (key : K) (limit : Nat) (scope : CapacityScope) :
    Except CapacityScope Unit × Limiters K :=
  let (limiter, l) :=
    match l.entry key with
    | some entry => (entry.limiter, l.touch now key limit entry.limiter)
    | none => (l.allocated, l.register now key limit)
  match l.tryAcquire call key limiter with
  | some l => (.ok (), l)
  | none => (.error scope, l)

/-- What `evict_oldest_inactive_limiter` may pick; the map's order decides between equals. -/
def OldestInactive (key : K) : Prop :=
  ∃ pair ∈ l.registry, pair.1 = key ∧ l.activeOf pair.2 = 0 ∧
    ∀ other ∈ l.registry, l.activeOf other.2 = 0 → pair.2.lastUsed ≤ other.2.lastUsed

instance (key : K) : Decidable (l.OldestInactive key) :=
  inferInstanceAs (Decidable (∃ pair ∈ l.registry, _))

def remove (key : K) : Limiters K :=
  { l with registry := l.registry.filter fun pair => pair.1 ≠ key }

/--
`acquire_dynamic_limiter`. The key that is evicted, if one is, is given; `none` stands for a choice
the code does not have.
-/
def acquireDynamicLimiter (now call : Nat) (key : K) (limit : Nat) (scope : CapacityScope) (max : Nat)
    (evicted : Option K) : Option (Except CapacityScope Unit × Limiters K) :=
  if (l.entry key).isSome ∨ l.registry.length < max then
    if evicted.isNone then some (l.acquireEntry now call key limit scope) else none
  else
    match evicted with
    | some oldest =>
      if l.OldestInactive oldest then some ((l.remove oldest).acquireEntry now call key limit scope)
      else none
    | none =>
      if ∀ pair ∈ l.registry, l.activeOf pair.2 ≠ 0 then some (.error .limiterRegistry, l) else none

/-- `DynamicPermit::drop` -/
def dropPermit (permit : DynamicPermit K) : Limiters K :=
  let current := l.limiters permit.limiter
  { l with
    limiters := Function.update l.limiters permit.limiter { current with active := current.active - 1 }
    live := l.live.erase permit }

end Limiters

/-! ## The limiter in memory -/

def rateLimited : AppError :=
  .coded 429 "rate_limited" "public execution rate limit exceeded"

structure RateLimitBucket where
  windowStarted : Nat
  count : Nat

/-- The buckets by key, in the order in which the map yields them. -/
structure InMemoryRateLimiter where
  maxEntries : Nat
  buckets : List (String × RateLimitBucket) := []

/-- `u32::saturating_add(1)` -/
def saturatingSucc (count : Nat) : Nat :=
  min (count + 1) (2 ^ 32 - 1)

namespace InMemoryRateLimiter

def new (maxEntries : Nat) : InMemoryRateLimiter where
  maxEntries := max maxEntries 1

variable (limiter : InMemoryRateLimiter) (key : String)

/-- The first key with the least `window_started`. -/
def oldestKey : List (String × RateLimitBucket) → Option String
  | [] => none
  | (key, bucket) :: rest =>
    match oldestKey rest with
    | some other =>
      if (rest.lookup other).any fun b => b.windowStarted < bucket.windowStarted then some other
      else some key
    | none => some key

/-- Room for a new key. -/
def makeRoom : List (String × RateLimitBucket) :=
  if limiter.maxEntries ≤ limiter.buckets.length ∧ (limiter.buckets.lookup key).isNone then
    match oldestKey limiter.buckets with
    | some oldest => limiter.buckets.filter fun entry => entry.1 ≠ oldest
    | none => limiter.buckets
  else limiter.buckets

/-- A window that has elapsed starts again. -/
def rollBucket (bucket : RateLimitBucket) (window now : Nat) : RateLimitBucket :=
  if window ≤ now - bucket.windowStarted then { windowStarted := now, count := 0 } else bucket

def check (limit : UInt32) (window now : Nat) : Except AppError Unit × InMemoryRateLimiter :=
  let buckets := limiter.makeRoom key
  let entry := (buckets.lookup key).getD { windowStarted := now, count := 0 }
  let bucket := rollBucket entry window now
  let store (bucket : RateLimitBucket) : InMemoryRateLimiter :=
    { limiter with buckets := (key, bucket) :: buckets.filter fun entry => entry.1 ≠ key }
  if max limit.toNat 1 ≤ bucket.count then (.error rateLimited, store bucket)
  else (.ok (), store { bucket with count := saturatingSucc bucket.count })

end InMemoryRateLimiter

/-- `ClusterRateLimiter::check`, with a coordinator that answers. -/
def clusterCheck (db : RedisDb) (key : String) (limit : UInt32) (window now : Nat) :
    Except AppError Unit × RedisDb :=
  let (admitted, db) := checkRateWindow db now key limit window
  (if admitted then .ok () else .error rateLimited, db)

/-! ## Sequences of checks -/

structure RateCheck where
  key : String
  limit : UInt32
  now : Nat

section

variable (window : String → Nat)

def inMemoryResults : InMemoryRateLimiter → List RateCheck → List (Except AppError Unit)
  | _, [] => []
  | limiter, c :: checks =>
    let (result, limiter) := limiter.check c.key c.limit (window c.key) c.now
    result :: inMemoryResults limiter checks

def clusterResults : RedisDb → List RateCheck → List (Except AppError Unit)
  | _, [] => []
  | db, c :: checks =>
    let (result, db) := clusterCheck db c.key c.limit (window c.key) c.now
    result :: clusterResults db checks

end

end Moira
