import Mathlib.Logic.Function.Basic
import Moira.Lib.System

/-!
# The JWKS cache

`JwksCache` with the calls of `load` and `refresh` that are under way. A move is what a call does
between two awaits; the guards of `entries` and of `locks` are held across none, so that a call
never waits for them, and a fetch that succeeds is stored in the move it ends in.

- `JwksCache.fresh`, `retained`, `lockFor`, `store` — the methods over the state
-/

namespace Moira

/-- Nanoseconds of a number of seconds. -/
def fromSecs (seconds : Nat) : Nat :=
  seconds * 1000000000

/-- `JWKS_FRESHNESS_SECONDS` -/
def jwksFreshnessSeconds : Nat := 300

def jwksCacheTtl : Nat :=
  fromSecs jwksFreshnessSeconds

structure JwksFetchSettings where
  maxStaleSeconds : Nat
  /-- `validate_jwks_stale_ceiling` -/
  validated : jwksFreshnessSeconds ≤ maxStaleSeconds

structure CachedJwks (K : Type) where
  jwks : K
  expiresAt : Nat
  storedAt : Nat

/-- Where a call is suspended; a lock is named by the allocation of its `Arc`. -/
inductive JwksPhase (E : Type)
  /-- The first `fresh`, before it reads `entries`. -/
  | looking
  /-- `lock_for`, before it reads `locks`. -/
  | seeking
  /-- `lock_for`, before it writes `locks`. -/
  | registering
  | waiting (lock : Nat)
  /-- The second `fresh`, under the lock. -/
  | lookingAgain (lock : Nat)
  | fetching (lock : Nat)
  /-- The fetch has failed, and `retained` is about to write `entries`. -/
  | retaining (lock : Nat) (failure : E)

/-- A call of `load`, or a forced `refresh`. -/
structure JwksCall (E : Type) where
  url : String
  forced : Bool
  phase : JwksPhase E

/-- A key set of a URL at an instant. -/
structure JwksAt (K : Type) where
  url : String
  jwks : K
  instant : Nat

structure JwksCache (K E : Type) where
  now : Nat := 0
  entries : String → Option (CachedJwks K) := fun _ => none
  locks : String → Option Nat := fun _ => none
  /-- How many locks have been allocated. -/
  allocated : Nat := 0
  /-- The call that holds a lock. -/
  owner : Nat → Option Nat := fun _ => none
  calls : Nat → Option (JwksCall E) := fun _ => none
  /-- What an observer writes down: the fetches that have succeeded, and the key sets returned. -/
  fetched : List (JwksAt K) := []
  returned : List (JwksAt K) := []

variable {K E : Type}

/-- The lock whose guard a call has. -/
def JwksPhase.guard : JwksPhase E → Option Nat
  | .lookingAgain lock | .fetching lock | .retaining lock _ => some lock
  | .looking | .seeking | .registering | .waiting _ => none

namespace JwksCache

variable (s : JwksCache K E)

def setCall (call : Nat) (state : Option (JwksCall E)) : JwksCache K E :=
  { s with calls := Function.update s.calls call state }

def setOwner (lock : Nat) (call : Option Nat) : JwksCache K E :=
  { s with owner := Function.update s.owner lock call }

/-- The call ends, and its guard is dropped. -/
def endCall (call : Nat) (state : JwksCall E) : JwksCache K E :=
  match state.phase.guard with
  | some lock => (s.setOwner lock none).setCall call none
  | none => s.setCall call none

/-- The call ends with a key set. -/
def endWith (call : Nat) (state : JwksCall E) (jwks : K) : JwksCache K E :=
  { s with returned := ⟨state.url, jwks, s.now⟩ :: s.returned }.endCall call state

/-- `fresh` -/
def fresh (url : String) : Option K :=
  ((s.entries url).filter fun entry => s.now < entry.expiresAt).map (·.jwks)

/-- The entry is within the stale ceiling. -/
def withinCeiling (settings : JwksFetchSettings) (entry : CachedJwks K) : Bool :=
  s.now - entry.storedAt ≤ fromSecs settings.maxStaleSeconds

/-- `retained`, which evicts an entry beyond the ceiling. -/
def retained (settings : JwksFetchSettings) (url : String) : Option K × JwksCache K E :=
  match s.entries url with
  | none => (none, s)
  | some entry =>
    if s.withinCeiling settings entry then (some entry.jwks, s)
    else (none, { s with entries := Function.update s.entries url none })

/-- `locks.entry(url).or_insert_with(..)` -/
def lockFor (url : String) : Nat × JwksCache K E :=
  match s.locks url with
  | some lock => (lock, s)
  | none =>
    (s.allocated, { s with
      locks := Function.update s.locks url (some s.allocated)
      allocated := s.allocated + 1 })

/-- `store`, at the instant the fetch ends. -/
def store (url : String) (jwks : K) : JwksCache K E :=
  { s with
    entries := Function.update s.entries url
      (some { jwks, expiresAt := s.now + jwksCacheTtl, storedAt := s.now })
    fetched := ⟨url, jwks, s.now⟩ :: s.fetched }

end JwksCache

inductive JwksMove (K E : Type)
  | load (call : Nat) (url : String)
  | refresh (call : Nat) (url : String)
  /-- The call goes on from its await, which is not the one of its fetch. -/
  | resume (call : Nat)
  /-- The fetch of the call ends. -/
  | fetched (call : Nat) (result : Except E K)
  /-- The future of a call is dropped. -/
  | cancel (call : Nat)
  | elapse (nanos : Nat)

/-- What a call does when it is resumed. -/
def JwksCache.resume (settings : JwksFetchSettings) (s : JwksCache K E) (call : Nat) (c : JwksCall E) :
    Option (JwksCache K E) :=
  match c.phase with
  | .looking =>
    match s.fresh c.url with
    | some jwks => some (s.endWith call c jwks)
    | none => some (s.setCall call (some { c with phase := .seeking }))
  | .seeking =>
    match s.locks c.url with
    | some lock => some (s.setCall call (some { c with phase := .waiting lock }))
    | none => some (s.setCall call (some { c with phase := .registering }))
  | .registering =>
    let (lock, s) := s.lockFor c.url
    some (s.setCall call (some { c with phase := .waiting lock }))
  | .waiting lock =>
    if (s.owner lock).isNone then
      let next := if c.forced then .fetching lock else .lookingAgain lock
      some ((s.setOwner lock (some call)).setCall call (some { c with phase := next }))
    else none
  | .lookingAgain lock =>
    match s.fresh c.url with
    | some jwks => some (s.endWith call c jwks)
    | none => some (s.setCall call (some { c with phase := .fetching lock }))
  | .fetching _ => none
  | .retaining _ _ =>
    match s.retained settings c.url with
    | (some jwks, s) => some (s.endWith call c jwks)
    | (none, s) => some (s.endCall call c)

/-- One move. -/
def jwksCacheStep (settings : JwksFetchSettings) (s : JwksCache K E) :
    JwksMove K E → Option (JwksCache K E)
  | .load call url =>
    if (s.calls call).isNone then
      some (s.setCall call (some { url, forced := false, phase := .looking }))
    else none
  | .refresh call url =>
    if (s.calls call).isNone then
      some (s.setCall call (some { url, forced := true, phase := .seeking }))
    else none
  | .resume call => do
    let c ← s.calls call
    s.resume settings call c
  | .fetched call result => do
    let { url, forced, phase := .fetching lock } ← s.calls call | none
    match result with
    | .ok jwks => some ((s.store url jwks).endWith call { url, forced, phase := .fetching lock } jwks)
    | .error failure =>
      -- a forced refresh leaves with the error
      if forced then some (s.endCall call { url, forced, phase := .fetching lock })
      else some (s.setCall call (some { url, forced, phase := .retaining lock failure }))
  | .cancel call => do
    let c ← s.calls call
    some (s.endCall call c)
  | .elapse nanos => some { s with now := s.now + nanos }

end Moira
