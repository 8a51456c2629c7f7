import Mathlib.Logic.Function.Basic
import Moira.Lib.System
import Moira.Runtime.Traffic

/-!
# Caches

`AuthProviderSettingsCache` of one replica, with the calls of `enabled_methods` that are under way,
the writes to `auth_provider_settings` that have committed anywhere, and the invalidations the
replica processes. `M` is what `list_enabled_public` answers.

`ProviderRuntimeCache` with the calls that are inside `get_or_insert_with`. `entries` and
`build_locks` are behind mutexes of their own, each held for one short section; a section is one
move.

- `AuthSettingsReplica.enabledMethods`, `putEnabledMethods`, `invalidateAll` — the cache
-/

namespace Moira

/-- A write that has committed: the row, and what `list_enabled_public` answers from then on. -/
structure AuthSettingsWrite (M : Type) where
  rowId : Uuid
  methods : M

/-- `CacheEntry`, and how many writes had committed when its value was read. -/
structure AuthCacheEntry (M : Type) where
  value : M
  expiresAt : Nat
  version : Nat

inductive AuthReadPhase (M : Type)
  | entered
  | missed
  /-- The database has answered, after so many writes. -/
  | read (methods : M) (version : Nat)

/-- A call of `enabled_methods`. -/
structure AuthReadCall (M : Type) where
  /-- `processed` when the call began. -/
  since : Nat
  phase : AuthReadPhase M

/-- What a call returned. -/
structure AuthReadResult (M : Type) where
  since : Nat
  methods : M

structure AuthSettingsReplica (M : Type) where
  /-- What the table answers before any write. -/
  initial : M
  now : Nat := 0
  /-- In the order in which they commit. -/
  writes : List (AuthSettingsWrite M) := []
  methods : Option (AuthCacheEntry M) := none
  calls : Nat → Option (AuthReadCall M) := fun _ => none
  /-- The last write whose invalidation the replica has processed, counted from one. -/
  processed : Nat := 0
  returned : List (AuthReadResult M) := []

variable {M : Type}

namespace AuthSettingsReplica

variable (s : AuthSettingsReplica M)

/-- What the table answers after some of the writes. -/
def methodsAt : Nat → Option M
  | 0 => some s.initial
  | version + 1 => s.writes[version]?.map (·.methods)

/-- `list_enabled_public` -/
def listEnabledPublic : Option M :=
  s.methodsAt s.writes.length

/-! ## The cache -/

/-- `enabled_methods` of the cache -/
def enabledMethods : Option (AuthCacheEntry M) :=
  s.methods.filter fun entry => s.now < entry.expiresAt

def putEnabledMethods (ttl : Nat) (value : M) (version : Nat) : AuthSettingsReplica M :=
  { s with methods := some { value, expiresAt := s.now + ttl, version } }

def invalidateAll : AuthSettingsReplica M :=
  { s with methods := none }

/-- `apply_invalidation`; `none` is a payload that does not parse. -/
def applyInvalidation (payload : Option RuntimeConfigChange) : AuthSettingsReplica M :=
  if (invalidationPlan payload).caches then s.invalidateAll else s

/-- The invalidation of a write is processed. -/
def process (write : Nat) : AuthSettingsReplica M :=
  { s with processed := max s.processed (write + 1) }

/-! ## Calls -/

def setCall (call : Nat) (state : Option (AuthReadCall M)) : AuthSettingsReplica M :=
  { s with calls := Function.update s.calls call state }

def endWith (call : Nat) (since : Nat) (methods : M) : AuthSettingsReplica M :=
  { s with returned := ⟨since, methods⟩ :: s.returned }.setCall call none

end AuthSettingsReplica

inductive AuthSettingsMove (M : Type)
  | enter (call : Nat)
  /-- The call reads the cache. -/
  | look (call : Nat)
  /-- The call reads the database, or the query fails. -/
  | list (call : Nat) (succeeds : Bool)
  | put (call : Nat)
  /-- The future of a call is dropped. -/
  | cancel (call : Nat)
  /-- A write commits, on this replica or another. -/
  | commit (write : AuthSettingsWrite M)
  /-- `invalidate_cache`, after a write of this replica. -/
  | invalidated (write : Nat)
  /-- A notification of the trigger on the table arrives, first or again. -/
  | notified (write : Nat)
  /-- A notification of another table arrives. -/
  | announced (payload : Option RuntimeConfigChange)
  | elapse (nanos : Nat)

/-- One move. -/
def authSettingsStep (ttl : Nat) (s : AuthSettingsReplica M) :
    AuthSettingsMove M → Option (AuthSettingsReplica M)
  | .enter call =>
    if (s.calls call).isNone then
      some (s.setCall call (some { since := s.processed, phase := .entered }))
    else none
  | .look call => do
    let { since, phase := .entered } ← s.calls call | none
    match s.enabledMethods with
    | some entry => some (s.endWith call since entry.value)
    | none => some (s.setCall call (some { since, phase := .missed }))
  | .list call succeeds => do
    let { since, phase := .missed } ← s.calls call | none
    if succeeds then
      let methods ← s.listEnabledPublic
      some (s.setCall call (some { since, phase := .read methods s.writes.length }))
    else some (s.setCall call none)
  | .put call => do
    let { since, phase := .read methods version } ← s.calls call | none
    some ((s.putEnabledMethods ttl methods version).endWith call since methods)
  | .cancel call => do
    let _ ← s.calls call
    some (s.setCall call none)
  | .commit write => some { s with writes := s.writes ++ [write] }
  | .invalidated write =>
    if write < s.writes.length then some (s.invalidateAll.process write) else none
  | .notified write => do
    let { rowId, .. } ← s.writes[write]?
    let changes := notifyRuntimeConfigChange "auth_provider_settings" rowId
    some ((changes.foldl (fun s change => s.applyInvalidation (some change)) s).process write)
  | .announced payload => some (s.applyInvalidation payload)
  | .elapse nanos => some { s with now := s.now + nanos }

/-! ## Runtimes -/

variable {H : Type}

namespace ProviderRuntimeCache

variable (cache : ProviderRuntimeCache H)

/-- The key `insert` may evict; of several that are as old, the map's order decides. -/
def MayEvict (maxEntries : Nat) : Option RuntimeCacheKey → Prop
  | none => cache.entries.length < max maxEntries 1
  | some key => max maxEntries 1 ≤ cache.entries.length ∧
    ∃ pair ∈ cache.entries, pair.1 = key ∧
      ∀ other ∈ cache.entries, pair.2.insertedAt ≤ other.2.insertedAt

instance (maxEntries : Nat) : ∀ evicted, Decidable (cache.MayEvict maxEntries evicted)
  | none => inferInstanceAs (Decidable (_ < _))
  | some _ => inferInstanceAs (Decidable (_ ∧ _))

def insert (now ttl : Int) (key : RuntimeCacheKey) (handle : H) (evicted : Option RuntimeCacheKey) :
    ProviderRuntimeCache H :=
  let kept := cache.entries.filter fun pair => pair.1 ≠ key ∧ some pair.1 ≠ evicted
  ⟨(key, { handle, expiresAt := now + ttl, insertedAt := now }) :: kept⟩

end ProviderRuntimeCache

/-- Where a call is; a lock is named by the allocation of its `Arc`. -/
inductive BuildPhase (H : Type)
  | entered
  | missed
  /-- Waits for the build lock. -/
  | waiting (lock : Nat)
  /-- Holds it, before the second look. -/
  | locked (lock : Nat)
  | building (lock : Nat)
  | built (lock : Nat) (handle : H)
  /-- About to remove the key from `build_locks`. -/
  | leaving (lock : Nat)
  /-- About to drop the guard. -/
  | returning (lock : Nat)

structure BuildCall (H : Type) where
  key : RuntimeCacheKey
  phase : BuildPhase H

structure RuntimeCache (H : Type) where
  now : Int := 0
  cache : ProviderRuntimeCache H := ⟨[]⟩
  buildLocks : RuntimeCacheKey → Option Nat := fun _ => none
  /-- How many build locks have been allocated. -/
  allocated : Nat := 0
  /-- The call that holds a lock. -/
  owner : Nat → Option Nat := fun _ => none
  calls : Nat → Option (BuildCall H) := fun _ => none

inductive RuntimeCacheMove (H : Type)
  | enter (call : Nat) (key : RuntimeCacheKey)
  | look (call : Nat)
  | takeBuildLock (call : Nat)
  | lock (call : Nat)
  | lookAgain (call : Nat)
  /-- The build ends, with a handle or an error. -/
  | build (call : Nat) (result : Option H)
  | insertBuilt (call : Nat) (evicted : Option RuntimeCacheKey)
  | removeBuildLock (call : Nat)
  | unlock (call : Nat)
  /-- The future of a call is dropped. -/
  | cancel (call : Nat)
  | insert (key : RuntimeCacheKey) (handle : H) (evicted : Option RuntimeCacheKey)
  | invalidateAll
  | elapse (nanos : Nat)

namespace RuntimeCache

variable (s : RuntimeCache H)

def setCall (call : Nat) (state : Option (BuildCall H)) : RuntimeCache H :=
  { s with calls := Function.update s.calls call state }

/-- `build_locks.entry(key).or_insert_with(..)` -/
def buildLock (key : RuntimeCacheKey) : Nat × RuntimeCache H :=
  match s.buildLocks key with
  | some lock => (lock, s)
  | none =>
    (s.allocated, { s with
      buildLocks := Function.update s.buildLocks key (some s.allocated)
      allocated := s.allocated + 1 })

def setOwner (lock : Nat) (call : Option Nat) : RuntimeCache H :=
  { s with owner := Function.update s.owner lock call }

end RuntimeCache

/-- The lock whose guard a call has. -/
def BuildPhase.guard : BuildPhase H → Option Nat
  | .locked lock | .building lock | .built lock _ | .leaving lock | .returning lock => some lock
  | .entered | .missed | .waiting _ => none

/-- The call ends, and its guard is dropped. -/
def RuntimeCache.endCall (s : RuntimeCache H) (call : Nat) (state : BuildCall H) : RuntimeCache H :=
  match state.phase.guard with
  | some lock => (s.setOwner lock none).setCall call none
  | none => s.setCall call none

/-- One move. -/
def runtimeCacheStep (ttl : Int) (maxEntries : Nat) (s : RuntimeCache H) :
    RuntimeCacheMove H → Option (RuntimeCache H)
  | .enter call key =>
    if (s.calls call).isNone then some (s.setCall call (some { key, phase := .entered })) else none
  | .look call => do
    let { key, phase := .entered } ← s.calls call | none
    if (s.cache.get key s.now).isSome then some (s.setCall call none)
    else some (s.setCall call (some { key, phase := .missed }))
  | .takeBuildLock call => do
    let { key, phase := .missed } ← s.calls call | none
    let (lock, s) := s.buildLock key
    some (s.setCall call (some { key, phase := .waiting lock }))
  | .lock call => do
    let { key, phase := .waiting lock } ← s.calls call | none
    if (s.owner lock).isNone then
      some ((s.setOwner lock (some call)).setCall call (some { key, phase := .locked lock }))
    else none
  | .lookAgain call => do
    let { key, phase := .locked lock } ← s.calls call | none
    if (s.cache.get key s.now).isSome then some (s.setCall call (some { key, phase := .leaving lock }))
    else some (s.setCall call (some { key, phase := .building lock }))
  | .build call result => do
    let { key, phase := .building lock } ← s.calls call | none
    match result with
    | some handle => some (s.setCall call (some { key, phase := .built lock handle }))
    | none => some (s.setCall call (some { key, phase := .leaving lock }))
  | .insertBuilt call evicted => do
    let { key, phase := .built lock handle } ← s.calls call | none
    if s.cache.MayEvict maxEntries evicted then
      some ({ s with cache := s.cache.insert s.now ttl key handle evicted }.setCall call
          (some { key, phase := .leaving lock }))
    else none
  -- whatever lock the map now has for the key
  | .removeBuildLock call => do
    let { key, phase := .leaving lock } ← s.calls call | none
    some ({ s with buildLocks := Function.update s.buildLocks key none }.setCall call
      (some { key, phase := .returning lock }))
  | .unlock call => do
    let { key, phase := .returning lock } ← s.calls call | none
    some (s.endCall call { key, phase := .returning lock })
  | .cancel call => do
    let state ← s.calls call
    some (s.endCall call state)
  | .insert key handle evicted =>
    if s.cache.MayEvict maxEntries evicted then
      some { s with cache := s.cache.insert s.now ttl key handle evicted }
    else none
  | .invalidateAll => some { s with cache := s.cache.invalidateAll }
  | .elapse nanos => some { s with now := s.now + nanos }

end Moira
