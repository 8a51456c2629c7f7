import Moira.Domain.AppError
import Moira.Lib.System

/-!
# Leader election for singleton workers

A singleton job runs on the replica whose session holds the advisory lock of the job.

- `LeaderState`, `LeaderLock`, `LeaderElection` — what a replica believes, and the session it keeps
- `LeaderElection.shouldRun`, `LeaderElection.contest`, `LeaderElection.resign`
- `LockServer` — sessions, and the one session that holds each advisory lock
-/

namespace Moira.Workers

/-! ## Keys -/

/-- `RETENTION_CLEANUP_WORKER` -/
def retentionCleanupWorker : String := "retention-cleanup"

/-- `RETENTION_CLEANUP_LEADER_LOCK_KEY`: the eight bytes of `moiralrt`. -/
def retentionCleanupLeaderLockKey : Int := 0x6d6f6972616c7274

/-- `LEADER_LOCK_KEYS` -/
def leaderLockKeys : List (String × Int) :=
  [(retentionCleanupWorker, retentionCleanupLeaderLockKey)]

def leaderLockKey (jobName : String) : Option Int :=
  (leaderLockKeys.find? fun entry => entry.1 = jobName).map Prod.snd

/-! ## The state of a replica -/

inductive LeaderState
  | disabled
  | follower
  | leader
  deriving DecidableEq

namespace LeaderState

def runsSingletonJob (state : LeaderState) : Bool :=
  state = disabled ∨ state = leader

def afterAcquireAttempt (state : LeaderState) (acquired : Bool) : LeaderState :=
  match state with
  | disabled => disabled
  | _ => if acquired then leader else follower

def afterLivenessCheck (state : LeaderState) (alive : Bool) : LeaderState :=
  match state with
  | leader => if alive then leader else follower
  | other => other

end LeaderState

/-- The guard of a lock, with the session it was taken on. -/
structure LeaderLock where
  session : Nat
  jobName : String
  key : Int
  deriving DecidableEq

structure LeaderElection where
  jobName : String
  state : LeaderState
  lock : Option LeaderLock := none
  deriving DecidableEq

def LeaderElection.new (jobName : String) (enabled : Bool) : LeaderElection where
  jobName := jobName
  state := if enabled then .follower else .disabled

/-! ## Statements -/

/-- What the supervisor calls; `pool` tells whether it has one. -/
inductive ElectionCall
  | shouldRun (pool : Bool)
  | resign
  deriving DecidableEq

/-- The answer to a statement. A statement that fails may have been processed before its answer was
lost. -/
structure SqlReply (α : Type) where
  result : Except AppError α
  processed : Bool := true

inductive LeaderOp
  /-- The next call on the election. -/
  | next (election : LeaderElection)
  /-- `pool.acquire()`, detached: a session that nobody else will be given. -/
  | acquire
  /-- `select pg_try_advisory_lock($1)` -/
  | tryAdvisoryLock (session : Nat) (key : Int)
  | ping (session : Nat)
  /-- `select pg_advisory_unlock($1)` -/
  | advisoryUnlock (session : Nat) (key : Int)
  /-- The session is closed, or dropped. -/
  | close (session : Nat)

abbrev LeaderOp.Ans : LeaderOp → Type
  | next _ => ElectionCall
  | acquire => Except AppError Nat
  | tryAdvisoryLock _ _ => SqlReply Bool
  | ping _ => Bool
  | advisoryUnlock _ _ => SqlReply Unit
  | close _ => Unit

abbrev leaderSig : Sig where
  Op := LeaderOp
  Ans := LeaderOp.Ans

def missingLeaderLockKey (jobName : String) : AppError :=
  .internal ("no leader lock key is declared for worker " ++ jobName.quote ++
    "; add one to LEADER_LOCK_KEYS in src/infra/workers/leader.rs")

/-! ## Calls -/

/-- Where a replica is between two calls, with the answer of the last `should_run`. -/
inductive LeaderPoint
  | idle (election : LeaderElection) (answer : Option Bool)
  /-- `should_run` goes on to the acquisition. -/
  | contest (election : LeaderElection)

open Prog

/-- `LeaderLock::try_acquire` -/
def LeaderLock.tryAcquire (jobName : String) : Prog leaderSig AppError (Option LeaderLock) :=
  match leaderLockKey jobName with
  | none => .fail (missingLeaderLockKey jobName)
  | some key => do
    let session ← ask (S := leaderSig) .acquire
    let session ← ofExcept session
    let reply ← ask (S := leaderSig) (.tryAdvisoryLock session key)
    match reply.result with
    | .ok true => return some { session, jobName, key }
    | .ok false => do
      ask (S := leaderSig) (.close session)
      return none
    | .error error => do
      -- `?` drops the session
      ask (S := leaderSig) (.close session)
      .fail error

/-- `LeaderLock::release` -/
def LeaderLock.release (lock : LeaderLock) : Prog leaderSig Empty Unit := do
  let _ ← ask (S := leaderSig) (.advisoryUnlock lock.session lock.key)
  ask (S := leaderSig) (.close lock.session)

namespace LeaderElection

variable (election : LeaderElection)

/-- `should_run`, up to the acquisition. -/
def shouldRun (pool : Bool) : Prog leaderSig Empty LeaderPoint :=
  if election.state = .disabled then return .idle election (some true)
  else if pool = false then return .idle { election with state := .follower } (some false)
  else
    match election.lock with
    | none => return .contest election
    | some lock => do
      let alive ← ask (S := leaderSig) (.ping lock.session)
      let state := election.state.afterLivenessCheck alive
      if alive then return .idle { election with state } (some true)
      else do
        ask (S := leaderSig) (.close lock.session)
        return .contest { election with state, lock := none }

/-- `should_run`, from the acquisition. -/
def contest : Prog leaderSig Empty LeaderPoint := do
  match ← attempt (LeaderLock.tryAcquire election.jobName) with
  | .ok (some lock) =>
    return .idle { election with lock := some lock, state := election.state.afterAcquireAttempt true }
      (some true)
  | .ok none =>
    return .idle { election with state := election.state.afterAcquireAttempt false } (some false)
  | .error _ =>
    return .idle { election with state := election.state.afterAcquireAttempt false } (some false)

/-- What `resign` leaves. -/
def resigned : LeaderElection :=
  { election with
    lock := none
    state := if election.state = .disabled then .disabled else .follower }

def resign : Prog leaderSig Empty LeaderPoint :=
  match election.lock with
  | some lock => do
    lock.release
    return .idle election.resigned none
  | none => return .idle election.resigned none

end LeaderElection

/-- The calls of the supervisor, one after another. -/
def leaderCode : LeaderPoint → Prog leaderSig Empty (Option LeaderPoint)
  | .idle election _ => do
    match ← ask (S := leaderSig) (.next election) with
    | .shouldRun pool => some <$> election.shouldRun pool
    | .resign => some <$> election.resign
  | .contest election => some <$> election.contest

/-! ## The server -/

structure LockServer where
  /-- How many sessions were opened. -/
  sessions : Nat := 0
  /-- The replica a session was opened for. -/
  owner : Nat → Nat := fun _ => 0
  live : Nat → Bool := fun _ => false
  /-- The session that holds an advisory lock. -/
  holder : Int → Option Nat := fun _ => none
  /-- What the supervisor of a replica calls next. -/
  calls : Nat → Option ElectionCall := fun _ => none

namespace LockServer

variable (w : LockServer) (replica session : Nat) (key : Int)

/-- A session for a replica. -/
def opened : LockServer :=
  { w with
    sessions := w.sessions + 1
    owner := Function.update w.owner w.sessions replica
    live := Function.update w.live w.sessions true }

/-- The session ends, and its locks are released. -/
def ended : LockServer :=
  { w with
    live := Function.update w.live session false
    holder := fun key => (w.holder key).filter (· ≠ session) }

/-- A live session can take a lock that is free, or its own already. -/
def free : Bool :=
  w.live session && (w.holder key).all (· = session)

def locked : LockServer :=
  { w with holder := Function.update w.holder key (some session) }

def unlocked : LockServer :=
  { w with holder := Function.update w.holder key ((w.holder key).filter (· ≠ session)) }

/-- Answer one operation of a replica. -/
def grant : (o : LeaderOp) → o.Ans → Option LockServer
  | .next _, call =>
    if w.calls replica = some call then
      some { w with calls := Function.update w.calls replica none }
    else none
  | .acquire, .ok session => if session = w.sessions then some (w.opened replica) else none
  | .acquire, .error _ => some w
  | .tryAdvisoryLock session key, reply =>
    let acquired := w.free session key && reply.processed
    let w' := if acquired then w.locked session key else w
    match reply.result with
    | .ok answer => if w.live session ∧ reply.processed ∧ answer = acquired then some w' else none
    | .error _ => some w'
  | .ping session, alive => if alive = true → w.live session = true then some w else none
  | .advisoryUnlock session key, reply =>
    if reply.result.isOk → w.live session ∧ reply.processed then
      some (if reply.processed then w.unlocked session key else w)
    else none
  | .close session, _ => some (w.ended session)

end LockServer

/-- What happens on its own. -/
inductive LeaderEvent
  /-- A session dies. -/
  | kill (session : Nat)
  /-- The supervisor of a replica makes its next call. -/
  | call (replica : Nat) (call : ElectionCall)

def LockServer.nature (w : LockServer) : LeaderEvent → Option LockServer
  | .kill session => some (w.ended session)
  | .call replica call =>
    if w.calls replica = none then
      some { w with calls := Function.update w.calls replica (some call) }
    else none

/-- The replicas, side by side. -/
def leading : System Nat where
  sig _ := leaderSig
  Point _ := LeaderPoint
  code _ := leaderCode
  World := LockServer
  Event := LeaderEvent
  grant replica w o x := w.grant replica o x
  nature := LockServer.nature

/-- Every replica has just started, with election enabled or not. -/
def leadingInitial (jobName : String) (enabled : Nat → Bool) : leading.State where
  world := {}
  proc replica := .ret (some (.idle (.new jobName (enabled replica)) none))

end Moira.Workers
