import Mathlib.Logic.Function.Basic
import Moira.Lib.System

/-!
# Cluster admission leases

One row of `cluster_replica_leases` for each live replica. A process is granted a row before it
binds a listener, renews it from a heartbeat task, and releases it on a graceful shutdown.

- `LeaseCluster`, `leaseStep` — the table, the clock and the processes
-/

namespace Moira

/-! ## The statements -/

/-- A row of `cluster_replica_leases`; instants are in microseconds. -/
structure ReplicaLease where
  replicaId : Nat
  podName : String
  acquiredAt : Int
  heartbeatAt : Int
  releasedAt : Option Int := none

abbrev LeaseTable := List ReplicaLease

/-- `make_interval(secs => $1)`. -/
def intervalSeconds (seconds : Int) : Int :=
  seconds * 1000000

/-- `make_interval(days => $1)`. -/
def intervalDays (days : Int) : Int :=
  intervalSeconds (days * 86400)

def releasedLeaseRetentionDays : Int := 7

/-- `expiry_seconds as i64`. -/
def expiryAsI64 (seconds : Nat) : Int :=
  Int.bmod seconds 18446744073709551616

def ReplicaLease.live (row : ReplicaLease) : Bool :=
  row.releasedAt.isNone

/-- `RECLAIM_EXPIRED_SQL` -/
def reclaimExpired (now expiry : Int) (table : LeaseTable) : LeaseTable :=
  table.map fun row =>
    if row.live ∧ row.heartbeatAt < now - intervalSeconds expiry then { row with releasedAt := some now }
    else row

/-- `PRUNE_RELEASED_SQL` -/
def pruneReleased (now : Int) (table : LeaseTable) : LeaseTable :=
  table.filter fun row =>
    !row.releasedAt.any fun releasedAt => releasedAt < now - intervalDays releasedLeaseRetentionDays

/-- `COUNT_LIVE_SQL` -/
def countLive (table : LeaseTable) : Nat :=
  table.countP ReplicaLease.live

/-- `INSERT_LEASE_SQL`; the column refuses a blank name. -/
def insertLease (now : Int) (replicaId : Nat) (podName : String) (table : LeaseTable) :
    Option LeaseTable :=
  if podName.toList.all (· = ' ') then none
  else some ({ replicaId, podName, acquiredAt := now, heartbeatAt := now } :: table)

/-- The rows a statement on one held lease is about. -/
def ReplicaLease.holds (replicaId : Nat) (row : ReplicaLease) : Bool :=
  row.replicaId = replicaId ∧ row.live

/-- `RENEW_SQL`, and whether it touched exactly one row. -/
def renewLease (now : Int) (replicaId : Nat) (table : LeaseTable) : Bool × LeaseTable :=
  (table.countP (ReplicaLease.holds replicaId) = 1,
    table.map fun row => if row.holds replicaId then { row with heartbeatAt := now } else row)

/-- `RELEASE_SQL` -/
def releaseLease (now : Int) (replicaId : Nat) (table : LeaseTable) : LeaseTable :=
  table.map fun row => if row.holds replicaId then { row with releasedAt := some now } else row

/-! ## Admission -/

structure ClusterLeaseGrant where
  replicaId : Nat
  podName : String
  acquiredAt : Int

inductive ClusterLeaseOutcome
  | granted (grant : ClusterLeaseGrant)
  | denied (liveLeases maxReplicas : Nat)

/--
`PgClusterLeaseRepository::acquire`: its transaction, which started at `now`. `none` is an error,
which rolls it back.
-/
def acquireLease (now : Int) (replicaId : Nat) (podName : String) (maxReplicas expirySeconds : Nat)
    (table : LeaseTable) : Option (ClusterLeaseOutcome × LeaseTable) :=
  let table := pruneReleased now (reclaimExpired now (expiryAsI64 expirySeconds) table)
  let live := countLive table
  -- a denial commits too, so that what it reclaimed stays reclaimed
  if maxReplicas ≤ live then some (.denied live maxReplicas, table)
  else
    (insertLease now replicaId podName table).map fun table =>
      (.granted { replicaId, podName, acquiredAt := now }, table)

/-! ## The processes -/

inductive ClusterLeaseStatus
  | notEnforced
  | held
  | lost

/-- A process that holds a `ClusterLeaseHandle`. -/
structure LeaseHolder where
  status : ClusterLeaseStatus
  /-- What the heartbeat's renewal will resolve to; `some none` is an error. -/
  renewing : Option (Option Bool) := none
  /-- The heartbeat task has been aborted. -/
  stopped : Bool := false

/-- The status the heartbeat stores when its renewal resolves. -/
def LeaseHolder.beat (holder : LeaseHolder) (renewed : Option Bool) : LeaseHolder :=
  match renewed with
  | some true => { holder with status := .held, renewing := none }
  | some false => { holder with status := .lost, renewing := none }
  | none => { holder with renewing := none }

structure LeaseCluster where
  table : LeaseTable := []
  now : Int := 0
  /-- Every id `Uuid::now_v7` has returned; it never returns one twice. -/
  drawn : List Nat := []
  holders : Nat → Option LeaseHolder := fun _ => none

/-- What becomes of a call to the database. -/
inductive CallFate
  | answered
  | ranUnanswered
  | neverRan
  deriving DecidableEq

inductive LeaseMove
  | acquire (replicaId : Nat) (podName : String) (startedAt : Int) (fate : CallFate)
  /-- The heartbeat ticks, and its statement takes effect. -/
  | renew (replicaId : Nat) (startedAt : Int) (fate : CallFate)
  /-- The renewal resolves, and the heartbeat stores the status. -/
  | beat (replicaId : Nat)
  /-- A shutdown aborts the heartbeat. -/
  | stop (replicaId : Nat)
  | release (replicaId : Nat) (startedAt : Int) (fate : CallFate)
  | crash (replicaId : Nat)
  | elapse (micros : Nat)

namespace LeaseCluster

variable (s : LeaseCluster)

def setHolder (replicaId : Nat) (holder : Option LeaseHolder) : LeaseCluster :=
  { s with holders := Function.update s.holders replicaId holder }

/-- `cluster_lease::acquire`, with the id it draws. -/
def acquire (maxReplicas expirySeconds replicaId : Nat) (podName : String) (startedAt : Int)
    (fate : CallFate) : LeaseCluster :=
  let s := { s with drawn := replicaId :: s.drawn }
  if fate = .neverRan then s
  else
    match acquireLease startedAt replicaId podName maxReplicas expirySeconds s.table with
    | none => s
    | some (.denied .., table) => { s with table }
    | some (.granted grant, table) =>
      let s := { s with table }
      if fate = .answered then s.setHolder grant.replicaId (some { status := .held }) else s

/-- The statement of the heartbeat. -/
def renew (replicaId : Nat) (holder : LeaseHolder) (startedAt : Int) (fate : CallFate) : LeaseCluster :=
  match fate with
  | .neverRan => s.setHolder replicaId (some { holder with renewing := some none })
  | .ranUnanswered =>
    { s with table := (renewLease startedAt replicaId s.table).2 }.setHolder replicaId
      (some { holder with renewing := some none })
  | .answered =>
    { s with table := (renewLease startedAt replicaId s.table).2 }.setHolder replicaId
      (some { holder with renewing := some (some (renewLease startedAt replicaId s.table).1) })

/-- `ClusterLeaseHandle::release`, once the heartbeat has stopped. -/
def release (replicaId : Nat) (holder : LeaseHolder) (startedAt : Int) (fate : CallFate) :
    LeaseCluster :=
  let table := if fate = .neverRan then s.table else releaseLease startedAt replicaId s.table
  { s with table }.setHolder replicaId (some { holder with status := .notEnforced })

end LeaseCluster

/-- One move of the cluster. A transaction's `now()` is the instant it started. -/
def leaseStep (maxReplicas expirySeconds : Nat) (s : LeaseCluster) : LeaseMove → Option LeaseCluster
  | .acquire replicaId podName startedAt fate =>
    if replicaId ∉ s.drawn ∧ startedAt ≤ s.now then
      some (s.acquire maxReplicas expirySeconds replicaId podName startedAt fate)
    else none
  | .renew replicaId startedAt fate => do
    let holder ← s.holders replicaId
    if holder.renewing = none ∧ holder.stopped = false ∧ startedAt ≤ s.now then
      some (s.renew replicaId holder startedAt fate)
    else none
  | .beat replicaId => do
    let holder ← s.holders replicaId
    let renewed ← holder.renewing
    some (s.setHolder replicaId (some (holder.beat renewed)))
  | .stop replicaId => do
    let holder ← s.holders replicaId
    some (s.setHolder replicaId (some { holder with renewing := none, stopped := true }))
  | .release replicaId startedAt fate => do
    let holder ← s.holders replicaId
    if holder.stopped ∧ startedAt ≤ s.now then some (s.release replicaId holder startedAt fate) else none
  | .crash replicaId => some (s.setHolder replicaId none)
  | .elapse micros => some { s with now := s.now + micros }

end Moira
