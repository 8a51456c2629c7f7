import Mathlib.Algebra.GroupWithZero.Nat
import Moira.Workers.Jobs

/-!
# The worker queue

`WorkerQueue` as the supervisor drives it: a poll requeues stale claims, claims a batch, dispatches
it and settles each job. Metrics and log lines are left out.

- `enqueue`, `enqueuePeriodic` — the two ways in
-/

namespace Moira.Workers

def workerJobNames : List String :=
  ["memory-extraction-retry", "conversation-summarization-retry", "embedding-retry",
    "document-ingestion-retry", "latency-stats-aggregation", "oauth-token-refresh",
    "provider-health-check", "retention-cleanup", "runtime-cache-warmer"]

def isKnownJobName (name : String) : Bool :=
  workerJobNames.contains name

/-- Attempts a job gets before it is dead-lettered, when the enqueuer does not say. -/
def defaultMaxAttempts : Nat := 5

/-- The share of `queue_stale_claim_seconds` that a poll may spend in handlers. -/
def dispatchBudgetPercentOfStaleClaim : Nat := 80

structure WorkerSettings where
  maxConcurrentJobs : Nat := 8
  retryBaseDelaySeconds : Nat := 5
  retryMaxDelaySeconds : Nat := 300
  deadLetterRetentionHours : Nat := 168
  queueStaleClaimSeconds : Nat := 300
  queueJobTimeoutSeconds : Nat := 120
  queueMaxPendingJobs : Int := 10000

def u64Max : Nat := 2 ^ 64 - 1

def i64Max : Nat := 2 ^ 63 - 1

def i32Max : Nat := 2 ^ 31 - 1

/-- `Duration::from_secs`; durations and instants are in nanoseconds. -/
def durationFromSecs (secs : Nat) : Nat := secs * 1000000000

namespace WorkerSettings

variable (settings : WorkerSettings)

def claimBatchSize : Nat := min (max settings.maxConcurrentJobs 1) i64Max

/-- How long one poll may spend dispatching its whole claimed batch. -/
def dispatchBudget : Nat :=
  durationFromSecs
    (max (min (max settings.queueStaleClaimSeconds 1 * dispatchBudgetPercentOfStaleClaim) u64Max / 100) 1)

/-- The ceiling on one job body. -/
def jobTimeout : Nat := durationFromSecs (max settings.queueJobTimeoutSeconds 1)

end WorkerSettings

/-- `u64::checked_shl`: bits that leave the word are lost. -/
def checkedShl (value exponent : Nat) : Option Nat :=
  if exponent < 64 then some (value * 2 ^ exponent % 2 ^ 64) else none

/-- The delay before a failed attempt is retried, in seconds. -/
def retryDelay (attempts baseSeconds maxSeconds : Nat) : Nat :=
  let base := max baseSeconds 1
  let limit := max maxSeconds base
  ((checkedShl base (max attempts 1 - 1)).filter (· ≤ limit)).getD limit

/-- Whether a job that just failed has spent its attempts. -/
def attemptsExhausted (attempts maxAttempts : Nat) : Bool :=
  max maxAttempts 1 ≤ attempts

/-! ## One poll -/

/--
How a statement ended: with its answer, with an error before it took effect, or with an error after
it did.
-/
inductive Reply (α : Type)
  | ok (a : α)
  | failed
  | lost (a : α)

/-- How a handler ended. -/
inductive HandlerEnd
  | finished (result : Except String Unit)
  | panicked
  | elapsed

inductive QueueOp
  | requeueStale (staleSeconds : Nat)
  | claimBatch (claimedBy : Uuid) (limit : Nat)
  | instant
  | stop
  | dispatch (job : ClaimedJob) (budget : Nat)
  | complete (id : Uuid)
  | utcNow
  | reschedule (id : Uuid) (runAt : Int) (error : String)
  | deadLetter (id : Uuid) (error : String)
  | pruneTerminal (retentionHours : Nat)

/-- The job a settle write is for. -/
def QueueOp.settles : QueueOp → Option Uuid
  | complete id | reschedule id _ _ | deadLetter id _ => some id
  | _ => none

def queueSig : Sig where
  Op := QueueOp
  Ans
    | .requeueStale _ | .pruneTerminal _ => Reply Nat
    | .claimBatch .. => Reply (List ClaimedJob)
    | .instant => Nat
    | .stop => Bool
    | .dispatch .. => HandlerEnd
    | .utcNow => Int
    | .complete _ | .reschedule .. | .deadLetter .. => Reply Unit

/-- What one poll of the queue did. -/
structure QueueTickOutcome where
  reclaimed : Nat := 0
  claimed : Nat := 0
  completed : Nat := 0
  rescheduled : Nat := 0
  deadLettered : Nat := 0
  pruned : Nat := 0
  undispatched : Nat := 0

/-- `?` on a database error. -/
def orSqlx {S : Sig} {α : Type} : Reply α → Prog S AppError α
  | .ok a => .ret a
  | .failed | .lost _ => .fail .sqlx

/-- `dispatch_guarded`, after the handler has ended. -/
def handlerResult (job : ClaimedJob) (budget : Nat) : HandlerEnd → Except String Unit
  | .finished result => result
  | .panicked =>
    .error ("the handler for job " ++ job.jobName ++
      " panicked; see the process log for the panic itself")
  | .elapsed =>
    .error ("the handler for job " ++ job.jobName ++ " exceeded its " ++
      toString (budget / 1000000000) ++ "s slice of this poll's dispatch budget")

/-- `chrono::Duration::from_std(delay)`, or one second when the delay is out of range. -/
def chronoSeconds (secs : Nat) : Nat :=
  if secs ≤ i64Max / 1000 then secs else 1

/-- Retry with backoff, or dead-letter if the budget is spent. -/
def settleFailure (settings : WorkerSettings) (job : ClaimedJob) (error : String)
    (outcome : QueueTickOutcome) : Prog queueSig AppError QueueTickOutcome :=
  if attemptsExhausted job.attempts job.maxAttempts then do
    let reply ← Prog.ask (S := queueSig) (.deadLetter job.id error)
    orSqlx reply
    pure { outcome with deadLettered := outcome.deadLettered + 1 }
  else do
    let delay := retryDelay job.attempts settings.retryBaseDelaySeconds settings.retryMaxDelaySeconds
    let now : Int ← Prog.ask (S := queueSig) .utcNow
    let reply ← Prog.ask (S := queueSig)
      (.reschedule job.id (now + seconds (chronoSeconds delay)) error)
    orSqlx reply
    pure { outcome with rescheduled := outcome.rescheduled + 1 }

/-- Run a job and settle it. -/
def runJob (settings : WorkerSettings) (job : ClaimedJob) (budget : Nat)
    (outcome : QueueTickOutcome) : Prog queueSig AppError QueueTickOutcome := do
  let ended ← Prog.ask (S := queueSig) (.dispatch job budget)
  match handlerResult job budget ended with
  | .ok () =>
    let reply ← Prog.ask (S := queueSig) (.complete job.id)
    orSqlx reply
    pure { outcome with completed := outcome.completed + 1 }
  | .error error => settleFailure settings job error outcome

/-- The loop over the claimed batch; the stop signal and the budget end it between two jobs. -/
def dispatchJobs (settings : WorkerSettings) (deadline : Nat) :
    List ClaimedJob → QueueTickOutcome → Prog queueSig AppError QueueTickOutcome
  | [], outcome => pure outcome
  | job :: jobs, outcome => do
    let stopping : Bool ← Prog.ask (S := queueSig) .stop
    let now : Nat ← Prog.ask (S := queueSig) .instant
    let remaining := deadline - now
    if stopping || remaining = 0 then
      pure { outcome with undispatched := (job :: jobs).length }
    else
      let outcome ← runJob settings job (min settings.jobTimeout remaining) outcome
      dispatchJobs settings deadline jobs outcome

/-- One poll: reclaim, claim, dispatch, settle. -/
def runOnceUntil (settings : WorkerSettings) (replicaId : Uuid) :
    Prog queueSig AppError QueueTickOutcome := do
  let reply ← Prog.ask (S := queueSig) (.requeueStale (min settings.queueStaleClaimSeconds i64Max))
  let reclaimed ← orSqlx reply
  let reply ← Prog.ask (S := queueSig) (.claimBatch replicaId settings.claimBatchSize)
  let claimed ← orSqlx reply
  let start : Nat ← Prog.ask (S := queueSig) .instant
  let outcome ← dispatchJobs settings (start + settings.dispatchBudget) claimed
    { reclaimed, claimed := claimed.length }
  let reply ← Prog.ask (S := queueSig)
    (.pruneTerminal (min (max settings.deadLetterRetentionHours 1) i32Max))
  let pruned ← orSqlx reply
  pure { outcome with pruned }

/-! ## Producers -/

inductive ProducerOp
  | enqueue (job : WorkerJobInsert) (maxPending : Int)
  | enqueueIfIdle (job : WorkerJobInsert) (maxPending : Int)

/-- The new id, or `none` when the statement inserted nothing. -/
def producerSig : Sig where
  Op := ProducerOp
  Ans _ := Reply (Option Uuid)

/-- A job with the default budget. -/
def defaultInsert (jobName : String) (payload : Json) (runAt : Option Int) : WorkerJobInsert where
  jobName := jobName
  payload := payload
  runAt := runAt
  maxAttempts := defaultMaxAttempts
  maxAttempts_pos := by decide

/-- `{:?}` of a text of printable characters. -/
def debugStr (text : String) : String :=
  String.ofList (['"'] ++ (text.toList.flatMap fun c =>
    if c = '"' ∨ c = '\\' then ['\\', c] else [c]) ++ ['"'])

def unknownJob (jobName : String) : AppError :=
  .internal ("worker queue asked to enqueue unknown job " ++ debugStr jobName ++
    "; declare it in WORKER_JOB_NAMES in src/infra/workers.rs")

def queueCapacityExceeded : AppError :=
  .coded 429 "worker_queue_capacity_exceeded" "the background job queue is at capacity"

def enqueue (settings : WorkerSettings) (jobName : String) (payload : Json) (runAt : Option Int) :
    Prog producerSig AppError Uuid :=
  if ¬isKnownJobName jobName then .fail (unknownJob jobName)
  else do
    let reply ← Prog.ask (S := producerSig)
      (.enqueue (defaultInsert jobName payload runAt) settings.queueMaxPendingJobs)
    match ← orSqlx reply with
    | some id => pure id
    | none => .fail queueCapacityExceeded

def enqueuePeriodic (settings : WorkerSettings) (jobName : String) :
    Prog producerSig AppError (Option Uuid) :=
  if ¬isKnownJobName jobName then .fail (unknownJob jobName)
  else do
    let reply ← Prog.ask (S := producerSig)
      (.enqueueIfIdle (defaultInsert jobName .null none) settings.queueMaxPendingJobs)
    orSqlx reply

/-- A call of one of the two. -/
inductive EnqueueCall
  | enqueue (jobName : String) (payload : Json) (runAt : Option Int)
  | periodic (jobName : String)

def EnqueueCall.code (settings : WorkerSettings) : EnqueueCall → Prog producerSig Empty (Option Unit)
  | enqueue jobName payload runAt => do
    let _ ← (Workers.enqueue settings jobName payload runAt).attempt
    pure none
  | periodic jobName => do
    let _ ← (enqueuePeriodic settings jobName).attempt
    pure none

/-! ## The system -/

inductive QueueParty
  | replica (n : Nat)
  | producer (n : Nat)
  deriving DecidableEq

/-- A job that a replica has claimed and not settled yet in the poll it is in. -/
structure Held where
  replica : Nat
  job : ClaimedJob
  /-- The number of the `claim_batch` that claimed it. -/
  claim : Nat

/-- The table and the time, with a record of the claims that no code reads. -/
structure QueueWorld where
  table : JobTable := {}
  now : Int := 0
  /-- How many times `claim_batch` has run. -/
  batches : Nat := 0
  /-- Every claim ever made, the newest first. -/
  claims : List (Uuid × Nat) := []
  held : List Held := []
  dead : List Nat := []

namespace QueueWorld

/-- The newest claim of a job: the current one while the job runs. -/
def currentClaim (w : QueueWorld) (id : Uuid) : Option Nat :=
  w.claims.lookup id

/-- The claim on whose behalf a replica settles a job. -/
def heldClaim (w : QueueWorld) (replica : Nat) (id : Uuid) : Option Nat :=
  (w.held.find? fun h => h.replica = replica ∧ h.job.id = id).map Held.claim

/-- The replica is done with a job. -/
def release (w : QueueWorld) (replica : Nat) (id : Uuid) : QueueWorld :=
  { w with held := w.held.filter fun h => ¬(h.replica = replica ∧ h.job.id = id) }

/-- The replica leaves its poll. -/
def leavePoll (w : QueueWorld) (replica : Nat) : QueueWorld :=
  { w with held := w.held.filter fun h => h.replica ≠ replica }

/-- After `claim_batch` has taken these jobs. -/
def claimed (w : QueueWorld) (claimedBy : Uuid) (jobs : List ClaimedJob) : QueueWorld :=
  { w with
    table := w.table.claimBatch w.now claimedBy jobs
    batches := w.batches + 1
    claims := jobs.map (fun job => (job.id, w.batches)) ++ w.claims }

/-- The jobs are in the hands of the replica. -/
def hold (w : QueueWorld) (replica : Nat) (claim : Nat) (jobs : List ClaimedJob) : QueueWorld :=
  { w with held := w.held ++ jobs.map fun job => { replica, job, claim } }

end QueueWorld

/-- A settle write, with its table afterwards: a reply that is an error ends the poll. -/
def grantSettle (replica : Nat) (w : QueueWorld) (id : Uuid) (table : JobTable) :
    Reply Unit → QueueWorld
  | .ok () => { w with table }.release replica id
  | .lost () => { w with table }.leavePoll replica
  | .failed => w.leavePoll replica

/-- How the database and the clocks answer a replica that is alive. -/
def grantReplica (replica : Nat) (w : QueueWorld) :
    (o : QueueOp) → queueSig.Ans o → Option QueueWorld
  | .requeueStale staleSeconds, reply =>
    match reply with
    | .failed => some w
    | .ok reclaimed | .lost reclaimed =>
      if reclaimed = w.table.requeueStaleCount w.now staleSeconds then
        some { w with table := w.table.requeueStale w.now staleSeconds }
      else none
  | .claimBatch claimedBy limit, reply =>
    match reply with
    | .failed => some w
    | .ok jobs =>
      if w.table.Claimable w.now claimedBy limit jobs then
        some ((w.claimed claimedBy jobs).hold replica w.batches jobs)
      else none
    | .lost jobs =>
      if w.table.Claimable w.now claimedBy limit jobs then some (w.claimed claimedBy jobs) else none
  | .complete id, reply => some (grantSettle replica w id (w.table.complete w.now id) reply)
  | .reschedule id runAt error, reply =>
    some (grantSettle replica w id (w.table.reschedule id runAt error) reply)
  | .deadLetter id error, reply =>
    some (grantSettle replica w id (w.table.deadLetter w.now id error) reply)
  | .pruneTerminal retentionHours, reply =>
    match reply with
    | .failed => some (w.leavePoll replica)
    | .ok pruned | .lost pruned =>
      if pruned = w.table.pruneTerminalCount w.now retentionHours then
        some ({ w with table := w.table.pruneTerminal w.now retentionHours }.leavePoll replica)
      else none
  | .instant, _ | .stop, _ | .dispatch .., _ | .utcNow, _ => some w

/-- An insert that found room, or did nothing. -/
def grantInsert (w : QueueWorld) (job : WorkerJobInsert) (room : Bool) : Option Uuid → Option QueueWorld
  | none => if room then none else some w
  | some id =>
    if hfresh : id ∉ w.table.rows.map JobRow.id then
      if room then some { w with table := w.table.insert job w.now id hfresh } else none
    else none

def grantProducer (w : QueueWorld) (o : ProducerOp) (reply : Reply (Option Uuid)) :
    Option QueueWorld :=
  match reply with
  | .failed => some w
  | .ok inserted | .lost inserted =>
    match o with
    | .enqueue job maxPending => grantInsert w job (w.table.pendingDepth < maxPending) inserted
    | .enqueueIfIdle job maxPending =>
      grantInsert w job (w.table.idle job.jobName && w.table.pendingDepth < maxPending) inserted

inductive QueueEvent
  | tick (elapsed : Nat)
  | die (replica : Nat)

/-- Any number of replicas and producers over one table. -/
def queueSystem (settings : WorkerSettings) (replicaId : Nat → Uuid) (calls : Nat → EnqueueCall) :
    System QueueParty where
  sig
    | .replica _ => queueSig
    | .producer _ => producerSig
  Point _ := Unit
  code
    | .replica n => fun _ => do
      let _ ← (runOnceUntil settings (replicaId n)).attempt
      pure (some ())
    | .producer n => fun _ => (calls n).code settings
  World := QueueWorld
  Event := QueueEvent
  grant
    | .replica n => fun w o x => if n ∈ w.dead then none else grantReplica n w o x
    | .producer _ => grantProducer
  nature w
    | .tick elapsed => some { w with now := w.now + elapsed }
    | .die n => some { w.leavePoll n with dead := n :: w.dead }

/-- An empty table, every replica before its first poll. -/
def queueInitial (settings : WorkerSettings) (replicaId : Nat → Uuid) (calls : Nat → EnqueueCall) :
    (queueSystem settings replicaId calls).State where
  world := {}
  proc
    | .replica _ => .ret (some ())
    | .producer _ => .ret (some ())

end Moira.Workers
