import Mathlib.Data.List.Nodup
import Moira.Domain.Failure
import Moira.Domain.AppError
import Moira.Lib.System

/-!
# Jobs

The rows of `worker_jobs` and the statements of its repository. A statement is a function of the
table and of the time `now()` at which it runs.

`ENQUEUE_SQL` counts the pending rows and inserts in one statement, but under `read committed` the
count is over the rows that were committed when the statement started, and its own row becomes
visible when it commits.

- `claimBatch`, `complete`, `reschedule`, `deadLetter`, `requeueStale` — the claim and what ends it
- `enqueue`, `enqueueIfIdle`, `pruneTerminal` — rows that come and go
-/

namespace Moira.Workers

/-- The CHECK constraint of the `status` column. -/
inductive JobStatus
  | pending
  | running
  | completed
  | deadLetter
  deriving DecidableEq

/-- A job handed to a worker for execution; `attempts` is already incremented by the claim. -/
structure ClaimedJob where
  id : Uuid
  jobName : String
  payload : Json
  attempts : Nat
  maxAttempts : Nat
  deriving DecidableEq

structure WorkerJobInsert where
  jobName : String
  payload : Json
  /-- `none` means "as soon as possible". -/
  runAt : Option Int
  maxAttempts : Nat
  maxAttempts_pos : 0 < maxAttempts

/-- A row of `worker_jobs`, without `created_at`. Times are in microseconds. -/
structure JobRow where
  id : Uuid
  jobName : String
  payload : Json
  status : JobStatus := .pending
  runAt : Int
  attempts : Nat := 0
  maxAttempts : Nat
  maxAttempts_pos : 0 < maxAttempts
  claimedBy : Option Uuid := none
  claimedAt : Option Int := none
  lastError : Option String := none
  deadLetterAt : Option Int := none
  completedAt : Option Int := none

/-- `make_interval(secs => n)`. -/
def seconds (n : Nat) : Int := n * 1000000

/-- `make_interval(hours => n)`. -/
def hours (n : Nat) : Int := seconds (n * 3600)

namespace JobRow

/-- The job can be claimed. -/
def due (now : Int) (row : JobRow) : Bool :=
  row.status = .pending ∧ row.runAt ≤ now

/-- The claim is older than `stale_seconds`. -/
def stale (now : Int) (staleSeconds : Nat) (row : JobRow) : Bool :=
  row.status = .running ∧ row.claimedAt.any (· < now - seconds staleSeconds)

def claim (claimedBy : Uuid) (now : Int) (row : JobRow) : JobRow :=
  { row with
    status := .running
    attempts := row.attempts + 1
    claimedBy := some claimedBy
    claimedAt := some now }

/-- The `returning` list of a claim. -/
def claimedJob (row : JobRow) : ClaimedJob where
  id := row.id
  jobName := row.jobName
  payload := row.payload
  attempts := row.attempts
  maxAttempts := row.maxAttempts

/-- Old enough to be pruned. -/
def prunable (now : Int) (retentionHours : Nat) (row : JobRow) : Bool :=
  (row.status = .completed ∧ row.completedAt.any (· < now - hours retentionHours)) ∨
    (row.status = .deadLetter ∧ row.deadLetterAt.any (· < now - hours retentionHours))

end JobRow

/-- The table with its primary key. -/
structure JobTable where
  rows : List JobRow := []
  id_unique : (rows.map JobRow.id).Nodup := by simp

namespace JobTable

/-- An `update` that changes no id. -/
def update (table : JobTable) (f : JobRow → JobRow) (hid : ∀ row, (f row).id = row.id) :
    JobTable where
  rows := table.rows.map f
  id_unique := by
    rw [List.map_map, show JobRow.id ∘ f = JobRow.id from funext hid]
    exact table.id_unique

/-! ## Claims -/

/--
What `claim_batch` may return: at most `limit` due rows, as the update leaves them. A row that
another statement has locked is skipped, so any of them may be missing.
-/
def Claimable (table : JobTable) (now : Int) (claimedBy : Uuid) (limit : Nat)
    (jobs : List ClaimedJob) : Prop :=
  jobs.length ≤ limit ∧ (jobs.map ClaimedJob.id).Nodup ∧
    ∀ job ∈ jobs, ∃ row ∈ table.rows, row.due now ∧ (row.claim claimedBy now).claimedJob = job

instance (table : JobTable) (now : Int) (claimedBy : Uuid) (limit : Nat) (jobs : List ClaimedJob) :
    Decidable (table.Claimable now claimedBy limit jobs) :=
  inferInstanceAs (Decidable (_ ∧ _ ∧ _))

def claimBatch (table : JobTable) (now : Int) (claimedBy : Uuid) (jobs : List ClaimedJob) :
    JobTable :=
  table.update
    (fun row => if row.id ∈ jobs.map ClaimedJob.id then row.claim claimedBy now else row)
    (fun row => by split <;> rfl)

/-! ## Settle writes -/

/-- The `where` clause of the three settle writes. -/
def runningJob (id : Uuid) (row : JobRow) : Bool :=
  row.id = id ∧ row.status = .running

/-- A settle write: the columns it sets on the running row. -/
def settle (table : JobTable) (id : Uuid) (f : JobRow → JobRow) (hid : ∀ row, (f row).id = row.id) :
    JobTable :=
  table.update (fun row => if runningJob id row then f row else row) fun row => by
    split
    · exact hid row
    · rfl

def completeRow (now : Int) (row : JobRow) : JobRow :=
  { row with status := .completed, completedAt := some now, claimedBy := none, claimedAt := none }

def rescheduleRow (runAt : Int) (error : String) (row : JobRow) : JobRow :=
  { row with status := .pending, runAt, lastError := some error, claimedBy := none, claimedAt := none }

def deadLetterRow (now : Int) (error : String) (row : JobRow) : JobRow :=
  { row with
    status := .deadLetter
    deadLetterAt := some now
    lastError := some error
    claimedBy := none
    claimedAt := none }

def complete (table : JobTable) (now : Int) (id : Uuid) : JobTable :=
  table.settle id (completeRow now) fun _ => rfl

def reschedule (table : JobTable) (id : Uuid) (runAt : Int) (error : String) : JobTable :=
  table.settle id (rescheduleRow runAt error) fun _ => rfl

def deadLetter (table : JobTable) (now : Int) (id : Uuid) (error : String) : JobTable :=
  table.settle id (deadLetterRow now error) fun _ => rfl

/-! ## Sweeps -/

def requeueRow (now : Int) (row : JobRow) : JobRow :=
  { row with status := .pending, runAt := now, claimedBy := none, claimedAt := none }

def requeueStale (table : JobTable) (now : Int) (staleSeconds : Nat) : JobTable :=
  table.update (fun row => if row.stale now staleSeconds then requeueRow now row else row)
    fun row => by split <;> rfl

def requeueStaleCount (table : JobTable) (now : Int) (staleSeconds : Nat) : Nat :=
  table.rows.countP (JobRow.stale now staleSeconds)

def pruneTerminal (table : JobTable) (now : Int) (retentionHours : Nat) : JobTable where
  rows := table.rows.filter fun row => ¬row.prunable now retentionHours
  id_unique := table.id_unique.sublist (List.filter_sublist.map _)

def pruneTerminalCount (table : JobTable) (now : Int) (retentionHours : Nat) : Nat :=
  table.rows.countP (JobRow.prunable now retentionHours)

/-! ## New jobs -/

/-- `select count(*) from worker_jobs where status = 'pending'`. -/
def pendingDepth (table : JobTable) : Nat :=
  table.rows.countP fun row => row.status = .pending

/-- Nothing is pending or running under the name. -/
def idle (table : JobTable) (jobName : String) : Bool :=
  table.rows.all fun row =>
    ¬(row.jobName = jobName ∧ (row.status = .pending ∨ row.status = .running))

/-- Append a row with a fresh id. -/
def insert (table : JobTable) (job : WorkerJobInsert) (now : Int) (id : Uuid)
    (hfresh : id ∉ table.rows.map JobRow.id) : JobTable where
  rows := table.rows ++
    [{ id
       jobName := job.jobName
       payload := job.payload
       runAt := job.runAt.getD now
       maxAttempts := job.maxAttempts
       maxAttempts_pos := job.maxAttempts_pos }]
  id_unique := by
    rw [List.map_append, List.nodup_append]
    refine ⟨table.id_unique, List.nodup_singleton _, ?_⟩
    rintro a ha b hb rfl
    rw [List.map_singleton, List.mem_singleton] at hb
    obtain rfl : a = id := hb
    exact hfresh ha

end JobTable

/-- An `ENQUEUE_SQL` that found room and has not committed its row. -/
structure EnqueueStatement where
  client : Nat
  job : WorkerJobInsert
  startedAt : Int

structure EnqueueWorld where
  /-- What is committed. -/
  table : JobTable := {}
  now : Int := 0
  inFlight : List EnqueueStatement := []

inductive EnqueueMove
  | start (client : Nat) (job : WorkerJobInsert)
  | commit (client : Nat) (id : Uuid)
  /-- The statement ends with an error, or its connection is lost. -/
  | fail (client : Nat)
  | claimBatch (claimedBy : Uuid) (limit : Nat) (jobs : List ClaimedJob)
  | complete (id : Uuid)
  | deadLetter (id : Uuid) (error : String)
  | pruneTerminal (retentionHours : Nat)
  | elapse (micros : Nat)

namespace EnqueueWorld

variable (s : EnqueueWorld)

/-- The count of the statement's snapshot decides; without room it inserts nothing. -/
def start (maxPending : Int) (client : Nat) (job : WorkerJobInsert) : EnqueueWorld :=
  if (s.table.pendingDepth : Int) < maxPending then
    { s with inFlight := { client, job, startedAt := s.now } :: s.inFlight }
  else s

/-- The statement of a client. -/
def statement (client : Nat) : Option EnqueueStatement :=
  s.inFlight.find? fun statement => statement.client = client

/-- The statement of a client is over. -/
def ended (client : Nat) : EnqueueWorld :=
  { s with inFlight := s.inFlight.eraseP fun statement => statement.client = client }

end EnqueueWorld

/-- One move; a client has at most one statement in flight. -/
def enqueueStep (maxPending : Int) (s : EnqueueWorld) : EnqueueMove → Option EnqueueWorld
  | .start client job =>
    if (s.statement client).isNone then some (s.start maxPending client job) else none
  | .commit client id => do
    let statement ← s.statement client
    if hfresh : id ∉ s.table.rows.map JobRow.id then
      some { s.ended client with table := s.table.insert statement.job statement.startedAt id hfresh }
    else none
  | .fail client => do
    let _ ← s.statement client
    some (s.ended client)
  | .claimBatch claimedBy limit jobs =>
    if s.table.Claimable s.now claimedBy limit jobs then
      some { s with table := s.table.claimBatch s.now claimedBy jobs }
    else none
  | .complete id => some { s with table := s.table.complete s.now id }
  | .deadLetter id error => some { s with table := s.table.deadLetter s.now id error }
  | .pruneTerminal retentionHours =>
    some { s with table := s.table.pruneTerminal s.now retentionHours }
  | .elapse micros => some { s with now := s.now + micros }

end Moira.Workers
