import Moira.Domain.Pagination
import Moira.Lib.System
import Moira.Public.CreateResponse
import Moira.Streaming.Supervisor

/-!
# Expiry and retention

A duration read from a policy, or from a token response, is added to the clock. Both the constructor
of a duration and the addition panic outside their range.

The rows of `responses` from their insert to their deletion: `create_response` and `stream_response`
insert a row with an expiry and end it with a terminal update, and the retention worker deletes rows
that have expired.

The row of a call has the number of the call as its id. Times are in microseconds. The queue of the
worker, which orders batches but not their effect, is left out, and so is the panic of a retention
that leaves the range of a timestamp.

- `retentionExpiresAt`, `conversationExpiresAt`, `idempotencyExpiresAt`, `tokenExpiresAt`
-/

namespace Moira

namespace Expiry

open Pagination (DateTime)

/-! ## Durations -/

inductive Panic
  /-- `TimeDelta::seconds out of bounds`, or of the days or hours. -/
  | durationOutOfBounds
  /-- `DateTime + TimeDelta overflowed` -/
  | dateTimeOverflowed
  deriving DecidableEq

/-- A `TimeDelta`, in nanoseconds; it holds the milliseconds of 64 bits. -/
structure TimeDelta where
  nanos : Int
  lower : -9223372036854775807000000 ≤ nanos
  upper : nanos ≤ 9223372036854775807000000

namespace TimeDelta

def seconds (n : Int) : Except Panic TimeDelta :=
  if h : -9223372036854775807000000 ≤ n * 1000000000 ∧ n * 1000000000 ≤ 9223372036854775807000000 then
    .ok ⟨n * 1000000000, h.1, h.2⟩
  else .error .durationOutOfBounds

def hours (n : Int) : Except Panic TimeDelta :=
  seconds (n * 3600)

def days (n : Int) : Except Panic TimeDelta :=
  seconds (n * 86400)

end TimeDelta

/-- `DateTime + TimeDelta` -/
def addDelta (t : DateTime) (d : TimeDelta) : Except Panic DateTime :=
  if h : -8334601228800000000000 ≤ t.nanos + d.nanos ∧ t.nanos + d.nanos ≤ 8210266876799999999999 then
    .ok ⟨t.nanos + d.nanos, h.1, h.2⟩
  else .error .dateTimeOverflowed

/-! ## Policies -/

/-- The bounds of `ApplicationExecutionPolicyPutRequest`. -/
structure PolicyPutRequest where
  responseRetentionSeconds : Option Int64 := none
  maximumRequestBytes : Option Int64 := none
  maximumInputItems : Option Int32 := none
  maximumOutputTokens : Option Int64 := none
  maximumTimeoutMs : Option Int64 := none
  rateLimitRequestsPerMinute : Option Int32 := none
  rateLimitStreamsPerMinute : Option Int32 := none

/-- The bounds of an execution policy. -/
def validatePolicyRequest (request : PolicyPutRequest) : Except AppError Unit :=
  if request.responseRetentionSeconds.any (·.toInt < 0) ||
      request.maximumRequestBytes.any (·.toInt ≤ 0) ||
      request.maximumInputItems.any (·.toInt ≤ 0) ||
      request.maximumOutputTokens.any (·.toInt ≤ 0) ||
      request.maximumTimeoutMs.any (·.toInt ≤ 0) ||
      request.rateLimitRequestsPerMinute.any (·.toInt ≤ 0) ||
      request.rateLimitStreamsPerMinute.any (·.toInt ≤ 0) then
    .error (.badRequest "execution policy numeric limits must be positive")
  else .ok ()

/-- A row of `application_execution_policies`, with the check of the column. -/
structure ExecutionPolicyRow where
  responseRetentionSeconds : Int64 := 2592000
  nonneg : 0 ≤ responseRetentionSeconds.toInt := by decide

/-- `response_retention_seconds = coalesce($14, response_retention_seconds)` -/
def retentionAfter (row : ExecutionPolicyRow) (request : PolicyPutRequest) : Int64 :=
  request.responseRetentionSeconds.getD row.responseRetentionSeconds

/-- The retention of a row of `application_conversation_policies`, with the check of the column. -/
structure ConversationRetention where
  defaultRetentionDays : Int32
  nonneg : 0 ≤ defaultRetentionDays.toInt

/-! ## The four times -/

def retentionExpiresAt (responseRetentionSeconds : Int64) (now : DateTime) :
    Except Panic (Option DateTime) :=
  if responseRetentionSeconds = 0 then return none
  else do
    let retention ← TimeDelta.seconds responseRetentionSeconds.toInt
    return some (← addDelta now retention)

/-- `retention_expires_at` of `create_conversation`. -/
def conversationExpiresAt (retentionDays : Int32) (now : DateTime) : Except Panic (Option DateTime) :=
  if retentionDays = 0 then return none
  else do
    let retention ← TimeDelta.days retentionDays.toInt
    return some (← addDelta now retention)

/-- `Utc::now() + Duration::hours(24)`, of every ledger. -/
def idempotencyExpiresAt (now : DateTime) : Except Panic DateTime := do
  let retention ← TimeDelta.hours 24
  addDelta now retention

/-- `new_expires_at` of a refreshed credential. -/
def tokenExpiresAt (expiresIn : Option Int64) (now : DateTime) : Except Panic (Option DateTime) :=
  match expiresIn with
  | none => return none
  | some seconds => do
    let lifetime ← TimeDelta.seconds (max seconds.toInt 0)
    return some (← addDelta now lifetime)

end Expiry

namespace Public

open Prog

structure ResponseRow where
  id : Nat
  status : PublicResponseStatus := .inProgress
  expiresAt : Option Nat

namespace ResponseRow

variable (row : ResponseRow)

/-- `status in ('queued', 'in_progress')`; nothing writes the former. -/
def live : Bool :=
  row.status = .inProgress

/-- `expires_at is not null and expires_at < now()` -/
def expired (now : Nat) : Bool :=
  row.expiresAt.any (· < now)

end ResponseRow

/-! ## Operations -/

inductive LifeOp
  /-- What comes before the insert of a streamed response. -/
  | prepareStream
  | now
  | insertStarted (expiresAt : Option Nat)
  /-- `MoiraExecutionService::new` -/
  | newExecution
  | executeStream
  | terminal (status : PublicResponseStatus)
  /-- An operation that does not touch the table. -/
  | request (o : ResponseOp)
  | supervisor (o : SupervisorOp)

abbrev LifeOp.Ans : LifeOp → Type
  | prepareStream => Except AppError Unit
  | now => Nat
  | insertStarted _ => Written PublicResponseRecord
  | newExecution | executeStream => Except AppError Unit
  | terminal _ => Written PublicResponseRecord
  | request o => o.Ans
  | supervisor o => o.Ans

abbrev lifeSig : Sig where
  Op := LifeOp
  Ans := LifeOp.Ans

/-- `retention_expires_at`: a retention of 0 keeps the row for ever. -/
def retentionExpiresAt {ε : Type} (responseRetentionSeconds : Nat) : Prog lifeSig ε (Option Nat) :=
  if responseRetentionSeconds = 0 then return none
  else do
    let now ← ask (S := lifeSig) .now
    return some (now + responseRetentionSeconds * 1000000)

def insertResponseStarted {ε : Type} (responseRetentionSeconds : Nat) :
    Prog lifeSig ε (Except AppError PublicResponseRecord) := do
  let expiresAt ← retentionExpiresAt responseRetentionSeconds
  let written ← ask (S := lifeSig) (.insertStarted expiresAt)
  return written.result

def writeTerminal {ε : Type} (status : PublicResponseStatus) :
    Prog lifeSig ε (Except AppError PublicResponseRecord) := do
  let written ← ask (S := lifeSig) (.terminal status)
  return written.result

/-- An operation of `create_response`. -/
def performResponse (responseRetentionSeconds : Nat) : (o : ResponseOp) → Prog lifeSig AppError o.Ans
  | .insertResponseStarted _ => insertResponseStarted responseRetentionSeconds
  | .completeResponse _ => writeTerminal .completed
  | .failResponse _ => writeTerminal .failed
  | o => ask (S := lifeSig) (.request o)

/-- An operation of the supervisor of a stream. -/
def performSupervisor : (o : SupervisorOp) → Prog lifeSig Empty o.Ans
  | .persist status _ => do
    let written ← writeTerminal status
    return written.map fun _ => ()
  | o => ask (S := lifeSig) (.supervisor o)

/-! ## Calls -/

inductive ResponseKind
  | awaited (hasher : IdempotencyHasher) (codec : ResponseCodec) (input : CallInput)
  | streamed (ctx : StreamContext)

structure ResponseCall where
  responseRetentionSeconds : Nat
  kind : ResponseKind

/-- `stream_response`, up to the task that supervises the stream. -/
def streamResponse (responseRetentionSeconds : Nat) : Prog lifeSig AppError Unit := do
  ofExcept (← ask (S := lifeSig) .prepareStream)
  let inserted ← insertResponseStarted responseRetentionSeconds
  let _ ← ofExcept inserted
  ofExcept (← ask (S := lifeSig) (.request (.audit "response.stream.started")))
  ofExcept (← ask (S := lifeSig) .newExecution)
  match ← ask (S := lifeSig) .executeStream with
  | .ok _ => return ()
  | .error err => do
    let _ ← writeTerminal (ε := AppError) .failed
    .fail err

namespace ResponseCall

variable (call : ResponseCall)

def start : Prog lifeSig Empty (Option SupervisorPoint) :=
  match call.kind with
  | .awaited hasher codec input => do
    let _ ← ((createResponse hasher codec input).interpret
      (performResponse call.responseRetentionSeconds)).attempt
    return none
  | .streamed _ => do
    match ← (streamResponse call.responseRetentionSeconds).attempt with
    | .ok _ => return some .announce
    | .error _ => return none

def code (point : SupervisorPoint) : Prog lifeSig Empty (Option SupervisorPoint) :=
  match call.kind with
  | .awaited .. => return none
  | .streamed ctx => (Supervisor.code ctx point).interpret performSupervisor

end ResponseCall

/-! ## The table -/

/-- What an observer writes down of a call. -/
inductive ResponsePhase
  | idle
  /-- It has read the clock for its expiry. -/
  | reading (at_ : Nat)
  /-- Its row is inserted, and there is no terminal update yet. -/
  | running (readAt : Option Nat)
  | over
  deriving DecidableEq

structure RetentionWorld where
  now : Nat := 0
  rows : List ResponseRow := []
  phase : Nat → ResponsePhase := fun _ => .idle

/-- The moment the clock was read at. -/
def ResponsePhase.readAt : ResponsePhase → Option Nat
  | reading at_ => some at_
  | running readAt => readAt
  | _ => none

namespace RetentionWorld

variable (w : RetentionWorld) (i : Nat)

def setPhase (phase : ResponsePhase) : RetentionWorld :=
  { w with phase := Function.update w.phase i phase }

def inserted (expiresAt : Option Nat) : RetentionWorld :=
  setPhase { w with rows := w.rows ++ [{ id := i, expiresAt }] } i (.running (w.phase i).readAt)

/-- The row after a terminal update, which is over unless its status says otherwise. -/
def ended (status : PublicResponseStatus) : RetentionWorld :=
  setPhase { w with rows := Rows.modify ResponseRow.id w.rows i fun row => { row with status := status } } i
    (if status = .inProgress then w.phase i else .over)

/-- `update responses … where id = $1 and status in ('queued', 'in_progress')` finds a row. -/
def findsLive : Bool :=
  w.rows.any fun row => row.id = i && row.live

/-- The ids one batch deletes: the expired rows that nobody has locked, the oldest expiry first. -/
def victims (limit : Nat) (locked : List Nat) : List Nat :=
  (((w.rows.filter fun row => row.expired w.now && !locked.contains row.id).insertionSort
    fun a b => a.expiresAt.getD 0 ≤ b.expiresAt.getD 0).take limit).map ResponseRow.id

/-- One batch of a sweep. -/
def deleteExpiredBatch (limit : Nat) (locked : List Nat) : RetentionWorld :=
  { w with rows := w.rows.filter fun row => !(w.victims limit locked).contains row.id }

end RetentionWorld

/-- The answer of a terminal update that finds no row. -/
def responseTerminal : AppError :=
  .conflict "response_terminal" "response is already terminal"

/-- The answers a statement can get, and the table after it. -/
def grantLife (i : Nat) (w : RetentionWorld) : (o : LifeOp) → o.Ans → Option RetentionWorld
  | .now, time => if time = w.now then some (w.setPhase i (.reading time)) else none
  | .insertStarted expiresAt, written =>
    match written.result, written.committed with
    | .ok _, true | .error _, true => some (w.inserted i expiresAt)
    | .ok _, false => none
    | .error _, false => some (w.setPhase i .over)
  | .terminal status, written =>
    match written.result, written.committed with
    | .ok _, true => if w.findsLive i then some (w.ended i status) else none
    | .ok _, false => none
    | .error err, true => if w.findsLive i ∧ err ≠ responseTerminal then some (w.ended i status) else none
    | .error err, false => if err = responseTerminal ∧ w.findsLive i then none else some w
  | .prepareStream, _ | .newExecution, _ | .executeStream, _ | .request _, _ | .supervisor _, _ =>
    some w

inductive RetentionEvent
  | elapse (micros : Nat)
  | sweep (limit : Nat) (locked : List Nat)

def retentionNature (w : RetentionWorld) : RetentionEvent → Option RetentionWorld
  | .elapse micros => some { w with now := w.now + micros }
  | .sweep limit locked => some (w.deleteExpiredBatch limit locked)

/-- Calls and sweeps, each statement one step. -/
def retentionTraffic (calls : Nat → ResponseCall) : System Nat where
  sig _ := lifeSig
  Point _ := SupervisorPoint
  code i := (calls i).code
  World := RetentionWorld
  Event := RetentionEvent
  grant := fun i w o x => grantLife i w o x
  nature := retentionNature

/-- No call has begun, and the table is empty. -/
def retentionAtStart (calls : Nat → ResponseCall) : (retentionTraffic calls).State where
  world := {}
  proc i := (calls i).start

/--
Time passes only as long as the retention of a call, counted from the moment it read the clock, is
not over before its terminal update.
-/
def InTime {calls : Nat → ResponseCall} (s : (retentionTraffic calls).State) :
    (retentionTraffic calls).Move → Prop
  | .nature (.elapse micros) => ∀ i t, (s.world.phase i).readAt = some t →
      s.world.now + micros ≤ t + (calls i).responseRetentionSeconds * 1000000
  | _ => True

end Public

end Moira
