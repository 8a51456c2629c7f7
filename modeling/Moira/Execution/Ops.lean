import Moira.Lib.Program
import Moira.Execution.Types

/-!
# The operations of an execution

What the execution task asks of the world around it, one operation for each `await` (and for each
reading of the clock, of a random id, of the cancellation token).

- database: the attempt rows, the usage records, the audit log
- routing, credentials, circuit breaker and permits: services whose answers the execution obeys
- the provider: a completion, a tool loop, or a stream of items
- the event collector, which outlives an interrupted call and a failed execution: it is asked to
  push an event and to remember that output was committed
- the end of a streamed execution: its outcome is sent, and then the event sender is dropped

**Interrupts.** The provider call runs inside `select!` with the cancellation token and inside a
timeout. Either can take the place of the call's own answer at any `await` of the call, so those
operations answer `Interruptible` (`pushStream` answers `Pushed`). A message that was not accepted
yet is then not sent.

A stream's items are fixed when it starts; when each of them arrives, or whether it arrives before
an interrupt, is left to `nextItem`.
-/

namespace Moira

/-- What cut a provider call short: the cancellation token or the attempt's timeout. -/
inductive Interrupt
  | cancelled
  | elapsed

inductive Interruptible (α : Type)
  | done (a : α)
  | interrupted (i : Interrupt)

/-- The answer of an operation that runs under a deadline of its own. -/
inductive Timed (α : Type)
  | done (a : α)
  | elapsed

inductive AuditResult
  | success
  | failed

/-- `ExecutionAttemptInsert`: the row written before the provider is called. -/
structure AttemptInsert where
  id : Uuid
  attemptNumber : Int
  routeId : Uuid
  providerId : Uuid
  providerModelId : Uuid
  credentialId : Uuid
  candidateRank : Nat
  selectionReason : AttemptSelectionReason

/--
The terminal update of an attempt row. The columns `status` and `failure_class` are read off the
failure (`attemptStatusForFailure`).
-/
inductive AttemptUpdate
  | succeeded (usage : UsageSummary) (providerRequestId : Option String)
  | failed (failure : ExecutionFailure) (usage : UsageSummary)

def AttemptUpdate.usage : AttemptUpdate → UsageSummary
  | .succeeded usage _ => usage
  | .failed _ usage => usage

structure UsageRecordInsert where
  attemptId : Uuid
  providerId : Uuid
  providerModelId : Uuid
  credentialId : Uuid
  usage : UsageSummary
  failureClass : Option ExecutionFailureClass

/-- How a push that waits for room in the event channel ended. -/
inductive Pushed
  | accepted
  | refused (failure : ExecutionFailure)
  | interrupted (i : Interrupt)

inductive SleepEnd
  | slept
  | cancelled
  deriving DecidableEq

/-- What `stream.next()` under the idle timeout came back with. -/
inductive NextItem
  | ready
  | idle

inductive ExecOp
  | now
  | newId
  | isCancelled
  | sleep (ms : Nat)
  | audit (action : String) (result : AuditResult) (attemptId : Option Uuid)
      (failureClass : Option ExecutionFailureClass)
  | ensureApplicationActive (applicationId : Uuid)
  | selectRoute
  | findAgentProfileReference (id : Uuid)
  | resolveAgentSkills (profile : Option Uuid)
  | selectCandidates (policy : EffectiveExecutionPolicy) (route : RouteDecision)
  | resolveCredential (rank : Nat) (candidate : ModelCandidate)
  | beforeCall (rank : Nat) (candidate : ModelCandidate)
  | runtimeHandle (rank : Nat) (candidate : ModelCandidate)
  | insertAttemptStarted (row : AttemptInsert)
  | acquire (candidate : ModelCandidate)
  | buildCompletionRequest
  | completion
  | runToolLoop
  | startStream
  | nextItem (idleTimeoutMs : Nat)
  | persistenceTick
  | updateAttempt (attemptId : Uuid) (update : AttemptUpdate)
  | insertUsageRecord (row : UsageRecordInsert)
  | touchCredentialUsed (credentialId : Uuid)
  | auditBounded (action : String) (attemptId : Uuid)
  | onSuccess (providerId modelId : Uuid)
  | onFailure (providerId modelId : Uuid) (policy : ProviderRuntimePolicy)
      (failureClass : ExecutionFailureClass)
  | push (event : RuntimeEvent)
  | pushStream (event : RuntimeEvent) (sendTimeoutMs : Nat)
  | markOutputCommitted
  | outputCommitted
  | deliveryFailure
  | sendOutcome (result : Except ExecutionFailure ExecutionOutcome)
  | dropEvents

/-- The type of the answer to each operation. -/
abbrev ExecOp.Ans : ExecOp → Type
  | now => Nat
  | newId => Uuid
  | isCancelled => Bool
  | sleep _ => SleepEnd
  | audit .. => Except AppError Unit
  | ensureApplicationActive _ => Except AppError Unit
  | selectRoute => Except ExecutionFailure RouteDecision
  | findAgentProfileReference _ => Except AppError AgentProfileResolution
  | resolveAgentSkills _ => Except ExecutionFailure Bool
  | selectCandidates .. => Except ExecutionFailure (List ModelCandidate)
  | resolveCredential .. => Timed (Except ExecutionFailure Uuid)
  | beforeCall .. => Except ExecutionFailure Unit
  | runtimeHandle .. => Timed (Except ExecutionFailure Unit)
  | insertAttemptStarted _ => Except AppError Unit
  | acquire _ => Except CapacityScope Unit
  | buildCompletionRequest => Except ExecutionFailure Unit
  | completion => Interruptible (Except ExecutionFailure ExecutionRunOutput)
  | runToolLoop => Interruptible (Except FailedAttempt ExecutionRunOutput)
  | startStream =>
    Interruptible (Except ExecutionFailure (List (Except ExecutionFailure RuntimeStreamItem)))
  | nextItem _ => Interruptible NextItem
  | persistenceTick => Timed Unit
  | updateAttempt .. => Except AppError Unit
  | insertUsageRecord _ => Except AppError Unit
  | touchCredentialUsed _ => Except AppError Unit
  | auditBounded .. => Timed (Except AppError Unit)
  | onSuccess .. => Unit
  | onFailure .. => Unit
  | push _ => Unit
  | pushStream .. => Pushed
  | markOutputCommitted => Unit
  | outputCommitted => Bool
  | deliveryFailure => Option ExecutionFailure
  | sendOutcome _ => Unit
  | dropEvents => Unit

abbrev execSig : Sig where
  Op := ExecOp
  Ans := ExecOp.Ans

/-- The programs of the execution task. -/
abbrev Exec (α : Type) := Prog execSig AppError α

namespace Exec

/-- Issue an operation. -/
abbrev ask (o : ExecOp) : Exec o.Ans :=
  Prog.ask (S := execSig) o

/-- `.await?` on a fallible operation. -/
abbrev orFail {α : Type} (result : Except AppError α) : Exec α :=
  Prog.ofExcept result

/-- A statement behind an `if` without `else`. -/
def when (condition : Bool) (p : Exec Unit) : Exec Unit :=
  if condition then p else pure ()

/-- `audit_runtime_event`, `audit_execution` and `audit_execution_success`. -/
def audit (action : String) (result : AuditResult) (attemptId : Option Uuid)
    (failureClass : Option ExecutionFailureClass) : Exec Unit := do
  orFail (← ask (.audit action result attemptId failureClass))

def insertAttemptStarted (row : AttemptInsert) : Exec Unit := do
  orFail (← ask (.insertAttemptStarted row))

/-- `update_attempt`: the token counts are converted before the statement is sent. -/
def updateAttempt (attemptId : Uuid) (update : AttemptUpdate) : Exec Unit := do
  if update.usage.fitsBigint then
    orFail (← ask (.updateAttempt attemptId update))
  else
    .fail (.internal "usage value exceeds storage range")

/-- `insert_usage_record`, with the same conversion. -/
def insertUsageRecord (row : UsageRecordInsert) : Exec Unit := do
  if row.usage.fitsBigint then
    orFail (← ask (.insertUsageRecord row))
  else
    .fail (.internal "usage value exceeds storage range")

def touchCredentialUsed (credentialId : Uuid) : Exec Unit := do
  orFail (← ask (.touchCredentialUsed credentialId))

/-- `events.push`. -/
def push (event : RuntimeEvent) : Exec Unit :=
  ask (.push event)

/-- `push_tool_result_events`. -/
def pushToolResults (attemptId : Uuid) : List ToolCallRecord → Exec Unit
  | [] => pure ()
  | record :: rest => do
    push (.toolResult attemptId record)
    pushToolResults attemptId rest

end Exec

end Moira
