import Moira.Execution.Ops
import Moira.Lib.Channel
import Moira.Public.Response

/-!
# The supervisor of a stream

`EventCollector` numbers the runtime events of one execution. The collector of a streamed execution
forwards them into a bounded channel; it shares a cancellation token with the consumer of that
channel.

`Feed` is the collector together with what it shares with the consumer.

`supervise_public_stream` relays the runtime events of an execution to the client as numbered
server-sent events, waits for the outcome, persists the terminal state of the response and only
then announces it.

Its loops are jumps between control points:

Left out: the ids and the timestamp of an event, which no branch reads.

- `push` never waits: a full or closed channel is recorded as `deliveryFailure` and cancels the
  execution
- `pushStream` waits for room, and reports what stopped it
- `settle sequence disconnected` — the outcome, the terminal update, the terminal event
-/

namespace Moira

open ExecutionFailureClass

structure EventCollector where
  nextSequence : Nat := 1
  deliveryFailure : Option ExecutionFailure := none
  outputCommitted : Bool := false

/--
A message of the event channel. `attempt` is not part of the message: it is the number of attempts
started when the message was sent, kept to say which attempt an event belongs to.
-/
structure Sent where
  attempt : Nat
  item : Except ExecutionFailure RuntimeEventEnvelope
  deriving DecidableEq

/-- The collector, its channel and its cancellation token. -/
structure Feed where
  collector : EventCollector := {}
  events : Channel Sent
  cancelled : Bool := false
  attempt : Nat := 0

def lifecycleBackpressure : ExecutionFailure :=
  .new streamBackpressureExceeded
    "stream consumer did not keep pace with execution lifecycle events"

def deliveryBackpressure : ExecutionFailure :=
  .new streamBackpressureExceeded
    "stream consumer did not accept output before the delivery deadline"

namespace Feed

/-- The next message, numbered. -/
def message (f : Feed) (event : RuntimeEvent) : Sent where
  attempt := f.attempt
  item := .ok { sequence := f.collector.nextSequence, event }

/-- The feed that has used up a number. -/
def bump (f : Feed) : Feed :=
  { f with collector := { f.collector with nextSequence := f.collector.nextSequence + 1 } }

/-- The first failure to forward an event is kept, and cancels the execution. -/
def giveUp (f : Feed) (failure : ExecutionFailure) : Feed :=
  { f with collector := { f.collector with deliveryFailure := some failure }, cancelled := true }

/-- `forward_now`: send without waiting, unless forwarding has failed before. -/
def forwardNow (f : Feed) (sent : Sent) : Feed :=
  if f.collector.deliveryFailure.isSome then f
  else match f.events.trySend sent with
    | (.sent, events) => { f with events }
    | (.closed, _) => f.giveUp cancelledFailure
    | (.full, _) => f.giveUp lifecycleBackpressure

/-- `push` of a live collector. -/
def push (f : Feed) (event : RuntimeEvent) : Feed :=
  f.bump.forwardNow (f.message event)

/--
`push_stream` of a live collector: how it can end, and the feed afterwards. The wait for room ends
with an accepted message, with the token, with a channel that is closed, or with the timeout.
-/
def pushStream (f : Feed) (event : RuntimeEvent) (ended : Pushed) : Option Feed :=
  match f.collector.deliveryFailure, ended with
  | some failure, .refused failure' => if failure' = failure then some f else none
  | some _, _ => none
  | none, .accepted =>
    match f.events.trySend (f.message event) with
    | (.sent, events) => some { f.bump with events }
    | _ => none
  | none, .refused failure =>
    if failure = cancelledFailure ∧ (f.cancelled ∨ f.events.receiverGone) ∨
        failure = deliveryBackpressure then some f.bump else none
  | none, .interrupted .cancelled => if f.cancelled then some f.bump else none
  | none, .interrupted .elapsed => some f.bump

def markOutputCommitted (f : Feed) : Feed :=
  { f with collector := { f.collector with outputCommitted := true } }

end Feed

/-! ## Deltas -/

/-- The output text a message carries. -/
def Sent.delta? (sent : Sent) : Option String :=
  match sent.item with
  | .ok envelope => envelope.event.delta?
  | .error _ => none

/-! ## Public events -/

inductive PublicEvent
  | created
  | inProgress
  | relayed (eventType : String) (event : RuntimeEvent)
  | completed (usage : UsageSummary)
  | failed (code message : String)
  | cancelled

/-- `PublicSseEnvelope`. As in `Sent`, `attempt` is history and not on the wire. -/
structure PublicSse where
  sequence : Nat
  event : PublicEvent
  attempt : Nat := 0

/-- The status a terminal event announces; the other events announce none. -/
def PublicEvent.terminalStatus : PublicEvent → Option PublicResponseStatus
  | completed _ => some .completed
  | failed .. => some .failed
  | cancelled => some .cancelled
  | created | inProgress | relayed .. => none

/-- The name a runtime event has on the public stream; the others are not relayed. -/
def RuntimeEvent.publicType : RuntimeEvent → Option String
  | .routingStarted => some "response.routing.started"
  | .routeSelected .. => some "response.routing.completed"
  | .modelSelected _ => some "response.model.selected"
  | .providerAttemptStarted .. => some "response.provider_attempt.started"
  | .outputTextDelta _ => some "response.output_text.delta"
  | .usageUpdated _ => some "response.usage.updated"
  | .providerAttemptFailed .. => some "response.provider_attempt.failed"
  | .fallbackSelected .. => some "response.fallback.selected"
  | .executionStarted | .executionCompleted _ | .executionFailed _
  | .toolCallStarted .. | .toolCallDelta .. | .toolCallCompleted | .toolResult ..
  | .agentProfileUnavailable .. | .candidateRanked _ => none

/-- `map_runtime_event`, on a message of the channel. An `Err` message is skipped by the loop. -/
def mapRuntimeEvent (sent : Sent) (sequence : Nat) : Option PublicSse :=
  match sent.item with
  | .error _ => none
  | .ok envelope => envelope.event.publicType.map fun eventType =>
    { sequence, event := .relayed eventType envelope.event, attempt := sent.attempt }

/-- The output text a public event carries. -/
def PublicSse.delta? (e : PublicSse) : Option String :=
  match e.event with
  | .relayed _ event => event.delta?
  | _ => none

/-! ## Terminal events -/

/-- A prepared stream: its command, and what the supervisor reads besides the outcome. -/
structure StreamContext where
  settings : RuntimeSettings
  command : ExecutionCommand
  /-- `stream_response` prepares its command with `stream = true`. -/
  streamed : command.options.stream = true
  hasher : IdempotencyHasher
  persistenceMode : String
  /-- The response belongs to a conversation. -/
  hasConversation : Bool

variable (ctx : StreamContext)

def terminalFailure (sequence : Nat) (failure : ExecutionFailure) : PublicSse where
  sequence := sequence
  event := .failed failure.failureClass.code failure.message

def terminalCancelled (sequence : Nat) : PublicSse where
  sequence := sequence
  event := .cancelled

/-! ## Operations -/

/-- What the `select!` of the relay loop came back with. -/
inductive Relay
  | closed
  | event (sent : Sent)
  | ended

inductive SupervisorOp
  | sendPublic (event : PublicSse)
  | nextEvent
  | cancel
  | drainEvent
  | awaitOutcome
  | isClosed
  | persist (status : PublicResponseStatus) (update : ResponseTerminalUpdate)
  | recordAssistant (outputText : Option String)
  | audit (action : String) (result : AuditResult)
  | dropAll

abbrev SupervisorOp.Ans : SupervisorOp → Type
  | sendPublic _ => Bool
  | nextEvent => Relay
  | cancel => Unit
  | drainEvent => Bool
  | awaitOutcome => Option (Except ExecutionFailure ExecutionOutcome)
  | isClosed => Bool
  | persist .. => Except AppError Unit
  | recordAssistant _ => Except AppError Unit
  | audit .. => Except AppError Unit
  | dropAll => Unit

abbrev supervisorSig : Sig where
  Op := SupervisorOp
  Ans := SupervisorOp.Ans

inductive SupervisorPoint
  | announce
  | forward (sequence : Nat)
  | drain (sequence : Nat)
  | settle (sequence : Nat) (disconnected : Bool)

namespace Supervisor

abbrev Code (α : Type) := Prog supervisorSig Empty α

abbrev ask (o : SupervisorOp) : Code o.Ans :=
  Prog.ask (S := supervisorSig) o

abbrev completeResponse (update : ResponseTerminalUpdate) : Code (Except AppError Unit) :=
  ask (.persist .completed update)

abbrev failResponse (update : ResponseTerminalUpdate) : Code (Except AppError Unit) :=
  ask (.persist .failed update)

abbrev cancelResponse (update : ResponseTerminalUpdate) : Code (Except AppError Unit) :=
  ask (.persist .cancelled update)

/-! ## Relaying -/

/-- The client is gone, or does not keep up: stop the execution and let it finish. -/
def disconnect (sequence : Nat) : Code SupervisorPoint := do
  ask .cancel
  pure (.drain sequence)

/-- The opening events, until one of them is refused. -/
def announce : Nat → List PublicEvent → Code SupervisorPoint
  | sequence, [] => pure (.forward sequence)
  | sequence, event :: rest => do
    if ← ask (.sendPublic { sequence, event }) then announce (sequence + 1) rest
    else disconnect sequence

/-- One turn of the relay loop. -/
def forward (sequence : Nat) : Code SupervisorPoint := do
  match ← ask .nextEvent with
  | .closed => disconnect sequence
  | .ended => pure (.settle sequence false)
  | .event sent =>
    match mapRuntimeEvent sent sequence with
    | none => pure (.forward sequence)
    | some mapped => do
      if ← ask (.sendPublic mapped) then pure (.forward (sequence + 1))
      else disconnect sequence

/-- One turn of the loop that empties the channel after a disconnect. -/
def drain (sequence : Nat) : Code SupervisorPoint := do
  if ← ask .drainEvent then pure (.drain sequence)
  else pure (.settle sequence true)

/-! ## Settling -/

/-- `record_conversation_assistant`: nothing to do without a conversation. -/
def recordConversationAssistant (outputText : Option String) : Code (Except AppError Unit) :=
  if ctx.hasConversation then ask (.recordAssistant outputText) else pure (.ok ())

/-- The client is gone: the response is cancelled, and nobody is told. -/
def settleDisconnected (outcome : Option ExecutionOutcome) : Code Unit := do
  match ← cancelResponse (cancellationUpdate ctx.hasher ctx.persistenceMode outcome) with
  | .error _ => do
    let _ ← ask (.audit "response.stream.cancellation_persistence_failed" .failed)
    pure ()
  | .ok _ => do
    let _ ← ask (.audit "response.stream.cancelled" .failed)
    pure ()

/-- Persist a failure; the event to send, unless the row could not be written. -/
def settleFailure (sequence : Nat) (failure : ExecutionFailure) (update : ResponseTerminalUpdate) :
    Code (Option PublicSse) := do
  match ← failResponse update with
  | .error _ => pure none
  | .ok _ => pure (some (terminalFailure sequence failure))

def settleSucceeded (sequence : Nat) (outcome : ExecutionOutcome) : Code (Option PublicSse) := do
  match ← completeResponse (terminalUpdateFromOutcome ctx.hasher ctx.persistenceMode outcome none) with
  | .error err =>
    let failure := ExecutionFailure.new internalError err.display
    settleFailure sequence failure (failureUpdate ctx.persistenceMode failure)
  | .ok _ => do
    match ← recordConversationAssistant ctx outcome.outputText with
    | .error _ => do
      let _ ← ask (.audit "response.stream.conversation_persistence_failed" .failed)
      pure (some { sequence, event := .completed outcome.usage })
    | .ok _ => do
      let _ ← ask (.audit "response.stream.completed" .success)
      pure (some { sequence, event := .completed outcome.usage })

def settleFailed (sequence : Nat) (outcome : ExecutionOutcome) : Code (Option PublicSse) := do
  let failure := outcome.failure.getD (.new internalError "execution failed")
  match ← settleFailure sequence failure (terminalUpdateFromOutcome ctx.hasher ctx.persistenceMode
      outcome (some failure)) with
  | none => pure none
  | some terminal => do
    let _ ← ask (.audit "response.stream.failed" .failed)
    pure (some terminal)

def settleCancelled (sequence : Nat) (outcome : ExecutionOutcome) : Code (Option PublicSse) := do
  match ← cancelResponse (cancellationUpdate ctx.hasher ctx.persistenceMode (some outcome)) with
  | .error _ => pure none
  | .ok _ => do
    let _ ← ask (.audit "response.stream.cancelled" .failed)
    pure (some (terminalCancelled sequence))

/-- An execution that ended in a failure instead of an outcome. -/
def settleError (sequence : Nat) (failure : ExecutionFailure) : Code (Option PublicSse) := do
  if failure.failureClass = requestCancelled then
    match ← cancelResponse (failureUpdate ctx.persistenceMode failure) with
    | .error _ => pure none
    | .ok _ => pure (some (terminalCancelled sequence))
  else settleFailure sequence failure (failureUpdate ctx.persistenceMode failure)

def outcomeUnavailable : ExecutionFailure :=
  .new internalError "stream outcome unavailable: channel closed"

/-- The terminal event, once its state is persisted. -/
def settleConnected (sequence : Nat) :
    Option (Except ExecutionFailure ExecutionOutcome) → Code (Option PublicSse)
  | some (.ok outcome) =>
    match outcome.status with
    | .succeeded => settleSucceeded ctx sequence outcome
    | .failed => settleFailed ctx sequence outcome
    | .cancelled => settleCancelled ctx sequence outcome
  | some (.error failure) => settleError ctx sequence failure
  | none => settleFailure sequence outcomeUnavailable (failureUpdate ctx.persistenceMode outcomeUnavailable)

/-- A client that went away while the outcome was awaited is noticed here. -/
def stillConnected (disconnected : Bool) : Code Bool := do
  if disconnected then pure false
  else if ← ask .isClosed then do
    ask .cancel
    pure false
  else pure true

def settle (sequence : Nat) (disconnected : Bool) : Code Unit := do
  let outcome ← ask .awaitOutcome
  if ← stillConnected disconnected then
    match ← settleConnected ctx sequence outcome with
    | none => pure ()
    | some terminal => do
      let _ ← ask (.sendPublic terminal)
      pure ()
  else settleDisconnected ctx (outcome.bind Except.toOption)

/-- The code at each control point; the task's handles are dropped when it returns. -/
def code : SupervisorPoint → Code (Option SupervisorPoint)
  | .announce => do
    let next ← announce 1 [.created, .inProgress]
    pure (some next)
  | .forward sequence => do
    let next ← forward sequence
    pure (some next)
  | .drain sequence => do
    let next ← drain sequence
    pure (some next)
  | .settle sequence disconnected => do
    settle ctx sequence disconnected
    ask .dropAll
    pure none

end Supervisor

end Moira
