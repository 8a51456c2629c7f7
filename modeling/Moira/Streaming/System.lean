import Moira.Lib.System
import Moira.Execution.Inner
import Moira.Streaming.Supervisor

/-!
# A streamed response as two concurrent tasks

The task of `execute_stream` and the task of `supervise_public_stream`, with what they share: the
event feed, the slot of the outcome, the channel to the client and the response row. The world
decides what each operation answers:

- the services of the execution (database, routing, provider) answer anything; only a cancellation
  has to come from the token
- a write of the response row succeeds only on a row that is there and still in progress. When it
  reports an error it may have been committed all the same (`commitsUnacked`)
- the client receives events and goes away, retention sweeps the row, a task dies at any point
-/

namespace Moira.Streaming

inductive Task
  | executor
  | supervisor
  deriving DecidableEq

/-- The oneshot channel of the outcome. -/
inductive OutcomeSlot
  | pending
  | sent (result : Except ExecutionFailure ExecutionOutcome)
  | dropped

/-- The response row: its status and the terminal update it received. -/
structure ResponseRow where
  status : PublicResponseStatus := .inProgress
  update : Option ResponseTerminalUpdate := none

structure World where
  feed : Feed
  outcome : OutcomeSlot := .pending
  pub : Channel PublicSse
  row : ResponseRow := {}
  /-- Retention deleted the row; `row` is what it last was. -/
  swept : Bool := false
  /-- The assistant messages stored for the response. -/
  messages : List String := []
  /-- A write that reports an error is committed all the same. -/
  commitsUnacked : Bool := false
  dead : Task → Bool := fun _ => false

variable (ctx : StreamContext)

/-- Before the first step of either task. -/
def World.initial : World where
  feed := { events := { capacity := ctx.settings.internalStreamQueueCapacity } }
  pub := { capacity := max ctx.settings.internalStreamQueueCapacity 1 }

namespace World

/-! ## What the execution is answered -/

def ofFeed (w : World) (feed : Feed) : World :=
  { w with feed }

/-- An interrupt by the token needs the token. -/
def interruptible (w : World) {α : Type} : Interruptible α → Option World
  | .interrupted .cancelled => if w.feed.cancelled then some w else none
  | _ => some w

/-- `outcome_tx.send`. -/
def sendOutcome (w : World) (result : Except ExecutionFailure ExecutionOutcome) : World :=
  { w with outcome := .sent result }

def dropEvents (w : World) : World :=
  w.ofFeed { w.feed with events := { w.feed.events with senderGone := true } }

def startAttempt (w : World) : World :=
  w.ofFeed { w.feed with attempt := w.feed.attempt + 1 }

def grantExec (w : World) : (o : ExecOp) → o.Ans → Option World
  | .push event, _ => some (w.ofFeed (w.feed.push event))
  | .pushStream event _, ended => (w.feed.pushStream event ended).map w.ofFeed
  | .markOutputCommitted, _ => some (w.ofFeed w.feed.markOutputCommitted)
  | .outputCommitted, committed =>
    if committed = w.feed.collector.outputCommitted then some w else none
  | .deliveryFailure, failure =>
    if failure = w.feed.collector.deliveryFailure then some w else none
  | .isCancelled, cancelled => if cancelled = w.feed.cancelled then some w else none
  | .sleep _, .cancelled => if w.feed.cancelled then some w else none
  | .completion, answer => w.interruptible answer
  | .runToolLoop, answer => w.interruptible answer
  | .startStream, answer => w.interruptible answer
  | .nextItem _, answer => w.interruptible answer
  | .insertAttemptStarted _, .ok _ => some w.startAttempt
  | .sendOutcome result, _ => some (w.sendOutcome result)
  | .dropEvents, _ => some w.dropEvents
  | _, _ => some w

/-! ## What the supervisor is answered -/

/-- `send_public_event`: the channel took the event, or it is closed, or the timeout passed. -/
def sendPublic (w : World) (event : PublicSse) : Bool → Option World
  | false => some w
  | true =>
    match w.pub.trySend event with
    | (.sent, pub) => some { w with pub }
    | _ => none

def nextEvent (w : World) : Relay → Option World
  | .closed => if w.pub.receiverGone then some w else none
  | .event sent =>
    match w.feed.events.recv with
    | some (some sent', events) =>
      if sent' = sent then some (w.ofFeed { w.feed with events }) else none
    | _ => none
  | .ended =>
    match w.feed.events.recv with
    | some (none, _) => some w
    | _ => none

def drainEvent (w : World) (more : Bool) : Option World :=
  match w.feed.events.recv with
  | some (received, events) =>
    if more = received.isSome then some (w.ofFeed { w.feed with events }) else none
  | none => none

def awaitOutcome (w : World) : Option (Except ExecutionFailure ExecutionOutcome) → Option World
  | some result =>
    match w.outcome with
    | .sent result' => if result' = result then some w else none
    | _ => none
  | none =>
    match w.outcome with
    | .dropped => some w
    | _ => none

/-- The columns a terminal statement writes; completing a response leaves the failure alone. -/
def written (status : PublicResponseStatus) (update : ResponseTerminalUpdate) : ResponseRow where
  status := status
  update := some (match status with
    | .completed => { update with failureClass := none, failureMessage := none }
    | _ => update)

/-- The guard of every terminal statement. -/
def writable (w : World) : Bool :=
  !w.swept && w.row.status = .inProgress

/-- `complete_response`, `fail_response` and `cancel_response`. -/
def persist (w : World) (status : PublicResponseStatus) (update : ResponseTerminalUpdate) :
    Except AppError Unit → Option World
  | .ok _ => if w.writable then some { w with row := written status update } else none
  | .error _ =>
    if w.commitsUnacked && w.writable then some { w with row := written status update } else some w

/-- `record_assistant_response`: there is a message to store when there is output. -/
def recordAssistant (w : World) (outputText : Option String) : Except AppError Unit → World
  | .ok _ => { w with messages := w.messages ++ outputText.toList }
  | .error _ =>
    if w.commitsUnacked then { w with messages := w.messages ++ outputText.toList } else w

def cancel (w : World) : World :=
  w.ofFeed { w.feed with cancelled := true }

/-- Both handles are dropped; dropping an `ExecutionStreamHandle` cancels it. -/
def dropAll (w : World) : World :=
  { w with
    pub := { w.pub with senderGone := true }
    feed := { w.feed with
      events := { w.feed.events with receiverGone := true }, cancelled := true } }

def grantSupervisor (w : World) : (o : SupervisorOp) → o.Ans → Option World
  | .sendPublic event, accepted => w.sendPublic event accepted
  | .nextEvent, relay => w.nextEvent relay
  | .cancel, _ => some w.cancel
  | .drainEvent, more => w.drainEvent more
  | .awaitOutcome, outcome => w.awaitOutcome outcome
  | .isClosed, closed => if closed = w.pub.receiverGone then some w else none
  | .persist status update, result => w.persist status update result
  | .recordAssistant outputText, result => some (w.recordAssistant outputText result)
  | .audit .., _ => some w
  | .dropAll, _ => some w.dropAll

end World

/-! ## The system -/

abbrev sig : Task → Sig
  | .executor => execSig
  | .supervisor => supervisorSig

abbrev Point : Task → Type
  | .executor => Unit
  | .supervisor => SupervisorPoint

def code : (i : Task) → Point i → Prog (sig i) Empty (Option (Point i))
  | .executor, _ => streamTask ctx.settings ctx.command
  | .supervisor, point => Supervisor.code ctx point

/-- A task that died asks for nothing any more. -/
def grant (i : Task) (w : World) (o : (sig i).Op) (x : (sig i).Ans o) : Option World :=
  if w.dead i then none
  else match i with
    | .executor => w.grantExec o x
    | .supervisor => w.grantSupervisor o x

inductive Event
  | clientReceives
  | clientLeaves
  | sweep
  | toggleUnacked
  | kill (i : Task)

def OutcomeSlot.drop : OutcomeSlot → OutcomeSlot
  | .pending => .dropped
  | slot => slot

/-- What is dropped with a task that dies. -/
def World.kill (w : World) : Task → World
  | .executor =>
    { w.dropEvents with outcome := w.outcome.drop, dead := Function.update w.dead .executor true }
  | .supervisor => { w.dropAll with dead := Function.update w.dead .supervisor true }

def nature (w : World) : Event → Option World
  | .clientReceives =>
    match w.pub.recv with
    | some (some _, pub) => some { w with pub }
    | _ => none
  | .clientLeaves => some { w with pub := { w.pub with receiverGone := true } }
  | .sweep => some { w with swept := true }
  | .toggleUnacked => some { w with commitsUnacked := !w.commitsUnacked }
  | .kill i => some (w.kill i)

/-- The two tasks of a streamed response. -/
def system : System Task where
  sig := sig
  Point := Point
  code := code ctx
  World := World
  Event := Event
  grant := grant
  nature := nature

/-- Both tasks have been spawned and neither has moved. -/
def initial : (system ctx).State where
  world := World.initial ctx
  proc
    | .executor => code ctx .executor ()
    | .supervisor => code ctx .supervisor .announce

end Moira.Streaming
