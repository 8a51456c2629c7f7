import Moira.Lib.System
import Moira.Runner.Service

/-!
# Runner services over one engine

Any number of calls in any number of processes over one container engine. A process that is started
again is a new one: its memory is empty.

- the engine renames at once, and not to a name that a container already has, its own included; any
  of its answers may be an error, also when the change was made
- a call is cancelled and a process dies at any point; the write to a container's stdin is carried
  on by a task that outlives its call
- a container prints what it likes, and exits
-/

namespace Moira.Runner

/-- What was written to a container's stdin. -/
structure Written where
  call : Nat
  bytes : String

structure Container where
  id : ContainerId
  name : String
  labels : List (String × String)
  running : Bool := false
  transcript : TtyTranscript := ""
  /-- Removed containers are kept here, so that their ids stay taken. -/
  removed : Bool := false
  /-- A token or a failure has been in the stream. -/
  outcome : Bool := false
  stdin : List Written := []

def Container.record (c : Container) : ContainerRecord where
  id := c.id
  name := c.name
  labels := c.labels
  running := c.running

/-- The stream has a token or the mark of a failed exchange. -/
def showsOutcome (config : RunnerConfig) (transcript : TtyTranscript) : Bool :=
  (extractToken transcript config.tokenPrefix).isSome ||
    containsFailureMarker transcript config.failureMarkers

structure Request where
  process : Nat
  call : Call

/-! ## What a call has seen -/

structure Seen where
  listed : Option (List ContainerRecord) := none
  issued : Option Uuid := none
  /-- A container was asked for. -/
  created : Bool := false
  /-- The stream that the call has read last shows no outcome. -/
  clear : Bool := false
  /-- The runner that was not in the set of those exchanging. -/
  absent : Option Uuid := none
  /-- The connection to the container is open, and nothing is written yet. -/
  attached : Bool := false
  wrote : Bool := false
  recorded : Bool := false
  /-- The container in whose stream the call has found a token. -/
  token : Option ContainerId := none
  /-- The container that the call has renamed. -/
  renamed : Option ContainerId := none
  /-- The container that the call was last told is removed. -/
  removed : Option ContainerId := none
  /-- The errors of the engine, newest first. -/
  failures : List EngineError := []
  answered : Option (Except ServiceError RunnerResponse) := none

namespace Seen

def failed {α : Type} (seen : Seen) : Except EngineError α → Seen
  | .ok _ => seen
  | .error err => { seen with failures := err :: seen.failures }

variable (config : RunnerConfig)

def record (seen : Seen) : (o : RunnerOp) → o.Ans → Seen
  | .listRunners, answer => { seen.failed answer with listed := answer.toOption }
  | .transcript c, .ok transcript =>
    { seen with
      token := if (extractToken transcript config.tokenPrefix).isSome then some c else seen.token
      clear := !showsOutcome config transcript }
  | .transcript _, .error err => seen.failed (.error err : Except EngineError Unit)
  | .attach _, answer => { seen.failed answer with attached := answer.isOk }
  | .writeStdin .., reply =>
    { seen.failed reply.result with attached := false, wrote := reply.effective }
  | .rename c _, reply =>
    { seen.failed reply.result with renamed := if reply.result.isOk then some c else none }
  | .remove c, reply =>
    { seen.failed reply.result with removed := if reply.result.isOk then some c else none }
  | .create _, (_, reply) => { seen.failed reply.result with created := true }
  | .start _, reply => seen.failed reply.result
  | .containsExchanging id, submitted =>
    { seen with absent := bif submitted then none else some id }
  | .insertExchanging _, _ => { seen with recorded := true }
  | .newId, id => { seen with issued := some id }
  | .answer result, _ => { seen with answered := some result }
  | .begin, _ | .lockGate, _ | .unlockGate, _ | .removeExchanging _, _ | .utcNow, _ => seen

end Seen

/-! ## The world -/

structure World where
  containers : List Container
  now : Nat := 0
  /-- The set `exchanging` of each process. -/
  exchanging : Nat → List Uuid := fun _ => []
  /-- Who holds the `token_gate` of each process. -/
  gate : Nat → Option Nat := fun _ => none
  dead : Nat → Bool := fun _ => false
  gone : Nat → Bool := fun _ => false
  /-- The calls that have been answered something. -/
  started : List Nat := []
  /-- The UUIDs that were given out. -/
  issued : List Uuid := []
  seen : Nat → Seen := fun _ => {}
  /-- The runners whose token was returned, newest first. -/
  handed : List Uuid := []
  /-- The runners whose token had been returned when the call began. -/
  before : Nat → List Uuid := fun _ => []

namespace World

variable (lib : Libraries) (config : RunnerConfig) (requests : Nat → Request) (w : World) (i : Nat)

def present (id : ContainerId) : Option Container :=
  w.containers.find? fun c => c.id = id && !c.removed

/-- `list_runners`, in some order. -/
def records : List ContainerRecord :=
  ((w.containers.filter fun c => !c.removed && c.labels.lookup labelMarker = some labelMarkerValue).map
    Container.record)

def modify (id : ContainerId) (f : Container → Container) : World :=
  { w with containers := w.containers.map fun c => if c.id = id then f c else c }

def nameTaken (name : String) : Bool :=
  w.containers.any fun c => !c.removed && c.name = name

/-- The engine makes the change, or answers an error. -/
def change (reply : EngineReply) (possible : Bool) (changed : World) : Option World :=
  if reply.effective then if possible then some changed else none
  else
    match reply.result with
    | .ok _ => none
    | .error _ => some w

/-- A UUID reads back and is new. -/
def freshId (id : Uuid) : Bool :=
  lib.parseUuid (lib.formatUuid id) = some id && !w.issued.contains id &&
    w.containers.all fun c => runnerId lib c.labels ≠ some id

def write (container : ContainerId) (bytes : String) : World :=
  w.modify container fun c => { c with stdin := ⟨i, bytes⟩ :: c.stdin }

def insertExchanging (p : Nat) (id : Uuid) : World :=
  { w with exchanging := Function.update w.exchanging p (id :: w.exchanging p) }

def removeExchanging (p : Nat) (id : Uuid) : World :=
  { w with exchanging := Function.update w.exchanging p ((w.exchanging p).filter (· ≠ id)) }

def respond : (o : RunnerOp) → o.Ans → Option World
  | .begin, _ => some { w with before := Function.update w.before i w.handed }
  | .lockGate, _ =>
    if w.gate (requests i).process = none then
      some { w with gate := Function.update w.gate (requests i).process (some i) }
    else none
  | .unlockGate, _ =>
    some { w with gate := fun p => (w.gate p).filter (· ≠ i) }
  | .listRunners, .ok records => if records.Perm w.records then some w else none
  | .listRunners, .error _ => some w
  | .transcript c, .ok transcript =>
    if (w.present c).any fun k => k.transcript = transcript then some w else none
  | .transcript _, .error _ => some w
  | .attach c, .ok _ => if (w.present c).isSome then some w else none
  | .attach _, .error _ => some w
  | .writeStdin c bytes, reply => w.change reply (w.present c).isSome (w.write i c bytes)
  | .rename c newName, reply =>
    w.change reply ((w.present c).isSome && !w.nameTaken newName)
      (w.modify c fun k => { k with name := newName })
  | .remove c, reply => w.change reply true (w.modify c fun k => { k with removed := true })
  | .create spec, (id, reply) =>
    w.change reply (!w.nameTaken spec.name && w.containers.all fun c => c.id ≠ id)
      { w with containers := { id, name := spec.name, labels := spec.labels } :: w.containers }
  | .start c, reply =>
    w.change reply (w.present c).isSome (w.modify c fun k => { k with running := true })
  | .containsExchanging id, submitted =>
    if (w.exchanging (requests i).process).contains id = submitted then some w else none
  | .insertExchanging id, _ => some (w.insertExchanging (requests i).process id)
  | .removeExchanging id, _ => some (w.removeExchanging (requests i).process id)
  | .utcNow, now => if w.now = now then some w else none
  | .newId, id => if w.freshId lib id then some { w with issued := id :: w.issued } else none
  | .answer (.ok (.token _)), _ =>
    match (requests i).call with
    | .takeToken id => some { w with handed := id :: w.handed }
    | _ => some w
  | .answer _, _ => some w

/-- The call writes down what it was answered. -/
def see (o : RunnerOp) (x : o.Ans) : World :=
  { w with
    seen := Function.update w.seen i ((w.seen i).record config o x)
    started := if i ∈ w.started then w.started else i :: w.started }

end World

/-- What goes on when the call is cancelled. -/
def RunnerOp.detached : RunnerOp → Bool
  | writeStdin .. => true
  | _ => false

inductive WorldEvent
  | wait (seconds : Nat)
  | observe (container : ContainerId) (transcript : TtyTranscript) (running : Bool)
  | die (process : Nat)
  | cancel (i : Nat)

variable (lib : Libraries) (config : RunnerConfig) (requests : Nat → Request)

def grant (i : Nat) (w : World) (o : RunnerOp) (x : o.Ans) : Option World :=
  if w.dead (requests i).process || (w.gone i && !o.detached) then none
  else (w.respond lib requests i o x).map fun w' => w'.see config i o x

def nature (w : World) : WorldEvent → Option World
  | .wait seconds => some { w with now := w.now + seconds }
  | .observe c transcript running =>
    some (w.modify c fun k =>
      { k with transcript, running, outcome := k.outcome || showsOutcome config transcript })
  | .die p => some { w with dead := Function.update w.dead p true }
  | .cancel i => some { w with
      gone := Function.update w.gone i true, gate := fun p => (w.gate p).filter (· ≠ i) }

def runner : System Nat where
  sig _ := runnerSig
  Point _ := Unit
  code i := code lib config (requests i).call
  World := World
  Event := WorldEvent
  grant := grant lib config requests
  nature := nature config

/-- No call has made a step yet. -/
def runnerInitial (containers : List Container) : (runner lib config requests).State where
  world := { containers }
  proc i := code lib config (requests i).call ()

end Moira.Runner
