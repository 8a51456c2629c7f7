import Moira.Orchestration.Circuit

/-!
# Executions that share their circuit breakers

Any number of executions, each running the whole pipeline, over one `CircuitBreakerRegistry`.

- `breakerTraffic` — the system: an operation is one step, and between two of them others act, time
  passes, or a configuration change resets entries
-/

namespace Moira

/-- What a breaker reads of the policy of a candidate. -/
def ProviderRuntimePolicy.breaker (policy : ProviderRuntimePolicy) : RuntimePolicy where
  version := policy.version
  circuitFailureThreshold := policy.circuitFailureThreshold
  circuitOpenDurationMs := policy.circuitOpenDurationMs

def ModelCandidate.circuitKey (candidate : ModelCandidate) : CircuitKey :=
  (candidate.providerId, candidate.providerModelId)

/-- The candidate that `before_call` has last let pass, and the attempt row inserted since. -/
structure Watch where
  admitted : Option ModelCandidate := none
  attempt : Option AttemptInsert := none

namespace Watch

def record (g : Watch) : (o : ExecOp) → o.Ans → Watch
  | .beforeCall _ candidate, .ok _ => { admitted := some candidate }
  | .beforeCall .., .error _ => {}
  | .insertAttemptStarted row, .ok _ => { g with attempt := some row }
  | _, _ => g

end Watch

structure BreakerWorld (Pid : Type) where
  breakers : BreakerState := {}
  watch : Pid → Watch := fun _ => {}

inductive BreakerEvent
  | elapse (nanos : Nat)
  | reset (scope : CircuitResetScope)

/-- An execution that is awaited, or one that streams. -/
inductive ExecutionTask
  | respond (settings : RuntimeSettings) (command : ExecutionCommand)
  | stream (settings : RuntimeSettings) (command : ExecutionCommand)

def ExecutionTask.code : ExecutionTask → Prog execSig Empty (Option Unit)
  | .respond settings command => do
    let _ ← (executeWithEvents settings command).attempt
    pure none
  | .stream settings command => streamTask settings command

section

variable {Pid : Type} [DecidableEq Pid]

namespace BreakerWorld

/-- The breakers after an operation, unless they would have answered something else. -/
def answer (breakers : BreakerState) : (o : ExecOp) → o.Ans → Option BreakerState
  | .beforeCall _ candidate, x =>
    let asked := breakers.registry.beforeCall candidate.circuitKey candidate.runtimePolicy.breaker
      breakers.now
    if x = asked.1.map fun _ => () then some { breakers with registry := asked.2 } else none
  | .onSuccess providerId modelId, _ =>
    some { breakers with registry := breakers.registry.onSuccess (providerId, modelId) }
  | .onFailure providerId modelId policy failureClass, _ =>
    some { breakers with
      registry := breakers.registry.onFailure (providerId, modelId) policy.breaker failureClass
        breakers.now }
  | _, _ => some breakers

end BreakerWorld

/-- What the registry answers; every other operation may be answered in any way. -/
def grantBreakers (i : Pid) (w : BreakerWorld Pid) (o : ExecOp) (x : o.Ans) :
    Option (BreakerWorld Pid) :=
  (BreakerWorld.answer w.breakers o x).map fun breakers =>
    { breakers, watch := Function.update w.watch i ((w.watch i).record o x) }

def breakerNature (w : BreakerWorld Pid) : BreakerEvent → Option (BreakerWorld Pid)
  | .elapse nanos => some { w with breakers := { w.breakers with now := w.breakers.now + nanos } }
  | .reset scope =>
    some { w with
      breakers := { w.breakers with registry := w.breakers.registry.resetForResource scope } }

def breakerTraffic (tasks : Pid → ExecutionTask) : System Pid where
  sig _ := execSig
  Point _ := Unit
  code i _ := (tasks i).code
  World := BreakerWorld Pid
  Event := BreakerEvent
  grant := grantBreakers
  nature := breakerNature

/-- Every execution is still to begin. -/
def breakersAtStart (tasks : Pid → ExecutionTask) (breakers : BreakerState) :
    (breakerTraffic tasks).State where
  world := { breakers }
  proc i := (tasks i).code

end

/-! ## Calls -/

/-- The operations that send a request to the provider. -/
def isProviderCall : ExecOp → Bool
  | .completion | .runToolLoop | .startStream => true
  | _ => false

def asksBreaker : ExecOp → Bool
  | .beforeCall .. => true
  | _ => false

/-- The program can come to a provider call without asking the breaker again. -/
inductive StillCalls {ε α : Type} : Prog execSig ε α → Prop
  | call {o : ExecOp} {k : o.Ans → Prog execSig ε α} (h : isProviderCall o = true) :
      StillCalls (Prog.op (S := execSig) o k)
  | later {o : ExecOp} {k : o.Ans → Prog execSig ε α} (h : asksBreaker o = false) (x : o.Ans)
      (hrest : StillCalls (k x)) : StillCalls (Prog.op (S := execSig) o k)

/--
A move that is no failure of a provider, or one after which the breaker still lets pass every
execution that it has let pass before and that can still come to its call: the one that has failed,
when it may retry, and the others.
-/
def FailsAlone {Pid : Type} [DecidableEq Pid] {tasks : Pid → ExecutionTask}
    (s : (breakerTraffic tasks).State) : (breakerTraffic tasks).Move → Prop
  | .act i _ =>
    match s.proc i with
    | .op (.onFailure providerId modelId policy failureClass) k =>
      ∀ j candidate, (s.world.watch j).admitted = some candidate →
        StillCalls (Function.update s.proc i (k ()) j) →
        (s.world.breakers.registry.onFailure (providerId, modelId) policy.breaker failureClass
          s.world.breakers.now).refused candidate.circuitKey candidate.runtimePolicy.breaker
            s.world.breakers.now = false
    | _ => True
  | _ => True

end Moira
