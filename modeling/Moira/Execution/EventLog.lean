import Moira.Execution.Inner

/-!
# What an observer writes down of an execution

What an observer of the operations writes down about the attempts of one execution: the candidates
that were visited, what each visit came to, and the attempt rows with their terminal updates.
Everything is kept **newest first**.

`attemptContract` is what the two loops owe to this journal: when a candidate may be visited, when
a further attempt may be inserted, and which row may receive a terminal update. The database's part
is that an insert succeeds only on a fresh primary key and a positive attempt number.

The pipeline emits a terminal event where it refuses a command, where terminal persistence has ended
and where the candidates are exhausted, and closes an attempt that the provider has answered. It
emits nothing when it returns from within the loops, nor for an attempt that is refused its permits,
has no request to send or times out.
-/

namespace Moira

/-- An attempt row, with the terminal updates it has received. -/
structure AttemptEntry where
  id : Uuid
  number : Int
  providerId : Uuid
  providerModelId : Uuid
  updates : List AttemptUpdate := []

/-- The visit of one candidate: a refusal before any attempt, and the attempts made. -/
structure Visit where
  rank : Nat
  setback : Option ExecutionFailure := none
  attempts : List AttemptEntry := []

structure Journal where
  candidates : List ModelCandidate := []
  visits : List Visit := []
  /-- Terminal persistence of a successful attempt ran out of its budget. -/
  overrun : Bool := false

/-- The failure the only terminal update of an attempt recorded. -/
def AttemptEntry.failure (a : AttemptEntry) : Option ExecutionFailure :=
  match a.updates with
  | [.failed failure _] => some failure
  | _ => none

/-- The failure a visit was left with: of its last attempt, or the refusal before the first. -/
def Visit.leftWith (v : Visit) : Option ExecutionFailure :=
  match v.attempts with
  | [] => v.setback
  | a :: _ => a.failure

/-- The attempt rows of the execution. -/
def Journal.attempts (j : Journal) : List AttemptEntry :=
  j.visits.flatMap (·.attempts)

/-- Work on the visit of a candidate, which is the newest one or starts now. -/
def onVisit (rank : Nat) (f : Visit → Visit) : List Visit → List Visit
  | v :: vs => if v.rank = rank then f v :: vs else f { rank } :: v :: vs
  | [] => [f { rank }]

def Journal.onVisit (j : Journal) (rank : Nat) (f : Visit → Visit) : Journal :=
  { j with visits := Moira.onVisit rank f j.visits }

/-- A row receives a terminal update. -/
def AttemptEntry.receive (attemptId : Uuid) (update : AttemptUpdate) (a : AttemptEntry) :
    AttemptEntry :=
  if a.id = attemptId then { a with updates := update :: a.updates } else a

def Visit.receive (attemptId : Uuid) (update : AttemptUpdate) (v : Visit) : Visit :=
  { v with attempts := v.attempts.map (AttemptEntry.receive attemptId update) }

def Journal.receive (j : Journal) (attemptId : Uuid) (update : AttemptUpdate) : Journal :=
  { j with visits := j.visits.map (Visit.receive attemptId update) }

def AttemptInsert.entry (row : AttemptInsert) : AttemptEntry where
  id := row.id
  number := row.attemptNumber
  providerId := row.providerId
  providerModelId := row.providerModelId

/-- The refusal a phase before the first attempt came back with. -/
def refusalOf {α : Type} : Timed (Except ExecutionFailure α) → Option ExecutionFailure
  | .done (.ok _) => none
  | .done (.error failure) => some failure
  | .elapsed => some deadlineFailure

/-- What one exchange adds to the journal. -/
def Journal.record (j : Journal) : (o : ExecOp) → o.Ans → Journal
  | .selectCandidates policy _, .ok candidates =>
    { j with candidates := candidates.take (maxCandidates policy) }
  | .resolveCredential rank _, answer =>
    j.onVisit rank fun v => { v with setback := refusalOf answer }
  | .beforeCall rank _, .error failure =>
    j.onVisit rank fun v => { v with setback := some failure }
  | .runtimeHandle rank _, answer =>
    j.onVisit rank fun v => { v with setback := refusalOf answer }
  | .insertAttemptStarted row, .ok _ =>
    j.onVisit row.candidateRank fun v => { v with attempts := row.entry :: v.attempts }
  | .updateAttempt attemptId update, .ok _ => j.receive attemptId update
  | .persistenceTick, .elapsed => { j with overrun := true }
  | _, _ => j

/-- The journal of a list of exchanges. -/
def journalOf (tr : List (Prog.Exchange execSig)) : Journal :=
  tr.foldl (fun j e => j.record e.1 e.2) {}

/-! ## The contract -/

/-- A visit after which the next candidate may be tried. -/
def Visit.Closed (policy : EffectiveExecutionPolicy) (v : Visit) : Prop :=
  policy.allowFallback = true ∧ ∃ failure, v.leftWith = some failure ∧
    failure.fallbackEligible = true

/-- The newest visit, with what came before it. -/
def Journal.At (j : Journal) (rank : Nat) (v : Visit) (vs : List Visit) : Prop :=
  j.visits = v :: vs ∧ v.rank = rank

/-- When a further attempt row may be inserted. -/
structure MayInsert (settings : RuntimeSettings) (policy : EffectiveExecutionPolicy) (j : Journal)
    (row : AttemptInsert) (v : Visit) (c : ModelCandidate) : Prop where
  newest : ∃ vs, j.At row.candidateRank v vs
  noSetback : v.setback = none
  candidate : j.candidates[row.candidateRank]? = some c
  provider : row.providerId = c.providerId ∧ row.providerModelId = c.providerModelId
  retries : v.attempts.length ≤ min policy.maxRetries c.runtimePolicy.retryLimit
  retried : ∀ a ∈ v.attempts.head?, ∃ failure, a.failure = some failure ∧ failure.retryable = true
  number : row.attemptNumber = asI32 (j.attempts.length + 1)
  bound : j.attempts.length < settings.maximumTotalUpstreamAttempts

/-- What the execution may ask for, given its journal. -/
def MayAsk (settings : RuntimeSettings) (policy : EffectiveExecutionPolicy) (j : Journal) :
    ExecOp → Prop
  | .selectCandidates policy' _ => j.visits = [] ∧ policy' = policy
  | .resolveCredential rank c =>
    rank = j.visits.length ∧ j.candidates[rank]? = some c ∧ ∀ v ∈ j.visits, v.Closed policy
  | .beforeCall rank _ | .runtimeHandle rank _ =>
    ∃ v vs, j.At rank v vs ∧ v.attempts = [] ∧ v.setback = none
  | .insertAttemptStarted row => ∃ v c, MayInsert settings policy j row v c
  | .updateAttempt attemptId _ =>
    ∃ v vs a as, j.visits = v :: vs ∧ v.attempts = a :: as ∧ a.id = attemptId ∧ a.updates = []
  | _ => True

/-- What the database guarantees: a successful insert has a fresh key and passes the check. -/
def dbAnswers (j : Journal) : (o : ExecOp) → o.Ans → Bool
  | .insertAttemptStarted row, .ok _ =>
    decide (row.id ∉ j.attempts.map (·.id)) && decide (0 < row.attemptNumber)
  | _, _ => true

def attemptContract (settings : RuntimeSettings) (policy : EffectiveExecutionPolicy) :
    Contract execSig Journal where
  may := MayAsk settings policy
  answers j o x := dbAnswers j o x = true
  next := Journal.record

/-! ## Events -/

namespace RuntimeEvent

/-- The attempt an event says has started. -/
def attemptStarted? : RuntimeEvent → Option Uuid
  | .providerAttemptStarted attemptId .. => some attemptId
  | _ => none

/-- The attempt an event says is over. -/
def attemptClosed? : RuntimeEvent → Option Uuid
  | .providerAttemptFailed attemptId _ => some attemptId
  | .executionCompleted attemptId => some attemptId
  | _ => none

def isTerminal : RuntimeEvent → Bool
  | .executionCompleted _ | .executionFailed _ => true
  | _ => false

/-- A terminal event and the status of an outcome say the same. -/
def Tells : RuntimeEvent → ExecutionStatus → Prop
  | .executionCompleted _, status => status = .succeeded
  | .executionFailed _, status => status ≠ .succeeded
  | _, _ => False

end RuntimeEvent

/-- What an exchange emits. -/
def emitted : Prog.Exchange execSig → Option RuntimeEvent
  | ⟨.push event, _⟩ => some event
  | ⟨.pushStream event _, .accepted⟩ => some event
  | _ => none

/-- The events a run has emitted, in order. -/
def eventsOf (tr : List (Prog.Exchange execSig)) : List RuntimeEvent :=
  tr.filterMap emitted

/-- The events before the next attempt starts. -/
def segment (events : List RuntimeEvent) : List RuntimeEvent :=
  events.takeWhile (·.attemptStarted?.isNone)

/-- Every attempt that starts is closed once before the next one starts. -/
def AttemptsClosed : List RuntimeEvent → Prop
  | [] => True
  | event :: rest =>
    (∀ attemptId, event.attemptStarted? = some attemptId →
      (segment rest).countP (·.attemptClosed? = some attemptId) = 1) ∧ AttemptsClosed rest

/-- One terminal event, the last, and every attempt closed before the next one starts. -/
structure WellFormed (events : List RuntimeEvent) (outcome : ExecutionOutcome) : Prop where
  ended : ∃ before last, events = before ++ [last] ∧ last.Tells outcome.status ∧
    ∀ event ∈ before, event.isTerminal = false
  closed : AttemptsClosed events

/-! ## The course of a run -/

/-- What an observer keeps of a run. -/
structure Course where
  events : List RuntimeEvent := []
  /-- The deadline, once the clock has been read. -/
  deadline : Option Nat := none
  now : Nat := 0
  policy : Option EffectiveExecutionPolicy := none
  /-- The candidate in hand, and how many attempts were made on it. -/
  candidate : Option ModelCandidate := none
  attempts : Nat := 0
  /-- How many attempts were made on all candidates. -/
  started : Nat := 0

namespace Course

variable (settings : RuntimeSettings) (command : ExecutionCommand) (g : Course)

/-- What the operations but pushes say about the course. -/
def note : (o : ExecOp) → o.Ans → Course
  | .now, now =>
    let totalTimeoutMs := min (command.options.timeoutMs.getD settings.defaultExecutionTimeoutMs)
      settings.maximumExecutionTimeoutMs
    { g with now, deadline := g.deadline.or (some (now + totalTimeoutMs)) }
  | .selectCandidates policy _, _ => { g with policy := some policy }
  | .runtimeHandle _ candidate, _ => { g with candidate := some candidate, attempts := 0 }
  | .insertAttemptStarted _, .ok _ => { g with attempts := g.attempts + 1, started := g.started + 1 }
  | _, _ => g

def emit (more : List RuntimeEvent) : Course :=
  { g with events := g.events ++ more }

def record (o : ExecOp) (x : o.Ans) : Course :=
  (g.note settings command o x).emit (emitted ⟨o, x⟩).toList

/-- The failure leads to the next candidate. -/
def fallsBack (failure : ExecutionFailure) : Bool :=
  g.policy.any (·.allowFallback) && failure.fallbackEligible

/-- Another attempt on the candidate is within its retries. -/
def retriesLeft : Bool :=
  g.policy.any fun policy => g.candidate.any fun candidate =>
    g.attempts ≤ (effectiveRuntimePolicy policy candidate.runtimePolicy).maxRetries

/-- The deadline is still to come. -/
def before (now : Nat) : Bool :=
  g.deadline.all (now < ·)

/--
The answer leads to no exit and no attempt without its event: an attempt gets its permits, its
request and the provider's answer, and its terminal writes their budget; a failure is retried or
falls back; and the deadline, a cancellation or the limit on attempts does not end the work on a
candidate.
-/
def keeps : (o : ExecOp) → o.Ans → Bool
  | .push (.modelSelected _), _ =>
    command.credentialHint.isNone || hasRuntimeScope command "moira:execution:override-credential"
  | .resolveCredential .., .done (.error failure) => g.fallsBack failure
  | .resolveCredential .., .elapsed => false
  | .beforeCall .., .error failure => g.fallsBack failure
  | .runtimeHandle .., .done (.error failure) => g.fallsBack failure
  | .runtimeHandle .., .elapsed => false
  | .runtimeHandle .., .done (.ok _) => g.started < settings.maximumTotalUpstreamAttempts
  | .acquire _, permits => permits.isOk
  | .buildCompletionRequest, request => request.isOk
  | .completion, .interrupted .elapsed => false
  | .runToolLoop, .interrupted .elapsed => false
  | .startStream, .interrupted .elapsed => false
  | .nextItem _, .interrupted .elapsed => false
  | .pushStream .., .interrupted .elapsed => false
  | .persistenceTick, .elapsed => false
  | .updateAttempt _ (.failed failure _), _ =>
    if failure.retryable && g.retriesLeft then g.started < settings.maximumTotalUpstreamAttempts
    else g.fallsBack failure
  | .now, now => g.before now
  | .isCancelled, cancelled => !cancelled
  | .sleep ms, woken => woken = .slept && g.before (g.now + ms)
  | _, _ => true

end Course

/-- The runs that keep to the course. -/
def courseContract (settings : RuntimeSettings) (command : ExecutionCommand) :
    Contract execSig Course where
  may _ _ := True
  answers g o x := g.keeps settings command o x = true
  next := Course.record settings command

end Moira
