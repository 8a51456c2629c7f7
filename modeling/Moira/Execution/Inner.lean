import Moira.Execution.Stream

/-!
# The execution pipeline

`executeInner` grants a command, picks a route and a ranked list of candidates, and then runs two
nested loops: over the candidates (`candidateLoop`) and, for one candidate, over its attempts
(`attemptLoop`). A single attempt is `runAttempt`.

`?` is the failure of the program; `return Ok(failed_outcome(..))` is a result.
-/

namespace Moira

open Exec ExecutionFailureClass

/-! ## Time -/

/-- `remaining_execution_time`: what is left of the deadline, unless nothing is. -/
def remainingExecutionTime (deadline now : Nat) : Option Nat :=
  if now < deadline then some (deadline - now) else none

/-- `bounded_phase`: a phase that must fit into what is left of the total deadline. -/
def boundedPhase {α : Type} (deadline : Nat) (phase : Exec (Timed (Except ExecutionFailure α))) :
    Exec (Except ExecutionFailure α) := do
  match remainingExecutionTime deadline (← ask .now) with
  | none => pure (.error deadlineFailure)
  | some _ =>
    match ← phase with
    | .done result => pure result
    | .elapsed => pure (.error deadlineFailure)

inductive RetryWait
  | ready
  | deadline
  | cancelled

/-- The wait that has to pass before a retry can start, once the delay is over. -/
def readyToRetry (deadline : Nat) : Exec RetryWait := do
  if ← ask .isCancelled then pure .cancelled
  else match remainingExecutionTime deadline (← ask .now) with
    | some _ => pure .ready
    | none => pure .deadline

/-- Exponential backoff, with saturating arithmetic and the provider's cap. -/
def retryDelay (retryNumber : Nat) (policy : ProviderRuntimePolicy) : Nat :=
  min (min (policy.retryBaseDelayMs * min (2 ^ retryNumber) u64Max) u64Max) policy.retryMaxDelayMs

def sleepForRetry (retryNumber : Nat) (policy : ProviderRuntimePolicy) (deadline : Nat) :
    Exec RetryWait := do
  match remainingExecutionTime deadline (← ask .now) with
  | none => pure .deadline
  | some remaining =>
    let delay := retryDelay retryNumber policy
    if delay = 0 then readyToRetry deadline
    else if remaining ≤ delay then
      match ← ask (.sleep remaining) with
      | .cancelled => pure .cancelled
      | .slept => pure .deadline
    else
      match ← ask (.sleep delay) with
      | .cancelled => pure .cancelled
      | .slept => readyToRetry deadline

/-! ## One attempt -/

/-- What the loops read and never change. -/
structure ExecContext where
  settings : RuntimeSettings
  command : ExecutionCommand
  deadline : Nat
  policy : EffectiveExecutionPolicy
  route : RouteDecision
  hasTools : Bool

/-- What the loops share and update. -/
structure Progress where
  attempts : List ProviderAttemptSummary := []
  totalAttempts : Nat := 0

/-- The attempt in hand: its row, its candidate and the credential it uses. -/
structure Attempt where
  id : Uuid
  number : Int
  candidate : ModelCandidate
  credentialId : Uuid

/-- How one attempt ended. -/
inductive AttemptEnd
  | finished (outcome : ExecutionOutcome)
  | refused (failure : ExecutionFailure)
  | failed (failure : ExecutionFailure)

def Attempt.summary (a : Attempt) (failureClass : Option ExecutionFailureClass)
    (usage : UsageSummary) : ProviderAttemptSummary :=
  attemptSummary a.id a.number a.candidate a.credentialId failureClass usage

def Attempt.usageRecord (a : Attempt) (usage : UsageSummary)
    (failureClass : Option ExecutionFailureClass) : UsageRecordInsert where
  attemptId := a.id
  providerId := a.candidate.providerId
  providerModelId := a.candidate.providerModelId
  credentialId := a.credentialId
  usage := usage
  failureClass := failureClass

/-- `complete_failed_attempt`. -/
def completeFailedAttempt (a : Attempt) (failure : ExecutionFailure) (usage : UsageSummary) :
    Exec Unit :=
  updateAttempt a.id (.failed failure usage)

/-- The provider call itself, streamed, with tools, or plain. -/
def callProvider (ctx : ExecContext) (candidate : ModelCandidate) : Exec AttemptResult :=
  let wantsStructured := ctx.command.options.outputSchema.isSome
  if ctx.command.options.stream then
    executeRigStream ctx.settings.parseJson wantsStructured
      (max candidate.runtimePolicy.streamIdleTimeoutMs 1)
  else if ctx.hasTools then executeRigToolLoop
  else executeRigCompletion ctx.settings.parseJson wantsStructured

/-- One write of the terminal group: the budget can run out before it is sent, or once it is. -/
def underBudget (write : Exec Unit) : Exec (Timed Unit) := do
  match ← ask .persistenceTick with
  | .elapsed => pure .elapsed
  | .done _ => do
    write
    ask .persistenceTick

/-- The three terminal writes of a successful attempt, under one budget. -/
def terminalPersistence (a : Attempt) (output : ExecutionRunOutput) : Exec (Timed Unit) := do
  match ← underBudget (updateAttempt a.id (.succeeded output.usage output.providerRequestId)) with
  | .elapsed => pure .elapsed
  | .done _ =>
    match ← underBudget (insertUsageRecord (a.usageRecord output.usage none)) with
    | .elapsed => pure .elapsed
    | .done _ =>
      underBudget (touchCredentialUsed a.credentialId)

/-- Terminal persistence overran: the failure is reported with what the provider produced. -/
def persistenceOverrun (ctx : ExecContext) (a : Attempt) (output : ExecutionRunOutput)
    (pr : Progress) : Exec (AttemptEnd × Progress) := do
  let failure := terminalPersistenceDeadlineFailure
  -- best effort, and bounded itself
  let _ ← ask (.auditBounded "execution.terminal_persistence_deadline_exceeded" a.id)
  let attempts := pr.attempts ++ [a.summary (some failure.failureClass) output.usage]
  push (.executionFailed failure.failureClass)
  pure (.finished
    { requestId := ctx.command.requestId, executionId := ctx.command.executionId
      status := .failed, outputText := some output.text
      structuredOutput := output.structuredOutput, usage := output.usage
      route := some ctx.route, model := some (modelDecision ctx.command a.candidate)
      attempts, failure := some failure }, { pr with attempts })

/-- The arm of `Ok(Ok(output))`. -/
def attemptSucceeded (ctx : ExecContext) (a : Attempt) (output : ExecutionRunOutput)
    (pr : Progress) : Exec (AttemptEnd × Progress) := do
  match ← terminalPersistence a output with
  | .elapsed => persistenceOverrun ctx a output pr
  | .done _ => do
    ask (.onSuccess a.candidate.providerId a.candidate.providerModelId)
    audit "provider.attempt.completed" .success (some a.id) none
    let attempts := pr.attempts ++ [a.summary none output.usage]
    pushToolResults a.id output.toolCalls
    push (.executionCompleted a.id)
    audit "execution.completed" .success none none
    pure (.finished
      { requestId := ctx.command.requestId, executionId := ctx.command.executionId
        status := .succeeded, outputText := some output.text
        structuredOutput := output.structuredOutput, usage := output.usage
        route := some ctx.route, model := some (modelDecision ctx.command a.candidate)
        attempts, failure := none }, { pr with attempts })

/-- The arm of `Ok(Err(failed))`. A billed reply is metered even when it is refused. -/
def attemptFailed (a : Attempt) (failed : FailedAttempt) (pr : Progress) :
    Exec (AttemptEnd × Progress) := do
  let failure := failed.failure
  ask (.onFailure a.candidate.providerId a.candidate.providerModelId a.candidate.runtimePolicy
    failure.failureClass)
  completeFailedAttempt a failure failed.usage
  when (usageWasReported failed.usage)
    (insertUsageRecord (a.usageRecord failed.usage (some failure.failureClass)))
  let attempts := pr.attempts ++ [a.summary (some failure.failureClass) failed.usage]
  pushToolResults a.id failed.toolCalls
  push (.providerAttemptFailed a.id failure.failureClass)
  audit "provider.attempt.failed" .failed (some a.id) (some failure.failureClass)
  pure (.failed failure, { pr with attempts })

/-- The arm of `Err(elapsed)`. -/
def attemptTimedOut (ctx : ExecContext) (a : Attempt) (boundedByTotalDeadline : Bool)
    (pr : Progress) : Exec (AttemptEnd × Progress) := do
  let bounded := boundedByTotalDeadline ||
    (remainingExecutionTime ctx.deadline (← ask .now)).isNone
  let failure := attemptTimeoutFailure bounded (← ask .outputCommitted)
  ask (.onFailure a.candidate.providerId a.candidate.providerModelId a.candidate.runtimePolicy
    failure.failureClass)
  completeFailedAttempt a failure {}
  let attempts := pr.attempts ++ [a.summary (some failure.failureClass) {}]
  pure (.failed failure, { pr with attempts })

/-- An attempt that never reached the provider: no permit, or no request to send. -/
def attemptRefused (a : Attempt) (failure : ExecutionFailure) (pr : Progress) :
    Exec Progress := do
  completeFailedAttempt a failure {}
  audit "provider.attempt.failed" .failed (some a.id) (some failure.failureClass)
  pure { pr with attempts := pr.attempts ++ [a.summary (some failure.failureClass) {}] }

/-- One turn of the attempt loop, from `total_attempts += 1` on. -/
def runAttempt (ctx : ExecContext) (rank : Nat) (candidate : ModelCandidate) (credentialId : Uuid)
    (remaining : Nat) (pr : Progress) : Exec (AttemptEnd × Progress) := do
  let totalAttempts := pr.totalAttempts + 1
  let a : Attempt :=
    { id := ← ask .newId, number := asI32 totalAttempts, candidate, credentialId }
  insertAttemptStarted
    { id := a.id, attemptNumber := a.number, routeId := ctx.route.routeId
      providerId := candidate.providerId, providerModelId := candidate.providerModelId
      credentialId, candidateRank := rank
      selectionReason := attemptSelectionReason ctx.command rank candidate }
  push (.providerAttemptStarted a.id a.number candidate.providerId candidate.providerModelId)
  let pr := { pr with totalAttempts }
  audit "provider.attempt.started" .success (some a.id) none
  match ← ask (.acquire candidate) with
  | .error scope => do
    let pr ← attemptRefused a (capacityFailure scope) pr
    pure (.refused (capacityFailure scope), pr)
  | .ok _ =>
    match ← ask .buildCompletionRequest with
    | .error failure => do
      let pr ← attemptRefused a failure pr
      pure (.finished (failedOutcome ctx.command (some ctx.route)
        (some (modelDecision ctx.command candidate)) pr.attempts failure), pr)
    | .ok _ =>
      match ← callProvider ctx candidate with
      | .ok output => attemptSucceeded ctx a output pr
      | .failed failed => attemptFailed a failed pr
      | .elapsed =>
        let timeoutMs := (effectiveRuntimePolicy ctx.policy candidate.runtimePolicy).timeoutMs
        attemptTimedOut ctx a (min remaining timeoutMs < timeoutMs) pr

/-! ## The loops -/

/-- How the attempts on one candidate ended: the execution returned, or the loop was left. -/
inductive CandidateEnd
  | finished (outcome : ExecutionOutcome)
  | broke (failure : ExecutionFailure)

def maximumAttemptsFailure : ExecutionFailure :=
  .new deadlineExceeded "maximum upstream attempts reached"

/--
The attempts on one candidate. `retriesLeft` is `max_retries - retries`, so the recursion is on
the test `retries < max_retries` itself.
-/
def attemptLoop (ctx : ExecContext) (rank : Nat) (candidate : ModelCandidate)
    (credentialId : Uuid) (retriesLeft : Nat) (pr : Progress) :
    Exec (CandidateEnd × Progress) := do
  let failed (failure : ExecutionFailure) : CandidateEnd :=
    .finished (failedOutcome ctx.command (some ctx.route)
      (some (modelDecision ctx.command candidate)) pr.attempts failure)
  match remainingExecutionTime ctx.deadline (← ask .now) with
  | none => pure (failed deadlineFailure, pr)
  | some remaining =>
    if ctx.settings.maximumTotalUpstreamAttempts ≤ pr.totalAttempts then
      pure (failed maximumAttemptsFailure, pr)
    else
      match ← runAttempt ctx rank candidate credentialId remaining pr with
      | (.finished outcome, pr) => pure (.finished outcome, pr)
      | (.refused failure, pr) => pure (.broke failure, pr)
      | (.failed failure, pr) =>
        if failure.retryable then
          match retriesLeft with
          | 0 => pure (.broke failure, pr)
          | retriesLeft + 1 => do
            let maxRetries :=
              (effectiveRuntimePolicy ctx.policy candidate.runtimePolicy).maxRetries
            match ← sleepForRetry (maxRetries - retriesLeft) candidate.runtimePolicy
                ctx.deadline with
            | .ready => attemptLoop ctx rank candidate credentialId retriesLeft pr
            | .deadline => pure (.broke deadlineFailure, pr)
            | .cancelled => pure (.broke cancelledFailure, pr)
        else pure (.broke failure, pr)

def resolveCredential (ctx : ExecContext) (rank : Nat) (candidate : ModelCandidate) :
    Exec (Timed (Except ExecutionFailure Uuid)) :=
  if ctx.command.credentialHint.isSome &&
      !hasRuntimeScope ctx.command "moira:execution:override-credential" then
    pure (.done (.error
      (.new credentialForbidden "explicit credential override is not authorized")))
  else ask (.resolveCredential rank candidate)

/-- Everything that happens on one candidate before its first attempt. -/
def prepareCandidate (ctx : ExecContext) (rank : Nat) (candidate : ModelCandidate) :
    Exec (Except (ExecutionFailure × Bool) Uuid) := do
  match ← boundedPhase ctx.deadline (resolveCredential ctx rank candidate) with
  -- only this refusal announces the fallback it causes
  | .error failure => pure (.error (failure, true))
  | .ok credentialId =>
    match ← ask (.beforeCall rank candidate) with
    | .error failure => pure (.error (failure, false))
    | .ok _ =>
      match ← boundedPhase ctx.deadline (ask (.runtimeHandle rank candidate)) with
      | .error failure => pure (.error (failure, false))
      | .ok _ => pure (.ok credentialId)

/-- Whether the fallback loop goes on after this failure. -/
def mayFallBack (ctx : ExecContext) (failure : ExecutionFailure) : Bool :=
  ctx.policy.allowFallback && failure.fallbackEligible

/-- The candidates in ranked order, from the given rank on. -/
def candidateLoop (ctx : ExecContext) : Nat → List ModelCandidate → Option ExecutionFailure →
    Progress → Exec ExecutionOutcome
  | _, [], lastFailure, pr => do
    let failure := lastFailure.getD (.new noEligibleModel "no eligible model")
    audit "execution.failed" .failed none (some failure.failureClass)
    push (.executionFailed failure.failureClass)
    pure (failedOutcome ctx.command (some ctx.route) none pr.attempts failure)
  | rank, candidate :: rest, _, pr => do
    let model := modelDecision ctx.command candidate
    let next := rest.head?.map fun candidate => (candidate.providerId, rank + 1)
    push (.modelSelected model)
    match ← prepareCandidate ctx rank candidate with
    | .error (failure, announced) =>
      if mayFallBack ctx failure then do
        when announced
          (push (.fallbackSelected candidate.providerId (some failure.failureClass) next))
        candidateLoop ctx (rank + 1) rest (some failure) pr
      else
        pure (failedOutcome ctx.command (some ctx.route) (some model) pr.attempts failure)
    | .ok credentialId =>
      let maxRetries := (effectiveRuntimePolicy ctx.policy candidate.runtimePolicy).maxRetries
      match ← attemptLoop ctx rank candidate credentialId maxRetries pr with
      | (.finished outcome, _) => pure outcome
      | (.broke failure, pr) =>
        if mayFallBack ctx failure then do
          push (.fallbackSelected candidate.providerId none next)
          candidateLoop ctx (rank + 1) rest (some failure) pr
        else do
          audit "execution.failed" .failed none (some failure.failureClass)
          pure (failedOutcome ctx.command (some ctx.route) (some model) pr.attempts failure)

/-! ## Admission -/

/-- `validate_command`: the command with its application filled in, or a refusal. -/
def validateCommand (command : ExecutionCommand) :
    Exec (ExecutionCommand × Option ExecutionFailure) := do
  if command.messages.isEmpty then
    pure (command, some
      (.new invalidExecutionRequest "execution command must contain at least one Rig message"))
  else
    let command :=
      { command with applicationId := command.applicationId.or command.identity.applicationId }
    match command.identity.applicationId, command.applicationId with
    | some bound, some requested =>
      if bound ≠ requested then
        pure (command, some
          (.new applicationUnavailable "caller is not bound to the requested application"))
      else ensureActive command requested
    | none, some requested => ensureActive command requested
    | _, none => pure (command, none)
where
  ensureActive (command : ExecutionCommand) (applicationId : Uuid) :
      Exec (ExecutionCommand × Option ExecutionFailure) := do
    match ← ask (.ensureApplicationActive applicationId) with
    | .ok _ => pure (command, none)
    | .error (.forbidden _) =>
      pure (command, some (.new applicationUnavailable "application is unavailable"))
    | .error err => .fail err

/-- Why a tool-bearing profile cannot serve this command. -/
def toolRefusal (command : ExecutionCommand) : Option String :=
  if command.options.outputSchema.isSome then
    some ("structured output cannot be combined with agent skills yet: rig-core drops the " ++
      "response schema whenever tools are advertised (finding F48)")
  else if command.options.stream then
    some ("agent skills are not available on the streaming execution path yet; " ++
      "run this request without stream")
  else none

/-- A refusal after the route was selected: audited, announced, returned. -/
def refuse (command : ExecutionCommand) (route : Option RouteDecision)
    (failure : ExecutionFailure) : Exec ExecutionOutcome := do
  audit "execution.failed" .failed none (some failure.failureClass)
  push (.executionFailed failure.failureClass)
  pure (failedOutcome command route none [] failure)

/-- The ranked candidates, announced, and then the loops over them. -/
def runCandidates (ctx : ExecContext) (candidates : List ModelCandidate) :
    Exec ExecutionOutcome := do
  let ranked := candidates.take (maxCandidates ctx.policy)
  push (.candidateRanked (ranked.mapIdx fun index candidate =>
    (candidate.providerId, candidate.providerModelId, index,
      attemptSelectionReason ctx.command index candidate)))
  candidateLoop ctx 0 ranked none {}

/-- `resolve_agent_skills`, the tool refusals and `select_candidates`. -/
def selectAndRun (settings : RuntimeSettings) (command : ExecutionCommand) (deadline : Nat)
    (policy : EffectiveExecutionPolicy) (route : RouteDecision) (profile : Option Uuid) :
    Exec ExecutionOutcome := do
  match ← ask (.resolveAgentSkills profile) with
  | .error failure => refuse command (some route) failure
  | .ok hasTools =>
    match if hasTools then toolRefusal command else none with
    | some message => refuse command (some route) (.new invalidExecutionRequest message)
    | none =>
      match ← ask (.selectCandidates policy route) with
      | .error failure => refuse command (some route) failure
      | .ok candidates =>
        runCandidates { settings, command, deadline, policy, route, hasTools } candidates

/-- The agent profile a route or a hint names has to be usable. -/
def resolveProfile (settings : RuntimeSettings) (command : ExecutionCommand) (deadline : Nat)
    (policy : EffectiveExecutionPolicy) (route : RouteDecision) :
    Exec ExecutionOutcome := do
  match command.agentProfileHint.or route.agentProfileId with
  | none => selectAndRun settings command deadline policy route none
  | some id =>
    match ← orFail (← ask (.findAgentProfileReference id)) with
    | .active _ => selectAndRun settings command deadline policy route (some id)
    | unusable => do
      push (.agentProfileUnavailable id (agentProfileReason unusable) route.routeId)
      audit "agent_profile.unavailable" .failed none none
      refuse command (some route) (agentProfileFailure route id unusable)

/-- `execute_inner`. -/
def executeInner (settings : RuntimeSettings) (command : ExecutionCommand) :
    Exec ExecutionOutcome := do
  let totalTimeoutMs := min (command.options.timeoutMs.getD settings.defaultExecutionTimeoutMs)
    settings.maximumExecutionTimeoutMs
  let deadline := (← ask .now) + totalTimeoutMs
  let (command, refusal) ← validateCommand command
  match refusal with
  | some failure => do
    push (.executionFailed failure.failureClass)
    pure (failedOutcome command none none [] failure)
  | none => do
    audit "execution.started" .success none none
    match evaluate settings command with
    | .error failure => do
      push (.executionFailed failure.failureClass)
      pure (failedOutcome command none none [] failure)
    | .ok policy => do
      push .routingStarted
      match ← ask .selectRoute with
      | .error failure => refuse command none failure
      | .ok route => do
        push (.routeSelected route.routeId route.routeKey)
        audit "routing.completed" .success none none
        resolveProfile settings command deadline policy route

/-- `execute_with_events`; the events stay with the collector. -/
def executeWithEvents (settings : RuntimeSettings) (command : ExecutionCommand) :
    Exec ExecutionOutcome := do
  push .executionStarted
  executeInner settings command

/--
The task `execute_stream` spawns: the outcome (or the failure an infrastructure error is turned
into) is sent once the pipeline is over, and then the event sender is dropped.
-/
def streamTask (settings : RuntimeSettings) (command : ExecutionCommand) :
    Prog execSig Empty (Option Unit) := do
  Prog.ask (S := execSig) (.push .executionStarted)
  match ← (executeInner settings command).attempt with
  | .ok outcome => Prog.ask (S := execSig) (.sendOutcome (.ok outcome))
  | .error err => do
    Prog.ask (S := execSig) (.push (.executionFailed internalError))
    Prog.ask (S := execSig) (.sendOutcome (.error (.new internalError err.display)))
  Prog.ask (S := execSig) .dropEvents
  pure none

end Moira
