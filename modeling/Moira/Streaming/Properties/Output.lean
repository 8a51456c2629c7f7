import Moira.Execution.Properties.AttemptShape
import Moira.Streaming.Supervisor

/-!
# What a streamed execution sends

The execution task against the event feed. `Output` follows what it has sent so far, and
`outputContract` is what the task owes to its consumer:

- a further attempt starts only as long as no delta was accepted
- a successful outcome carries exactly the concatenation of the accepted deltas
- after the outcome nothing is streamed, and after the sender is dropped nothing is sent at all

What makes this work is that a failure reported once output is committed is `Final`: the loops
neither retry it nor fall back from it.
-/

namespace Moira

open Exec Prog

/-- What the task has sent. -/
structure Output where
  deltas : List String := []
  marked : Bool := false
  outcome : Option (Except ExecutionFailure ExecutionOutcome) := none
  closed : Bool := false

/-- The task is still producing. -/
def Output.Open (g : Output) : Prop :=
  g.outcome = none ∧ g.closed = false

/-- A successful outcome carries the text that was streamed. -/
def Faithful (deltas : List String) (outcome : ExecutionOutcome) : Prop :=
  outcome.status = .succeeded → outcome.outputText = some (String.join deltas)

def Output.may (g : Output) : ExecOp → Prop
  | .insertAttemptStarted _ => g.deltas = []
  | .push event => event.delta? = none ∧ g.closed = false
  | .pushStream .. => g.Open
  | .sendOutcome result => g.Open ∧ ∀ outcome, result = .ok outcome → Faithful g.deltas outcome
  | _ => True

def Output.answers (g : Output) : (o : ExecOp) → o.Ans → Prop
  | .outputCommitted, committed => committed = g.marked
  | .deliveryFailure, some failure => failure.Final
  | .pushStream .., .refused failure => failure.Final
  | _, _ => True

def Output.next (g : Output) : (o : ExecOp) → o.Ans → Output
  | .pushStream event _, .accepted => { g with deltas := g.deltas ++ event.delta?.toList }
  | .markOutputCommitted, _ => { g with marked := true }
  | .sendOutcome result, _ => { g with outcome := some result }
  | .dropEvents, _ => { g with closed := true }
  | _, _ => g

def outputContract : Contract execSig Output where
  may := Output.may
  answers := Output.answers
  next := Output.next

variable {g : Output} {α β : Type}

/-- The program keeps the contract, stays open and establishes `Q` when it returns. -/
abbrev Streams (p : Exec α) (g : Output) (Q : Output → α → Prop) : Prop :=
  p.wp outputContract g Q (fun g' _ => g'.Open)

variable {p : Exec α} {f : α → Exec β} {Q : Output → β → Prop}

theorem streams_bind {P : Output → α → Prop} (hp : Streams p g P)
    (hf : ∀ g a, P g a → Streams (f a) g Q) : Streams (p >>= f) g Q :=
  wp_bind_mono hp hf

/-! ## Parts that send no output -/

/-- Operations that neither start an attempt nor touch the output. -/
def Quiet : ExecOp → Prop
  | .push event => event.delta? = none
  | .insertAttemptStarted _ | .pushStream .. | .markOutputCommitted | .sendOutcome _
  | .dropEvents => False
  | _ => True

variable {o : ExecOp}

theorem Bookkeeping.quiet (h : Bookkeeping o) : Quiet o := by
  cases o <;> first | exact h.elim | trivial

theorem may_quiet (hopen : g.Open) (h : Quiet o) : g.may o := by
  cases o <;> first | exact h.elim | trivial | exact ⟨h, hopen.2⟩

theorem next_quiet (h : Quiet o) (x : o.Ans) : g.next o x = g := by
  cases o <;> first | exact h.elim | rfl

theorem streams_quiet {Q : Output → α → Prop} {R : α → Prop} (hopen : g.Open) (hp : p.Only Quiet)
    (hr : p.Returns R) (hQ : ∀ a, R a → Q g a) : Streams p g Q :=
  wp_of_only hp hr (fun _ => may_quiet hopen) (fun _ ho x => next_quiet ho x) hQ fun _ => hopen

theorem streams_skip (hopen : g.Open) (hp : p.Only Quiet) (hf : ∀ a, Streams (f a) g Q) :
    Streams (p >>= f) g Q :=
  streams_bind (P := fun g' _ => g' = g) (streams_quiet hopen hp (returns_true p) fun _ _ => rfl)
    (fun _ a hg => hg ▸ hf a)

theorem streams_pass (hopen : g.Open) (hp : p.Only Bookkeeping) (hf : ∀ a, Streams (f a) g Q) :
    Streams (p >>= f) g Q :=
  streams_skip hopen (hp.mono fun _ => Bookkeeping.quiet) hf

theorem quiet_updateAttempt (attemptId : Uuid) (update : AttemptUpdate) :
    (updateAttempt attemptId update).Only Quiet := by
  unfold updateAttempt
  split
  · exact only_bind (only_ask.mpr trivial) fun _ => only_ofExcept _
  · trivial

theorem quiet_underBudget {write : Exec Unit} (hwrite : write.Only Quiet) :
    (underBudget write).Only Quiet := by
  refine only_bind (only_ask.mpr trivial) fun x => ?_
  cases x with
  | elapsed => trivial
  | done => exact only_bind hwrite fun _ => only_ask.mpr trivial

theorem quiet_terminalPersistence (a : Attempt) (output : ExecutionRunOutput) :
    (terminalPersistence a output).Only Quiet := by
  have hquiet : ∀ o, Bookkeeping o → Quiet o := fun _ => Bookkeeping.quiet
  refine only_bind (quiet_underBudget (quiet_updateAttempt ..)) fun x => ?_
  cases x with
  | elapsed => trivial
  | done =>
    refine only_bind (quiet_underBudget ((only_insertUsageRecord _).mono hquiet)) fun x => ?_
    cases x with
    | elapsed => trivial
    | done => exact quiet_underBudget ((only_touchCredentialUsed _).mono hquiet)

variable {deadline : Nat}

theorem quiet_boundedPhase {α : Type} {phase : Exec (Timed (Except ExecutionFailure α))}
    (hphase : phase.Only Quiet) : (boundedPhase deadline phase).Only Quiet := by
  refine only_bind (only_ask.mpr trivial) fun now => ?_
  split
  · trivial
  · refine only_bind hphase fun x => ?_
    cases x <;> trivial

theorem quiet_prepareCandidate (ctx : ExecContext) (rank : Nat) (candidate : ModelCandidate) :
    (prepareCandidate ctx rank candidate).Only Quiet := by
  have hcredential : (resolveCredential ctx rank candidate).Only Quiet := by
    unfold resolveCredential
    split
    · trivial
    · exact only_ask.mpr trivial
  refine only_bind (quiet_boundedPhase hcredential) fun r => ?_
  cases r with
  | error failure => trivial
  | ok credentialId =>
    refine only_bind (only_ask.mpr trivial) fun x => ?_
    cases x with
    | error failure => trivial
    | ok =>
      refine only_bind (quiet_boundedPhase (only_ask.mpr trivial)) fun r => ?_
      cases r <;> trivial

/-! ## The provider call -/

/-- The accumulator of the drain loop agrees with what was sent. -/
structure Draining (st : StreamState) (g : Output) : Prop where
  isOpen : g.Open
  text : st.text = String.join g.deltas
  committed : g.deltas ≠ [] → st.committed = true ∧ g.marked = true

/-- What a provider call leaves behind: its text is what was sent, its failure is final. -/
def CallEnded (g : Output) : AttemptResult → Prop
  | .ok output => g.Open ∧ output.text = String.join g.deltas
  | .failed failed => g.Open ∧ (g.deltas ≠ [] → failed.failure.Final)
  | .elapsed => g.Open ∧ (g.deltas ≠ [] → g.marked = true)

variable {st : StreamState}

theorem Draining.interrupted (h : Draining st g) (i : Interrupt) : CallEnded g i.result := by
  cases i with
  | cancelled => exact ⟨h.isOpen, fun _ => cancelledFailure_final⟩
  | elapsed => exact ⟨h.isOpen, fun hne => (h.committed hne).2⟩

theorem Draining.fail (h : Draining st g) (failure : ExecutionFailure) :
    CallEnded g (st.fail failure) := by
  refine ⟨h.isOpen, fun hne => ?_⟩
  rw [(h.committed hne).1]
  exact failure.clamp_final

variable {failure : ExecutionFailure}

theorem structuredOutput_final {parseJson : String → Option Json} {wantsStructured : Bool}
    {text : String} (h : structuredOutputFromText parseJson wantsStructured text = .error failure) :
    failure.Final := by
  unfold structuredOutputFromText at h
  split at h
  · cases h
  · split at h <;> cases h
    exact structuredOutputInvalid_final _

theorem Draining.finish (h : Draining st g) (parseJson : String → Option Json)
    (wantsStructured : Bool) : CallEnded g (st.finish parseJson wantsStructured) := by
  unfold StreamState.finish
  split
  · next hfailed => exact ⟨h.isOpen, fun _ => structuredOutput_final hfailed⟩
  · exact ⟨h.isOpen, h.text⟩

theorem Draining.absorb_silent {item : RuntimeStreamItem} (h : Draining st g)
    (hevent : item.event = none) : Draining (st.absorb item) g := by
  cases item with
  | finalMetadata providerRequestId => exact ⟨h.isOpen, h.text, h.committed⟩
  | textDelta text => cases hevent
  | toolCallStarted internalCallId name arguments => cases hevent
  | toolCallDelta id internalCallId content => cases hevent
  | usageUpdated usage => cases hevent

theorem streams_absorb {item : RuntimeStreamItem} {event : RuntimeEvent} {f : Unit → Exec β}
    (h : Draining st g) (hevent : item.event = some event)
    (hf : ∀ g', Draining (st.absorb item) g' → Streams (f ()) g' Q) :
    Streams (Exec.when item.isOutput (ask .markOutputCommitted) >>= f)
      { g with deltas := g.deltas ++ event.delta?.toList } Q := by
  have hmarked : item.isOutput = true →
      Draining (st.absorb item)
        { g with deltas := g.deltas ++ event.delta?.toList, marked := true } →
      Streams (Exec.when item.isOutput (ask .markOutputCommitted) >>= f)
        { g with deltas := g.deltas ++ event.delta?.toList } Q := by
    intro houtput hnext
    rw [houtput]
    exact ⟨trivial, fun _ _ => hf _ hnext⟩
  cases item with
  | textDelta text =>
    cases hevent
    refine hmarked rfl ⟨h.isOpen, ?_, fun _ => ⟨rfl, rfl⟩⟩
    simp [StreamState.absorb, h.text, RuntimeEvent.delta?]
  | toolCallStarted internalCallId name arguments =>
    cases hevent
    refine hmarked rfl ⟨h.isOpen, ?_, fun _ => ⟨rfl, rfl⟩⟩
    simp [StreamState.absorb, h.text, RuntimeEvent.delta?]
  | toolCallDelta id internalCallId content =>
    cases hevent
    refine hmarked rfl ⟨h.isOpen, ?_, fun _ => ⟨rfl, rfl⟩⟩
    simp [StreamState.absorb, h.text, RuntimeEvent.delta?]
  | usageUpdated usage =>
    cases hevent
    have hsame : g.deltas ++ (RuntimeEvent.usageUpdated usage).delta?.toList = g.deltas := by
      simp [RuntimeEvent.delta?]
    rw [hsame]
    exact hf g ⟨h.isOpen, h.text, h.committed⟩
  | finalMetadata providerRequestId => cases hevent

/-- **The drain loop sends exactly what it accumulates.** -/
theorem streams_drain (parseJson : String → Option Json) (wantsStructured : Bool)
    (idleTimeoutMs : Nat) (items : List (Except ExecutionFailure RuntimeStreamItem)) :
    ∀ {st : StreamState} {g : Output}, Draining st g →
      Streams (drain parseJson wantsStructured idleTimeoutMs items st) g CallEnded := by
  induction items with
  | nil =>
    intro st g h
    unfold drain
    refine streams_skip h.isOpen (only_ask.mpr trivial) fun x => ?_
    split
    · exact h.interrupted _
    · exact h.fail _
    · exact h.finish parseJson wantsStructured
  | cons item rest ih =>
    intro st g h
    unfold drain
    refine streams_skip h.isOpen (only_ask.mpr trivial) fun x => ?_
    split
    · exact h.interrupted _
    · exact h.fail _
    cases item with
    | error failure => exact h.fail failure
    | ok item =>
      dsimp only
      split
      · next hevent => exact ih (h.absorb_silent hevent)
      next event hevent =>
      refine ⟨h.isOpen, fun pushed hpushed => ?_⟩
      cases pushed with
      | refused failure => exact ⟨h.isOpen, fun _ => hpushed⟩
      | interrupted i => exact h.interrupted i
      | accepted => exact streams_absorb h hevent fun g' hg' => ih hg'

variable {ctx : ExecContext}

theorem streams_callProvider (hstream : ctx.command.options.stream = true)
    (candidate : ModelCandidate) (hopen : g.Open) (hnone : g.deltas = []) :
    Streams (callProvider ctx candidate) g CallEnded := by
  have hfresh : Draining {} g :=
    ⟨hopen, by rw [hnone]; rfl, fun hne => absurd hnone hne⟩
  unfold callProvider
  rw [hstream]
  refine ⟨trivial, fun failure hfailure => ?_⟩
  cases failure with
  | some failure => exact ⟨hopen, fun _ => hfailure⟩
  | none =>
    refine ⟨trivial, fun x _ => ?_⟩
    cases x with
    | interrupted i => exact hfresh.interrupted i
    | done result =>
      cases result with
      | error failure => exact hfresh.fail failure
      | ok items => exact streams_drain _ _ _ items hfresh

/-! ## One attempt -/

/-- What an attempt leaves behind. -/
def AttemptStreamed (g : Output) : AttemptEnd × Progress → Prop
  | (.finished outcome, _) => g.Open ∧ Faithful g.deltas outcome
  | (.refused _, _) => g.Open ∧ g.deltas = []
  | (.failed failure, _) => g.Open ∧ (g.deltas ≠ [] → failure.Final)

variable {command : ExecutionCommand}

theorem faithful_failedOutcome {route : Option RouteDecision} {model : Option ModelDecision}
    {attempts : List ProviderAttemptSummary} {deltas : List String} :
    Faithful deltas (failedOutcome command route model attempts failure) := by
  intro hstatus
  simp only [failedOutcome, executionStatusForFailure] at hstatus
  split at hstatus <;> cases hstatus

variable {a : Attempt} {pr : Progress}

theorem streams_attemptSucceeded {output : ExecutionRunOutput} (hopen : g.Open)
    (htext : output.text = String.join g.deltas) :
    Streams (attemptSucceeded ctx a output pr) g AttemptStreamed := by
  refine streams_skip hopen (quiet_terminalPersistence a output) fun x => ?_
  cases x with
  | elapsed =>
    refine streams_pass hopen (only_ask.mpr trivial) fun _ => ?_
    refine streams_pass hopen (only_push rfl) fun _ => ?_
    exact ⟨hopen, fun hstatus => by cases hstatus⟩
  | done =>
    refine streams_pass hopen (only_ask.mpr trivial) fun _ => ?_
    refine streams_pass hopen (only_audit ..) fun _ => ?_
    refine streams_pass hopen (only_pushToolResults _ _) fun _ => ?_
    refine streams_pass hopen (only_push rfl) fun _ => ?_
    refine streams_pass hopen (only_audit ..) fun _ => ?_
    exact ⟨hopen, fun _ => congrArg some htext⟩

theorem streams_attemptFailed {failed : FailedAttempt} (hopen : g.Open)
    (hfinal : g.deltas ≠ [] → failed.failure.Final) :
    Streams (attemptFailed a failed pr) g AttemptStreamed := by
  refine streams_pass hopen (only_ask.mpr trivial) fun _ => ?_
  refine streams_skip hopen (quiet_updateAttempt ..) fun _ => ?_
  refine streams_pass hopen (only_when (only_insertUsageRecord _)) fun _ => ?_
  refine streams_pass hopen (only_pushToolResults _ _) fun _ => ?_
  refine streams_pass hopen (only_push rfl) fun _ => ?_
  refine streams_pass hopen (only_audit ..) fun _ => ?_
  exact ⟨hopen, hfinal⟩

theorem streams_attemptTimedOut {bounded : Bool} (hopen : g.Open)
    (hmarked : g.deltas ≠ [] → g.marked = true) :
    Streams (attemptTimedOut ctx a bounded pr) g AttemptStreamed := by
  refine streams_pass hopen (only_ask.mpr trivial) fun now => ?_
  refine streams_bind (P := fun g' committed => g' = g ∧ committed = g.marked)
    ⟨trivial, fun _ hcommitted => ⟨rfl, hcommitted⟩⟩ fun g' committed hg => ?_
  obtain ⟨rfl, hcommitted⟩ := hg
  refine streams_pass hopen (only_ask.mpr trivial) fun _ => ?_
  refine streams_skip hopen (quiet_updateAttempt ..) fun _ => ?_
  refine ⟨hopen, fun hne => ?_⟩
  rw [hcommitted, hmarked hne]
  exact attemptTimeoutFailure_final _

theorem streams_attemptRefused (hopen : g.Open) :
    Streams (attemptRefused a failure pr) g (fun g' _ => g' = g) := by
  refine streams_skip hopen (quiet_updateAttempt ..) fun _ => ?_
  refine streams_pass hopen (only_audit ..) fun _ => ?_
  rfl

/-- **One attempt**: what it sent is what it answers, and a failure after output is final. -/
theorem streams_runAttempt (hstream : ctx.command.options.stream = true) {rank remaining : Nat}
    {candidate : ModelCandidate} {credentialId : Uuid} (hopen : g.Open) (hnone : g.deltas = []) :
    Streams (runAttempt ctx rank candidate credentialId remaining pr) g AttemptStreamed := by
  refine streams_pass hopen (only_ask.mpr trivial) fun attemptId => ?_
  refine streams_bind (P := fun g' _ => g' = g) ⟨hnone, fun x _ => ?_⟩ fun g' _ hg => ?_
  · cases x with
    | error err => exact hopen
    | ok => rfl
  subst hg
  refine streams_pass hopen (only_push rfl) fun _ => ?_
  refine streams_pass hopen (only_audit ..) fun _ => ?_
  refine streams_pass hopen (only_ask.mpr trivial) fun permit => ?_
  cases permit with
  | error scope =>
    refine streams_bind (streams_attemptRefused hopen) fun g'' pr' hg => ?_
    subst hg
    exact ⟨hopen, hnone⟩
  | ok =>
    refine streams_pass hopen (only_ask.mpr trivial) fun request => ?_
    cases request with
    | error failure =>
      refine streams_bind (streams_attemptRefused hopen) fun g'' pr' hg => ?_
      subst hg
      exact ⟨hopen, faithful_failedOutcome⟩
    | ok =>
      refine streams_bind (streams_callProvider hstream candidate hopen hnone)
        fun g'' result hended => ?_
      cases result with
      | ok output => exact streams_attemptSucceeded hended.1 hended.2
      | failed failed => exact streams_attemptFailed hended.1 hended.2
      | elapsed => exact streams_attemptTimedOut hended.1 hended.2

/-! ## The loops -/

/-- What the attempts on one candidate leave behind. -/
def CandidateStreamed (g : Output) : CandidateEnd × Progress → Prop
  | (.finished outcome, _) => g.Open ∧ Faithful g.deltas outcome
  | (.broke failure, _) => g.Open ∧ (failure.fallbackEligible = true → g.deltas = [])

theorem deltas_nil_of_not_final (hfinal : g.deltas ≠ [] → failure.Final)
    (h : failure.retryable = true ∨ failure.fallbackEligible = true) : g.deltas = [] := by
  by_contra hne
  obtain ⟨hretry, hfallback⟩ := hfinal hne
  simp [hretry, hfallback] at h

/-- **No retry follows output.** -/
theorem streams_attemptLoop (hstream : ctx.command.options.stream = true) {rank : Nat}
    {candidate : ModelCandidate} {credentialId : Uuid} (retriesLeft : Nat) :
    ∀ {pr : Progress} {g : Output}, g.Open → g.deltas = [] →
      Streams (attemptLoop ctx rank candidate credentialId retriesLeft pr) g CandidateStreamed := by
  induction retriesLeft using Nat.strongRecOn with
  | ind retriesLeft ih =>
    intro pr g hopen hnone
    unfold attemptLoop
    refine streams_pass hopen (only_ask.mpr trivial) fun now => ?_
    split
    · exact ⟨hopen, faithful_failedOutcome⟩
    split
    · exact ⟨hopen, faithful_failedOutcome⟩
    refine streams_bind (streams_runAttempt hstream hopen hnone) fun g' result hdone => ?_
    match result, hdone with
    | (.finished outcome, pr'), hdone => exact hdone
    | (.refused failure, pr'), hdone => exact ⟨hdone.1, fun _ => hdone.2⟩
    | (.failed failure, pr'), ⟨hopen', hfinal⟩ =>
      have hbroke : CandidateStreamed g' (.broke failure, pr') :=
        ⟨hopen', fun h => deltas_nil_of_not_final hfinal (.inr h)⟩
      dsimp only
      split
      · next hretry =>
        have hnone' := deltas_nil_of_not_final hfinal (.inl hretry)
        cases retriesLeft with
        | zero => exact hbroke
        | succ retriesLeft =>
          refine streams_pass hopen' (only_sleepForRetry ..) fun wait => ?_
          cases wait with
          | ready => exact ih retriesLeft (by omega) hopen' hnone'
          | deadline => exact ⟨hopen', fun _ => hnone'⟩
          | cancelled => exact ⟨hopen', fun _ => hnone'⟩
      · exact hbroke

/-- What an execution leaves behind when it returns. -/
def Streamed (g : Output) (outcome : ExecutionOutcome) : Prop :=
  g.Open ∧ Faithful g.deltas outcome

/-- **No fallback follows output.** -/
theorem streams_candidateLoop (hstream : ctx.command.options.stream = true)
    (rest : List ModelCandidate) :
    ∀ {rank : Nat} {lastFailure : Option ExecutionFailure} {pr : Progress} {g : Output},
      g.Open → g.deltas = [] →
      Streams (candidateLoop ctx rank rest lastFailure pr) g Streamed := by
  induction rest with
  | nil =>
    intro rank lastFailure pr g hopen _
    unfold candidateLoop
    refine streams_pass hopen (only_audit ..) fun _ => ?_
    refine streams_pass hopen (only_push rfl) fun _ => ?_
    exact ⟨hopen, faithful_failedOutcome⟩
  | cons candidate rest ih =>
    intro rank lastFailure pr g hopen hnone
    unfold candidateLoop
    refine streams_pass hopen (only_push rfl) fun _ => ?_
    refine streams_skip hopen (quiet_prepareCandidate ctx rank candidate) fun r => ?_
    cases r with
    | error refusal =>
      dsimp only
      split
      · refine streams_pass hopen (only_when (only_push rfl)) fun _ => ?_
        exact ih hopen hnone
      · exact ⟨hopen, faithful_failedOutcome⟩
    | ok credentialId =>
      refine streams_bind (streams_attemptLoop hstream _ hopen hnone) fun g' result hdone => ?_
      match result, hdone with
      | (.finished outcome, pr'), hdone => exact hdone
      | (.broke failure, pr'), ⟨hopen', hfallback⟩ =>
        dsimp only
        split
        · next hfall =>
          rw [mayFallBack, Bool.and_eq_true] at hfall
          refine streams_pass hopen' (only_push rfl) fun _ => ?_
          exact ih hopen' (hfallback hfall.2)
        · refine streams_pass hopen' (only_audit ..) fun _ => ?_
          exact ⟨hopen', faithful_failedOutcome⟩

/-! ## The whole task -/

theorem returns_refuse (command : ExecutionCommand) (route : Option RouteDecision)
    (failure : ExecutionFailure) :
    (refuse command route failure).Returns
      fun outcome => outcome = failedOutcome command route none [] failure :=
  returns_bind (returns_true _) fun _ _ => returns_bind (returns_true _) fun _ _ => rfl

theorem streams_refuse {route : Option RouteDecision} (hopen : g.Open) :
    Streams (refuse command route failure) g Streamed := by
  refine streams_quiet hopen ((only_refuse ..).mono fun _ => Bookkeeping.quiet)
    (returns_refuse command route failure) fun outcome houtcome => ?_
  subst houtcome
  exact ⟨hopen, faithful_failedOutcome⟩

variable {settings : RuntimeSettings}

theorem streams_selectAndRun {policy : EffectiveExecutionPolicy} {route : RouteDecision}
    {profile : Option Uuid} (hstream : command.options.stream = true) (hopen : g.Open)
    (hnone : g.deltas = []) :
    Streams (selectAndRun settings command deadline policy route profile) g Streamed := by
  refine streams_pass hopen (only_ask.mpr trivial) fun skills => ?_
  cases skills with
  | error failure => exact streams_refuse hopen
  | ok hasTools =>
    dsimp only
    split
    · exact streams_refuse hopen
    refine streams_skip hopen (only_ask.mpr trivial) fun x => ?_
    cases x with
    | error failure => exact streams_refuse hopen
    | ok candidates =>
      refine streams_pass hopen (only_push rfl) fun _ => ?_
      exact streams_candidateLoop hstream _ hopen hnone

theorem streams_resolveProfile {policy : EffectiveExecutionPolicy} {route : RouteDecision}
    (hstream : command.options.stream = true) (hopen : g.Open) (hnone : g.deltas = []) :
    Streams (resolveProfile settings command deadline policy route) g Streamed := by
  unfold resolveProfile
  split
  · exact streams_selectAndRun hstream hopen hnone
  · refine streams_pass hopen (only_ask.mpr trivial) fun found => ?_
    refine streams_pass hopen (only_ofExcept _) fun resolution => ?_
    split
    · exact streams_selectAndRun hstream hopen hnone
    · refine streams_pass hopen (only_push rfl) fun _ => ?_
      refine streams_pass hopen (only_audit ..) fun _ => ?_
      exact streams_refuse hopen

theorem streams_executeInner (hstream : command.options.stream = true) (hopen : g.Open)
    (hnone : g.deltas = []) : Streams (executeInner settings command) g Streamed := by
  refine streams_pass hopen (only_ask.mpr trivial) fun start => ?_
  refine streams_bind (P := fun g' r => g' = g ∧ ∃ applicationId,
    r.1 = { command with applicationId })
    (streams_quiet hopen ((only_validateCommand command).mono fun _ => Bookkeeping.quiet)
      (returns_validateCommand command) fun _ hr => ⟨rfl, hr⟩) fun g' r hr => ?_
  obtain ⟨rfl, applicationId, hcommand⟩ := hr
  obtain ⟨command', refusal⟩ := r
  subst hcommand
  cases refusal with
  | some failure =>
    refine streams_pass hopen (only_push rfl) fun _ => ?_
    exact ⟨hopen, faithful_failedOutcome⟩
  | none =>
    refine streams_pass hopen (only_audit ..) fun _ => ?_
    split
    · refine streams_pass hopen (only_push rfl) fun _ => ?_
      exact ⟨hopen, faithful_failedOutcome⟩
    refine streams_pass hopen (only_push rfl) fun _ => ?_
    refine streams_pass hopen (only_ask.mpr trivial) fun routed => ?_
    cases routed with
    | error failure => exact streams_refuse hopen
    | ok route =>
      refine streams_pass hopen (only_push rfl) fun _ => ?_
      refine streams_pass hopen (only_audit ..) fun _ => ?_
      exact streams_resolveProfile hstream hopen hnone

/-- **The execution task keeps the output contract.** -/
theorem wp_streamTask (hstream : command.options.stream = true) :
    (streamTask settings command).wp outputContract {} (fun _ r => r = none) (fun _ _ => True) := by
  refine ⟨⟨rfl, rfl⟩, fun _ _ => ?_⟩
  show wp outputContract ((executeInner settings command).attempt >>= _) _ _ _
  rw [wp_bind, wp_attempt]
  refine wp_mono (streams_executeInner hstream (g := {}) ⟨rfl, rfl⟩ rfl) ?_ ?_
  · intro g outcome ⟨hopen, hfaithful⟩
    refine ⟨⟨hopen, ?_⟩, fun _ _ => ⟨trivial, fun _ _ => rfl⟩⟩
    intro outcome' heq
    cases heq
    exact hfaithful
  · intro g err hopen
    refine ⟨⟨rfl, hopen.2⟩, fun _ _ => ⟨⟨hopen, ?_⟩, fun _ _ => ⟨trivial, fun _ _ => rfl⟩⟩⟩
    intro outcome heq
    cases heq

end Moira
