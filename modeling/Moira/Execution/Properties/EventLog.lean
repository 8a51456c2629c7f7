import Mathlib.Data.List.TakeWhile
import Moira.Execution.Properties.Attempts

/-!
# The event log of an execution

The events so far are those of a log between attempts (`ClosedLog`) or of one within an attempt
(`OpenLog`).

- `Calm` — the parts of the pipeline that emit neutral events only
- `Course.Ready`, `Trying`, `Running` — before a candidate, before an attempt, and within one

**`executeWithEvents_wellFormed`**: the events of every run that keeps to the course are well
formed. The exits from within the loops leave the terminal event out
(`failed_without_terminal_event`).
-/

namespace Moira

open Exec Prog ExecutionFailureClass

/-! ## Logs -/

/-- The event neither starts nor ends anything. -/
def RuntimeEvent.Neutral (event : RuntimeEvent) : Prop :=
  event.attemptStarted? = none ∧ event.attemptClosed? = none ∧ event.isTerminal = false

/-- A log between attempts. -/
def ClosedLog (events : List RuntimeEvent) : Prop :=
  AttemptsClosed events ∧ ∀ event ∈ events, event.isTerminal = false

/-- A log within an attempt. -/
def OpenLog (attemptId : Uuid) (events : List RuntimeEvent) : Prop :=
  ∃ before event after, events = before ++ event :: after ∧ ClosedLog before ∧
    event.attemptStarted? = some attemptId ∧ event.isTerminal = false ∧ ∀ e ∈ after, e.Neutral

variable {event : RuntimeEvent}

section Logs

variable {events more : List RuntimeEvent} {attemptId : Uuid}

theorem segment_of_none (h : ∀ e ∈ events, e.attemptStarted? = none) : segment events = events :=
  List.takeWhile_eq_self_iff.mpr fun e he => by rw [h e he]; rfl

theorem countP_segment_append (hmore : ∀ e ∈ segment more, e.attemptClosed? = none) :
    (segment (events ++ more)).countP (·.attemptClosed? = some attemptId) =
      (segment events).countP (·.attemptClosed? = some attemptId) := by
  have hzero : (segment more).countP (·.attemptClosed? = some attemptId) = 0 := by
    rw [List.countP_eq_zero]
    intro e he
    simp [hmore e he]
  unfold segment at hzero ⊢
  rw [List.takeWhile_append]
  split
  · next hall =>
    have htake := List.takeWhile_prefix (l := events) (·.attemptStarted?.isNone)
    have hself : events.takeWhile (·.attemptStarted?.isNone) = events := htake.eq_of_length hall
    rw [List.countP_append, hzero, hself, Nat.add_zero]
  · rfl

theorem AttemptsClosed.append (h : AttemptsClosed events) (hmore : AttemptsClosed more)
    (hsegment : ∀ e ∈ segment more, e.attemptClosed? = none) : AttemptsClosed (events ++ more) := by
  induction events with
  | nil => exact hmore
  | cons event events ih =>
    obtain ⟨hevent, hrest⟩ := h
    refine ⟨fun attemptId hstarted => ?_, ih hrest⟩
    rw [← hevent attemptId hstarted]
    exact countP_segment_append hsegment

theorem attemptsClosed_of_none (h : ∀ e ∈ events, e.attemptStarted? = none) : AttemptsClosed events := by
  induction events with
  | nil => trivial
  | cons event events ih =>
    refine ⟨fun attemptId hstarted => ?_, ih fun e he => h e (List.mem_cons_of_mem _ he)⟩
    cases (h event List.mem_cons_self).symm.trans hstarted

theorem closedLog_nil : ClosedLog [] :=
  ⟨trivial, by simp⟩

theorem ClosedLog.neutral (h : ClosedLog events) (hmore : ∀ e ∈ more, e.Neutral) :
    ClosedLog (events ++ more) := by
  obtain ⟨hclosed, hterminal⟩ := h
  refine ⟨hclosed.append (attemptsClosed_of_none fun e he => (hmore e he).1) fun e he => ?_, fun e he => ?_⟩
  · exact (hmore e ((List.takeWhile_sublist _).mem he)).2.1
  · rcases List.mem_append.mp he with he | he
    · exact hterminal e he
    · exact (hmore e he).2.2

theorem ClosedLog.start (h : ClosedLog events) (hstarted : event.attemptStarted? = some attemptId)
    (hterminal : event.isTerminal = false) : OpenLog attemptId (events ++ [event]) :=
  ⟨events, event, [], rfl, h, hstarted, hterminal, by simp⟩

section

variable (h : OpenLog attemptId events)
include h

theorem OpenLog.neutral (hmore : ∀ e ∈ more, e.Neutral) : OpenLog attemptId (events ++ more) := by
  obtain ⟨before, event, after, rfl, hbefore, hstarted, hterminal, hafter⟩ := h
  refine ⟨before, event, after ++ more, by simp, hbefore, hstarted, hterminal, fun e he => ?_⟩
  rcases List.mem_append.mp he with he | he
  · exact hafter e he
  · exact hmore e he

theorem OpenLog.close (hclosed : event.attemptClosed? = some attemptId)
    (hnone : event.attemptStarted? = none) : AttemptsClosed (events ++ [event]) := by
  obtain ⟨before, start, after, rfl, ⟨hbefore, -⟩, hstarted, -, hafter⟩ := h
  have hnostart : ∀ e ∈ after ++ [event], e.attemptStarted? = none := by
    intro e he
    rcases List.mem_append.mp he with he | he
    · exact (hafter e he).1
    · rw [List.mem_singleton.mp he, hnone]
  have hcount : (segment (after ++ [event])).countP (·.attemptClosed? = some attemptId) = 1 := by
    rw [segment_of_none hnostart, List.countP_append]
    have hzero : after.countP (·.attemptClosed? = some attemptId) = 0 := by
      rw [List.countP_eq_zero]
      intro e he
      simp [(hafter e he).2.1]
    rw [hzero]
    simp [hclosed]
  have hlast : AttemptsClosed (start :: (after ++ [event])) := by
    refine ⟨fun id hid => ?_, attemptsClosed_of_none hnostart⟩
    obtain rfl := Option.some.inj (hstarted.symm.trans hid)
    exact hcount
  -- the segment before the attempt ends at its start
  have hsegment : ∀ e ∈ segment (start :: (after ++ [event])), e.attemptClosed? = none := by
    intro e he
    unfold segment at he
    rw [List.takeWhile_cons, hstarted] at he
    cases he
  rw [List.append_assoc, List.cons_append]
  exact hbefore.append hlast hsegment

theorem OpenLog.terminal : ∀ e ∈ events, e.isTerminal = false := by
  obtain ⟨before, start, after, rfl, ⟨-, hbefore⟩, -, hstart, hafter⟩ := h
  intro e he
  rcases List.mem_append.mp he with he | he
  · exact hbefore e he
  · rcases List.mem_cons.mp he with rfl | he
    · exact hstart
    · exact (hafter e he).2.2

theorem OpenLog.fail (failureClass : ExecutionFailureClass) :
    ClosedLog (events ++ [.providerAttemptFailed attemptId failureClass]) := by
  refine ⟨h.close rfl rfl, fun e he => ?_⟩
  rcases List.mem_append.mp he with he | he
  · exact h.terminal e he
  · rw [List.mem_singleton.mp he]
    rfl

theorem OpenLog.complete {outcome : ExecutionOutcome} (hstatus : outcome.status = .succeeded) :
    WellFormed (events ++ [.executionCompleted attemptId]) outcome :=
  ⟨⟨events, _, rfl, hstatus, h.terminal⟩, h.close rfl rfl⟩

end

theorem ClosedLog.failed (h : ClosedLog events) {outcome : ExecutionOutcome}
    (hstatus : outcome.status ≠ .succeeded)
    (failureClass : ExecutionFailureClass) :
    WellFormed (events ++ [.executionFailed failureClass]) outcome := by
  refine ⟨⟨events, _, rfl, hstatus, h.2⟩, h.1.append ?_ ?_⟩
  · exact attemptsClosed_of_none (by rintro e he; rw [List.mem_singleton.mp he]; rfl)
  · rintro e he
    rw [List.mem_singleton.mp ((List.takeWhile_sublist _).mem he)]
    rfl

end Logs

theorem failedOutcome_status (command : ExecutionCommand) (route : Option RouteDecision)
    (model : Option ModelDecision) (attempts : List ProviderAttemptSummary) (failure : ExecutionFailure) :
    (failedOutcome command route model attempts failure).status ≠ .succeeded := by
  unfold failedOutcome executionStatusForFailure
  dsimp only
  split <;> decide

/-! ## Calm operations -/

/-- The operation emits neutral events only, and the observer keeps nothing else of it. -/
def CalmOp : ExecOp → Prop
  | .push event | .pushStream event _ => event.Neutral
  | .now | .selectCandidates .. | .runtimeHandle .. | .insertAttemptStarted _ => False
  | _ => True

/-- The course goes on with neutral events. -/
def Calmly (g g' : Course) : Prop :=
  ∃ more, (∀ e ∈ more, e.Neutral) ∧ g' = g.emit more

variable {α : Type}

section Calm

variable {settings : RuntimeSettings} {command : ExecutionCommand} {g g' g'' : Course} {β : Type}

/-- The program keeps to the course and establishes `Q` when it returns. -/
abbrev Logs (settings : RuntimeSettings) (command : ExecutionCommand) (p : Exec α) (g : Course)
    (Q : Course → α → Prop) : Prop :=
  p.wp (courseContract settings command) g Q (fun _ _ => True)

theorem Calmly.refl (g : Course) : Calmly g g :=
  ⟨[], by simp, by simp [Course.emit]⟩

theorem Calmly.trans (h : Calmly g g') (h' : Calmly g' g'') : Calmly g g'' := by
  obtain ⟨more, hmore, rfl⟩ := h
  obtain ⟨more', hmore', rfl⟩ := h'
  refine ⟨more ++ more', fun e he => ?_, by simp [Course.emit]⟩
  rcases List.mem_append.mp he with he | he
  · exact hmore e he
  · exact hmore' e he

variable {o : ExecOp}

variable (settings command) in
theorem calmly_record (h : CalmOp o) (x : o.Ans) : Calmly g (g.record settings command o x) := by
  have hnote : g.note settings command o x = g := by
    cases o <;> first | exact h.elim | rfl
  refine ⟨(emitted ⟨o, x⟩).toList, fun e he => ?_, by rw [Course.record, hnote]⟩
  cases o with
  | push event => rwa [List.mem_singleton.mp he]
  | pushStream event ms =>
    cases x with
    | accepted => rwa [List.mem_singleton.mp he]
    | refused failure => cases he
    | interrupted i => cases he
  | _ => cases he

theorem logs_calm {p : Exec α} {R : α → Prop} (hp : p.Only CalmOp) (hr : p.Returns R) :
    Logs settings command p g fun g' a => Calmly g g' ∧ R a := by
  induction p generalizing g with
  | ret a => exact ⟨.refl g, hr⟩
  | fail e => trivial
  | op o k ih =>
    refine ⟨trivial, fun x _ => wp_mono (ih x (hp.2 x) (hr x)) (fun _ _ h => ?_) fun _ _ h => h⟩
    exact ⟨(calmly_record settings command hp.1 x).trans h.1, h.2⟩

variable {Q : Course → β → Prop}

theorem logs_pass {p : Exec α} {f : α → Exec β} (hp : p.Only CalmOp)
    (hf : ∀ g' a, Calmly g g' → Logs settings command (f a) g' Q) :
    Logs settings command (p >>= f) g Q :=
  wp_bind_mono (logs_calm hp (returns_true p)) fun g' a h => hf g' a h.1

theorem logs_ask {f : o.Ans → Exec β}
    (hf : ∀ g' x, Calmly g g' → g.keeps settings command o x = true →
      Logs settings command (f x) g' Q)
    (h : CalmOp o := by trivial) : Logs settings command (Exec.ask o >>= f) g Q :=
  ⟨trivial, fun x hx => hf _ x (calmly_record settings command h x) hx⟩

theorem logs_op {f : o.Ans → Exec β}
    (hf : ∀ x, g.keeps settings command o x = true →
      Logs settings command (f x) (g.record settings command o x) Q) :
    Logs settings command (Exec.ask o >>= f) g Q :=
  ⟨trivial, hf⟩

theorem logs_emit {f : Unit → Exec β}
    (hf : g.keeps settings command (.push event) () = true →
      Logs settings command (f ()) (g.emit [event]) Q) :
    Logs settings command (push event >>= f) g Q :=
  ⟨trivial, fun _ hkeeps => hf hkeeps⟩

theorem calm_when {condition : Bool} {p : Exec Unit} (hp : p.Only CalmOp) :
    (Exec.when condition p).Only CalmOp := by
  unfold Exec.when
  split
  · exact hp
  · trivial

theorem calm_push (h : event.Neutral) : (push event).Only CalmOp :=
  only_ask.mpr h

theorem calm_audit (action : String) (result : AuditResult) (attemptId : Option Uuid)
    (failureClass : Option ExecutionFailureClass) :
    (audit action result attemptId failureClass).Only CalmOp :=
  only_bind (only_ask.mpr trivial) fun _ => only_ofExcept _

theorem calm_updateAttempt (attemptId : Uuid) (update : AttemptUpdate) :
    (updateAttempt attemptId update).Only CalmOp := by
  unfold updateAttempt
  split
  · exact only_bind (only_ask.mpr trivial) fun _ => only_ofExcept _
  · trivial

theorem calm_insertUsageRecord (row : UsageRecordInsert) : (insertUsageRecord row).Only CalmOp := by
  unfold insertUsageRecord
  split
  · exact only_bind (only_ask.mpr trivial) fun _ => only_ofExcept _
  · trivial

theorem calm_touchCredentialUsed (credentialId : Uuid) :
    (touchCredentialUsed credentialId).Only CalmOp :=
  only_bind (only_ask.mpr trivial) fun _ => only_ofExcept _

theorem calm_pushToolResults (attemptId : Uuid) :
    ∀ records, (pushToolResults attemptId records).Only CalmOp
  | [] => trivial
  | _ :: rest => only_bind (calm_push ⟨rfl, rfl, rfl⟩) fun _ => calm_pushToolResults attemptId rest

theorem calm_validateCommand (command : ExecutionCommand) :
    (validateCommand command).Only CalmOp := by
  have hensure : ∀ command applicationId,
      (validateCommand.ensureActive command applicationId).Only CalmOp := by
    intro command applicationId
    refine only_bind (only_ask.mpr trivial) fun x => ?_
    split <;> trivial
  unfold validateCommand
  split
  · trivial
  · dsimp only
    split
    · split
      · trivial
      · exact hensure _ _
    · exact hensure _ _
    · trivial

/-! ## The provider call -/

/-- The call ends with the provider's answer. -/
def Answered (g : Course) (g' : Course) (result : AttemptResult) : Prop :=
  Calmly g g' ∧ result ≠ .elapsed

theorem neutral_item {item : RuntimeStreamItem} (h : item.event = some event) : event.Neutral := by
  cases item <;> cases h <;> exact ⟨rfl, rfl, rfl⟩

theorem logs_drain (parseJson : String → Option Json) (wantsStructured : Bool) (idleTimeoutMs : Nat)
    (items : List (Except ExecutionFailure RuntimeStreamItem)) : ∀ (st : StreamState) (g : Course),
    Logs settings command (drain parseJson wantsStructured idleTimeoutMs items st) g (Answered g) := by
  induction items with
  | nil =>
    intro st g
    unfold drain
    refine logs_ask fun g' x hcalm hkeeps => ?_
    cases x with
    | interrupted i =>
      cases i with
      | cancelled => exact ⟨hcalm, fun h => by cases h⟩
      | elapsed => cases hkeeps
    | done item =>
      cases item with
      | idle => exact ⟨hcalm, fun h => by cases h⟩
      | ready =>
        refine ⟨hcalm, ?_⟩
        unfold StreamState.finish
        split <;> exact fun h => by cases h
  | cons item rest ih =>
    intro st g
    unfold drain
    refine logs_ask fun g' x hcalm hkeeps => ?_
    cases x with
    | interrupted i =>
      cases i with
      | cancelled => exact ⟨hcalm, fun h => by cases h⟩
      | elapsed => cases hkeeps
    | done next =>
      cases next with
      | idle => exact ⟨hcalm, fun h => by cases h⟩
      | ready =>
        cases item with
        | error failure => exact ⟨hcalm, fun h => by cases h⟩
        | ok item =>
          dsimp only
          cases hevent : item.event with
          | none =>
            exact wp_mono (ih _ g') (fun _ _ h => ⟨hcalm.trans h.1, h.2⟩) fun _ _ h => h
          | some event =>
            refine logs_ask (fun g₁ x hcalm' hkeeps' => ?_) (neutral_item hevent)
            have hcalm₁ := hcalm.trans hcalm'
            cases x with
            | refused failure => exact ⟨hcalm₁, fun h => by cases h⟩
            | interrupted i =>
              cases i with
              | cancelled => exact ⟨hcalm₁, fun h => by cases h⟩
              | elapsed => cases hkeeps'
            | accepted =>
              refine logs_pass (calm_when (only_ask.mpr trivial)) fun g₂ _ hcalm₂ => ?_
              exact wp_mono (ih _ g₂) (fun _ _ h => ⟨(hcalm₁.trans hcalm₂).trans h.1, h.2⟩) fun _ _ h => h

theorem logs_callProvider (ctx : ExecContext) (candidate : ModelCandidate) :
    Logs settings command (callProvider ctx candidate) g (Answered g) := by
  unfold callProvider
  dsimp only
  split
  · unfold executeRigStream
    refine logs_ask fun g' x hcalm _ => ?_
    cases x with
    | some failure => exact ⟨hcalm, fun h => by cases h⟩
    | none =>
      refine logs_ask fun g₁ x hcalm₁ hkeeps => ?_
      cases x with
      | interrupted i =>
        cases i with
        | cancelled => exact ⟨hcalm.trans hcalm₁, fun h => by cases h⟩
        | elapsed => cases hkeeps
      | done items =>
        cases items with
        | error failure => exact ⟨hcalm.trans hcalm₁, fun h => by cases h⟩
        | ok items =>
          refine wp_mono (logs_drain _ _ _ items {} g₁) (fun _ _ h => ?_) fun _ _ h => h
          exact ⟨(hcalm.trans hcalm₁).trans h.1, h.2⟩
  · split
    · unfold executeRigToolLoop
      refine logs_ask fun g' x hcalm hkeeps => ?_
      cases x with
      | interrupted i =>
        cases i with
        | cancelled => exact ⟨hcalm, fun h => by cases h⟩
        | elapsed => cases hkeeps
      | done outcome => cases outcome <;> exact ⟨hcalm, fun h => by cases h⟩
    · unfold executeRigCompletion
      refine logs_ask fun g' x hcalm hkeeps => ?_
      cases x with
      | interrupted i =>
        cases i with
        | cancelled => exact ⟨hcalm, fun h => by cases h⟩
        | elapsed => cases hkeeps
      | done answer =>
        cases answer with
        | error failure => exact ⟨hcalm, fun h => by cases h⟩
        | ok output =>
          dsimp only
          split <;> exact ⟨hcalm, fun h => by cases h⟩

theorem logs_terminalPersistence (a : Attempt) (output : ExecutionRunOutput) :
    Logs settings command (terminalPersistence a output) g fun g' x => Calmly g g' ∧ x = .done () := by
  have hunder : ∀ (g : Course) (write : Exec Unit), write.Only CalmOp →
      Logs settings command (underBudget write) g fun g' x => Calmly g g' ∧ x = .done () := by
    intro g write hwrite
    refine logs_ask fun g₁ x hcalm hkeeps => ?_
    cases x with
    | elapsed => cases hkeeps
    | done =>
      refine logs_pass hwrite fun g₂ _ hcalm₂ => ?_
      refine ⟨trivial, fun x hx => ?_⟩
      cases x with
      | elapsed => cases hx
      | done => exact ⟨(hcalm.trans hcalm₂).trans (calmly_record settings command
          (o := .persistenceTick) trivial _), rfl⟩
  refine wp_bind_mono (hunder g _ (calm_updateAttempt _ _)) fun g₁ x hx => ?_
  obtain ⟨hcalm₁, rfl⟩ := hx
  refine wp_bind_mono (hunder g₁ _ (calm_insertUsageRecord _)) fun g₂ x hx => ?_
  obtain ⟨hcalm₂, rfl⟩ := hx
  refine wp_mono (hunder g₂ _ (calm_touchCredentialUsed _)) (fun _ _ hx => ?_) fun _ _ h => h
  exact ⟨(hcalm₁.trans hcalm₂).trans hx.1, hx.2⟩

end Calm

/-! ## The life of a candidate -/

namespace Course

/-- What the loops know of the course. -/
structure Within (ctx : ExecContext) (total : Nat) (g : Course) : Prop where
  deadline : g.deadline = some ctx.deadline
  policy : g.policy = some ctx.policy
  started : g.started = total

/-- The next candidate may be tried. -/
structure Ready (ctx : ExecContext) (total : Nat) (g : Course) : Prop where
  within : g.Within ctx total
  log : ClosedLog g.events

/-- The next attempt on a candidate may start, after `n` of them. -/
structure Trying (ctx : ExecContext) (c : ModelCandidate) (n total : Nat) (g : Course) : Prop where
  within : g.Within ctx total
  candidate : g.candidate = some c
  attempts : g.attempts = n
  log : ClosedLog g.events

/-- An attempt is in hand, the `n`-th on its candidate. -/
structure Running (ctx : ExecContext) (c : ModelCandidate) (n total : Nat) (attemptId : Uuid) (g : Course) :
    Prop where
  within : g.Within ctx total
  candidate : g.candidate = some c
  attempts : g.attempts = n
  log : OpenLog attemptId g.events

end Course

section Loops

variable {settings : RuntimeSettings} {command : ExecutionCommand} {g g' : Course} {ctx : ExecContext}
  {c : ModelCandidate} {n total : Nat} {attemptId : Uuid}

theorem Course.Ready.calmly (h : g.Ready ctx total) (hcalm : Calmly g g') : g'.Ready ctx total := by
  obtain ⟨more, hmore, rfl⟩ := hcalm
  exact ⟨⟨h.within.deadline, h.within.policy, h.within.started⟩, h.log.neutral hmore⟩

theorem Course.Ready.emit (h : g.Ready ctx total) (hneutral : event.Neutral) :
    (g.emit [event]).Ready ctx total :=
  h.calmly ⟨[event], by simpa using hneutral, rfl⟩

theorem Course.Trying.calmly (h : g.Trying ctx c n total) (hcalm : Calmly g g') :
    g'.Trying ctx c n total := by
  obtain ⟨more, hmore, rfl⟩ := hcalm
  exact ⟨⟨h.within.deadline, h.within.policy, h.within.started⟩, h.candidate, h.attempts,
    h.log.neutral hmore⟩

theorem Course.Running.calmly (h : g.Running ctx c n total attemptId) (hcalm : Calmly g g') :
    g'.Running ctx c n total attemptId := by
  obtain ⟨more, hmore, rfl⟩ := hcalm
  exact ⟨⟨h.within.deadline, h.within.policy, h.within.started⟩, h.candidate, h.attempts,
    h.log.neutral hmore⟩

theorem Course.Trying.ready (h : g.Trying ctx c n total) : g.Ready ctx total :=
  ⟨h.within, h.log⟩

theorem fallsBack_eq (h : g.Within ctx total) (failure : ExecutionFailure) :
    g.fallsBack failure = mayFallBack ctx failure := by
  unfold Course.fallsBack mayFallBack
  rw [h.policy]
  rfl

/-- What a failed attempt leads to: a retry within the limit on attempts, or the next candidate. -/
def Retries (settings : RuntimeSettings) (ctx : ExecContext) (c : ModelCandidate) (n total : Nat)
    (failure : ExecutionFailure) : Prop :=
  if failure.retryable && decide (n ≤ (effectiveRuntimePolicy ctx.policy c.runtimePolicy).maxRetries) then
    total < settings.maximumTotalUpstreamAttempts
  else mayFallBack ctx failure = true

/-- What one attempt leads to. -/
def AttemptLogged (settings : RuntimeSettings) (ctx : ExecContext) (c : ModelCandidate) (n total : Nat)
    (g : Course) : AttemptEnd × Progress → Prop
  | (.finished outcome, _) => WellFormed g.events outcome
  | (.refused _, _) => False
  | (.failed failure, pr) =>
    g.Trying ctx c n total ∧ pr.totalAttempts = total ∧ Retries settings ctx c n total failure

theorem Course.Trying.start (h : g.Trying ctx c n total) (attemptId : Uuid) (number : Int) :
    (g.emit [.providerAttemptStarted attemptId number c.providerId c.providerModelId]).Running ctx c n total
      attemptId :=
  ⟨⟨h.within.deadline, h.within.policy, h.within.started⟩, h.candidate, h.attempts, h.log.start rfl rfl⟩

theorem Course.Running.fail (h : g.Running ctx c n total attemptId) (failureClass : ExecutionFailureClass) :
    (g.emit [.providerAttemptFailed attemptId failureClass]).Trying ctx c n total :=
  ⟨⟨h.within.deadline, h.within.policy, h.within.started⟩, h.candidate, h.attempts,
    h.log.fail failureClass⟩

variable {pr : Progress}

theorem logs_attemptSucceeded {a : Attempt} {output : ExecutionRunOutput}
    (h : g.Running ctx c n total a.id) : Logs settings command (attemptSucceeded ctx a output pr) g
      (AttemptLogged settings ctx c n total) := by
  refine wp_bind_mono (logs_terminalPersistence a output) fun g₁ x hx => ?_
  obtain ⟨hcalm, rfl⟩ := hx
  refine logs_ask fun g₂ _ hcalm₂ _ => ?_
  refine logs_pass (calm_audit ..) fun g₃ _ hcalm₃ => ?_
  refine logs_pass (calm_pushToolResults _ _) fun g₄ _ hcalm₄ => ?_
  have hrunning := (((h.calmly hcalm).calmly hcalm₂).calmly hcalm₃).calmly hcalm₄
  -- the terminal event, which closes the attempt
  refine logs_emit fun _ => ⟨trivial, fun x _ => ?_⟩
  cases x with
  | error e => trivial
  | ok =>
    show WellFormed ((g₄.events ++ [RuntimeEvent.executionCompleted a.id]) ++ []) _
    rw [List.append_nil]
    exact hrunning.log.complete rfl

theorem logs_attemptFailed {a : Attempt} {failed : FailedAttempt}
    (h : g.Running ctx c n total a.id) (htotal : pr.totalAttempts = total) :
    Logs settings command (attemptFailed a failed pr) g (AttemptLogged settings ctx c n total) := by
  refine logs_ask fun g₁ _ hcalm _ => ?_
  have hrunning := h.calmly hcalm
  -- the terminal update of the row, after which the failure is retried or falls back
  have hupdate : Logs settings command (completeFailedAttempt a failed.failure failed.usage) g₁
      fun g' _ => g'.Running ctx c n total a.id ∧ Retries settings ctx c n total failed.failure := by
    unfold completeFailedAttempt updateAttempt
    split
    · refine logs_ask fun g₂ x hcalm₂ hkeeps => ?_
      cases x with
      | error e => trivial
      | ok =>
        refine ⟨hrunning.calmly hcalm₂, ?_⟩
        have hleft : g₁.retriesLeft =
            decide (n ≤ (effectiveRuntimePolicy ctx.policy c.runtimePolicy).maxRetries) := by
          unfold Course.retriesLeft
          rw [hrunning.within.policy, hrunning.candidate, hrunning.attempts]
          rfl
        unfold Retries
        simp only [Course.keeps, hleft, hrunning.within.started, fallsBack_eq hrunning.within] at hkeeps
        split
        · next hretry =>
          rw [if_pos hretry] at hkeeps
          exact of_decide_eq_true hkeeps
        · next hretry => rwa [if_neg hretry] at hkeeps
    · trivial
  refine wp_bind_mono hupdate fun g₂ _ hx => ?_
  obtain ⟨hrunning₂, hretries⟩ := hx
  refine logs_pass (calm_when (calm_insertUsageRecord _)) fun g₃ _ hcalm₃ => ?_
  refine logs_pass (calm_pushToolResults _ _) fun g₄ _ hcalm₄ => ?_
  have htrying := ((hrunning₂.calmly hcalm₃).calmly hcalm₄).fail failed.failure.failureClass
  refine logs_emit fun _ => logs_pass (calm_audit ..) fun g₅ _ hcalm₅ => ?_
  exact ⟨htrying.calmly hcalm₅, htotal, hretries⟩

variable {rank : Nat}

/-- **One attempt** is started and closed. -/
theorem logs_runAttempt {credentialId remaining : Nat} (h : g.Trying ctx c n pr.totalAttempts) :
    Logs settings command (runAttempt ctx rank c credentialId remaining pr) g
      (AttemptLogged settings ctx c (n + 1) (pr.totalAttempts + 1)) := by
  refine logs_ask fun g₁ attemptId hcalm _ => ?_
  have htrying := h.calmly hcalm
  have hinsert : ∀ row : AttemptInsert, Logs settings command (insertAttemptStarted row) g₁ fun g' _ =>
      g'.Trying ctx c (n + 1) (pr.totalAttempts + 1) := by
    intro row
    refine ⟨trivial, fun x _ => ?_⟩
    cases x with
    | error e => trivial
    | ok =>
      refine ⟨⟨htrying.within.deadline, htrying.within.policy, congrArg (· + 1) htrying.within.started⟩,
        htrying.candidate, congrArg (· + 1) htrying.attempts, ?_⟩
      exact htrying.log.neutral (by simp [emitted])
  refine wp_bind_mono (hinsert _) fun g₂ _ htrying₂ => ?_
  refine logs_emit fun _ => logs_pass (calm_audit ..) fun g₃ _ hcalm₃ => ?_
  have hrunning := (htrying₂.start attemptId _).calmly hcalm₃
  refine logs_ask fun g₄ permits hcalm₄ hpermits => ?_
  cases permits with
  | error scope => cases hpermits
  | ok =>
    refine logs_ask fun g₅ request hcalm₅ hrequest => ?_
    cases request with
    | error failure => cases hrequest
    | ok =>
      refine wp_bind_mono (logs_callProvider ctx c) fun g₆ result hanswered => ?_
      have hrunning₆ := ((hrunning.calmly hcalm₄).calmly hcalm₅).calmly hanswered.1
      cases result with
      | ok output => exact logs_attemptSucceeded hrunning₆
      | failed failed => exact logs_attemptFailed hrunning₆ rfl
      | elapsed => exact absurd rfl hanswered.2

/-! ## The loops -/

theorem logs_now {f : Nat → Exec α} {Q : Course → α → Prop} (h : g.Within ctx total)
    (hf : ∀ now, now < ctx.deadline → Logs settings command (f now) { g with now } Q) :
    Logs settings command (Exec.ask .now >>= f) g Q := by
  refine ⟨trivial, fun now hnow => ?_⟩
  have hbefore : now < ctx.deadline := by
    have hkeeps : g.before now = true := hnow
    unfold Course.before at hkeeps
    rw [h.deadline] at hkeeps
    exact of_decide_eq_true hkeeps
  have hnext : Course.record settings command g .now now = { g with now } := by
    unfold Course.record Course.note Course.emit
    simp only [h.deadline, Option.some_or]
    rw [← h.deadline]
    exact congrArg (fun events => { g with now, events }) (List.append_nil g.events)
  show Logs settings command (f now) (Course.record settings command g .now now) Q
  rw [hnext]
  exact hf now hbefore

theorem Course.Trying.at (h : g.Trying ctx c n total) (now : Nat) :
    Course.Trying ctx c n total { g with now } :=
  ⟨⟨h.within.deadline, h.within.policy, h.within.started⟩, h.candidate, h.attempts, h.log⟩

theorem Course.Ready.at (h : g.Ready ctx total) (now : Nat) : Course.Ready ctx total { g with now } :=
  ⟨⟨h.within.deadline, h.within.policy, h.within.started⟩, h.log⟩

theorem logs_sleepForRetry {retryNumber : Nat} {policy : ProviderRuntimePolicy}
    (h : g.Trying ctx c n total) :
    Logs settings command (sleepForRetry retryNumber policy ctx.deadline) g
      fun g' wait => g'.Trying ctx c n total ∧ wait = .ready := by
  have hready : ∀ g : Course, g.Trying ctx c n total →
      Logs settings command (readyToRetry ctx.deadline) g
        fun g' wait => g'.Trying ctx c n total ∧ wait = .ready := by
    intro g h
    refine logs_ask fun g₁ cancelled hcalm hkeeps => ?_
    obtain rfl : cancelled = false := by simpa [Course.keeps] using hkeeps
    refine logs_now (h.calmly hcalm).within fun now hnow => ?_
    unfold remainingExecutionTime
    rw [if_pos hnow]
    exact ⟨(h.calmly hcalm).at now, rfl⟩
  unfold sleepForRetry
  refine logs_now h.within fun now hnow => ?_
  unfold remainingExecutionTime
  rw [if_pos hnow]
  dsimp only
  have hat := h.at now
  split
  · exact hready _ hat
  · split
    · -- a delay up to the deadline is not slept
      refine logs_ask fun g₁ woken _ hkeeps => ?_
      have hbefore : now + (ctx.deadline - now) < ctx.deadline := by
        simp only [Course.keeps, Bool.and_eq_true, Course.before, h.within.deadline] at hkeeps
        exact of_decide_eq_true hkeeps.2
      omega
    · refine logs_ask fun g₁ woken hcalm hkeeps => ?_
      cases woken with
      | cancelled => simp [Course.keeps] at hkeeps
      | slept => exact hready g₁ (hat.calmly hcalm)

/-- What the attempts on one candidate lead to. -/
def CandidateLogged (ctx : ExecContext) (g : Course) : CandidateEnd × Progress → Prop
  | (.finished outcome, _) => WellFormed g.events outcome
  | (.broke failure, pr) => g.Ready ctx pr.totalAttempts ∧ mayFallBack ctx failure = true

/-- **The attempts on one candidate**, while the limit on attempts leaves room for the next one. -/
theorem logs_attemptLoop {credentialId : Nat} (hsettings : ctx.settings = settings)
    (retriesLeft : Nat) :
    ∀ {n : Nat} {pr : Progress} {g : Course}, g.Trying ctx c n pr.totalAttempts →
      pr.totalAttempts < settings.maximumTotalUpstreamAttempts →
      n + retriesLeft = (effectiveRuntimePolicy ctx.policy c.runtimePolicy).maxRetries →
      Logs settings command (attemptLoop ctx rank c credentialId retriesLeft pr) g (CandidateLogged ctx) := by
  induction retriesLeft using Nat.strongRecOn with
  | ind retriesLeft ih =>
    intro n pr g h hlimit hn
    unfold attemptLoop
    refine logs_now h.within fun now hnow => ?_
    unfold remainingExecutionTime
    rw [if_pos hnow]
    dsimp only
    rw [hsettings, if_neg (by omega)]
    refine wp_bind_mono (logs_runAttempt (h.at now)) fun g₁ result hlogged => ?_
    obtain ⟨attemptEnd, pr'⟩ := result
    cases attemptEnd with
    | finished outcome => exact hlogged
    | refused failure => exact hlogged.elim
    | failed failure =>
      obtain ⟨htrying, htotal, hretries⟩ := hlogged
      unfold Retries at hretries
      rw [← htotal] at htrying hretries
      dsimp only
      split
      · next hretry =>
        cases retriesLeft with
        | zero =>
          rw [if_neg (by simp; omega)] at hretries
          exact ⟨htrying.ready, hretries⟩
        | succ retriesLeft =>
          -- a retry is left, and the limit leaves room for it
          rw [if_pos (by simp [hretry]; omega)] at hretries
          refine wp_bind_mono (logs_sleepForRetry htrying) fun g₂ wait hwait => ?_
          obtain ⟨htrying₂, rfl⟩ := hwait
          exact ih retriesLeft (by omega) htrying₂ hretries (by omega)
      · next hretry =>
        rw [if_neg (by simp [hretry])] at hretries
        exact ⟨htrying.ready, hretries⟩

theorem logs_boundedPhase {phase : Exec (Timed (Except ExecutionFailure α))}
    {Q : Course → Except ExecutionFailure α → Prop} (h : g.Within ctx total)
    (hphase : ∀ now, Logs settings command phase { g with now } fun g' x =>
      ∃ result, x = .done result ∧ Q g' result) :
    Logs settings command (boundedPhase ctx.deadline phase) g Q := by
  unfold boundedPhase
  refine logs_now h fun now hnow => ?_
  unfold remainingExecutionTime
  rw [if_pos hnow]
  refine wp_bind_mono (hphase now) fun g' x hx => ?_
  obtain ⟨result, rfl, hQ⟩ := hx
  exact hQ

/-- Before the first attempt on a candidate, a failure leads to the next one. -/
def PhaseLogged {α : Type} (ctx : ExecContext) (total : Nat) (P : Course → Prop) (g : Course) :
    Except ExecutionFailure α → Prop
  | .error failure => g.Ready ctx total ∧ mayFallBack ctx failure = true
  | .ok _ => P g

theorem logs_resolveCredential
    (hoverride : (ctx.command.credentialHint.isNone ||
    hasRuntimeScope ctx.command "moira:execution:override-credential") = true)
    (h : g.Ready ctx total) :
    Logs settings command (boundedPhase ctx.deadline (resolveCredential ctx rank c)) g
      (PhaseLogged ctx total (Course.Ready ctx total)) := by
  have hresolve : resolveCredential ctx rank c = Exec.ask (.resolveCredential rank c) := by
    unfold resolveCredential
    rw [if_neg]
    cases hhint : ctx.command.credentialHint with
    | none => simp
    | some id => simpa [hhint] using hoverride
  rw [hresolve]
  refine logs_boundedPhase h.within fun now => ⟨trivial, fun credential hkeeps => ?_⟩
  have hat := h.at now
  have hready := hat.calmly (calmly_record settings command (o := .resolveCredential rank c) trivial credential)
  match credential, hkeeps, hready with
  | .done (.error failure), hkeeps, hready =>
    refine ⟨_, rfl, hready, ?_⟩
    rw [← fallsBack_eq hat.within]
    exact hkeeps
  | .done (.ok credentialId), _, hready => exact ⟨_, rfl, hready⟩

theorem logs_runtimeHandle (h : g.Ready ctx total) :
    Logs settings command (boundedPhase ctx.deadline (Exec.ask (.runtimeHandle rank c))) g
      (PhaseLogged ctx total fun g' =>
        g'.Trying ctx c 0 total ∧ total < settings.maximumTotalUpstreamAttempts) := by
  refine logs_boundedPhase h.within fun now => ⟨trivial, fun handle hkeeps => ?_⟩
  have hat := h.at now
  have htrying : (Course.record settings command { g with now } (.runtimeHandle rank c) handle).Trying
      ctx c 0 total := by
    refine ⟨⟨hat.within.deadline, hat.within.policy, hat.within.started⟩, rfl, rfl, ?_⟩
    exact hat.log.neutral (by simp [emitted])
  match handle, hkeeps, htrying with
  | .done (.error failure), hkeeps, htrying =>
    refine ⟨_, rfl, htrying.ready, ?_⟩
    rw [← fallsBack_eq hat.within]
    exact hkeeps
  | .done (.ok _), hkeeps, htrying =>
    refine ⟨_, rfl, htrying, ?_⟩
    have hlimit : decide (g.started < settings.maximumTotalUpstreamAttempts) = true := hkeeps
    rw [h.within.started] at hlimit
    exact of_decide_eq_true hlimit

/-- **The candidate before its first attempt**: ready for it, or left for the next candidate. -/
theorem logs_prepareCandidate
    (hoverride : (ctx.command.credentialHint.isNone ||
    hasRuntimeScope ctx.command "moira:execution:override-credential") = true)
    (h : g.Ready ctx total) :
    Logs settings command (prepareCandidate ctx rank c) g fun g' prepared =>
      match prepared with
      | .error (failure, _) => g'.Ready ctx total ∧ mayFallBack ctx failure = true
      | .ok _ => g'.Trying ctx c 0 total ∧ total < settings.maximumTotalUpstreamAttempts := by
  unfold prepareCandidate
  refine wp_bind_mono (logs_resolveCredential hoverride h) fun g₁ credential hlogged => ?_
  cases credential with
  | error failure => exact hlogged
  | ok credentialId =>
    have hready : g₁.Ready ctx total := hlogged
    refine logs_ask fun g₂ admitted hcalm hkeeps => ?_
    cases admitted with
    | error failure =>
      refine ⟨hready.calmly hcalm, ?_⟩
      rw [← fallsBack_eq hready.within]
      exact hkeeps
    | ok =>
      refine wp_bind_mono (logs_runtimeHandle (hready.calmly hcalm)) fun g₃ handle hlogged₃ => ?_
      cases handle with
      | error failure => exact hlogged₃
      | ok => exact hlogged₃

/-- The command with its application filled in. -/
def SameCaller (command' command : ExecutionCommand) : Prop :=
  command'.credentialHint = command.credentialHint ∧ command'.identity = command.identity

/-- **The candidates**, one after another until one succeeds or none is left. -/
theorem logs_candidateLoop (hsettings : ctx.settings = settings) (hcaller : SameCaller ctx.command command)
    (candidates : List ModelCandidate) :
    ∀ {rank : Nat} {last : Option ExecutionFailure} {pr : Progress} {g : Course},
      g.Ready ctx pr.totalAttempts →
      Logs settings command (candidateLoop ctx rank candidates last pr) g fun g' outcome =>
        WellFormed g'.events outcome := by
  induction candidates with
  | nil =>
    intro rank last pr g h
    unfold candidateLoop
    refine logs_pass (calm_audit ..) fun g₁ _ hcalm => ?_
    exact logs_emit fun _ => (h.calmly hcalm).log.failed (failedOutcome_status _ _ _ _ _) _
  | cons c rest ih =>
    intro rank last pr g h
    unfold candidateLoop
    refine logs_emit fun hkeeps => ?_
    have hoverride : (ctx.command.credentialHint.isNone ||
        hasRuntimeScope ctx.command "moira:execution:override-credential") = true := by
      rw [hcaller.1]
      unfold hasRuntimeScope
      rw [hcaller.2]
      exact hkeeps
    have hannounced := h.emit (show
        (RuntimeEvent.modelSelected (modelDecision ctx.command c)).Neutral from ⟨rfl, rfl, rfl⟩)
    refine wp_bind_mono (logs_prepareCandidate hoverride hannounced) fun g₁ prepared hprepared => ?_
    cases prepared with
    | error fallback =>
      obtain ⟨failure, announced⟩ := fallback
      obtain ⟨hready, hfalls⟩ := hprepared
      dsimp only
      rw [if_pos hfalls]
      refine logs_pass (calm_when (calm_push ⟨rfl, rfl, rfl⟩)) fun g₂ _ hcalm => ?_
      exact ih (hready.calmly hcalm)
    | ok credentialId =>
      obtain ⟨htrying, hlimit⟩ := hprepared
      dsimp only
      refine wp_bind_mono (logs_attemptLoop hsettings _ htrying hlimit (Nat.zero_add _)) fun g₂ result hlogged => ?_
      obtain ⟨candidateEnd, pr'⟩ := result
      cases candidateEnd with
      | finished outcome => exact hlogged
      | broke failure =>
        obtain ⟨hready, hfalls⟩ := hlogged
        dsimp only
        rw [if_pos hfalls]
        refine logs_pass (calm_push ⟨rfl, rfl, rfl⟩) fun g₃ _ hcalm => ?_
        exact ih (hready.calmly hcalm)

/-! ## Admission -/

/-- The clock has been read, and no candidate was tried. -/
structure Course.Admitted (deadline : Nat) (g : Course) : Prop where
  deadline : g.deadline = some deadline
  started : g.started = 0
  log : ClosedLog g.events

variable {deadline : Nat}

theorem Course.Admitted.calmly (h : g.Admitted deadline) (hcalm : Calmly g g') :
    g'.Admitted deadline := by
  obtain ⟨more, hmore, rfl⟩ := hcalm
  exact ⟨h.deadline, h.started, h.log.neutral hmore⟩

/-- The execution returns with well-formed events. -/
abbrev LogsWell (settings : RuntimeSettings) (command : ExecutionCommand) (p : Exec ExecutionOutcome)
    (g : Course) : Prop :=
  Logs settings command p g fun g' outcome => WellFormed g'.events outcome

variable {command' : ExecutionCommand}

theorem logs_failed {route : Option RouteDecision} {failure : ExecutionFailure}
    (h : ClosedLog g.events) :
    LogsWell settings command (do
      push (.executionFailed failure.failureClass)
      pure (failedOutcome command' route none [] failure)) g :=
  logs_emit fun _ => h.failed (failedOutcome_status _ _ _ _ _) _

theorem logs_refuse {route : Option RouteDecision} {failure : ExecutionFailure}
    (h : g.Admitted deadline) : LogsWell settings command (refuse command' route failure) g :=
  logs_pass (calm_audit ..) fun _ _ hcalm => logs_failed (h.calmly hcalm).log

theorem logs_selectAndRun {policy : EffectiveExecutionPolicy} {route : RouteDecision}
    {profile : Option Uuid} (hcaller : SameCaller command' command) (h : g.Admitted deadline) :
    LogsWell settings command (selectAndRun settings command' deadline policy route profile) g := by
  unfold selectAndRun
  refine logs_ask fun g₁ skills hcalm _ => ?_
  have hadmitted := h.calmly hcalm
  cases skills with
  | error failure => exact logs_refuse hadmitted
  | ok hasTools =>
    dsimp only
    split
    · exact logs_refuse hadmitted
    · refine logs_op fun selected _ => ?_
      have hclosed : ClosedLog (Course.record settings command g₁ (.selectCandidates policy route)
          selected).events := hadmitted.log.neutral (by simp [emitted])
      cases selected with
      | error failure =>
        have hadmitted' : (Course.record settings command g₁ (.selectCandidates policy route)
            (.error failure)).Admitted deadline := ⟨hadmitted.deadline, hadmitted.started, hclosed⟩
        exact logs_refuse hadmitted'
      | ok candidates =>
        refine logs_pass (calm_push ⟨rfl, rfl, rfl⟩) fun g₂ _ hcalm₂ => ?_
        have hready : (Course.record settings command g₁ (.selectCandidates policy route)
            (.ok candidates)).Ready { settings, command := command', deadline, policy, route, hasTools }
              ({} : Progress).totalAttempts :=
          ⟨⟨hadmitted.deadline, rfl, hadmitted.started⟩, hclosed⟩
        exact logs_candidateLoop rfl hcaller _ (hready.calmly hcalm₂)

theorem logs_resolveProfile {policy : EffectiveExecutionPolicy} {route : RouteDecision}
    (hcaller : SameCaller command' command) (h : g.Admitted deadline) :
    LogsWell settings command (resolveProfile settings command' deadline policy route) g := by
  unfold resolveProfile
  split
  · exact logs_selectAndRun hcaller h
  · refine logs_ask fun g₁ found hcalm _ => ?_
    have hadmitted := h.calmly hcalm
    refine wp_ofExcept_bind (fun resolution _ => ?_) fun _ _ => trivial
    split
    · exact logs_selectAndRun hcaller hadmitted
    · refine logs_pass (calm_push ⟨rfl, rfl, rfl⟩) fun g₂ _ hcalm₂ => ?_
      refine logs_pass (calm_audit ..) fun g₃ _ hcalm₃ => ?_
      exact logs_refuse ((hadmitted.calmly hcalm₂).calmly hcalm₃)

theorem logs_executeInner (hdeadline : g.deadline = none) (hstarted : g.started = 0)
    (hlog : ClosedLog g.events) : LogsWell settings command (executeInner settings command) g := by
  unfold executeInner
  refine logs_op fun now _ => ?_
  have hadmitted : (Course.record settings command g .now now).Admitted (now +
      min (command.options.timeoutMs.getD settings.defaultExecutionTimeoutMs)
        settings.maximumExecutionTimeoutMs) := by
    refine ⟨?_, hstarted, hlog.neutral (by simp [emitted])⟩
    show g.deadline.or _ = _
    rw [hdeadline, Option.none_or]
  refine wp_bind_mono (logs_calm (calm_validateCommand command) (returns_validateCommand command))
    fun g₁ validated hvalidated => ?_
  obtain ⟨hcalm, applicationId, hcommand⟩ := hvalidated
  have hadmitted₁ := hadmitted.calmly hcalm
  obtain ⟨command', refusal⟩ := validated
  obtain rfl : command' = { command with applicationId } := hcommand
  cases refusal with
  | some failure => exact logs_failed hadmitted₁.log
  | none =>
    refine logs_pass (calm_audit ..) fun g₂ _ hcalm₂ => ?_
    have hadmitted₂ := hadmitted₁.calmly hcalm₂
    split
    · exact logs_failed hadmitted₂.log
    · refine logs_pass (calm_push ⟨rfl, rfl, rfl⟩) fun g₃ _ hcalm₃ => ?_
      refine logs_ask fun g₄ selected hcalm₄ _ => ?_
      have hadmitted₄ := (hadmitted₂.calmly hcalm₃).calmly hcalm₄
      cases selected with
      | error failure => exact logs_refuse hadmitted₄
      | ok route =>
        refine logs_pass (calm_push ⟨rfl, rfl, rfl⟩) fun g₅ _ hcalm₅ => ?_
        refine logs_pass (calm_audit ..) fun g₆ _ hcalm₆ => ?_
        exact logs_resolveProfile ⟨rfl, rfl⟩ ((hadmitted₄.calmly hcalm₅).calmly hcalm₆)

end Loops

theorem eventsOf_track (settings : RuntimeSettings) (command : ExecutionCommand)
    (tr : List (Exchange execSig)) : ∀ g : Course,
    ((courseContract settings command).track g tr).events = g.events ++ eventsOf tr := by
  induction tr with
  | nil => intro g; simp [Contract.track, eventsOf]
  | cons e tr ih =>
    intro g
    obtain ⟨o, x⟩ := e
    have hnote : (g.note settings command o x).events = g.events := by
      unfold Course.note
      split <;> rfl
    have hnext : (Course.record settings command g o x).events = g.events ++ (emitted ⟨o, x⟩).toList := by
      unfold Course.record Course.emit
      rw [hnote]
    show ((courseContract settings command).track (Course.record settings command g o x) tr).events = _
    rw [ih, hnext, List.append_assoc]
    congr 1
    unfold eventsOf
    cases hemitted : emitted ⟨o, x⟩ with
    | none => simp [hemitted]
    | some event => simp [hemitted]

/--
**The event log of an execution.** In every run that keeps to the course and returns an outcome,
exactly one event is terminal, it is the last one and says what the status of the outcome says, and
every attempt that was started is closed once before the next one starts.
-/
theorem executeWithEvents_wellFormed {settings : RuntimeSettings} {command : ExecutionCommand}
    {tr : List (Exchange execSig)} {outcome : ExecutionOutcome}
    (hrun : After (executeWithEvents settings command) tr (.ret outcome))
    (hcourse : (courseContract settings command).Honest {} tr) : WellFormed (eventsOf tr) outcome := by
  have hwp : LogsWell settings command (executeWithEvents settings command) {} := by
    unfold executeWithEvents
    refine logs_emit fun _ => logs_executeInner rfl rfl ?_
    exact closedLog_nil.neutral (by simp [RuntimeEvent.Neutral, RuntimeEvent.attemptStarted?,
      RuntimeEvent.attemptClosed?, RuntimeEvent.isTerminal])
  have hfinal := wp_after hrun hcourse hwp
  have hevents := eventsOf_track settings command tr {}
  rw [List.nil_append] at hevents
  rw [← hevents]
  exact hfinal

instance {settings : RuntimeSettings} {command : ExecutionCommand} (g : Course) (o : ExecOp) (x : o.Ans) :
    Decidable ((courseContract settings command).answers g o x) :=
  inferInstanceAs (Decidable (g.keeps settings command o x = true))

namespace Trial

/-- A provider that refuses the credential. -/
def unauthenticated : List (Exchange execSig) × Except AppError ExecutionOutcome :=
  (executeWithEvents settings command).runWith
    (env (.error (.new providerAuthenticationFailed "bad key")) (.done ())) 0

end Trial

/-- The failure of an attempt that does not fall back ends the execution without a terminal event.
-/
theorem failed_without_terminal_event : ∃ tr outcome,
    After (executeWithEvents Trial.settings Trial.command) tr (.ret outcome) ∧
    (tr.all fun e => dbOk e.1 e.2) = true ∧ outcome.status = .failed ∧
    ¬WellFormed (eventsOf tr) outcome := by
  have hfailed : Trial.unauthenticated.2.toOption.map (·.status) = some .failed := by decide +kernel
  obtain ⟨outcome, houtcome, hstatus⟩ := Option.map_eq_some_iff.mp hfailed
  refine ⟨Trial.unauthenticated.1, outcome, after_runWith_ret houtcome, by decide +kernel, hstatus, ?_⟩
  rintro ⟨⟨before, last, hevents, htells, -⟩, -⟩
  have hnone : (eventsOf Trial.unauthenticated.1).all (!·.isTerminal) = true := by decide +kernel
  have hlast := List.all_eq_true.mp hnone last (by rw [hevents]; simp)
  -- the last event would have to be terminal
  cases last with
  | executionCompleted attemptId => cases hlast
  | executionFailed failureClass => cases hlast
  | _ => exact htells

theorem executeWithEvents_wellFormed_rateLimited : ∃ outcome,
    After (executeWithEvents Trial.settings Trial.command) Trial.rateLimited.1 (.ret outcome) ∧
    WellFormed (eventsOf Trial.rateLimited.1) outcome := by
  have hok : Trial.rateLimited.2.isOk = true := by decide +kernel
  obtain ⟨outcome, hrun⟩ := exists_after_runWith hok
  exact ⟨outcome, hrun, executeWithEvents_wellFormed hrun (by decide +kernel)⟩

end Moira
