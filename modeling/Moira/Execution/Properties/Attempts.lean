import Moira.Execution.Properties.AttemptRun

/-!
# The attempts of an execution

The journal of every run of `executeWithEvents`, finished or not, has the shape `AttemptShape`; and
when the run has returned, every attempt row has received its terminal update, with the one
exception the code documents: the writes that follow a successful provider call are bounded in
time, and a run whose writes exceed that bound returns `terminalPersistenceDeadlineFailure`.
-/

namespace Moira

open Exec Prog

section

variable {settings : RuntimeSettings} {policy : EffectiveExecutionPolicy} {j : Journal}

theorem journalOf_eq_track (tr : List (Exchange execSig)) :
    journalOf tr = (attemptContract settings policy).track {} tr := by
  have hfold : ∀ j, tr.foldl (fun j e => j.record e.1 e.2) j =
      (attemptContract settings policy).track j tr := by
    induction tr with
    | nil => exact fun _ => rfl
    | cons e tr ih => exact fun j => ih _
  exact hfold {}

theorem AttemptShape.visits_le (h : AttemptShape settings policy j) :
    j.visits.length ≤ if policy.allowFallback then policy.maxFallbacks + 1 else 1 := by
  have hle : j.visits.length ≤ maxCandidates policy := by
    cases hvisits : j.visits with
    | nil => simp
    | cons v vs =>
      obtain ⟨c, hc, -⟩ := h.visit v (by simp [hvisits])
      have hrank : v.rank < j.candidates.length := (List.getElem?_eq_some_iff.mp hc).1
      have hlen := h.length_of_newest ⟨hvisits, rfl⟩
      have := h.candidates_le
      rw [hvisits] at hlen
      omega
  unfold maxCandidates at hle
  split
  · next hallow =>
    rw [if_pos hallow] at hle
    omega
  · next hallow =>
    rw [if_neg hallow] at hle
    exact hle

theorem AttemptEntry.updates_of_failedWith {a : AttemptEntry} {P : ExecutionFailure → Prop}
    (h : a.FailedWith P) : a.updates.length = 1 := by
  obtain ⟨failure, hfailure, -⟩ := h
  unfold AttemptEntry.failure at hfailure
  split at hfailure
  · next hupdates => rw [hupdates]; rfl
  · cases hfailure

/--
**The attempts of an execution.** In every run, whatever the services, the provider and the clock
answer:

- the attempts are numbered `1 .. n`, at most `maximumTotalUpstreamAttempts` of them, in consecutive
  blocks of candidates in ranked order, with retries only after retryable and fallbacks only after
  fallback-eligible failures (`AttemptShape`)
- every attempt but the newest has failed
- once the run has returned, every row has exactly one terminal update, or the outcome reports that
  terminal persistence of the newest attempt ran out of its budget
-/
theorem executeWithEvents_attempts {command : ExecutionCommand} {tr : List (Exchange execSig)}
    {q : Exec ExecutionOutcome} (hpolicy : evaluate settings command = .ok policy)
    (hrun : After (executeWithEvents settings command) tr q)
    (hdb : (attemptContract settings policy).Honest {} tr) :
    AttemptShape settings policy (journalOf tr) ∧
    (journalOf tr).visits.length ≤ (if policy.allowFallback then policy.maxFallbacks + 1 else 1) ∧
    (∀ a ∈ (journalOf tr).attempts.tail, a.failure.isSome) ∧
    ∀ outcome, q = .ret outcome →
      (∀ a ∈ (journalOf tr).attempts, a.updates.length = 1) ∨
      (outcome.failure = some terminalPersistenceDeadlineFailure ∧
        ∀ a ∈ (journalOf tr).attempts.tail, a.updates.length = 1) := by
  have hidle : Idle {} := ⟨rfl⟩
  have hpolicy' : ∀ p, evaluate settings command = .ok p → p = policy := by
    intro p hp
    rw [hp] at hpolicy
    exact Except.ok.inj hpolicy
  have hwp := establishes_executeWithEvents hpolicy' hidle
  have hshape : AttemptShape settings policy (journalOf tr) := by
    rw [journalOf_eq_track]
    exact wp_invariant hrun hdb hwp (attemptShape_nil rfl (by simp))
      fun j o x h hmay hx => attemptShape_record h hmay hx
  refine ⟨hshape, hshape.visits_le, ?_, ?_⟩
  · intro a ha
    obtain ⟨failure, hfailure, -⟩ := hshape.failed_before a ha
    simp [hfailure]
  · rintro outcome rfl
    have hfinal := wp_after hrun hdb hwp
    rw [← journalOf_eq_track] at hfinal
    rcases hfinal with hsettled | ⟨-, hfailure⟩
    · exact .inl hsettled
    · refine .inr ⟨hfailure, fun a ha => ?_⟩
      exact AttemptEntry.updates_of_failedWith (hshape.failed_before a ha)

end

/-! ## A run on a fixed environment -/

/-- Whether the database answered without an error, where the operation is a statement. -/
def dbOk : (o : ExecOp) → o.Ans → Bool
  | .audit .., answer | .ensureApplicationActive _, answer | .insertAttemptStarted _, answer
  | .updateAttempt .., answer | .insertUsageRecord _, answer | .touchCredentialUsed _, answer =>
    answer.isOk
  | .findAgentProfileReference _, answer => answer.isOk
  | .auditBounded .., .done answer => answer.isOk
  | _, _ => true

instance {settings : RuntimeSettings} {policy : EffectiveExecutionPolicy} (j : Journal)
    (o : ExecOp) (x : o.Ans) : Decidable ((attemptContract settings policy).answers j o x) :=
  inferInstanceAs (Decidable (dbAnswers j o x = true))

namespace Trial

def settings : RuntimeSettings where
  defaultExecutionTimeoutMs := 60000
  maximumExecutionTimeoutMs := 300000
  maximumRetriesPerCandidate := 2
  maximumProviderFallbackCandidates := 2
  maximumTotalUpstreamAttempts := 6
  internalStreamQueueCapacity := 64
  parseJson := fun _ => none

def command : ExecutionCommand where
  requestId := "req-1"
  executionId := 1
  identity := { actorType := "ConsumerKey", applicationId := none, scopes := [] }
  applicationId := none
  messages := ["hello"]

def policy : EffectiveExecutionPolicy where
  timeoutMs := 60000
  maxRetries := 2
  maxFallbacks := 2
  requiredCapabilities := []
  allowFallback := true

def candidate : ModelCandidate where
  policyId := 10
  providerId := 11
  providerModelId := 12
  modelKey := "model"
  runtimePolicy :=
    { requestTimeoutMs := 30000, streamIdleTimeoutMs := 5000, retryLimit := 2
      retryBaseDelayMs := 0, retryMaxDelayMs := 0 }

/-- Every service agrees; the completion and the persistence budget are given. -/
def env (completion : Except ExecutionFailure ExecutionRunOutput) (tick : Timed Unit) :
    Nat → (o : ExecOp) → o.Ans × Nat
  | n, .now => (1, n)
  | n, .newId => (100 + n, n + 1)
  | n, .isCancelled => (false, n)
  | n, .sleep _ => (.slept, n)
  | n, .audit .. => (.ok (), n)
  | n, .ensureApplicationActive _ => (.ok (), n)
  | n, .selectRoute => (.ok { routeId := 20, routeKey := "default", agentProfileId := none }, n)
  | n, .findAgentProfileReference _ => (.ok .missing, n)
  | n, .resolveAgentSkills _ => (.ok false, n)
  | n, .selectCandidates .. => (.ok [candidate], n)
  | n, .resolveCredential .. => (.done (.ok 30), n)
  | n, .beforeCall .. => (.ok (), n)
  | n, .runtimeHandle .. => (.done (.ok ()), n)
  | n, .insertAttemptStarted _ => (.ok (), n)
  | n, .acquire _ => (.ok (), n)
  | n, .buildCompletionRequest => (.ok (), n)
  | n, .completion => (.done completion, n)
  | n, .runToolLoop => (.interrupted .elapsed, n)
  | n, .startStream => (.done (.ok []), n)
  | n, .nextItem _ => (.done .ready, n)
  | n, .persistenceTick => (tick, n)
  | n, .updateAttempt .. => (.ok (), n)
  | n, .insertUsageRecord _ => (.ok (), n)
  | n, .touchCredentialUsed _ => (.ok (), n)
  | n, .auditBounded .. => (.done (.ok ()), n)
  | n, .onSuccess .. => ((), n)
  | n, .onFailure .. => ((), n)
  | n, .push _ => ((), n)
  | n, .pushStream .. => (.accepted, n)
  | n, .markOutputCommitted => ((), n)
  | n, .outputCommitted => (false, n)
  | n, .deliveryFailure => (none, n)
  | n, .sendOutcome _ => ((), n)
  | n, .dropEvents => ((), n)

/-- A provider that is rate limited on every attempt. -/
def rateLimited : List (Exchange execSig) × Except AppError ExecutionOutcome :=
  (executeWithEvents settings command).runWith
    (env (.error (.new .providerRateLimited "slow down")) (.done ())) 0

/-- A provider that answers, and a database too slow to take the terminal writes. -/
def slowDatabase : List (Exchange execSig) × Except AppError ExecutionOutcome :=
  (executeWithEvents settings command).runWith (env (.ok { text := "hi" }) .elapsed) 0

end Trial

theorem executeWithEvents_attempts_rateLimited :
    AttemptShape Trial.settings Trial.policy (journalOf Trial.rateLimited.1) ∧
      (journalOf Trial.rateLimited.1).attempts.map (·.number) = [3, 2, 1] :=
  ⟨(executeWithEvents_attempts rfl (after_runWith _ _ _) (by decide +kernel)).1, by decide +kernel⟩

/-- A row without a terminal update, although no database statement failed. -/
theorem executeWithEvents_row_without_update :
    ∃ tr outcome, After (executeWithEvents Trial.settings Trial.command) tr (.ret outcome) ∧
      (attemptContract Trial.settings Trial.policy).Honest {} tr ∧
      (tr.all fun e => dbOk e.1 e.2) = true ∧
      ∃ a ∈ (journalOf tr).attempts, a.updates = [] := by
  have hok : Trial.slowDatabase.2.isOk = true := by decide +kernel
  obtain ⟨outcome, hrun⟩ := exists_after_runWith hok
  exact ⟨Trial.slowDatabase.1, outcome, hrun, by decide +kernel, by decide +kernel,
    by decide +kernel⟩

end Moira
