import Moira.Execution.Inner

/-!
# A successful execution touches its credential

The last of the terminal writes of a successful attempt is `touch_credential_used`. An execution
that reports success has made it, and on a row that its credential lookup had found.
-/

namespace Moira

open Prog Exec

variable {α β : Type}

/-- The credential the lookup has answered with. -/
def resolvedCredential : (o : ExecOp) → o.Ans → Option Uuid
  | .resolveCredential .., .done (.ok credentialId) => some credentialId
  | _, _ => none

section

variable (known : Uuid → Prop)

/-- Whether an exchange is a touch of a known credential that went through. -/
def TouchesKnown : Exchange execSig → Prop
  | ⟨.touchCredentialUsed credentialId, .ok _⟩ => known credentialId
  | _ => False

/-- The credential lookup answers with credentials it knows. -/
def resolvesKnown (o : ExecOp) (x : o.Ans) : Prop :=
  ∀ credentialId ∈ resolvedCredential o x, known credentialId

/-- The ghost state says whether a known credential has been touched. -/
def touchContract : Contract execSig Prop where
  may _ _ := True
  answers _ := resolvesKnown known
  next touched o x := touched ∨ TouchesKnown known ⟨o, x⟩

/-- The results of the program that are a success come after a touch. -/
abbrev Touches (p : Exec α) (g : Prop) (success : α → Prop) : Prop :=
  wp (touchContract known) p g (fun touched a => success a → touched) (fun _ _ => True)

end

variable {known : Uuid → Prop} {g : Prop} {S : β → Prop}

theorem touches_of_touched (p : Exec β) (h : g) : Touches known p g S := by
  induction p generalizing g with
  | ret a => exact fun _ => h
  | fail e => trivial
  | op o k ih => exact ⟨trivial, fun x _ => ih x (.inl h)⟩

theorem wp_bind_any {p : Exec α} {f : α → Exec β} {Q : Prop → β → Prop}
    (hf : ∀ g a, wp (touchContract known) (f a) g Q fun _ _ => True) :
    wp (touchContract known) (p >>= f) g Q fun _ _ => True := by
  induction p generalizing g with
  | ret a => exact hf g a
  | fail e => trivial
  | op o k ih => exact ⟨trivial, fun x _ => ih x⟩

theorem touches_bind {p : Exec α} {f : α → Exec β} (hf : ∀ g a, Touches known (f a) g S) :
    Touches known (p >>= f) g S :=
  wp_bind_any hf

theorem touches_ret {a : β} (h : ¬ S a) : Touches known (.ret a) g S :=
  fun ha => absurd ha h

theorem not_succeeded_failedOutcome {command : ExecutionCommand} {route : Option RouteDecision}
    {model : Option ModelDecision} {attempts : List ProviderAttemptSummary}
    {failure : ExecutionFailure} :
    (failedOutcome command route model attempts failure).status ≠ .succeeded := by
  simp only [failedOutcome, executionStatusForFailure]
  split <;> simp

/-! ## One attempt -/

variable {credentialId : Uuid}

theorem underBudget_touches (h : known credentialId) :
    Touches known (underBudget (touchCredentialUsed credentialId)) g (· = .done ()) := by
  refine ⟨trivial, fun tick _ => ?_⟩
  cases tick with
  | elapsed => exact touches_ret (by simp)
  | done _ =>
    refine ⟨trivial, fun result _ => ?_⟩
    cases result with
    | error err => trivial
    | ok => exact touches_of_touched _ (.inr h)

theorem terminalPersistence_touches {a : Attempt} (output : ExecutionRunOutput)
    (h : known a.credentialId) :
    Touches known (terminalPersistence a output) g (· = .done ()) := by
  refine touches_bind fun g₁ first => ?_
  cases first with
  | elapsed => exact touches_ret (by simp)
  | done _ =>
    refine touches_bind fun g₂ second => ?_
    cases second with
    | elapsed => exact touches_ret (by simp)
    | done _ => exact underBudget_touches h

/-- The attempt ended the execution with a success. -/
def AttemptEnd.Succeeded : AttemptEnd → Prop
  | .finished outcome => outcome.status = .succeeded
  | _ => False

variable (ctx : ExecContext)

theorem attemptSucceeded_touches {a : Attempt} (output : ExecutionRunOutput) (pr : Progress)
    (h : known a.credentialId) :
    Touches known (attemptSucceeded ctx a output pr) g (·.1.Succeeded) := by
  refine wp_bind_mono (terminalPersistence_touches output h) fun g₁ timed htouched => ?_
  cases timed with
  | elapsed =>
    -- the overrun is reported as a failure
    refine touches_bind fun g₂ _ => ?_
    refine touches_bind fun g₃ _ => ?_
    exact touches_ret (by simp [AttemptEnd.Succeeded])
  | done _ => exact touches_of_touched _ (htouched rfl)

theorem attemptFailed_touches (a : Attempt) (failed : FailedAttempt) (pr : Progress) :
    Touches known (attemptFailed a failed pr) g (·.1.Succeeded) := by
  unfold attemptFailed
  refine touches_bind fun g₁ _ => ?_
  refine touches_bind fun g₂ _ => ?_
  refine touches_bind fun g₃ _ => ?_
  refine touches_bind fun g₄ _ => ?_
  refine touches_bind fun g₅ _ => ?_
  refine touches_bind fun g₆ _ => ?_
  exact touches_ret (by simp [AttemptEnd.Succeeded])

theorem attemptTimedOut_touches (a : Attempt) (bounded : Bool) (pr : Progress) :
    Touches known (attemptTimedOut ctx a bounded pr) g (·.1.Succeeded) := by
  unfold attemptTimedOut
  refine touches_bind fun g₁ now => ?_
  refine touches_bind fun g₂ committed => ?_
  refine touches_bind fun g₃ _ => ?_
  refine touches_bind fun g₄ _ => ?_
  exact touches_ret (by simp [AttemptEnd.Succeeded])

variable (rank : Nat) (candidate : ModelCandidate)

theorem runAttempt_touches (remaining : Nat) (pr : Progress) (h : known credentialId) :
    Touches known (runAttempt ctx rank candidate credentialId remaining pr) g (·.1.Succeeded) := by
  unfold runAttempt
  refine touches_bind fun g₁ id => ?_
  refine touches_bind fun g₂ _ => ?_
  refine touches_bind fun g₃ _ => ?_
  refine touches_bind fun g₄ _ => ?_
  refine touches_bind fun g₅ acquired => ?_
  cases acquired with
  | error scope => exact touches_bind fun g₆ _ => touches_ret (by simp [AttemptEnd.Succeeded])
  | ok =>
    refine touches_bind fun g₆ built => ?_
    cases built with
    | error failure => exact touches_bind fun g₇ _ => touches_ret not_succeeded_failedOutcome
    | ok =>
      refine touches_bind fun g₇ result => ?_
      cases result with
      | ok output => exact attemptSucceeded_touches ctx output _ h
      | failed failed => exact attemptFailed_touches ..
      | elapsed => exact attemptTimedOut_touches ..

/-! ## The loops -/

def CandidateEnd.Succeeded : CandidateEnd → Prop
  | .finished outcome => outcome.status = .succeeded
  | .broke _ => False

theorem attemptLoop_touches_of (h : known credentialId) {retriesLeft : Nat} (pr : Progress)
    (hretry : ∀ n, retriesLeft = n + 1 → ∀ g pr,
      Touches known (attemptLoop ctx rank candidate credentialId n pr) g (·.1.Succeeded)) :
    Touches known (attemptLoop ctx rank candidate credentialId retriesLeft pr) g
      (·.1.Succeeded) := by
  unfold attemptLoop
  refine touches_bind fun g₁ now => ?_
  cases remainingExecutionTime ctx.deadline now with
  | none => exact touches_ret not_succeeded_failedOutcome
  | some remaining =>
    dsimp only
    split
    · exact touches_ret not_succeeded_failedOutcome
    · refine wp_bind_mono (runAttempt_touches ctx rank candidate remaining pr h)
        fun g₂ ended htouched => ?_
      obtain ⟨ended, pr⟩ := ended
      cases ended with
      | finished outcome => exact htouched
      | refused failure => exact touches_ret (by simp [CandidateEnd.Succeeded])
      | failed failure =>
        dsimp only
        split
        · cases retriesLeft with
          | zero => exact touches_ret (by simp [CandidateEnd.Succeeded])
          | succ n =>
            refine touches_bind fun g₃ wait => ?_
            cases wait with
            | ready => exact hretry n rfl g₃ pr
            | deadline => exact touches_ret (by simp [CandidateEnd.Succeeded])
            | cancelled => exact touches_ret (by simp [CandidateEnd.Succeeded])
        · exact touches_ret (by simp [CandidateEnd.Succeeded])

theorem attemptLoop_touches (h : known credentialId) (retriesLeft : Nat) (pr : Progress) :
    Touches known (attemptLoop ctx rank candidate credentialId retriesLeft pr) g
      (·.1.Succeeded) := by
  induction retriesLeft generalizing g pr with
  | zero => exact attemptLoop_touches_of ctx rank candidate h pr (by simp)
  | succ n ih =>
    refine attemptLoop_touches_of ctx rank candidate h pr fun m hm g pr => ?_
    cases hm
    exact ih pr

/-- The results of the program, where they are a credential, are one the lookup has found. -/
abbrev Finds (known : Uuid → Prop) {ε : Type} (p : Exec (Except ε Uuid)) (g : Prop) : Prop :=
  wp (touchContract known) p g
    (fun _ found => ∀ credentialId, found = .ok credentialId → known credentialId)
    (fun _ _ => True)

theorem finds_error {ε : Type} (e : ε) : Finds known (.ret (.error e)) g :=
  fun _ h => nomatch h

theorem boundedPhase_finds :
    Finds known (boundedPhase ctx.deadline (resolveCredential ctx rank candidate)) g := by
  unfold boundedPhase
  refine wp_bind_any fun g₁ now => ?_
  cases remainingExecutionTime ctx.deadline now with
  | none => exact finds_error _
  | some remaining =>
    unfold resolveCredential
    dsimp only
    split
    · exact finds_error _
    · refine ⟨trivial, fun answer hanswer => ?_⟩
      cases answer with
      | elapsed => exact finds_error _
      | done result =>
        rintro credentialId rfl
        exact hanswer credentialId rfl

theorem prepareCandidate_finds : Finds known (prepareCandidate ctx rank candidate) g := by
  refine wp_bind_mono (boundedPhase_finds ctx rank candidate) fun g₁ found hknown => ?_
  cases found with
  | error failure => exact finds_error _
  | ok credentialId =>
    refine wp_bind_any fun g₂ breaker => ?_
    cases breaker with
    | error failure => exact finds_error _
    | ok =>
      refine wp_bind_any fun g₃ handle => ?_
      cases handle with
      | error failure => exact finds_error _
      | ok =>
        rintro _ ⟨⟩
        exact hknown credentialId rfl

theorem candidateLoop_touches (candidates : List ModelCandidate)
    (lastFailure : Option ExecutionFailure) (pr : Progress) :
    Touches known (candidateLoop ctx rank candidates lastFailure pr) g
      (·.status = .succeeded) := by
  induction candidates generalizing g rank lastFailure pr with
  | nil =>
    unfold candidateLoop
    refine touches_bind fun g₁ _ => ?_
    refine touches_bind fun g₂ _ => ?_
    exact touches_ret not_succeeded_failedOutcome
  | cons candidate rest ih =>
    unfold candidateLoop
    refine touches_bind fun g₁ _ => ?_
    refine wp_bind_mono (prepareCandidate_finds ctx rank candidate) fun g₂ prepared hknown => ?_
    cases prepared with
    | error refusal =>
      obtain ⟨failure, announced⟩ := refusal
      dsimp only
      split
      · exact touches_bind fun g₃ _ => ih ..
      · exact touches_ret not_succeeded_failedOutcome
    | ok credentialId =>
      refine wp_bind_mono (attemptLoop_touches ctx rank candidate (hknown _ rfl) _ pr)
        fun g₃ ended htouched => ?_
      obtain ⟨ended, pr⟩ := ended
      cases ended with
      | finished outcome => exact htouched
      | broke failure =>
        dsimp only
        split
        · exact touches_bind fun g₄ _ => ih ..
        · exact touches_bind fun g₄ _ => touches_ret not_succeeded_failedOutcome

/-! ## The whole execution -/

theorem refuse_touches (command : ExecutionCommand) (route : Option RouteDecision)
    (failure : ExecutionFailure) :
    Touches known (refuse command route failure) g (·.status = .succeeded) := by
  unfold refuse
  refine touches_bind fun g₁ _ => ?_
  refine touches_bind fun g₂ _ => ?_
  exact touches_ret not_succeeded_failedOutcome

variable (settings : RuntimeSettings)

theorem selectAndRun_touches (command : ExecutionCommand) (deadline : Nat)
    (policy : EffectiveExecutionPolicy) (route : RouteDecision) (profile : Option Uuid) :
    Touches known (selectAndRun settings command deadline policy route profile) g
      (·.status = .succeeded) := by
  unfold selectAndRun
  refine touches_bind fun g₁ skills => ?_
  cases skills with
  | error failure => exact refuse_touches ..
  | ok hasTools =>
    dsimp only
    split
    · exact refuse_touches ..
    · refine touches_bind fun g₂ candidates => ?_
      cases candidates with
      | error failure => exact refuse_touches ..
      | ok candidates => exact touches_bind fun g₃ _ => candidateLoop_touches ..

theorem resolveProfile_touches (command : ExecutionCommand) (deadline : Nat)
    (policy : EffectiveExecutionPolicy) (route : RouteDecision) :
    Touches known (resolveProfile settings command deadline policy route) g
      (·.status = .succeeded) := by
  unfold resolveProfile
  split
  · exact selectAndRun_touches ..
  · refine touches_bind fun g₁ found => ?_
    refine touches_bind fun g₂ resolution => ?_
    split
    · exact selectAndRun_touches ..
    · refine touches_bind fun g₃ _ => ?_
      refine touches_bind fun g₄ _ => ?_
      exact refuse_touches ..

theorem executeInner_touches (command : ExecutionCommand) :
    Touches known (executeInner settings command) g (·.status = .succeeded) := by
  unfold executeInner
  refine touches_bind fun g₁ now => ?_
  refine touches_bind fun g₂ validated => ?_
  obtain ⟨command, refusal⟩ := validated
  cases refusal with
  | some failure => exact touches_bind fun g₃ _ => touches_ret not_succeeded_failedOutcome
  | none =>
    refine touches_bind fun g₃ _ => ?_
    cases evaluate settings command with
    | error failure => exact touches_bind fun g₄ _ => touches_ret not_succeeded_failedOutcome
    | ok policy =>
      refine touches_bind fun g₄ _ => ?_
      refine touches_bind fun g₅ selected => ?_
      cases selected with
      | error failure => exact refuse_touches ..
      | ok route =>
        refine touches_bind fun g₆ _ => ?_
        refine touches_bind fun g₇ _ => ?_
        exact resolveProfile_touches ..

variable {tr : List (Exchange execSig)}

theorem track_touchContract (h : (touchContract known).track g tr) :
    g ∨ ∃ e ∈ tr, TouchesKnown known e := by
  induction tr generalizing g with
  | nil => exact .inl h
  | cons e tr ih =>
    rcases ih h with (hg | he) | ⟨e', he', hknown⟩
    · exact .inl hg
    · exact .inr ⟨e, by simp, he⟩
    · exact .inr ⟨e', by simp [he'], hknown⟩

theorem honest_touchContract (h : ∀ e ∈ tr, resolvesKnown known e.1 e.2) :
    (touchContract known).Honest g tr := by
  induction tr generalizing g with
  | nil => trivial
  | cons e tr ih => exact ⟨h e (by simp), ih fun e' he' => h e' (by simp [he'])⟩

/-- **A successful execution has touched a credential** that its lookup had found. -/
theorem executeWithEvents_touches {settings : RuntimeSettings} {command : ExecutionCommand}
    {outcome : ExecutionOutcome}
    (hrun : After (executeWithEvents settings command) tr (.ret outcome))
    (hanswers : ∀ e ∈ tr, resolvesKnown known e.1 e.2) (hsucceeded : outcome.status = .succeeded) :
    ∃ e ∈ tr, TouchesKnown known e := by
  have hpre : Touches known (executeWithEvents settings command) False (·.status = .succeeded) :=
    touches_bind fun g _ => executeInner_touches settings command
  have hpost := wp_after hrun (honest_touchContract hanswers) hpre
  simpa using track_touchContract (hpost hsucceeded)

end Moira
