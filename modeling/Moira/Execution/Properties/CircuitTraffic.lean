import Moira.Execution.CircuitTraffic
import Moira.Execution.Properties.Attempts
import Moira.Orchestration.Properties.Circuit

/-!
# Provider calls while the circuit is open

`before_call` is asked once for each candidate; the attempts on the candidate are not admitted
again.

**`no_call_while_open`**: over every run in which no provider failure catches an execution between
its admission and its call.
-/

namespace Moira

open Exec Prog System Transition

/-! ## What one execution does -/

/-- The execution has a candidate that was let pass, and an attempt on it. -/
def Watch.InCall (g : Watch) : Prop :=
  ∃ candidate row, g.admitted = some candidate ∧ g.attempt = some row ∧
    row.providerId = candidate.providerId ∧ row.providerModelId = candidate.providerModelId

/-- A provider call is made for the candidate that was let pass last. -/
def watchContract : Contract execSig Watch where
  may g o := isProviderCall o = true → g.InCall
  answers _ _ _ := True
  next := Watch.record

variable {o : ExecOp}

variable {α : Type}

variable {ε : Type} {g : Watch}

section

variable {β : Type}

abbrev Watches (p : Prog execSig ε α) (g : Watch) (Q : Watch → α → Prop) : Prop :=
  p.wp watchContract g Q (fun _ _ => True)

/-- Operations that the observer does not write down. -/
def Unwatched : ExecOp → Prop
  | .beforeCall .. | .insertAttemptStarted _ => False
  | _ => True

/-- Unwatched operations that are no provider call. -/
def Silent (o : ExecOp) : Prop :=
  Unwatched o ∧ isProviderCall o = false

theorem record_unwatched (h : Unwatched o) (x : o.Ans) : g.record o x = g := by
  cases o <;> first | exact h.elim | rfl

theorem Unrecorded.unwatched (h : Unrecorded o) : Unwatched o := by
  cases o <;> first | exact h.elim | trivial

theorem Bookkeeping.silent (h : Bookkeeping o) : Silent o := by
  cases o <;> first | exact h.elim | exact ⟨trivial, rfl⟩

theorem watches_silent {p : Prog execSig ε α} (hp : p.Only Silent) :
    Watches p g fun g' _ => g' = g :=
  wp_of_only hp (returns_true p) (fun o ho hcall => by simp [ho.2] at hcall)
    (fun o ho x => record_unwatched ho.1 x) (fun _ _ => rfl) fun _ => trivial

theorem watches_pass {p : Prog execSig ε α} {f : α → Prog execSig ε β} {Q : Watch → β → Prop}
    (hp : p.Only Silent) (hf : ∀ a, Watches (f a) g Q) : Watches (p >>= f) g Q :=
  wp_bind_mono (watches_silent hp) fun _ a hg => hg ▸ hf a

theorem watches_bookkeeping {p : Prog execSig ε α} {f : α → Prog execSig ε β} {Q : Watch → β → Prop}
    (hp : p.Only Bookkeeping) (hf : ∀ a, Watches (f a) g Q) : Watches (p >>= f) g Q :=
  watches_pass (hp.mono fun _ => Bookkeeping.silent) hf

end

/-! ## One attempt -/

section

variable {c : ModelCandidate}

theorem silent_ask (h : Silent o) : (Prog.ask (S := execSig) o : Prog execSig ε _).Only Silent :=
  only_ask.mpr h

theorem silent_bookkeeping {p : Prog execSig ε α} (h : p.Only Bookkeeping) : p.Only Silent :=
  h.mono fun _ => Bookkeeping.silent

theorem silent_updateAttempt (attemptId : Uuid) (update : AttemptUpdate) :
    (updateAttempt attemptId update).Only Silent := by
  unfold updateAttempt
  split
  · exact only_bind (silent_ask ⟨trivial, rfl⟩) fun _ => only_ofExcept _
  · trivial

theorem silent_underBudget {write : Exec Unit} (h : write.Only Silent) :
    (underBudget write).Only Silent := by
  unfold underBudget
  refine only_bind (silent_ask ⟨trivial, rfl⟩) fun tick => ?_
  cases tick with
  | elapsed => trivial
  | done _ => exact only_bind h fun _ => silent_ask ⟨trivial, rfl⟩

variable (a : Attempt)

theorem silent_terminalPersistence (output : ExecutionRunOutput) :
    (terminalPersistence a output).Only Silent := by
  unfold terminalPersistence
  refine only_bind (silent_underBudget (silent_updateAttempt ..)) fun first => ?_
  cases first with
  | elapsed => trivial
  | done _ =>
    refine only_bind (silent_underBudget (silent_bookkeeping (only_insertUsageRecord _)))
      fun second => ?_
    cases second with
    | elapsed => trivial
    | done _ => exact silent_underBudget (silent_bookkeeping (only_touchCredentialUsed _))

variable (ctx : ExecContext)

theorem silent_attemptSucceeded (a : Attempt) (output : ExecutionRunOutput) (pr : Progress) :
    (attemptSucceeded ctx a output pr).Only Silent := by
  unfold attemptSucceeded
  refine only_bind (silent_terminalPersistence a output) fun timed => ?_
  cases timed with
  | elapsed =>
    unfold persistenceOverrun
    refine only_bind (silent_ask ⟨trivial, rfl⟩) fun _ => ?_
    exact only_bind (silent_bookkeeping (only_push rfl)) fun _ => trivial
  | done _ =>
    refine only_bind (silent_ask ⟨trivial, rfl⟩) fun _ => ?_
    refine only_bind (silent_bookkeeping (only_audit ..)) fun _ => ?_
    refine only_bind (silent_bookkeeping (only_pushToolResults ..)) fun _ => ?_
    refine only_bind (silent_bookkeeping (only_push rfl)) fun _ => ?_
    exact only_bind (silent_bookkeeping (only_audit ..)) fun _ => trivial

theorem silent_attemptFailed (failed : FailedAttempt) (pr : Progress) :
    (attemptFailed a failed pr).Only Silent := by
  unfold attemptFailed
  refine only_bind (silent_ask ⟨trivial, rfl⟩) fun _ => ?_
  refine only_bind (silent_updateAttempt ..) fun _ => ?_
  refine only_bind (only_when (silent_bookkeeping (only_insertUsageRecord _))) fun _ => ?_
  refine only_bind (silent_bookkeeping (only_pushToolResults ..)) fun _ => ?_
  refine only_bind (silent_bookkeeping (only_push rfl)) fun _ => ?_
  exact only_bind (silent_bookkeeping (only_audit ..)) fun _ => trivial

theorem silent_attemptTimedOut (a : Attempt) (bounded : Bool) (pr : Progress) :
    (attemptTimedOut ctx a bounded pr).Only Silent := by
  unfold attemptTimedOut
  refine only_bind (silent_ask ⟨trivial, rfl⟩) fun _ => ?_
  refine only_bind (silent_ask ⟨trivial, rfl⟩) fun _ => ?_
  refine only_bind (silent_ask ⟨trivial, rfl⟩) fun _ => ?_
  exact only_bind (silent_updateAttempt ..) fun _ => trivial

theorem silent_attemptRefused (failure : ExecutionFailure) (pr : Progress) :
    (attemptRefused a failure pr).Only Silent := by
  unfold attemptRefused
  refine only_bind (silent_updateAttempt ..) fun _ => ?_
  exact only_bind (silent_bookkeeping (only_audit ..)) fun _ => trivial

theorem watches_insertAttemptStarted (row : AttemptInsert) :
    Watches (insertAttemptStarted row) g fun g' _ => g' = { g with attempt := some row } := by
  refine ⟨by simp [watchContract, isProviderCall], fun inserted _ => ?_⟩
  cases inserted with
  | error err => trivial
  | ok u => rfl

theorem watches_callProvider (h : g.InCall) : Watches (callProvider ctx c) g fun g' _ => g' = g :=
  wp_of_only ((only_callProvider ctx c).mono fun _ => Unrecorded.unwatched) (returns_true _)
    (fun _ _ _ => h) (fun _ ho x => record_unwatched ho x) (fun _ _ => rfl) fun _ => trivial

theorem watches_admitted {p : Exec α} {attempt : Option AttemptInsert} (h : g.admitted = some c)
    (hp : p.Only Silent) : Watches p { g with attempt } fun g' _ => g'.admitted = some c :=
  wp_mono (watches_silent hp) (fun _ _ hg => hg ▸ h) fun _ _ _ => trivial

variable (rank : Nat) (credentialId : Uuid)

theorem watches_runAttempt (remaining : Nat) (pr : Progress) (h : g.admitted = some c) :
    Watches (runAttempt ctx rank c credentialId remaining pr) g fun g' _ => g'.admitted = some c := by
  unfold runAttempt
  refine watches_pass (silent_ask ⟨trivial, rfl⟩) fun id => ?_
  refine wp_bind_mono (watches_insertAttemptStarted _) fun g' _ hg => ?_
  subst hg
  refine watches_bookkeeping (only_push rfl) fun _ => ?_
  refine watches_bookkeeping (only_audit ..) fun _ => ?_
  refine watches_pass (silent_ask ⟨trivial, rfl⟩) fun acquired => ?_
  cases acquired with
  | error scope => exact watches_admitted h (only_bind (silent_attemptRefused ..) fun _ => trivial)
  | ok u =>
    refine watches_pass (silent_ask ⟨trivial, rfl⟩) fun built => ?_
    cases built with
    | error failure => exact watches_admitted h (only_bind (silent_attemptRefused ..) fun _ => trivial)
    | ok u =>
      -- the row is of the candidate that was let pass
      refine wp_bind_mono (watches_callProvider ctx ⟨c, _, h, rfl, rfl, rfl⟩) fun g' result hg => ?_
      subst hg
      cases result with
      | ok output => exact watches_admitted h (silent_attemptSucceeded ..)
      | failed failed => exact watches_admitted h (silent_attemptFailed ..)
      | elapsed => exact watches_admitted h (silent_attemptTimedOut ..)

/-! ## The loops -/

theorem watches_attemptLoop_of {retriesLeft : Nat} (pr : Progress) (h : g.admitted = some c)
    (hretry : ∀ n, retriesLeft = n + 1 → ∀ g pr, g.admitted = some c →
      Watches (attemptLoop ctx rank c credentialId n pr) g fun _ _ => True) :
    Watches (attemptLoop ctx rank c credentialId retriesLeft pr) g fun _ _ => True := by
  unfold attemptLoop
  refine watches_pass (silent_ask ⟨trivial, rfl⟩) fun now => ?_
  cases remainingExecutionTime ctx.deadline now with
  | none => trivial
  | some remaining =>
    dsimp only
    split
    · trivial
    · refine wp_bind_mono (watches_runAttempt ctx rank credentialId remaining pr h)
        fun g' ended hg => ?_
      obtain ⟨ended, pr⟩ := ended
      cases ended with
      | finished outcome => trivial
      | refused failure => trivial
      | failed failure =>
        dsimp only
        split
        · cases retriesLeft with
          | zero => trivial
          | succ n =>
            refine watches_bookkeeping (only_sleepForRetry ..) fun wait => ?_
            cases wait with
            | ready => exact hretry n rfl g' pr hg
            | deadline => trivial
            | cancelled => trivial
        · trivial

theorem watches_attemptLoop (retriesLeft : Nat) (pr : Progress) (h : g.admitted = some c) :
    Watches (attemptLoop ctx rank c credentialId retriesLeft pr) g fun _ _ => True := by
  induction retriesLeft generalizing g pr with
  | zero => exact watches_attemptLoop_of ctx rank credentialId pr h (by simp)
  | succ n ih =>
    refine watches_attemptLoop_of ctx rank credentialId pr h fun m hm g pr hg => ?_
    cases hm
    exact ih pr hg

theorem silent_boundedPhase (deadline : Nat) {phase : Exec (Timed (Except ExecutionFailure α))}
    (h : phase.Only Silent) : (boundedPhase deadline phase).Only Silent := by
  unfold boundedPhase
  refine only_bind (silent_ask ⟨trivial, rfl⟩) fun now => ?_
  split
  · trivial
  · refine only_bind h fun x => ?_
    cases x <;> trivial

theorem watches_beforeCall (g : Watch) :
    Watches (ask (.beforeCall rank c)) g fun g' answer => answer = .ok () → g'.admitted = some c := by
  refine ⟨by simp [watchContract, isProviderCall], fun answer _ => ?_⟩
  cases answer with
  | error failure => exact fun h => nomatch h
  | ok u => exact fun _ => rfl

theorem watches_prepareCandidate (g : Watch) :
    Watches (prepareCandidate ctx rank c) g
      fun g' prepared => ∀ credentialId, prepared = .ok credentialId → g'.admitted = some c := by
  have hresolve : (resolveCredential ctx rank c).Only Silent := by
    unfold resolveCredential
    split
    · trivial
    · exact silent_ask ⟨trivial, rfl⟩
  unfold prepareCandidate
  refine watches_pass (silent_boundedPhase _ hresolve) fun found => ?_
  cases found with
  | error failure => exact fun _ h => nomatch h
  | ok credentialId =>
    refine wp_bind_mono (watches_beforeCall rank g) fun g' answer hg => ?_
    cases answer with
    | error failure => exact fun _ h => nomatch h
    | ok u =>
      refine watches_pass (silent_boundedPhase _ (silent_ask ⟨trivial, rfl⟩)) fun handle => ?_
      cases handle with
      | error failure => exact fun _ h => nomatch h
      | ok u => exact fun _ _ => hg rfl

theorem watches_candidateLoop (candidates : List ModelCandidate)
    (lastFailure : Option ExecutionFailure) (pr : Progress) :
    Watches (candidateLoop ctx rank candidates lastFailure pr) g fun _ _ => True := by
  induction candidates generalizing g rank lastFailure pr with
  | nil =>
    unfold candidateLoop
    refine watches_bookkeeping (only_audit ..) fun _ => ?_
    exact watches_bookkeeping (only_push rfl) fun _ => trivial
  | cons candidate rest ih =>
    unfold candidateLoop
    refine watches_bookkeeping (only_push rfl) fun _ => ?_
    refine wp_bind_mono (watches_prepareCandidate ctx rank g) fun g' prepared hg => ?_
    cases prepared with
    | error refusal =>
      obtain ⟨failure, announced⟩ := refusal
      dsimp only
      split
      · exact watches_bookkeeping (only_when (only_push rfl)) fun _ => ih ..
      · trivial
    | ok credentialId =>
      refine wp_bind_mono (watches_attemptLoop ctx rank credentialId _ pr (hg _ rfl))
        fun g' ended _ => ?_
      obtain ⟨ended, pr⟩ := ended
      cases ended with
      | finished outcome => trivial
      | broke failure =>
        dsimp only
        split
        · exact watches_bookkeeping (only_push rfl) fun _ => ih ..
        · exact watches_bookkeeping (only_audit ..) fun _ => trivial

/-! ## The whole execution -/

theorem watches_refuse (command : ExecutionCommand) (route : Option RouteDecision)
    (failure : ExecutionFailure) : Watches (refuse command route failure) g fun _ _ => True :=
  wp_mono (watches_silent (silent_bookkeeping (only_refuse ..))) (fun _ _ _ => trivial)
    fun _ _ _ => trivial

variable (settings : RuntimeSettings)

theorem watches_selectAndRun (command : ExecutionCommand) (deadline : Nat)
    (policy : EffectiveExecutionPolicy) (route : RouteDecision) (profile : Option Uuid) :
    Watches (selectAndRun settings command deadline policy route profile) g fun _ _ => True := by
  unfold selectAndRun
  refine watches_pass (silent_ask ⟨trivial, rfl⟩) fun skills => ?_
  cases skills with
  | error failure => exact watches_refuse ..
  | ok hasTools =>
    dsimp only
    split
    · exact watches_refuse ..
    · refine watches_pass (silent_ask ⟨trivial, rfl⟩) fun candidates => ?_
      cases candidates with
      | error failure => exact watches_refuse ..
      | ok candidates =>
        exact watches_bookkeeping (only_push rfl) fun _ => watches_candidateLoop ..

theorem watches_resolveProfile (command : ExecutionCommand) (deadline : Nat)
    (policy : EffectiveExecutionPolicy) (route : RouteDecision) :
    Watches (resolveProfile settings command deadline policy route) g fun _ _ => True := by
  unfold resolveProfile
  split
  · exact watches_selectAndRun ..
  · refine watches_pass (silent_ask ⟨trivial, rfl⟩) fun found => ?_
    refine watches_pass (only_ofExcept _) fun resolution => ?_
    split
    · exact watches_selectAndRun ..
    · refine watches_bookkeeping (only_push rfl) fun _ => ?_
      exact watches_bookkeeping (only_audit ..) fun _ => watches_refuse ..

theorem watches_executeInner (command : ExecutionCommand) :
    Watches (executeInner settings command) g fun _ _ => True := by
  unfold executeInner
  refine watches_pass (silent_ask ⟨trivial, rfl⟩) fun now => ?_
  refine watches_bookkeeping (only_validateCommand command) fun validated => ?_
  obtain ⟨command, refusal⟩ := validated
  cases refusal with
  | some failure => exact watches_bookkeeping (only_push rfl) fun _ => trivial
  | none =>
    refine watches_bookkeeping (only_audit ..) fun _ => ?_
    cases evaluate settings command with
    | error failure => exact watches_bookkeeping (only_push rfl) fun _ => trivial
    | ok policy =>
      refine watches_bookkeeping (only_push rfl) fun _ => ?_
      refine watches_pass (silent_ask ⟨trivial, rfl⟩) fun selected => ?_
      cases selected with
      | error failure => exact watches_refuse ..
      | ok route =>
        refine watches_bookkeeping (only_push rfl) fun _ => ?_
        exact watches_bookkeeping (only_audit ..) fun _ => watches_resolveProfile ..

/-- **Every task** keeps the contract: it calls the provider for a candidate that was let pass. -/
theorem watches_code (task : ExecutionTask) : Watches task.code g fun _ next => next = none := by
  cases task with
  | respond settings command =>
    refine wp_bind_mono (P := fun _ _ => True) (wp_attempt.mpr ?_) fun _ _ _ => rfl
    exact watches_bookkeeping (only_push rfl) fun _ => watches_executeInner ..
  | stream settings command =>
    refine watches_pass (silent_ask ⟨trivial, rfl⟩) fun _ => ?_
    refine wp_bind_mono (P := fun _ _ => True) (wp_attempt.mpr (watches_executeInner ..))
      fun g' result _ => ?_
    have hsend : ∀ o : ExecOp, Silent o →
        Watches (do let _ ← Prog.ask (S := execSig) o
                    Prog.ask (S := execSig) .dropEvents
                    pure none : Prog execSig Empty (Option Unit)) g' fun _ next => next = none := by
      intro o ho
      exact watches_pass (silent_ask ho) fun _ => watches_pass (silent_ask ⟨trivial, rfl⟩) fun _ => rfl
    cases result with
    | ok outcome => exact hsend _ ⟨trivial, rfl⟩
    | error err => exact watches_pass (silent_ask ⟨trivial, rfl⟩) fun _ => hsend _ ⟨trivial, rfl⟩

end

/-! ## What makes a breaker refuse -/

namespace CircuitBreakerRegistry

variable {registry : CircuitBreakerRegistry} {key other : CircuitKey} {p q : RuntimePolicy}
  {entry : CircuitEntry} {now t : Nat}

theorem states_of_current_open (h : (registry.current key p).state = .open) :
    registry.states key = some (registry.current key p) := by
  have hor : registry.current key p = registry.entryOr key p := by
    unfold current at h ⊢
    split at h
    · simp [CircuitEntry.closed] at h
    · next heq => rw [if_neg heq]
  rw [hor] at h ⊢
  unfold entryOr at h ⊢
  cases hentry : registry.states key with
  | none => simp [hentry, CircuitEntry.closed] at h
  | some entry => simp

theorem states_of_beforeCall_open (h : (registry.beforeCall key p now).2.states key = some entry)
    (hopen : entry.state = .open) :
    registry.states key = some entry ∧ ¬(registry.beforeCall key p now).1.isOk := by
  unfold beforeCall at h ⊢
  dsimp only at h ⊢
  split at h
  · next hstate =>
    simp only [states_insert_self, Option.some.injEq] at h
    rw [h, hopen] at hstate
    cases hstate
  · next hstate =>
    simp only [states_insert_self, Option.some.injEq] at h
    rw [h, hopen] at hstate
    cases hstate
  · next hstate =>
    split at h
    · simp only [states_insert_self, Option.some.injEq] at h
      rw [← h] at hopen
      cases hopen
    · next hpast =>
      simp only [states_insert_self, Option.some.injEq] at h
      rw [← h, if_neg hpast]
      exact ⟨states_of_current_open hstate, by simp [Except.isOk, Except.toBool]⟩

/-- A check makes no breaker refuse. -/
theorem refused_of_beforeCall (h : (registry.beforeCall key p now).2.refused other q t = true) :
    registry.refused other q t = true := by
  obtain ⟨entry, hentry, hrefuses⟩ := refused_iff.mp h
  refine refused_iff.mpr ⟨entry, ?_, hrefuses⟩
  by_cases hother : other = key
  · subst hother
    exact (states_of_beforeCall_open hentry hrefuses.2.1).1
  · rwa [states_beforeCall_of_ne hother] at hentry

/-- A breaker that has let a call pass does not refuse. -/
theorem refused_beforeCall_ok (h : (registry.beforeCall key p now).1.isOk) :
    (registry.beforeCall key p now).2.refused key q t = false := by
  rw [Bool.eq_false_iff]
  intro hrefused
  obtain ⟨entry, hentry, hrefuses⟩ := refused_iff.mp hrefused
  exact (states_of_beforeCall_open hentry hrefuses.2.1).2 h

theorem refused_of_onSuccess (h : (registry.onSuccess key).refused other q t = true) :
    registry.refused other q t = true := by
  obtain ⟨entry, hentry, hrefuses⟩ := refused_iff.mp h
  refine refused_iff.mpr ⟨entry, ?_, hrefuses⟩
  unfold onSuccess at hentry
  by_cases hother : other = key
  · subst hother
    rw [states_insert_self] at hentry
    rw [← Option.some.inj hentry] at hrefuses
    cases hrefuses.2.1
  · rwa [states_insert_of_ne hother] at hentry

theorem refused_of_reset {scope : CircuitResetScope}
    (h : (registry.resetForResource scope).refused other q t = true) :
    registry.refused other q t = true := by
  obtain ⟨entry, hentry, hrefuses⟩ := refused_iff.mp h
  refine refused_iff.mpr ⟨entry, ?_, hrefuses⟩
  cases scope with
  | provider providerId =>
    simp only [resetForResource] at hentry
    split at hentry
    · exact hentry
    · cases hentry
  | model modelId =>
    simp only [resetForResource] at hentry
    split at hentry
    · exact hentry
    · cases hentry
  | unaffected => exact hentry
  | all => cases hentry

theorem refused_of_later (hle : now ≤ t) (h : registry.refused other q t = true) :
    registry.refused other q now = true := by
  obtain ⟨entry, hentry, hversion, hopen, hearly⟩ := refused_iff.mp h
  refine refused_iff.mpr ⟨entry, hentry, hversion, hopen, fun opened hopened => ?_⟩
  have := hearly opened hopened
  omega

end CircuitBreakerRegistry

open CircuitBreakerRegistry

/-! ## Runs -/

section

variable {Pid : Type} [DecidableEq Pid] {tasks : Pid → ExecutionTask}

/-- Whether `before_call` would refuse the candidate now. -/
def BreakerState.refuses (breakers : BreakerState) (candidate : ModelCandidate) : Bool :=
  breakers.registry.refused candidate.circuitKey candidate.runtimePolicy.breaker breakers.now

def recordsFailure : ExecOp → Bool
  | .onFailure .. => true
  | _ => false

/-- No execution that was let pass and can still call would be refused. -/
def Spared (s : (breakerTraffic tasks).State) : Prop :=
  ∀ i candidate, (s.world.watch i).admitted = some candidate → StillCalls (s.proc i) →
    s.world.breakers.refuses candidate = false

/-- The next operation of an execution is a provider call that `before_call` would let pass. -/
def CallsAdmitted (s : (breakerTraffic tasks).State) (i : Pid) : Prop :=
  ∃ candidate row, (s.world.watch i).admitted = some candidate ∧ (s.world.watch i).attempt = some row ∧
    row.providerId = candidate.providerId ∧ row.providerModelId = candidate.providerModelId ∧
    s.world.breakers.refuses candidate = false

/-- The watch of an execution is the ghost state of its contract. -/
def watchOutline (tasks : Pid → ExecutionTask) : Outline (breakerTraffic tasks) where
  Ghost _ := Watch
  contract _ := watchContract
  at_ _ _ _ := False
  shared w γ := ∀ i, w.watch i = γ i
  code_ok _ _ _ h := h.elim
  act_ok := by
    intro i w o x w' γ hshared _ _ hgrant
    refine ⟨trivial, fun j => ?_⟩
    obtain ⟨breakers, -, rfl⟩ := Option.map_eq_some_iff.mp hgrant
    by_cases hj : j = i
    · subst hj
      simp [watchContract, hshared]
    · simp [hj, hshared]
  nature_ok := by
    intro w e w' γ hshared hnature
    cases e with
    | elapse nanos => cases hnature; exact hshared
    | reset scope => cases hnature; exact hshared

theorem watchOutline_atStart (breakers : BreakerState) :
    (watchOutline tasks).Holds (breakersAtStart tasks breakers) := by
  refine ⟨fun _ => {}, fun _ => rfl, fun i => ?_⟩
  refine wp_mono (watches_code (tasks i)) (fun _ next hnext l hl => ?_) fun _ _ h => h
  rw [hnext] at hl
  cases hl

theorem refuses_of_answer {breakers after : BreakerState} {x : o.Ans}
    (h : BreakerWorld.answer breakers o x = some after)
    (hfailure : ∀ providerId modelId policy failureClass, o ≠ .onFailure providerId modelId policy failureClass)
    {candidate : ModelCandidate} (hrefuses : after.refuses candidate = true) :
    breakers.refuses candidate = true := by
  cases o with
  | beforeCall rank c =>
    simp only [BreakerWorld.answer] at h
    split at h
    · cases h
      exact refused_of_beforeCall hrefuses
    · cases h
  | onSuccess providerId modelId =>
    cases h
    exact refused_of_onSuccess hrefuses
  | onFailure providerId modelId policy failureClass => exact absurd rfl (hfailure _ _ _ _)
  | _ =>
    cases h
    exact hrefuses

theorem admitted_of_answer {breakers after : BreakerState} {x : o.Ans}
    (h : BreakerWorld.answer breakers o x = some after) {candidate : ModelCandidate}
    (hadmitted : (g.record o x).admitted = some candidate) :
    after.refuses candidate = false ∨ (asksBreaker o = false ∧ g.admitted = some candidate) := by
  cases o with
  | beforeCall rank c =>
    simp only [BreakerWorld.answer] at h
    split at h
    · next hx =>
      cases h
      cases x with
      | error failure => cases hadmitted
      | ok u =>
        cases hadmitted
        refine .inl (refused_beforeCall_ok ?_)
        cases hasked : (breakers.registry.beforeCall candidate.circuitKey
            candidate.runtimePolicy.breaker breakers.now).1 with
        | error failure => rw [hasked] at hx; cases hx
        | ok state => rfl
    · cases h
  | insertAttemptStarted row =>
    cases x <;> exact .inr ⟨rfl, hadmitted⟩
  | _ => exact .inr ⟨rfl, hadmitted⟩

/-- **A move** that catches no execution between its admission and its call. -/
theorem spared_step {s s' : (breakerTraffic tasks).State} {m : (breakerTraffic tasks).Move}
    (houtline : (watchOutline tasks).Holds s) (h : Spared s) (hm : FailsAlone s m)
    (hstep : (breakerTraffic tasks).step s m = some s') : Spared s' := by
  rcases step_cases hstep with ⟨i, answer, o, k, w, rfl, hproc, hgrant, rfl⟩ | ⟨i, l, hproc, rfl⟩ |
    ⟨e, w, hnature, rfl⟩
  · obtain ⟨after, hanswer, rfl⟩ := Option.map_eq_some_iff.mp hgrant
    by_cases hfailure : ∃ providerId modelId policy failureClass,
        o = .onFailure providerId modelId policy failureClass
    · -- the move says that nobody was caught
      obtain ⟨providerId, modelId, policy, failureClass, rfl⟩ := hfailure
      cases hanswer
      intro j candidate hadmitted hcalls
      have hsame : (s.world.watch j).admitted = some candidate := by
        by_cases hj : j = i
        · subst hj
          simpa [State.continue, Watch.record] using hadmitted
        · simpa [State.continue, hj] using hadmitted
      simp only [FailsAlone, hproc] at hm
      exact hm j candidate hsame hcalls
    · have hfailure : ∀ providerId modelId policy failureClass,
          o ≠ .onFailure providerId modelId policy failureClass :=
        fun providerId modelId policy failureClass ho =>
          hfailure ⟨providerId, modelId, policy, failureClass, ho⟩
      intro j candidate hadmitted hcalls
      by_cases hj : j = i
      · subst hj
        simp only [State.continue, Function.update_self] at hadmitted hcalls
        rcases admitted_of_answer hanswer hadmitted with hfree | ⟨hasks, hsame⟩
        · exact hfree
        · rw [Bool.eq_false_iff]
          intro hrefuses
          have hbefore := h j candidate hsame (hproc ▸ StillCalls.later hasks _ hcalls)
          exact absurd (refuses_of_answer hanswer hfailure hrefuses) (by simp [hbefore])
      · simp only [State.continue, Function.update_of_ne hj] at hadmitted hcalls
        rw [Bool.eq_false_iff]
        intro hrefuses
        have hbefore := h j candidate hadmitted hcalls
        exact absurd (refuses_of_answer hanswer hfailure hrefuses) (by simp [hbefore])
  · -- no task goes on after its code
    obtain ⟨γ, -, hwp⟩ := houtline
    have hret := hwp i
    rw [hproc] at hret
    exact (hret l rfl).elim
  · intro j candidate hadmitted hcalls
    rw [Bool.eq_false_iff]
    intro hrefuses
    cases e with
    | elapse nanos =>
      cases hnature
      have hbefore := h j candidate hadmitted hcalls
      exact absurd (refused_of_later (Nat.le_add_right _ _) hrefuses)
        (by simpa [BreakerState.refuses] using hbefore)
    | reset scope =>
      cases hnature
      have hbefore := h j candidate hadmitted hcalls
      exact absurd (refused_of_reset hrefuses)
        (by simpa [BreakerState.refuses] using hbefore)

/--
**No provider is called while its circuit is open**, in every run whose recorded failures all leave
the breaker open to those that it has let pass and that can still call.
-/
theorem no_call_while_open (breakers : BreakerState) {s : (breakerTraffic tasks).State}
    {moves : List (breakerTraffic tasks).Move}
    (hmeets : Meets (breakerTraffic tasks).step FailsAlone (breakersAtStart tasks breakers) moves)
    (hrun : runFrom (breakerTraffic tasks).step (breakersAtStart tasks breakers) moves = some s)
    {i : Pid} {o : ExecOp} {k : o.Ans → Prog execSig Empty (Option Unit)}
    (hproc : s.proc i = .op o k) (hcall : isProviderCall o = true) : CallsAdmitted s i := by
  have hboth : (watchOutline tasks).Holds s ∧ Spared s := by
    refine runFrom_guarded (I := fun s => (watchOutline tasks).Holds s ∧ Spared s) hrun hmeets
      ⟨watchOutline_atStart breakers, fun _ _ h => nomatch h⟩ fun s m s' h hm hstep => ?_
    refine ⟨(watchOutline tasks).holds_step h.1 ?_ hstep, spared_step h.1 h.2 hm hstep⟩
    cases m with
    | act i answer => cases hi : s.proc i <;> simp [Guarded, hi, watchOutline]
    | jump i => trivial
    | nature e => trivial
  obtain ⟨⟨γ, hshared, hwp⟩, hspared⟩ := hboth
  have hpre := hwp i
  rw [hproc] at hpre
  obtain ⟨candidate, row, hadmitted, hattempt, hprovider, hmodel⟩ := hpre.1 hcall
  rw [← hshared i] at hadmitted hattempt
  exact ⟨candidate, row, hadmitted, hattempt, hprovider, hmodel,
    hspared i candidate hadmitted (hproc ▸ StillCalls.call hcall)⟩

theorem failsAlone_of_noFailure {s : (breakerTraffic tasks).State} {m : (breakerTraffic tasks).Move}
    (h : Guarded (M := breakerTraffic tasks) (fun _ _ o => recordsFailure o = false) s m) :
    FailsAlone s m := by
  cases m with
  | act i answer =>
    unfold FailsAlone
    dsimp only
    split
    · next hproc => simp [Guarded, hproc, recordsFailure] at h
    · trivial
  | jump i => trivial
  | nature e => trivial

end

namespace Trial

/-- The candidate of the sample, whose circuit opens with the first failure. -/
def fragile : ModelCandidate :=
  { candidate with runtimePolicy := { candidate.runtimePolicy with circuitFailureThreshold := 1 } }

/-- A provider that is rate limited on every attempt. -/
def rateLimitedAnswers : (o : ExecOp) → o.Ans
  | .selectCandidates .. => .ok [fragile]
  | o => (env (.error (.new .providerRateLimited "slow down")) (.done ()) 0 o).1

def oneTask : Unit → ExecutionTask :=
  fun _ => .respond settings command

def turns (n : Nat) : List (breakerTraffic oneTask).Move :=
  List.replicate n (.act () rateLimitedAnswers)

def nextIsCall (s : (breakerTraffic oneTask).State) : Bool :=
  match s.proc () with
  | .op o _ => isProviderCall o
  | _ => false

theorem exists_of_nextIsCall {s : (breakerTraffic oneTask).State} (h : nextIsCall s = true) :
    ∃ (o : ExecOp) (k : o.Ans → Prog execSig Empty (Option Unit)),
      s.proc () = .op o k ∧ isProviderCall o = true := by
  unfold nextIsCall at h
  split at h
  · next o k hproc => exact ⟨o, k, hproc, h⟩
  · cases h

instance (s : (breakerTraffic oneTask).State) (m : (breakerTraffic oneTask).Move) :
    Decidable (Guarded (M := breakerTraffic oneTask) (fun _ _ o => recordsFailure o = false) s m) :=
  @System.instDecidableGuarded _ (breakerTraffic oneTask) (fun _ _ o => recordsFailure o = false)
    (fun _ _ o => inferInstanceAs (Decidable (recordsFailure o = false))) s m

end Trial

open Trial in
/-- The first attempt. -/
theorem no_call_while_open_firstAttempt : ∃ s,
    runFrom (breakerTraffic oneTask).step (breakersAtStart oneTask {}) (turns 23) = some s ∧
    nextIsCall s = true ∧ CallsAdmitted s () := by
  have hsome : ((runFrom (breakerTraffic oneTask).step (breakersAtStart oneTask {}) (turns 23)).any
      nextIsCall) = true := by decide +kernel
  obtain ⟨s, hrun, hnext⟩ := (Option.any_eq_true _ _).mp hsome
  have hquiet : Meets (breakerTraffic oneTask).step
      (Guarded (M := breakerTraffic oneTask) (fun _ _ o => recordsFailure o = false))
      (breakersAtStart oneTask {}) (turns 23) := by
    decide +kernel
  obtain ⟨o, k, hproc, hcall⟩ := exists_of_nextIsCall hnext
  exact ⟨s, hrun, hnext, no_call_while_open {} (hquiet.mono fun _ _ => failsAlone_of_noFailure) hrun
    hproc hcall⟩

open Trial in
/-- The retry is sent to the provider whose circuit the first attempt has opened. -/
theorem retry_while_open : ∃ s,
    runFrom (breakerTraffic oneTask).step (breakersAtStart oneTask {}) (turns 38) = some s ∧
    nextIsCall s = true ∧ ¬CallsAdmitted s () := by
  have hsome : ((runFrom (breakerTraffic oneTask).step (breakersAtStart oneTask {}) (turns 38)).any
      fun s => nextIsCall s && s.world.breakers.refuses fragile &&
        decide ((s.world.watch ()).admitted = some fragile)) = true := by decide +kernel
  obtain ⟨s, hrun, hnext⟩ := (Option.any_eq_true _ _).mp hsome
  simp only [Bool.and_eq_true, decide_eq_true_eq] at hnext
  obtain ⟨⟨hcall, hrefuses⟩, hfragile⟩ := hnext
  refine ⟨s, hrun, hcall, ?_⟩
  rintro ⟨candidate, row, hadmitted, -, -, -, hopen⟩
  rw [hfragile] at hadmitted
  cases hadmitted
  rw [hrefuses] at hopen
  cases hopen

end Moira
