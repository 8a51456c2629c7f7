import Moira.Execution.Properties.AttemptShape

/-!
# The loops keep the attempt contract

One lemma for each function of the pipeline, from a single attempt outwards. The predicates follow
the life of an attempt in the journal:

`Final` is what holds when the execution returns.
-/

namespace Moira

open Exec Prog

variable {settings : RuntimeSettings} {policy : EffectiveExecutionPolicy} {j : Journal}
variable {α β : Type}

/-- The program keeps the contract and establishes `Q` when it returns. -/
abbrev Establishes (settings : RuntimeSettings) (policy : EffectiveExecutionPolicy) (p : Exec α)
    (j : Journal) (Q : Journal → α → Prop) : Prop :=
  p.wp (attemptContract settings policy) j Q (fun _ _ => True)

/-! ## Operations that leave no trace in the journal -/

def Unrecorded : ExecOp → Prop
  | .selectCandidates .. | .resolveCredential .. | .beforeCall .. | .runtimeHandle ..
  | .insertAttemptStarted _ | .updateAttempt .. | .persistenceTick => False
  | _ => True

variable {o : ExecOp}

theorem mayAsk_unrecorded (h : Unrecorded o) : MayAsk settings policy j o := by
  cases o <;> first | exact h.elim | trivial

theorem record_unrecorded (h : Unrecorded o) (x : o.Ans) : j.record o x = j := by
  cases o <;> first | exact h.elim | rfl

variable {p : Exec α}

theorem establishes_unrecorded {Q : Journal → α → Prop} {R : α → Prop} (hp : p.Only Unrecorded)
    (hr : p.Returns R) (hQ : ∀ a, R a → Q j a) : Establishes settings policy p j Q :=
  wp_of_only hp hr (fun _ => mayAsk_unrecorded) (fun _ ho x => record_unrecorded ho x) hQ
    (fun _ => trivial)

variable {f : α → Exec β} {Q : Journal → β → Prop}

theorem establishes_bind {P : Journal → α → Prop} (hp : Establishes settings policy p j P)
    (hf : ∀ j a, P j a → Establishes settings policy (f a) j Q) :
    Establishes settings policy (p >>= f) j Q :=
  wp_bind_mono hp hf

theorem establishes_skip (hp : p.Only Unrecorded)
    (hf : ∀ a, Establishes settings policy (f a) j Q) : Establishes settings policy (p >>= f) j Q :=
  establishes_bind (P := fun j' _ => j' = j) (establishes_unrecorded hp (returns_true p) fun _ _ => rfl)
    (fun _ a hj => hj ▸ hf a)

theorem Bookkeeping.unrecorded (h : Bookkeeping o) : Unrecorded o := by
  cases o <;> first | exact h.elim | trivial

theorem establishes_pass (hp : p.Only Bookkeeping)
    (hf : ∀ a, Establishes settings policy (f a) j Q) : Establishes settings policy (p >>= f) j Q :=
  establishes_skip (hp.mono fun _ => Bookkeeping.unrecorded) hf

/-! ## The provider call -/

theorem only_drain (parseJson : String → Option Json) (wantsStructured : Bool) (idleTimeoutMs : Nat) :
    ∀ items st, (drain parseJson wantsStructured idleTimeoutMs items st).Only Unrecorded := by
  intro items
  induction items with
  | nil =>
    intro st
    unfold drain
    refine only_bind (only_ask.mpr trivial) fun x => ?_
    split <;> trivial
  | cons item rest ih =>
    intro st
    unfold drain
    refine only_bind (only_ask.mpr trivial) fun x => ?_
    split
    · trivial
    · trivial
    · split
      · trivial
      · trivial
      · next heq =>
        obtain ⟨-, rfl⟩ := List.cons.inj heq
        split
        · exact ih _
        · refine only_bind (only_ask.mpr trivial) fun pushed => ?_
          split
          · trivial
          · trivial
          · exact only_bind (only_when (only_ask.mpr trivial)) fun _ => ih _

theorem only_callProvider (ctx : ExecContext) (candidate : ModelCandidate) :
    (callProvider ctx candidate).Only Unrecorded := by
  unfold callProvider
  dsimp only
  split
  · unfold executeRigStream
    refine only_bind (only_ask.mpr trivial) fun x => ?_
    split
    · trivial
    · refine only_bind (only_ask.mpr trivial) fun x => ?_
      split
      · trivial
      · trivial
      · exact only_drain ..
  · split
    · unfold executeRigToolLoop
      refine only_bind (only_ask.mpr trivial) fun x => ?_
      split <;> trivial
    · unfold executeRigCompletion
      refine only_bind (only_ask.mpr trivial) fun x => ?_
      split
      · trivial
      · trivial
      · split <;> trivial

/-! ## The life of an attempt -/

variable {rank total : Nat} {c : ModelCandidate} {rest : List ModelCandidate}

/-- Every attempt row has received exactly one terminal update. -/
def Settled (j : Journal) : Prop :=
  ∀ a ∈ j.attempts, a.updates.length = 1

/--
What holds when the execution returns: every row is settled, or terminal persistence ran out of
its budget and the outcome says so.
-/
def Final (j : Journal) (outcome : ExecutionOutcome) : Prop :=
  Settled j ∨ j.overrun = true ∧ outcome.failure = some terminalPersistenceDeadlineFailure

theorem candidate_of_drop {candidates : List ModelCandidate}
    (h : candidates.drop rank = c :: rest) : candidates[rank]? = some c := by
  rw [← List.head?_drop, h, List.head?_cons]

/-- The candidate of the newest visit is being tried. -/
structure Trying (settings : RuntimeSettings) (policy : EffectiveExecutionPolicy) (rank : Nat)
    (c : ModelCandidate) (rest : List ModelCandidate) (total : Nat) (j : Journal) (v : Visit)
    (vs : List Visit) : Prop where
  shape : AttemptShape settings policy j
  newest : j.At rank v vs
  noSetback : v.setback = none
  rest_eq : j.candidates.drop rank = c :: rest
  total_eq : total = j.attempts.length

/-- A further attempt may start: the one before it failed retryably, and `n` were made. -/
def InVisit (settings : RuntimeSettings) (policy : EffectiveExecutionPolicy) (rank : Nat)
    (c : ModelCandidate) (rest : List ModelCandidate) (n total : Nat) (j : Journal) : Prop :=
  ∃ v vs, Trying settings policy rank c rest total j v vs ∧ Settled j ∧ v.attempts.length = n ∧
    ∀ a ∈ v.attempts.head?, a.FailedWith (·.retryable = true)

/-- The newest attempt, the `n`-th of its visit, has no terminal update yet. -/
def Running (settings : RuntimeSettings) (policy : EffectiveExecutionPolicy) (rank : Nat)
    (c : ModelCandidate) (rest : List ModelCandidate) (n total : Nat) (attemptId : Uuid)
    (j : Journal) : Prop :=
  ∃ v vs a as, Trying settings policy rank c rest total j v vs ∧ v.attempts = a :: as ∧
    a.id = attemptId ∧ a.updates = [] ∧ as.length + 1 = n ∧
    ∀ b ∈ as ++ vs.flatMap (·.attempts), b.updates.length = 1

/-- The newest attempt, the `n`-th of its visit, has failed. -/
def Left (settings : RuntimeSettings) (policy : EffectiveExecutionPolicy) (rank : Nat)
    (c : ModelCandidate) (rest : List ModelCandidate) (n total : Nat) (failure : ExecutionFailure)
    (j : Journal) : Prop :=
  ∃ v vs a as, Trying settings policy rank c rest total j v vs ∧ v.attempts = a :: as ∧
    a.failure = some failure ∧ as.length + 1 = n ∧ Settled j

variable {n : Nat} {failure : ExecutionFailure}

theorem Left.inVisit (h : Left settings policy rank c rest n total failure j)
    (hretry : failure.retryable = true) : InVisit settings policy rank c rest n total j := by
  obtain ⟨v, vs, a, as, htry, ha, hfailure, hn, hsettled⟩ := h
  refine ⟨v, vs, htry, hsettled, by simp [ha, hn], ?_⟩
  intro b hb
  simp only [ha, List.head?_cons, Option.mem_some_iff] at hb
  exact ⟨failure, hb ▸ hfailure, hretry⟩

theorem Left.settled (h : Left settings policy rank c rest n total failure j) : Settled j := by
  obtain ⟨-, -, -, -, -, -, -, -, hsettled⟩ := h
  exact hsettled

theorem establishes_updateAttempt {attemptId : Uuid} {update : AttemptUpdate}
    {Q : Journal → Unit → Prop} (h : Running settings policy rank c rest n total attemptId j)
    (hQ : ∀ j' v vs a as, Trying settings policy rank c rest total j' v vs → v.attempts = a :: as →
      a.updates = [update] → as.length + 1 = n → Settled j' → Q j' ()) :
    Establishes settings policy (updateAttempt attemptId update) j Q := by
  obtain ⟨v, vs, a, as, htry, ha, hid, hnone, hn, hothers⟩ := h
  unfold updateAttempt
  split
  · refine ⟨⟨v, vs, a, as, htry.newest.1, ha, hid, hnone⟩, fun x _ => ?_⟩
    cases x with
    | error e => trivial
    | ok =>
      have hvisits := receive_newest update htry.shape.distinct htry.newest.1 ha hid
      have hshape := htry.shape.receive_update update htry.newest.1 ha hid hnone
      have hattempts : (j.receive attemptId update).attempts =
          { a with updates := update :: a.updates } :: (as ++ vs.flatMap (·.attempts)) := by
        simp [Journal.attempts, hvisits]
      have hold : j.attempts = a :: (as ++ vs.flatMap (·.attempts)) := by
        simp [attempts_cons htry.newest.1, ha]
      refine hQ (j.receive attemptId update) _ vs _ as
        ⟨hshape, ⟨hvisits, htry.newest.2⟩, htry.noSetback, htry.rest_eq, ?_⟩
        rfl (by simp [hnone]) hn ?_
      · rw [htry.total_eq, hattempts, hold]
        rfl
      · intro b hb
        rw [hattempts] at hb
        rcases List.mem_cons.mp hb with rfl | hb
        · simp [hnone]
        · exact hothers b hb
  · trivial

variable {a : Attempt}

theorem establishes_completeFailedAttempt {usage : UsageSummary}
    (h : Running settings policy rank c rest n total a.id j) :
    Establishes settings policy (completeFailedAttempt a failure usage) j
      (fun j' _ => Left settings policy rank c rest n total failure j') :=
  establishes_updateAttempt h fun _ v vs b bs htry hb hupdates hn hsettled =>
    ⟨v, vs, b, bs, htry, hb, by simp [AttemptEntry.failure, hupdates], hn, hsettled⟩

/-- What one attempt leads to. -/
def AttemptDone (settings : RuntimeSettings) (policy : EffectiveExecutionPolicy) (rank : Nat)
    (c : ModelCandidate) (rest : List ModelCandidate) (n total : Nat) (j : Journal) :
    AttemptEnd × Progress → Prop
  | (.finished outcome, _) => Final j outcome
  | (.refused failure, pr) =>
    Left settings policy rank c rest n total failure j ∧ pr.totalAttempts = total
  | (.failed failure, pr) =>
    Left settings policy rank c rest n total failure j ∧ pr.totalAttempts = total

variable {pr : Progress}

theorem establishes_attemptRefused (h : Running settings policy rank c rest n total a.id j)
    (htotal : pr.totalAttempts = total) :
    Establishes settings policy (attemptRefused a failure pr) j (fun j' pr' =>
      Left settings policy rank c rest n total failure j' ∧ pr'.totalAttempts = total) := by
  refine establishes_bind (establishes_completeFailedAttempt h) fun j' _ hleft => ?_
  refine establishes_pass (only_audit ..) fun _ => ?_
  exact ⟨hleft, htotal⟩

theorem establishes_attemptFailed {failed : FailedAttempt}
    (h : Running settings policy rank c rest n total a.id j) (htotal : pr.totalAttempts = total) :
    Establishes settings policy (attemptFailed a failed pr) j
      (AttemptDone settings policy rank c rest n total) := by
  refine establishes_skip (only_ask.mpr trivial) fun _ => ?_
  refine establishes_bind (establishes_completeFailedAttempt h) fun j' _ hleft => ?_
  refine establishes_pass (only_when (only_insertUsageRecord _)) fun _ => ?_
  refine establishes_pass (only_pushToolResults _ _) fun _ => ?_
  refine establishes_pass (only_push rfl) fun _ => ?_
  refine establishes_pass (only_audit ..) fun _ => ?_
  exact ⟨hleft, htotal⟩

variable {ctx : ExecContext}

theorem establishes_attemptTimedOut {bounded : Bool}
    (h : Running settings policy rank c rest n total a.id j) (htotal : pr.totalAttempts = total) :
    Establishes settings policy (attemptTimedOut ctx a bounded pr) j
      (AttemptDone settings policy rank c rest n total) := by
  refine establishes_skip (only_ask.mpr trivial) fun now => ?_
  refine establishes_skip (only_ask.mpr trivial) fun committed => ?_
  refine establishes_skip (only_ask.mpr trivial) fun _ => ?_
  refine establishes_bind (establishes_completeFailedAttempt h) fun j' _ hleft => ?_
  exact ⟨hleft, htotal⟩

/-! ## A successful attempt -/

theorem establishes_underBudget {write : Exec Unit} {P : Journal → Prop}
    (hwrite : Establishes settings policy write j (fun j' _ => P j')) :
    Establishes settings policy (underBudget write) j
      (fun j' x => (x = .elapsed ∧ j'.overrun = true) ∨ (x = .done () ∧ P j')) := by
  refine ⟨trivial, fun x _ => ?_⟩
  cases x with
  | elapsed => exact .inl ⟨rfl, rfl⟩
  | done =>
    show Establishes settings policy (write >>= fun _ => ask .persistenceTick) j _
    refine establishes_bind hwrite fun j' _ hP => ?_
    refine ⟨trivial, fun x _ => ?_⟩
    cases x with
    | elapsed => exact .inl ⟨rfl, rfl⟩
    | done => exact .inr ⟨rfl, hP⟩

theorem establishes_terminalPersistence {output : ExecutionRunOutput}
    (h : Running settings policy rank c rest n total a.id j) :
    Establishes settings policy (terminalPersistence a output) j
      (fun j' x => (x = .elapsed ∧ j'.overrun = true) ∨ (x = .done () ∧ Settled j')) := by
  have hupdate : Establishes settings policy
      (updateAttempt a.id (.succeeded output.usage output.providerRequestId)) j
      (fun j' _ => Settled j') :=
    establishes_updateAttempt h fun _ _ _ _ _ _ _ _ _ hsettled => hsettled
  refine establishes_bind (establishes_underBudget hupdate) fun j₁ x hx => ?_
  rcases hx with ⟨rfl, hover⟩ | ⟨rfl, hsettled⟩
  · exact .inl ⟨rfl, hover⟩
  · have husage : Establishes settings policy (insertUsageRecord (a.usageRecord output.usage none))
        j₁ (fun j' _ => Settled j') :=
      establishes_unrecorded ((only_insertUsageRecord _).mono fun _ => Bookkeeping.unrecorded) (returns_true _)
        fun _ _ => hsettled
    refine establishes_bind (establishes_underBudget husage) fun j₂ x hx => ?_
    rcases hx with ⟨rfl, hover⟩ | ⟨rfl, hsettled⟩
    · exact .inl ⟨rfl, hover⟩
    · exact establishes_underBudget (establishes_unrecorded
        ((only_touchCredentialUsed _).mono fun _ => Bookkeeping.unrecorded) (returns_true _)
        fun _ _ => hsettled)

theorem establishes_attemptSucceeded {output : ExecutionRunOutput}
    (h : Running settings policy rank c rest n total a.id j) :
    Establishes settings policy (attemptSucceeded ctx a output pr) j
      (AttemptDone settings policy rank c rest n total) := by
  refine establishes_bind (establishes_terminalPersistence h) fun j' x hx => ?_
  rcases hx with ⟨rfl, hover⟩ | ⟨rfl, hsettled⟩
  · refine establishes_skip (only_ask.mpr trivial) fun _ => ?_
    refine establishes_pass (only_push rfl) fun _ => ?_
    exact .inr ⟨hover, rfl⟩
  · refine establishes_skip (only_ask.mpr trivial) fun _ => ?_
    refine establishes_pass (only_audit ..) fun _ => ?_
    refine establishes_pass (only_pushToolResults _ _) fun _ => ?_
    refine establishes_pass (only_push rfl) fun _ => ?_
    refine establishes_pass (only_audit ..) fun _ => ?_
    exact .inl hsettled

/-! ## The attempt loop -/

theorem establishes_insertAttemptStarted {row : AttemptInsert} {Q : Journal → Unit → Prop}
    (h : InVisit settings policy rank c rest n total j)
    (hn : n ≤ min policy.maxRetries c.runtimePolicy.retryLimit)
    (hbound : total < settings.maximumTotalUpstreamAttempts) (hrank : row.candidateRank = rank)
    (hnumber : row.attemptNumber = asI32 (total + 1))
    (hids : row.providerId = c.providerId ∧ row.providerModelId = c.providerModelId)
    (hQ : ∀ j', Running settings policy rank c rest (n + 1) (total + 1) row.id j' → Q j' ()) :
    Establishes settings policy (insertAttemptStarted row) j Q := by
  obtain ⟨v, vs, htry, hsettled, hlen, hretried⟩ := h
  subst hrank
  have hmay : MayInsert settings policy j row v c :=
    ⟨⟨vs, htry.newest⟩, htry.noSetback, candidate_of_drop htry.rest_eq, hids, hlen ▸ hn, hretried,
      htry.total_eq ▸ hnumber, htry.total_eq ▸ hbound⟩
  refine ⟨⟨v, c, hmay⟩, fun x hx => ?_⟩
  cases x with
  | error e => trivial
  | ok =>
    have hnext : j.record (.insertAttemptStarted row) (.ok ()) =
        { j with visits := { v with attempts := row.entry :: v.attempts } :: vs } := by
      simp only [Journal.record, Journal.onVisit, htry.newest.1, onVisit_newest htry.newest.2]
    obtain ⟨hfresh, hpos⟩ := dbAnswers_insert hx
    have hshape := htry.shape.insert_attempt hmay htry.newest hfresh hpos
    refine hQ (j.record (.insertAttemptStarted row) (.ok ())) ?_
    rw [hnext]
    refine ⟨_, vs, row.entry, v.attempts, ⟨hshape, ⟨rfl, htry.newest.2⟩, htry.noSetback,
      htry.rest_eq, ?_⟩, rfl, rfl, rfl, by omega, ?_⟩
    · simp [Journal.attempts, htry.newest.1, htry.total_eq]
    · intro b hb
      exact hsettled b (by rw [attempts_cons htry.newest.1]; exact hb)

/-- **One attempt keeps the contract**, whatever the provider does. -/
theorem establishes_runAttempt {remaining : Nat} {credentialId : Uuid}
    (h : InVisit settings policy rank c rest n pr.totalAttempts j)
    (hn : n ≤ min policy.maxRetries c.runtimePolicy.retryLimit)
    (hbound : pr.totalAttempts < settings.maximumTotalUpstreamAttempts) :
    Establishes settings policy (runAttempt ctx rank c credentialId remaining pr) j
      (AttemptDone settings policy rank c rest (n + 1) (pr.totalAttempts + 1)) := by
  refine establishes_skip (only_ask.mpr trivial) fun attemptId => ?_
  refine establishes_bind (P := fun j' _ =>
    Running settings policy rank c rest (n + 1) (pr.totalAttempts + 1) attemptId j')
    (establishes_insertAttemptStarted h hn hbound (by dsimp only) (by dsimp only)
      (by exact ⟨rfl, rfl⟩)
      fun _ hj => hj)
    fun j' _ hrunning => ?_
  refine establishes_pass (only_push rfl) fun _ => ?_
  refine establishes_pass (only_audit ..) fun _ => ?_
  refine establishes_skip (only_ask.mpr trivial) fun permit => ?_
  cases permit with
  | error scope =>
    refine establishes_bind (establishes_attemptRefused hrunning rfl) fun j'' pr' hleft => ?_
    exact hleft
  | ok =>
    refine establishes_skip (only_ask.mpr trivial) fun request => ?_
    cases request with
    | error failure =>
      refine establishes_bind (establishes_attemptRefused hrunning rfl) fun j'' pr' hleft => ?_
      exact .inl hleft.1.settled
    | ok =>
      refine establishes_skip (only_callProvider ctx c) fun result => ?_
      cases result with
      | ok output => exact establishes_attemptSucceeded hrunning
      | failed failed => exact establishes_attemptFailed hrunning rfl
      | elapsed => exact establishes_attemptTimedOut hrunning rfl

/-- What the attempts on one candidate lead to. -/
def CandidateDone (settings : RuntimeSettings) (policy : EffectiveExecutionPolicy) (rank : Nat)
    (c : ModelCandidate) (rest : List ModelCandidate) (j : Journal) : CandidateEnd × Progress → Prop
  | (.finished outcome, _) => Final j outcome
  | (.broke failure, pr) => Settled j ∧ (failure.fallbackEligible = true →
    ∃ n, Left settings policy rank c rest n pr.totalAttempts failure j)

theorem InVisit.settled (h : InVisit settings policy rank c rest n total j) : Settled j := by
  obtain ⟨-, -, -, hsettled, -, -⟩ := h
  exact hsettled

/-- **The attempts on one candidate keep the contract.** -/
theorem establishes_attemptLoop {credentialId : Uuid} (hsettings : ctx.settings = settings)
    (retriesLeft : Nat) :
    ∀ {n : Nat} {pr : Progress} {j : Journal},
      InVisit settings policy rank c rest n pr.totalAttempts j →
      n + retriesLeft = min policy.maxRetries c.runtimePolicy.retryLimit →
      Establishes settings policy (attemptLoop ctx rank c credentialId retriesLeft pr) j
        (CandidateDone settings policy rank c rest) := by
  induction retriesLeft using Nat.strongRecOn with
  | ind retriesLeft ih =>
    intro n pr j hin hn
    unfold attemptLoop
    refine establishes_skip (only_ask.mpr trivial) fun now => ?_
    split
    · exact .inl hin.settled
    split
    · exact .inl hin.settled
    next hbound =>
    rw [hsettings] at hbound
    refine establishes_bind (establishes_runAttempt hin (by omega) (by omega))
      fun j' result hdone => ?_
    match result, hdone with
    | (.finished outcome, pr'), hdone => exact hdone
    | (.refused failure, pr'), ⟨hleft, htotal⟩ =>
      exact ⟨hleft.settled, fun _ => ⟨_, htotal ▸ hleft⟩⟩
    | (.failed failure, pr'), ⟨hleft, htotal⟩ =>
      dsimp only
      split
      · next hretry =>
        cases retriesLeft with
        | zero => exact ⟨hleft.settled, fun _ => ⟨_, htotal ▸ hleft⟩⟩
        | succ retriesLeft =>
          refine establishes_pass (only_sleepForRetry ..) fun wait => ?_
          cases wait with
          | ready => exact ih retriesLeft (by omega) (htotal ▸ hleft.inVisit hretry) (by omega)
          -- a wait that ends the loop replaces the failure by one that is not eligible
          | deadline => exact ⟨hleft.settled, fun h => absurd h (by decide)⟩
          | cancelled => exact ⟨hleft.settled, fun h => absurd h (by decide)⟩
      · exact ⟨hleft.settled, fun _ => ⟨_, htotal ▸ hleft⟩⟩

/-! ## The candidate loop -/

/-- The next candidate may be visited: every visit so far was left for a fallback. -/
structure Ready (settings : RuntimeSettings) (policy : EffectiveExecutionPolicy) (rank : Nat)
    (rest : List ModelCandidate) (total : Nat) (j : Journal) : Prop where
  shape : AttemptShape settings policy j
  rank_eq : rank = j.visits.length
  rest_eq : j.candidates.drop rank = rest
  closed : ∀ v ∈ j.visits, v.Closed policy
  total_eq : total = j.attempts.length
  settled : Settled j

theorem AttemptShape.length_of_newest (h : AttemptShape settings policy j) {v : Visit}
    {vs : List Visit} (hat : j.At rank v vs) : j.visits.length = rank + 1 := by
  have hranked := h.ranked
  rw [hat.1, List.length_cons, List.range_succ, List.map_cons, List.reverse_append] at hranked
  have hhead : v.rank = vs.length := (List.cons.inj hranked).1
  rw [hat.1, List.length_cons, ← hhead, hat.2]

theorem Ready.next {rest : List ModelCandidate} {v : Visit} {vs : List Visit}
    (hshape : AttemptShape settings policy j) (hat : j.At rank v vs) (hclosed : v.Closed policy)
    (hrest : j.candidates.drop rank = c :: rest) (htotal : total = j.attempts.length)
    (hsettled : Settled j) : Ready settings policy (rank + 1) rest total j where
  shape := hshape
  rank_eq := (hshape.length_of_newest hat).symm
  rest_eq := by
    rw [← List.drop_drop, hrest, List.drop_succ_cons, List.drop_zero]
  closed := by
    intro w hw
    rw [hat.1] at hw
    rcases List.mem_cons.mp hw with rfl | hw
    · exact hclosed
    · exact hshape.fellBack w (by simpa [hat.1] using hw)
  total_eq := htotal
  settled := hsettled

theorem Left.ready (h : Left settings policy rank c rest n total failure j)
    (hallow : policy.allowFallback = true) (helig : failure.fallbackEligible = true) :
    Ready settings policy (rank + 1) rest total j := by
  obtain ⟨v, vs, a, as, htry, ha, hfailure, -, hsettled⟩ := h
  exact Ready.next htry.shape htry.newest
    ⟨hallow, failure, by simp [Visit.leftWith, ha, hfailure], helig⟩ htry.rest_eq htry.total_eq
    hsettled

/-- What the phases before the first attempt lead to. -/
def Prepared (settings : RuntimeSettings) (policy : EffectiveExecutionPolicy) (rank : Nat)
    (c : ModelCandidate) (rest : List ModelCandidate) (total : Nat) (j : Journal) :
    Except (ExecutionFailure × Bool) Uuid → Prop
  | .error (failure, _) => Settled j ∧ (policy.allowFallback = true →
    failure.fallbackEligible = true → Ready settings policy (rank + 1) rest total j)
  | .ok _ => InVisit settings policy rank c rest 0 total j

/-- The candidate was visited, and nothing has gone wrong on it yet. -/
structure Opened (settings : RuntimeSettings) (policy : EffectiveExecutionPolicy) (rank : Nat)
    (c : ModelCandidate) (rest : List ModelCandidate) (total : Nat) (j : Journal) : Prop where
  shape : AttemptShape settings policy j
  newest : ∃ vs, j.At rank { rank } vs
  rest_eq : j.candidates.drop rank = c :: rest
  total_eq : total = j.attempts.length
  settled : Settled j

section

variable (h : Opened settings policy rank c rest total j)
include h

theorem Opened.mayAsk : ∃ v vs, j.At rank v vs ∧ v.attempts = [] ∧ v.setback = none := by
  obtain ⟨vs, hat⟩ := h.newest
  exact ⟨_, vs, hat, rfl, rfl⟩

theorem Opened.inVisit : InVisit settings policy rank c rest 0 total j := by
  obtain ⟨vs, hat⟩ := h.newest
  exact ⟨_, vs, ⟨h.shape, hat, rfl, h.rest_eq, h.total_eq⟩, h.settled, rfl, by simp⟩

theorem Opened.refused (announced : Bool) :
    Prepared settings policy rank c rest total
      (j.onVisit rank fun v => { v with setback := some failure })
      (.error (failure, announced)) := by
  obtain ⟨vs, hat⟩ := h.newest
  have hnext : (j.onVisit rank fun v => { v with setback := some failure }) =
      { j with visits := { rank, setback := some failure } :: vs } := by
    simp only [Journal.onVisit, hat.1, onVisit_newest]
  have hattempts : Journal.attempts { j with visits := { rank, setback := some failure } :: vs } =
      j.attempts := by
    simp [Journal.attempts, hat.1]
  have hsettled : Settled { j with visits := { rank, setback := some failure } :: vs } := by
    intro a ha
    exact h.settled a (hattempts ▸ ha)
  rw [hnext]
  refine ⟨hsettled, fun hallow helig => ?_⟩
  exact Ready.next (h.shape.set_back _ hat rfl) ⟨rfl, rfl⟩
    ⟨hallow, failure, by simp [Visit.leftWith], helig⟩ h.rest_eq (hattempts ▸ h.total_eq) hsettled

theorem Opened.phase {α : Type} (x : Timed (Except ExecutionFailure α)) :
    (refusalOf x = none ∧
      (j.onVisit rank fun v => { v with setback := refusalOf x }) = j) ∨
    ∃ failure, refusalOf x = some failure ∧ ∀ announced, Prepared settings policy rank c rest total
      (j.onVisit rank fun v => { v with setback := refusalOf x }) (.error (failure, announced)) := by
  cases hx : refusalOf x with
  | some failure => exact .inr ⟨failure, rfl, h.refused⟩
  | none =>
    obtain ⟨vs, hat⟩ := h.newest
    refine .inl ⟨rfl, ?_⟩
    simp only [Journal.onVisit, hat.1, onVisit_newest]
    rw [← hat.1]

end

theorem Ready.opened (h : Ready settings policy rank (c :: rest) total j) :
    Opened settings policy rank c rest total (j.onVisit rank id) := by
  have hrank := h.rank_eq
  subst hrank
  have hcandidate := candidate_of_drop h.rest_eq
  have hnext : j.onVisit j.visits.length id =
      { j with visits := { rank := j.visits.length } :: j.visits } := by
    simp only [Journal.onVisit, onVisit_fresh h.shape.rank_ne, id]
  have hattempts :
      Journal.attempts { j with visits := { rank := j.visits.length } :: j.visits } = j.attempts := by
    simp [Journal.attempts]
  rw [hnext]
  exact ⟨h.shape.open_visit _ hcandidate h.closed, ⟨j.visits, rfl, rfl⟩, h.rest_eq,
    hattempts ▸ h.total_eq, fun a ha => h.settled a (hattempts ▸ ha)⟩

theorem onVisit_onVisit_id (j : Journal) (rank : Nat) (f : Visit → Visit) :
    (j.onVisit rank id).onVisit rank f = j.onVisit rank f := by
  cases hvisits : j.visits with
  | nil => simp [Journal.onVisit, onVisit, hvisits]
  | cons v vs =>
    by_cases hv : v.rank = rank <;> simp [Journal.onVisit, onVisit, hvisits, hv]

theorem establishes_credentialPhase (h : Ready settings policy rank (c :: rest) total j) :
    Establishes settings policy (boundedPhase ctx.deadline (resolveCredential ctx rank c)) j
      (fun j' r => match r with
        | .error failure => Prepared settings policy rank c rest total j' (.error (failure, true))
        | .ok _ => Opened settings policy rank c rest total j') := by
  refine establishes_skip (only_ask.mpr trivial) fun now => ?_
  split
  · exact ⟨h.settled, fun _ helig => absurd helig (by decide)⟩
  unfold resolveCredential
  split
  · exact ⟨h.settled, fun _ helig => absurd helig (by decide)⟩
  have hcandidate := candidate_of_drop h.rest_eq
  refine ⟨⟨h.rank_eq, hcandidate, h.closed⟩, fun x _ => ?_⟩
  have hopen := h.opened
  have hnext : j.record (.resolveCredential rank c) x =
      (j.onVisit rank id).onVisit rank fun v => { v with setback := refusalOf x } :=
    (onVisit_onVisit_id j rank _).symm
  show Establishes settings policy _ (j.record (.resolveCredential rank c) x) _
  rw [hnext]
  cases x with
  | elapsed => exact hopen.refused true
  | done result =>
    cases result with
    | error failure => exact hopen.refused true
    | ok credentialId =>
      rcases hopen.phase (.done (.ok credentialId)) with ⟨-, hsame⟩ | ⟨failure, hfail, -⟩
      · rw [hsame]; exact hopen
      · cases hfail

theorem establishes_handlePhase (h : Opened settings policy rank c rest total j) :
    Establishes settings policy (boundedPhase ctx.deadline (ask (.runtimeHandle rank c))) j
      (fun j' r => match r with
        | .error failure => Prepared settings policy rank c rest total j' (.error (failure, false))
        | .ok _ => Opened settings policy rank c rest total j') := by
  refine establishes_skip (only_ask.mpr trivial) fun now => ?_
  split
  · exact ⟨h.settled, fun _ helig => absurd helig (by decide)⟩
  refine ⟨h.mayAsk, fun x _ => ?_⟩
  show Establishes settings policy _
    (j.onVisit rank fun v => { v with setback := refusalOf x }) _
  cases x with
  | elapsed => exact h.refused false
  | done result =>
    cases result with
    | error failure => exact h.refused false
    | ok handle =>
      rcases h.phase (.done (.ok handle)) with ⟨-, hsame⟩ | ⟨failure, hfail, -⟩
      · rw [hsame]; exact h
      · cases hfail

theorem establishes_prepareCandidate (h : Ready settings policy rank (c :: rest) total j) :
    Establishes settings policy (prepareCandidate ctx rank c) j
      (Prepared settings policy rank c rest total) := by
  refine establishes_bind (establishes_credentialPhase h) fun j₁ r hr => ?_
  cases r with
  | error failure => exact hr
  | ok credentialId =>
    have hopen : Opened settings policy rank c rest total j₁ := hr
    refine ⟨hopen.mayAsk, fun x _ => ?_⟩
    cases x with
    | error failure => exact hopen.refused false
    | ok =>
      show Establishes settings policy (boundedPhase ctx.deadline (ask (.runtimeHandle rank c)) >>= _)
        j₁ _
      refine establishes_bind (establishes_handlePhase hopen) fun j₂ r hr => ?_
      cases r with
      | error failure => exact hr
      | ok => exact Opened.inVisit hr

/-- **The loop over the candidates keeps the contract.** -/
theorem establishes_candidateLoop (ctx : ExecContext) (hsettings : ctx.settings = settings)
    (hpolicy : ctx.policy = policy) (rest : List ModelCandidate) :
    ∀ {rank : Nat} {lastFailure : Option ExecutionFailure} {pr : Progress} {j : Journal},
      Ready settings policy rank rest pr.totalAttempts j →
      Establishes settings policy (candidateLoop ctx rank rest lastFailure pr) j
        Final := by
  induction rest with
  | nil =>
    intro rank lastFailure pr j h
    unfold candidateLoop
    refine establishes_pass (only_audit ..) fun _ => ?_
    refine establishes_pass (only_push rfl) fun _ => ?_
    exact .inl h.settled
  | cons c rest ih =>
    intro rank lastFailure pr j h
    unfold candidateLoop
    refine establishes_pass (only_push rfl) fun _ => ?_
    refine establishes_bind (establishes_prepareCandidate h) fun j₁ r hr => ?_
    cases r with
    | error refusal =>
      obtain ⟨failure, announced⟩ := refusal
      obtain ⟨hsettled, hready⟩ := hr
      dsimp only
      split
      · next hfall =>
        rw [mayFallBack, hpolicy, Bool.and_eq_true] at hfall
        refine establishes_pass (only_when (only_push rfl)) fun _ => ?_
        exact ih (hready hfall.1 hfall.2)
      · exact .inl hsettled
    | ok credentialId =>
      have hin : InVisit settings policy rank c rest 0 pr.totalAttempts j₁ := hr
      dsimp only
      have heffective : (effectiveRuntimePolicy ctx.policy c.runtimePolicy).maxRetries =
          min policy.maxRetries c.runtimePolicy.retryLimit := by
        rw [hpolicy]; rfl
      refine establishes_bind (establishes_attemptLoop hsettings _ hin (by omega))
        fun j₂ result hdone => ?_
      match result, hdone with
      | (.finished outcome, pr'), hfinal => exact hfinal
      | (.broke failure, pr'), ⟨hsettled, hleft⟩ =>
        dsimp only
        split
        · next hfall =>
          rw [mayFallBack, hpolicy, Bool.and_eq_true] at hfall
          obtain ⟨n, hleft⟩ := hleft hfall.2
          refine establishes_pass (only_push rfl) fun _ => ?_
          exact ih (hleft.ready hfall.1 hfall.2)
        · refine establishes_pass (only_audit ..) fun _ => ?_
          exact .inl hsettled

/-! ## The whole execution -/

/-- Before any candidate is visited. -/
structure Idle (j : Journal) : Prop where
  visits : j.visits = []

theorem Idle.settled (h : Idle j) : Settled j := by
  intro a ha
  simp [Journal.attempts, h.visits] at ha

variable {command : ExecutionCommand}

theorem establishes_refuse {route : Option RouteDecision} (h : Idle j) :
    Establishes settings policy (refuse command route failure) j Final :=
  establishes_unrecorded ((only_refuse command route failure).mono fun _ => Bookkeeping.unrecorded)
    (returns_true _) fun _ _ => .inl h.settled

theorem establishes_selectAndRun {deadline : Nat} {route : RouteDecision} {profile : Option Uuid}
    (h : Idle j) :
    Establishes settings policy (selectAndRun settings command deadline policy route profile) j
      Final := by
  refine establishes_skip (only_ask.mpr trivial) fun skills => ?_
  cases skills with
  | error failure => exact establishes_refuse h
  | ok hasTools =>
    dsimp only
    split
    · exact establishes_refuse h
    refine ⟨⟨h.visits, rfl⟩, fun x _ => ?_⟩
    cases x with
    | error failure => exact establishes_refuse h
    | ok candidates =>
      show Establishes settings policy (runCandidates _ candidates)
        { j with candidates := candidates.take (maxCandidates policy) } _
      refine establishes_pass (only_push rfl) fun _ => ?_
      have hidle : Idle { j with candidates := candidates.take (maxCandidates policy) } :=
        ⟨h.visits⟩
      have hready : Ready settings policy 0 (candidates.take (maxCandidates policy)) 0
          { j with candidates := candidates.take (maxCandidates policy) } := by
        refine ⟨?_, ?_, rfl, ?_, ?_, hidle.settled⟩
        · exact attemptShape_nil h.visits (List.length_take_le ..)
        · simp [h.visits]
        · simp [h.visits]
        · simp [Journal.attempts, h.visits]
      exact establishes_candidateLoop { settings, command, deadline, policy, route, hasTools } rfl
        rfl _ hready

theorem establishes_resolveProfile {deadline : Nat} {route : RouteDecision} (h : Idle j) :
    Establishes settings policy (resolveProfile settings command deadline policy route) j
      Final := by
  unfold resolveProfile
  split
  · exact establishes_selectAndRun h
  · refine establishes_skip (only_ask.mpr trivial) fun found => ?_
    refine establishes_skip (only_ofExcept _) fun resolution => ?_
    split
    · exact establishes_selectAndRun h
    · refine establishes_pass (only_push rfl) fun _ => ?_
      refine establishes_pass (only_audit ..) fun _ => ?_
      exact establishes_refuse h

/-- **An execution keeps the attempt contract**, and returns with every row updated once. -/
theorem establishes_executeInner (hpolicy : ∀ p, evaluate settings command = .ok p → p = policy)
    (h : Idle j) : Establishes settings policy (executeInner settings command) j Final := by
  refine establishes_skip (only_ask.mpr trivial) fun start => ?_
  refine establishes_bind (P := fun j' r => j' = j ∧ ∃ applicationId,
    r.1 = { command with applicationId })
    (establishes_unrecorded ((only_validateCommand command).mono fun _ => Bookkeeping.unrecorded)
      (returns_validateCommand command) fun _ hr => ⟨rfl, hr⟩) fun j' r hr => ?_
  obtain ⟨rfl, applicationId, hcommand⟩ := hr
  obtain ⟨command', refusal⟩ := r
  subst hcommand
  cases refusal with
  | some failure =>
    refine establishes_pass (only_push rfl) fun _ => ?_
    exact .inl h.settled
  | none =>
    refine establishes_pass (only_audit ..) fun _ => ?_
    split
    · refine establishes_pass (only_push rfl) fun _ => ?_
      exact .inl h.settled
    next p hevaluate =>
    obtain rfl : p = policy := hpolicy p hevaluate
    refine establishes_pass (only_push rfl) fun _ => ?_
    refine establishes_skip (only_ask.mpr trivial) fun routed => ?_
    cases routed with
    | error failure => exact establishes_refuse h
    | ok route =>
      refine establishes_pass (only_push rfl) fun _ => ?_
      refine establishes_pass (only_audit ..) fun _ => ?_
      exact establishes_resolveProfile h

theorem establishes_executeWithEvents
    (hpolicy : ∀ p, evaluate settings command = .ok p → p = policy) (h : Idle j) :
    Establishes settings policy (executeWithEvents settings command) j Final :=
  establishes_pass (only_push rfl) fun _ => establishes_executeInner hpolicy h

end Moira
