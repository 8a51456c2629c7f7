import Mathlib.Tactic.Common
import Moira.Execution.EventLog

/-!
# The shape of an attempt

Parts of the pipeline that neither start nor end an attempt and carry no output: audit entries,
lifecycle events, usage records, reading the clock, waiting. Each contract on the pipeline passes
over them with one lemma.

`AttemptShape` is what every prefix of every execution's journal looks like: attempts numbered from
one without a gap, consecutive blocks in ranked order, retries only after retryable failures,
fallbacks only after fallback-eligible ones, and no row updated twice.
-/

namespace Moira

open Exec Prog

/-- Operations that touch neither the attempt rows nor the output. -/
def Bookkeeping : ExecOp → Prop
  | .push event => event.delta? = none
  | .now | .newId | .isCancelled | .sleep _ | .audit .. | .auditBounded .. | .insertUsageRecord _
  | .touchCredentialUsed _ | .onSuccess .. | .onFailure .. | .ensureApplicationActive _
  | .selectRoute | .findAgentProfileReference _ | .resolveAgentSkills _ | .acquire _
  | .buildCompletionRequest => True
  | _ => False

theorem only_when {P : ExecOp → Prop} {condition : Bool} {p : Exec Unit} (hp : p.Only P) :
    (Exec.when condition p).Only P := by
  unfold Exec.when
  split
  · exact hp
  · trivial

theorem only_audit (action : String) (result : AuditResult) (attemptId : Option Uuid)
    (failureClass : Option ExecutionFailureClass) :
    (audit action result attemptId failureClass).Only Bookkeeping :=
  only_bind (only_ask.mpr trivial) fun _ => only_ofExcept _

theorem only_push {event : RuntimeEvent} (h : event.delta? = none) :
    (push event).Only Bookkeeping :=
  only_ask.mpr h

theorem only_pushToolResults (attemptId : Uuid) :
    ∀ records, (pushToolResults attemptId records).Only Bookkeeping
  | [] => trivial
  | _ :: rest => only_bind (only_push rfl) fun _ => only_pushToolResults attemptId rest

theorem only_insertUsageRecord (row : UsageRecordInsert) :
    (insertUsageRecord row).Only Bookkeeping := by
  unfold insertUsageRecord
  split
  · exact only_bind (only_ask.mpr trivial) fun _ => only_ofExcept _
  · trivial

theorem only_touchCredentialUsed (credentialId : Uuid) :
    (touchCredentialUsed credentialId).Only Bookkeeping :=
  only_bind (only_ask.mpr trivial) fun _ => only_ofExcept _

theorem only_readyToRetry (deadline : Nat) : (readyToRetry deadline).Only Bookkeeping := by
  unfold readyToRetry
  refine only_bind (only_ask.mpr trivial) fun cancelled => ?_
  split
  · trivial
  · refine only_bind (only_ask.mpr trivial) fun now => ?_
    split <;> trivial

theorem only_sleepForRetry (retryNumber : Nat) (runtime : ProviderRuntimePolicy) (deadline : Nat) :
    (sleepForRetry retryNumber runtime deadline).Only Bookkeeping := by
  unfold sleepForRetry
  refine only_bind (only_ask.mpr trivial) fun now => ?_
  split
  · trivial
  · dsimp only
    split
    · exact only_readyToRetry deadline
    · split
      · refine only_bind (only_ask.mpr trivial) fun rest => ?_
        split <;> trivial
      · refine only_bind (only_ask.mpr trivial) fun rest => ?_
        split
        · trivial
        · exact only_readyToRetry deadline

variable (command : ExecutionCommand)

theorem only_refuse (route : Option RouteDecision) (failure : ExecutionFailure) :
    (refuse command route failure).Only Bookkeeping :=
  only_bind (only_audit ..) fun _ => only_bind (only_push rfl) fun _ => trivial

/-! ## Validation -/

theorem only_validateCommand : (validateCommand command).Only Bookkeeping := by
  have hensure : ∀ command applicationId,
      (validateCommand.ensureActive command applicationId).Only Bookkeeping := by
    intro command applicationId
    refine only_bind (only_ask.mpr trivial) fun x => ?_
    split <;> trivial
  unfold validateCommand
  split
  · trivial
  · dsimp only
    split
    · split
      · trivial
      · exact hensure _ _
    · exact hensure _ _
    · trivial

theorem returns_validateCommand :
    (validateCommand command).Returns fun r =>
      ∃ applicationId, r.1 = { command with applicationId } := by
  have hensure : ∀ applicationId requested,
      (validateCommand.ensureActive { command with applicationId } requested).Returns fun r =>
        ∃ applicationId, r.1 = { command with applicationId } := by
    intro applicationId requested
    refine returns_bind (returns_true _) fun x _ => ?_
    split
    · exact ⟨_, rfl⟩
    · exact ⟨_, rfl⟩
    · trivial
  unfold validateCommand
  split
  · exact ⟨command.applicationId, rfl⟩
  · dsimp only
    split
    · split
      · exact ⟨_, rfl⟩
      · exact hensure _ _
    · exact hensure _ _
    · exact ⟨_, rfl⟩

variable {settings : RuntimeSettings} {policy : EffectiveExecutionPolicy} {j : Journal}

/-- An attempt that was updated once, with a failure that satisfies `P`. -/
def AttemptEntry.FailedWith (a : AttemptEntry) (P : ExecutionFailure → Prop) : Prop :=
  ∃ failure, a.failure = some failure ∧ P failure

/-- The visit is of the candidate with its rank, and makes no more attempts than that one allows. -/
def Visit.Of (policy : EffectiveExecutionPolicy) (candidates : List ModelCandidate) (v : Visit) :
    Prop :=
  ∃ c, candidates[v.rank]? = some c ∧
    v.attempts.length ≤ min policy.maxRetries c.runtimePolicy.retryLimit + 1 ∧
    ∀ a ∈ v.attempts, a.providerId = c.providerId ∧ a.providerModelId = c.providerModelId

structure AttemptShape (settings : RuntimeSettings) (policy : EffectiveExecutionPolicy)
    (j : Journal) : Prop where
  /-- The candidates are visited in ranked order, each of them once. -/
  ranked : j.visits.map (·.rank) = (List.range j.visits.length).reverse
  candidates_le : j.candidates.length ≤ maxCandidates policy
  visit : ∀ v ∈ j.visits, v.Of policy j.candidates
  /-- Numbered `1 .. n`, newest first. -/
  numbered : j.attempts.map (·.number) =
    ((List.range j.attempts.length).map fun i : Nat => (i : Int) + 1).reverse
  fits : j.attempts.length < 2 ^ 31
  bounded : j.attempts.length ≤ settings.maximumTotalUpstreamAttempts
  retried : ∀ v ∈ j.visits, ∀ a ∈ v.attempts.tail, a.FailedWith (·.retryable = true)
  fellBack : ∀ v ∈ j.visits.tail, v.Closed policy
  distinct : (j.attempts.map (·.id)).Nodup
  updatedOnce : ∀ a ∈ j.attempts, a.updates.length ≤ 1

/-! ## Journal lemmas -/

variable {rank : Nat} {v : Visit} {vs : List Visit}

theorem onVisit_newest {f : Visit → Visit} (h : v.rank = rank) :
    onVisit rank f (v :: vs) = f v :: vs := by
  simp [onVisit, h]

theorem onVisit_fresh {f : Visit → Visit} {visits : List Visit} (h : ∀ v ∈ visits, v.rank ≠ rank) :
    onVisit rank f visits = f { rank } :: visits := by
  cases visits with
  | nil => rfl
  | cons v vs => simp [onVisit, h v (by simp)]

theorem attempts_cons (h : j.visits = v :: vs) :
    j.attempts = v.attempts ++ vs.flatMap (·.attempts) := by
  simp [Journal.attempts, h]

variable {attemptId : Uuid}

theorem visit_receive_of_notMem {update : AttemptUpdate} (h : attemptId ∉ v.attempts.map (·.id)) :
    v.receive attemptId update = v := by
  have hmap : v.attempts.map (AttemptEntry.receive attemptId update) = v.attempts := by
    rw [List.map_congr_left (g := id), List.map_id]
    intro a ha
    have hne : a.id ≠ attemptId := fun he => h (List.mem_map.mpr ⟨a, ha, he⟩)
    simp [AttemptEntry.receive, hne]
  rw [Visit.receive, hmap]

theorem receive_newest (update : AttemptUpdate) {a : AttemptEntry} {as : List AttemptEntry}
    (hdistinct : (j.attempts.map (·.id)).Nodup) (hv : j.visits = v :: vs)
    (ha : v.attempts = a :: as) (hid : a.id = attemptId) :
    (j.receive attemptId update).visits =
      { v with attempts := { a with updates := update :: a.updates } :: as } :: vs := by
  rw [attempts_cons hv, ha, List.map_append, List.map_cons, List.cons_append] at hdistinct
  have hout := (List.nodup_cons.mp hdistinct).1
  rw [List.mem_append, not_or, hid] at hout
  have hvs : vs.map (Visit.receive attemptId update) = vs := by
    rw [List.map_congr_left (g := id), List.map_id]
    intro w hw
    refine visit_receive_of_notMem fun hmem => hout.2 ?_
    obtain ⟨b, hb, hbid⟩ := List.mem_map.mp hmem
    exact List.mem_map.mpr ⟨b, List.mem_flatMap.mpr ⟨w, hw, hb⟩, hbid⟩
  have has : as.map (AttemptEntry.receive attemptId update) = as := by
    rw [List.map_congr_left (g := id), List.map_id]
    intro b hb
    have hne : b.id ≠ attemptId := fun he => hout.1 (List.mem_map.mpr ⟨b, hb, he⟩)
    simp [AttemptEntry.receive, hne]
  simp only [Journal.receive, hv, List.map_cons, hvs]
  simp [Visit.receive, ha, has, AttemptEntry.receive, hid]

/-! ## The cast of the attempt counter -/

theorem asI32_eq {n : Nat} (h : n < 2 ^ 31) : asI32 n = n := by
  have hlo : -((2 ^ 32 : Nat) : Int) ≤ (n : Int) * 2 := by omega
  have hhi : (n : Int) * 2 < ((2 ^ 32 : Nat) : Int) := by omega
  exact Int.bmod_eq_of_le_mul_two hlo hhi

theorem fits_of_asI32_pos {n : Nat} (hn : n < 2 ^ 31) (h : 0 < asI32 (n + 1)) : n + 1 < 2 ^ 31 := by
  by_contra hge
  have hn' : n + 1 = 2 ^ 31 := by omega
  rw [hn'] at h
  exact absurd h (by decide)

/-! ## One exchange -/

theorem attemptShape_nil (hvisits : j.visits = []) (hle : j.candidates.length ≤ maxCandidates policy) :
    AttemptShape settings policy j := by
  have hattempts : j.attempts = [] := by simp [Journal.attempts, hvisits]
  constructor <;> simp [hvisits, hattempts, hle]

namespace AttemptShape

section

variable (h : AttemptShape settings policy j)
include h

theorem rank_ne : ∀ v ∈ j.visits, v.rank ≠ j.visits.length := by
  intro v hv he
  have hmem : v.rank ∈ (List.range j.visits.length).reverse := by
    rw [← h.ranked]
    exact List.mem_map_of_mem hv
  simp [he] at hmem

theorem open_visit {c : ModelCandidate} (setback : Option ExecutionFailure)
    (hc : j.candidates[j.visits.length]? = some c) (hclosed : ∀ v ∈ j.visits, v.Closed policy) :
    AttemptShape settings policy
      { j with visits := { rank := j.visits.length, setback } :: j.visits } := by
  have hattempts : Journal.attempts { j with visits := { rank := j.visits.length, setback } :: j.visits }
      = j.attempts := by simp [Journal.attempts]
  refine ⟨?_, h.candidates_le, ?_, ?_, ?_, ?_, ?_, ?_, ?_, ?_⟩
  · simp [h.ranked, List.range_succ]
  · intro v hv
    rcases List.mem_cons.mp hv with rfl | hv
    · exact ⟨c, hc, by simp, by simp⟩
    · exact h.visit v hv
  · rw [hattempts]; exact h.numbered
  · rw [hattempts]; exact h.fits
  · rw [hattempts]; exact h.bounded
  · intro v hv
    rcases List.mem_cons.mp hv with rfl | hv
    · simp
    · exact h.retried v hv
  · exact hclosed
  · rw [hattempts]; exact h.distinct
  · rw [hattempts]; exact h.updatedOnce

theorem set_back (setback : Option ExecutionFailure) (hat : j.At rank v vs)
    (hnone : v.attempts = []) :
    AttemptShape settings policy { j with visits := { v with setback } :: vs } := by
  obtain ⟨hv, hrank⟩ := hat
  have hattempts : Journal.attempts { j with visits := { v with setback } :: vs } = j.attempts := by
    simp [Journal.attempts, hv]
  have hold := h
  refine ⟨?_, h.candidates_le, ?_, ?_, ?_, ?_, ?_, ?_, ?_, ?_⟩
  · have := h.ranked
    rw [hv] at this
    simpa using this
  · intro w hw
    rcases List.mem_cons.mp hw with rfl | hw
    · exact h.visit v (by simp [hv])
    · exact h.visit w (by simp [hv, hw])
  · rw [hattempts]; exact h.numbered
  · rw [hattempts]; exact h.fits
  · rw [hattempts]; exact h.bounded
  · intro w hw
    rcases List.mem_cons.mp hw with rfl | hw
    · simp [hnone]
    · exact h.retried w (by simp [hv, hw])
  · intro w hw
    exact h.fellBack w (by simpa [hv] using hw)
  · rw [hattempts]; exact h.distinct
  · rw [hattempts]; exact h.updatedOnce

theorem insert_attempt {row : AttemptInsert} {c : ModelCandidate}
    (hmay : MayInsert settings policy j row v c) (hat : j.At row.candidateRank v vs)
    (hfresh : row.id ∉ j.attempts.map (·.id)) (hpos : 0 < row.attemptNumber) :
    AttemptShape settings policy
      { j with visits := { v with attempts := row.entry :: v.attempts } :: vs } := by
  obtain ⟨hv, hrank⟩ := hat
  have hattempts :
      Journal.attempts { j with visits := { v with attempts := row.entry :: v.attempts } :: vs } =
        row.entry :: j.attempts := by
    simp [Journal.attempts, hv]
  have hfits : j.attempts.length + 1 < 2 ^ 31 :=
    fits_of_asI32_pos h.fits (hmay.number ▸ hpos)
  have hnumber : row.entry.number = (j.attempts.length : Int) + 1 := by
    show row.attemptNumber = _
    rw [hmay.number, asI32_eq hfits]
    push_cast
    rfl
  refine ⟨?_, h.candidates_le, ?_, ?_, ?_, ?_, ?_, ?_, ?_, ?_⟩
  · have := h.ranked
    rw [hv] at this
    simpa using this
  · intro w hw
    rcases List.mem_cons.mp hw with rfl | hw
    · refine ⟨c, by simpa [hrank] using hmay.candidate, ?_, ?_⟩
      · simpa using hmay.retries
      · intro a ha
        rcases List.mem_cons.mp ha with rfl | ha
        · exact hmay.provider
        · obtain ⟨c', hc', -, hids⟩ := h.visit v (by simp [hv])
          rw [hrank, hmay.candidate, Option.some.injEq] at hc'
          subst hc'
          exact hids a ha
    · exact h.visit w (by simp [hv, hw])
  · rw [hattempts, List.map_cons, hnumber, h.numbered]
    simp [List.range_succ]
  · rw [hattempts, List.length_cons]; exact hfits
  · rw [hattempts, List.length_cons]; exact hmay.bound
  · intro w hw
    rcases List.mem_cons.mp hw with rfl | hw
    · intro a ha
      -- the attempt before the new one failed retryably, the ones before it are the old tail
      have htail : a ∈ v.attempts := ha
      cases hattempts : v.attempts with
      | nil => simp [hattempts] at htail
      | cons b bs =>
        rw [hattempts] at htail
        rcases List.mem_cons.mp htail with rfl | htail
        · exact hmay.retried a (by simp [hattempts])
        · exact h.retried v (by simp [hv]) a (by simp [hattempts, htail])
    · exact h.retried w (by simp [hv, hw])
  · intro w hw
    exact h.fellBack w (by simpa [hv] using hw)
  · rw [hattempts, List.map_cons, List.nodup_cons]
    exact ⟨hfresh, h.distinct⟩
  · rw [hattempts]
    intro a ha
    rcases List.mem_cons.mp ha with rfl | ha
    · simp [AttemptInsert.entry]
    · exact h.updatedOnce a ha

theorem receive_update {a : AttemptEntry} {as : List AttemptEntry} (update : AttemptUpdate)
    (hv : j.visits = v :: vs) (ha : v.attempts = a :: as) (hid : a.id = attemptId)
    (hnone : a.updates = []) : AttemptShape settings policy (j.receive attemptId update) := by
  have hvisits := receive_newest update h.distinct hv ha hid
  have hcandidates : (j.receive attemptId update).candidates = j.candidates := rfl
  have hattempts : (j.receive attemptId update).attempts =
      { a with updates := update :: a.updates } :: (as ++ vs.flatMap (·.attempts)) := by
    simp [Journal.attempts, hvisits]
  have hold : j.attempts = a :: (as ++ vs.flatMap (·.attempts)) := by
    simp [attempts_cons hv, ha]
  have hlength : (j.receive attemptId update).attempts.length = j.attempts.length := by
    simp [hattempts, hold]
  refine ⟨?_, h.candidates_le, ?_, ?_, ?_, ?_, ?_, ?_, ?_, ?_⟩
  · have := h.ranked
    rw [hv] at this
    simpa [hvisits] using this
  · intro w hw
    rw [hvisits] at hw
    rcases List.mem_cons.mp hw with rfl | hw
    · obtain ⟨c, hc, hlen, hids⟩ := h.visit v (by simp [hv])
      refine ⟨c, hc, by simpa [ha] using hlen, ?_⟩
      intro b hb
      rcases List.mem_cons.mp hb with rfl | hb
      · exact hids a (by simp [ha])
      · exact hids b (by simp [ha, hb])
    · exact h.visit w (by simp [hv, hw])
  · have := h.numbered
    rw [hlength, ← this, hattempts, hold]
    simp
  · rw [hlength]; exact h.fits
  · rw [hlength]; exact h.bounded
  · intro w hw
    rw [hvisits] at hw
    rcases List.mem_cons.mp hw with rfl | hw
    · exact fun b hb => h.retried v (by simp [hv]) b (by simpa [ha] using hb)
    · exact h.retried w (by simp [hv, hw])
  · intro w hw
    exact h.fellBack w (by simpa [hv, hvisits] using hw)
  · have := h.distinct
    rw [hold] at this
    rw [hattempts]
    simpa using this
  · intro b hb
    rw [hattempts] at hb
    rcases List.mem_cons.mp hb with rfl | hb
    · simp [hnone]
    · exact h.updatedOnce b (by rw [hold]; exact List.mem_cons_of_mem _ hb)

/-- Every attempt but the newest has failed. -/
theorem failed_before : ∀ a ∈ j.attempts.tail, a.FailedWith fun _ => True := by
  intro a ha
  cases hvisits : j.visits with
  | nil => simp [Journal.attempts, hvisits] at ha
  | cons v vs =>
    have hsplit : a ∈ v.attempts.tail ∨ a ∈ vs.flatMap (·.attempts) := by
      rw [attempts_cons hvisits] at ha
      cases hv : v.attempts with
      | nil =>
        rw [hv] at ha
        exact .inr (List.mem_of_mem_tail ha)
      | cons b bs =>
        rw [hv] at ha
        exact List.mem_append.mp ha
    rcases hsplit with ha | ha
    · obtain ⟨failure, hfailure, -⟩ := h.retried v (by simp [hvisits]) a ha
      exact ⟨failure, hfailure, trivial⟩
    · obtain ⟨w, hw, haw⟩ := List.mem_flatMap.mp ha
      obtain ⟨-, failure, hleft, -⟩ := h.fellBack w (by simp [hvisits, hw])
      -- the newest attempt of a visit that was left has failed, the others were retried
      cases hattempts : w.attempts with
      | nil => simp [hattempts] at haw
      | cons b bs =>
        rw [hattempts] at haw
        rcases List.mem_cons.mp haw with rfl | haw
        · simp only [Visit.leftWith, hattempts] at hleft
          exact ⟨failure, hleft, trivial⟩
        · obtain ⟨failure, hfailure, -⟩ :=
            h.retried w (by simp [hvisits, hw]) a (by simp [hattempts, haw])
          exact ⟨failure, hfailure, trivial⟩

end

end AttemptShape

theorem dbAnswers_insert {row : AttemptInsert} {u : Unit}
    (h : dbAnswers j (.insertAttemptStarted row) (.ok u) = true) :
    row.id ∉ j.attempts.map (·.id) ∧ 0 < row.attemptNumber := by
  simpa only [dbAnswers, Bool.and_eq_true, decide_eq_true_eq] using h

/-- **An exchange that the contract allows keeps the shape.** -/
theorem attemptShape_record {o : ExecOp} {x : o.Ans} (h : AttemptShape settings policy j)
    (hmay : MayAsk settings policy j o) (hdb : dbAnswers j o x = true) :
    AttemptShape settings policy (j.record o x) := by
  cases o with
  | selectCandidates policy' route =>
    obtain ⟨hvisits, rfl⟩ := hmay
    cases x with
    | error failure => exact h
    | ok candidates => exact attemptShape_nil hvisits (List.length_take_le ..)
  | resolveCredential rank c =>
    obtain ⟨rfl, hc, hclosed⟩ := hmay
    have hopen := h.open_visit (refusalOf x) hc hclosed
    simpa only [Journal.record, Journal.onVisit, onVisit_fresh h.rank_ne] using hopen
  | beforeCall rank c =>
    obtain ⟨v, vs, hat, hnone, -⟩ := hmay
    cases x with
    | ok => exact h
    | error failure =>
      have hset := h.set_back (some failure) hat hnone
      simpa only [Journal.record, Journal.onVisit, hat.1, onVisit_newest hat.2] using hset
  | runtimeHandle rank c =>
    obtain ⟨v, vs, hat, hnone, -⟩ := hmay
    have hset := h.set_back (refusalOf x) hat hnone
    simpa only [Journal.record, Journal.onVisit, hat.1, onVisit_newest hat.2] using hset
  | insertAttemptStarted row =>
    obtain ⟨v, c, hmay⟩ := hmay
    obtain ⟨vs, hat⟩ := hmay.newest
    cases x with
    | error e => exact h
    | ok =>
      obtain ⟨hfresh, hpos⟩ := dbAnswers_insert hdb
      have hinsert := h.insert_attempt hmay hat hfresh hpos
      simpa only [Journal.record, Journal.onVisit, hat.1, onVisit_newest hat.2] using hinsert
  | updateAttempt attemptId update =>
    obtain ⟨v, vs, a, as, hv, ha, hid, hnone⟩ := hmay
    cases x with
    | error e => exact h
    | ok => exact h.receive_update update hv ha hid hnone
  | persistenceTick =>
    cases x with
    | done => exact h
    | elapsed => exact ⟨h.ranked, h.candidates_le, h.visit, h.numbered, h.fits, h.bounded, h.retried,
        h.fellBack, h.distinct, h.updatedOnce⟩
  | _ => exact h

end Moira
