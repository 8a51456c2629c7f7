import Moira.Workers.Properties.Poll

/-!
# The turns of a poll

A poll takes the jobs of its batch one after another: it calls the handler of a job, settles it, and
only then goes on to the next.
-/

namespace Moira.Workers

/-- Where a poll stands in its batch: the job whose handler was called, and those after it. -/
structure Turn where
  current : Option ClaimedJob := none
  rest : List ClaimedJob := []

/-- The jobs in hand. -/
def Turn.jobs (g : Turn) : List ClaimedJob :=
  g.current.toList ++ g.rest

/-- After a settle write: a reply that is an error ends the poll. -/
def Turn.settled (g : Turn) : Reply Unit → Turn
  | .ok () => { rest := g.rest }
  | .failed | .lost () => {}

/-- A job is settled only after its handler was called, and dead-lettered only when it is spent. -/
def turnContract : Contract queueSig Turn where
  may g o :=
    match o with
    | .claimBatch .. => g = {}
    | .dispatch job _ => ∃ jobs, g = { rest := job :: jobs }
    | .complete id => ∃ job, g.current = some job ∧ job.id = id
    | .reschedule id _ _ => ∃ job, g.current = some job ∧ job.id = id ∧
      attemptsExhausted job.attempts job.maxAttempts = false
    | .deadLetter id _ => ∃ job, g.current = some job ∧ job.id = id ∧
      attemptsExhausted job.attempts job.maxAttempts = true
    | _ => True
  answers _ _ _ := True
  next g o x :=
    match o, x with
    | .claimBatch .., .ok jobs => { rest := jobs }
    | .dispatch job _, _ => { current := some job, rest := g.rest.tail }
    | .complete _, reply | .deadLetter _ _, reply | .reschedule _ _ _, reply => g.settled reply
    | .pruneTerminal _, _ => {}
    | _, _ => g

section Poll

variable {settings : WorkerSettings} {job : ClaimedJob} {jobs : List ClaimedJob}

theorem wp_settled_turn (reply : Reply Unit) (outcome : QueueTickOutcome) :
    (orSqlx reply >>= fun _ => pure outcome : Prog queueSig AppError QueueTickOutcome).wp
      turnContract (Turn.settled ⟨some job, jobs⟩ reply) (fun g _ => g = { rest := jobs })
      (fun g _ => g = {}) := by
  cases reply <;> rfl

theorem wp_settleFailure_turn (error : String) (outcome : QueueTickOutcome) :
    (settleFailure settings job error outcome).wp turnContract ⟨some job, jobs⟩
      (fun g _ => g = { rest := jobs }) (fun g _ => g = {}) := by
  unfold settleFailure
  split
  · rename_i hspent
    exact ⟨⟨job, rfl, rfl, hspent⟩, fun reply _ => wp_settled_turn reply _⟩
  · rename_i hleft
    exact ⟨trivial, fun now _ => ⟨⟨job, rfl, rfl, Bool.eq_false_iff.mpr hleft⟩,
      fun reply _ => wp_settled_turn reply _⟩⟩

theorem wp_runJob_turn (budget : Nat) (outcome : QueueTickOutcome) :
    (runJob settings job budget outcome).wp turnContract { rest := job :: jobs }
      (fun g _ => g = { rest := jobs }) (fun g _ => g = {}) := by
  unfold runJob
  refine ⟨⟨jobs, rfl⟩, fun ended _ => ?_⟩
  dsimp only [Prog.bind]
  split
  · exact ⟨⟨job, rfl, rfl⟩, fun reply _ => wp_settled_turn reply _⟩
  · exact wp_settleFailure_turn _ outcome

theorem wp_dispatchJobs_turn (deadline : Nat) (jobs : List ClaimedJob) (outcome : QueueTickOutcome) :
    (dispatchJobs settings deadline jobs outcome).wp turnContract { rest := jobs } (fun _ _ => True)
      (fun g _ => g = {}) := by
  induction jobs generalizing outcome with
  | nil => trivial
  | cons job jobs ih =>
    rw [dispatchJobs]
    refine ⟨trivial, fun stopping _ => ⟨trivial, fun now _ => ?_⟩⟩
    show Prog.wp _ (ite _ _ _) _ _ _
    split
    · trivial
    · refine Prog.wp_bind_mono (wp_runJob_turn _ outcome) ?_
      rintro g outcome' rfl
      exact ih outcome'

/-- The poll keeps the contract. -/
theorem wp_runOnceUntil_turn (settings : WorkerSettings) (replicaId : Uuid) :
    (runOnceUntil settings replicaId).wp turnContract {} (fun g _ => g = {}) (fun g _ => g = {}) := by
  unfold runOnceUntil
  refine ⟨trivial, fun reply _ => ?_⟩
  show Prog.wp turnContract (orSqlx reply >>= _) {} _ _
  cases reply with
  | failed => rfl
  | lost a => rfl
  | ok reclaimed =>
    refine ⟨rfl, fun reply _ => ?_⟩
    show Prog.wp _ (orSqlx reply >>= _) _ _ _
    cases reply with
    | failed => rfl
    | lost a => rfl
    | ok claimed =>
      refine ⟨trivial, fun start _ => ?_⟩
      show Prog.wp turnContract (dispatchJobs settings _ claimed _ >>= _) { rest := claimed } _ _
      refine Prog.wp_bind_mono (wp_dispatchJobs_turn _ claimed _) ?_
      rintro g outcome -
      refine ⟨trivial, fun reply _ => ?_⟩
      show Prog.wp turnContract (orSqlx reply >>= _) {} _ _
      cases reply <;> rfl

end Poll

variable {g : Turn} {o : QueueOp}

section

variable (hnodup : (g.jobs.map ClaimedJob.id).Nodup)
include hnodup

/-- A turn asks nothing that `pollContract` does not let it. -/
theorem may_of_turn (h : turnContract.may g o) : pollContract.may g.jobs o := by
  have hmem : ∀ {job : ClaimedJob}, g.current = some job → job ∈ g.jobs := by
    intro job hcurrent
    simp [Turn.jobs, hcurrent]
  cases o with
  | claimBatch claimedBy limit =>
    obtain rfl : g = {} := h
    rfl
  | complete id =>
    obtain ⟨job, hcurrent, rfl⟩ := h
    exact List.mem_map_of_mem (hmem hcurrent)
  | deadLetter id error =>
    obtain ⟨job, hcurrent, rfl, -⟩ := h
    exact List.mem_map_of_mem (hmem hcurrent)
  | reschedule id runAt error =>
    obtain ⟨job, hcurrent, rfl, hleft⟩ := h
    refine ⟨List.mem_map_of_mem (hmem hcurrent), fun other hother hid => ?_⟩
    rw [List.inj_on_of_nodup_map hnodup hother (hmem hcurrent) hid]
    exact hleft
  | requeueStale | instant | stop | dispatch | utcNow | pruneTerminal => trivial

theorem jobs_settled {job : ClaimedJob} (hcurrent : g.current = some job) (reply : Reply Unit) :
    (g.settled reply).jobs = afterSettle g.jobs job.id reply := by
  obtain ⟨current, rest⟩ := g
  obtain rfl : current = some job := hcurrent
  cases reply with
  | ok a => exact (filter_settled hnodup).symm
  | failed => rfl
  | lost a => rfl

/-- A turn has the jobs in hand that `pollContract` says. -/
theorem jobs_next {x : queueSig.Ans o} (h : turnContract.may g o) :
    (turnContract.next g o x).jobs = pollContract.next g.jobs o x := by
  cases o with
  | claimBatch claimedBy limit => cases x <;> rfl
  | dispatch job budget =>
    obtain ⟨jobs, rfl⟩ := h
    rfl
  | complete id =>
    obtain ⟨job, hcurrent, rfl⟩ := h
    exact jobs_settled hnodup hcurrent x
  | deadLetter id error | reschedule id runAt error =>
    obtain ⟨job, hcurrent, rfl, -⟩ := h
    exact jobs_settled hnodup hcurrent x
  | requeueStale | instant | stop | utcNow | pruneTerminal => rfl

theorem nodup_next {x : queueSig.Ans o} (h : turnContract.may g o)
    (hanswers : pollContract.answers g.jobs o x) :
    ((turnContract.next g o x).jobs.map ClaimedJob.id).Nodup := by
  have hsettled : ∀ id reply, ((afterSettle g.jobs id reply).map ClaimedJob.id).Nodup := by
    intro id reply
    cases reply with
    | ok a => exact hnodup.sublist (List.filter_sublist.map _)
    | failed => exact List.nodup_nil
    | lost a => exact List.nodup_nil
  rw [jobs_next hnodup h]
  cases o with
  | claimBatch claimedBy limit =>
    cases x with
    | ok jobs => exact hanswers
    | failed => exact hnodup
    | lost jobs => exact hnodup
  | complete id | deadLetter id error | reschedule id runAt error => exact hsettled _ x
  | pruneTerminal retentionHours => exact List.nodup_nil
  | requeueStale | instant | stop | dispatch | utcNow => exact hnodup

end

end Moira.Workers
