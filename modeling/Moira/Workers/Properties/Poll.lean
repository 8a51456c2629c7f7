import Moira.Workers.Queue

/-!
# What a poll does with its claims

A poll settles only jobs of the batch it claimed, and reschedules only those with attempts left.

- `Kept`, **`invariant_of_kept`** — an invariant of the table and the claims holds throughout every
  run
-/

namespace Moira.Workers

/-! ## The contract of a poll -/

/-- The jobs a poll holds after a settle write: a reply that is an error ends the poll. -/
def afterSettle (held : List ClaimedJob) (id : Uuid) : Reply Unit → List ClaimedJob
  | .ok () => held.filter fun job => job.id ≠ id
  | .failed | .lost () => []

/-- The ghost state is the list of jobs that are claimed and not settled yet. -/
def pollContract : Contract queueSig (List ClaimedJob) where
  may g o :=
    match o with
    | .claimBatch .. => g = []
    | .complete id | .deadLetter id _ => id ∈ g.map ClaimedJob.id
    | .reschedule id _ _ => id ∈ g.map ClaimedJob.id ∧
      ∀ job ∈ g, job.id = id → attemptsExhausted job.attempts job.maxAttempts = false
    | _ => True
  answers _ o x :=
    match o, x with
    | .claimBatch .., .ok jobs => (jobs.map ClaimedJob.id).Nodup
    | _, _ => True
  next g o x :=
    match o, x with
    | .claimBatch .., .ok jobs => jobs
    | .complete id, reply | .deadLetter id _, reply | .reschedule id _ _, reply =>
      afterSettle g id reply
    | .pruneTerminal _, _ => []
    | _, _ => g

section Poll

variable {settings : WorkerSettings} {job : ClaimedJob} {jobs : List ClaimedJob}

section

variable (hnodup : ((job :: jobs).map ClaimedJob.id).Nodup)
include hnodup

theorem filter_settled : (job :: jobs).filter (fun other => other.id ≠ job.id) = jobs := by
  rw [List.map_cons, List.nodup_cons] at hnodup
  rw [List.filter_cons_of_neg (by simp)]
  apply List.filter_eq_self.mpr
  intro other hother
  simp only [decide_eq_true_eq]
  intro heq
  exact hnodup.1 (heq ▸ List.mem_map_of_mem hother)

theorem wp_settled (reply : Reply Unit) (outcome : QueueTickOutcome) :
    (orSqlx reply >>= fun _ => pure outcome : Prog queueSig AppError QueueTickOutcome).wp
      pollContract (afterSettle (job :: jobs) job.id reply) (fun g _ => g = jobs)
      (fun g _ => g = []) := by
  cases reply with
  | ok a => exact filter_settled hnodup
  | failed => rfl
  | lost a => rfl

theorem wp_settleFailure (error : String) (outcome : QueueTickOutcome) :
    (settleFailure settings job error outcome).wp pollContract (job :: jobs) (fun g _ => g = jobs)
      (fun g _ => g = []) := by
  unfold settleFailure
  split
  · exact ⟨List.mem_cons_self, fun reply _ => wp_settled hnodup reply _⟩
  · rename_i hleft
    refine ⟨trivial, fun now _ => ⟨⟨List.mem_cons_self, ?_⟩, fun reply _ => wp_settled hnodup reply _⟩⟩
    -- the ids are distinct, so the job is the one whose attempts were checked
    intro other hother hid
    have heq : other = job :=
      List.inj_on_of_nodup_map hnodup hother List.mem_cons_self hid
    rw [heq]
    exact Bool.eq_false_iff.mpr hleft

theorem wp_runJob (budget : Nat) (outcome : QueueTickOutcome) :
    (runJob settings job budget outcome).wp pollContract (job :: jobs) (fun g _ => g = jobs)
      (fun g _ => g = []) := by
  unfold runJob
  refine ⟨trivial, fun ended _ => ?_⟩
  dsimp only [Prog.bind]
  split
  · exact ⟨List.mem_cons_self, fun reply _ => wp_settled hnodup reply _⟩
  · exact wp_settleFailure hnodup _ outcome

end

theorem wp_dispatchJobs (deadline : Nat) (jobs : List ClaimedJob)
    (hnodup : (jobs.map ClaimedJob.id).Nodup) (outcome : QueueTickOutcome) :
    (dispatchJobs settings deadline jobs outcome).wp pollContract jobs (fun _ _ => True)
      (fun g _ => g = []) := by
  induction jobs generalizing outcome with
  | nil => trivial
  | cons job jobs ih =>
    rw [dispatchJobs]
    refine ⟨trivial, fun stopping _ => ⟨trivial, fun now _ => ?_⟩⟩
    show Prog.wp _ (ite _ _ _) _ _ _
    split
    · trivial
    · refine Prog.wp_bind_mono (wp_runJob hnodup _ outcome) ?_
      rintro g outcome' rfl
      exact ih (List.nodup_cons.mp hnodup).2 outcome'

/-- The poll keeps the contract. -/
theorem wp_runOnceUntil (settings : WorkerSettings) (replicaId : Uuid) :
    (runOnceUntil settings replicaId).wp pollContract [] (fun g _ => g = []) (fun g _ => g = []) := by
  unfold runOnceUntil
  refine ⟨trivial, fun reply _ => ?_⟩
  show Prog.wp _ (orSqlx reply >>= _) [] _ _
  cases reply with
  | failed => rfl
  | lost a => rfl
  | ok reclaimed =>
    refine ⟨rfl, fun reply hreply => ?_⟩
    show Prog.wp _ (orSqlx reply >>= _) _ _ _
    cases reply with
    | failed => rfl
    | lost a => rfl
    | ok claimed =>
      refine ⟨trivial, fun start _ => ?_⟩
      show Prog.wp _ (dispatchJobs settings _ claimed _ >>= _) claimed _ _
      refine Prog.wp_bind_mono (wp_dispatchJobs _ claimed hreply _) ?_
      rintro g outcome -
      refine ⟨trivial, fun reply _ => ?_⟩
      show Prog.wp _ (orSqlx reply >>= _) [] _ _
      cases reply <;> rfl

end Poll

/-! ## The jobs in the hands of a replica -/

namespace QueueWorld

def heldJobs (w : QueueWorld) (n : Nat) : List ClaimedJob :=
  (w.held.filter fun h => h.replica = n).map Held.job

variable {w : QueueWorld} {n m : Nat}

theorem mem_heldJobs {job : ClaimedJob} :
    job ∈ w.heldJobs n ↔ ∃ h ∈ w.held, h.replica = n ∧ h.job = job := by
  simp [heldJobs, and_assoc]

theorem heldJobs_hold_self (claim : Nat) (jobs : List ClaimedJob) :
    (w.hold n claim jobs).heldJobs n = w.heldJobs n ++ jobs := by
  simp [heldJobs, hold, List.filter_map, Function.comp_def]

theorem heldJobs_hold_of_ne (hne : m ≠ n) (claim : Nat) (jobs : List ClaimedJob) :
    (w.hold n claim jobs).heldJobs m = w.heldJobs m := by
  simp [heldJobs, hold, List.filter_map, Function.comp_def, Ne.symm hne]

theorem heldJobs_release_self (id : Uuid) :
    (w.release n id).heldJobs n = (w.heldJobs n).filter fun job => job.id ≠ id := by
  simp only [heldJobs, release, List.filter_filter, List.filter_map]
  congr 1
  apply List.filter_congr
  intro h _
  by_cases hreplica : h.replica = n <;> simp [hreplica]

theorem heldJobs_release_of_ne (hne : m ≠ n) (id : Uuid) :
    (w.release n id).heldJobs m = w.heldJobs m := by
  simp only [heldJobs, release, List.filter_filter]
  congr 1
  apply List.filter_congr
  intro h _
  by_cases hreplica : h.replica = m <;> simp [hreplica, hne]

theorem heldJobs_leavePoll_self : (w.leavePoll n).heldJobs n = [] := by
  simp [heldJobs, leavePoll, List.filter_filter]

theorem heldJobs_leavePoll_of_ne (hne : m ≠ n) : (w.leavePoll n).heldJobs m = w.heldJobs m := by
  simp only [heldJobs, leavePoll, List.filter_filter]
  congr 1
  apply List.filter_congr
  intro h _
  by_cases hreplica : h.replica = m <;> simp [hreplica, hne]

end QueueWorld

section Grant

variable {n : Nat} {w w' : QueueWorld}

theorem heldJobs_grantSettle (id : Uuid) (table : JobTable) (reply : Reply Unit) :
    (grantSettle n w id table reply).heldJobs n = afterSettle (w.heldJobs n) id reply ∧
      ∀ m, m ≠ n → (grantSettle n w id table reply).heldJobs m = w.heldJobs m := by
  cases reply with
  | ok a =>
    exact ⟨QueueWorld.heldJobs_release_self id, fun m hm => QueueWorld.heldJobs_release_of_ne hm id⟩
  | failed =>
    exact ⟨QueueWorld.heldJobs_leavePoll_self, fun m hm => QueueWorld.heldJobs_leavePoll_of_ne hm⟩
  | lost a =>
    exact ⟨QueueWorld.heldJobs_leavePoll_self, fun m hm => QueueWorld.heldJobs_leavePoll_of_ne hm⟩

/-- **The record of the claims follows the poll.** -/
theorem heldJobs_grant {o : QueueOp} {x : queueSig.Ans o} (hmay : pollContract.may (w.heldJobs n) o)
    (h : grantReplica n w o x = some w') :
    pollContract.answers (w.heldJobs n) o x ∧
      w'.heldJobs n = pollContract.next (w.heldJobs n) o x ∧
      ∀ m, m ≠ n → w'.heldJobs m = w.heldJobs m := by
  cases o with
  | requeueStale staleSeconds =>
    cases x with
    | failed =>
      cases h
      exact ⟨trivial, rfl, fun _ _ => rfl⟩
    | ok a | lost a =>
      simp only [grantReplica] at h
      split at h
      · cases h
        exact ⟨trivial, rfl, fun _ _ => rfl⟩
      · cases h
  | claimBatch claimedBy limit =>
    cases x with
    | failed =>
      cases h
      exact ⟨trivial, rfl, fun _ _ => rfl⟩
    | ok jobs =>
      simp only [grantReplica] at h
      split at h
      · rename_i hclaimable
        cases h
        refine ⟨hclaimable.2.1, ?_, fun m hm => QueueWorld.heldJobs_hold_of_ne hm _ _⟩
        have hempty : w.heldJobs n = [] := hmay
        rw [QueueWorld.heldJobs_hold_self]
        show w.heldJobs n ++ jobs = jobs
        rw [hempty, List.nil_append]
      · cases h
    | lost jobs =>
      simp only [grantReplica] at h
      split at h
      · cases h
        exact ⟨trivial, rfl, fun _ _ => rfl⟩
      · cases h
  | complete id =>
    cases h
    exact ⟨trivial, heldJobs_grantSettle id _ x⟩
  | reschedule id runAt error =>
    cases h
    exact ⟨trivial, heldJobs_grantSettle id _ x⟩
  | deadLetter id error =>
    cases h
    exact ⟨trivial, heldJobs_grantSettle id _ x⟩
  | pruneTerminal retentionHours =>
    cases x with
    | failed =>
      cases h
      exact ⟨trivial, QueueWorld.heldJobs_leavePoll_self,
        fun m hm => QueueWorld.heldJobs_leavePoll_of_ne hm⟩
    | ok a | lost a =>
      simp only [grantReplica] at h
      split at h
      · cases h
        exact ⟨trivial, QueueWorld.heldJobs_leavePoll_self,
          fun m hm => QueueWorld.heldJobs_leavePoll_of_ne hm⟩
      · cases h
  | instant | stop | dispatch job budget | utcNow =>
    cases h
    exact ⟨trivial, rfl, fun _ _ => rfl⟩

theorem dead_grantReplica {o : QueueOp} {x : queueSig.Ans o} (h : grantReplica n w o x = some w') :
    w'.dead = w.dead := by
  cases o with
  | complete id | reschedule id runAt error | deadLetter id error =>
    cases h
    cases x <;> rfl
  | instant | stop | dispatch job budget | utcNow =>
    cases h
    rfl
  | requeueStale staleSeconds | claimBatch claimedBy limit | pruneTerminal retentionHours =>
    cases x with
    | failed =>
      cases h
      rfl
    | ok a | lost a =>
      simp only [grantReplica] at h
      split at h
      · cases h
        rfl
      · cases h

/-- The id of the row that an insert made. -/
def insertedId : Reply (Option Uuid) → Option Uuid
  | .ok inserted | .lost inserted => inserted
  | .failed => none

theorem grantInsert_cases {job : WorkerJobInsert} {room : Bool} {inserted : Option Uuid}
    (h : grantInsert w job room inserted = some w') :
    w' = w ∨ ∃ id, ∃ hfresh : id ∉ w.table.rows.map JobRow.id, inserted = some id ∧
      w' = { w with table := w.table.insert job w.now id hfresh } := by
  unfold grantInsert at h
  split at h
  · split at h
    · cases h
    · exact .inl (Option.some.inj h).symm
  · split at h
    · split at h
      · exact .inr ⟨_, _, rfl, (Option.some.inj h).symm⟩
      · cases h
    · cases h

theorem grantProducer_cases {o : ProducerOp} {reply : Reply (Option Uuid)}
    (h : grantProducer w o reply = some w') :
    w' = w ∨ ∃ job id, ∃ hfresh : id ∉ w.table.rows.map JobRow.id, insertedId reply = some id ∧
      w' = { w with table := w.table.insert job w.now id hfresh } := by
  cases reply with
  | failed => exact .inl (Option.some.inj h).symm
  | ok inserted | lost inserted =>
    cases o with
    | enqueue job maxPending | enqueueIfIdle job maxPending =>
      rcases grantInsert_cases h with hsame | hinsert
      · exact .inl hsame
      · exact .inr ⟨job, hinsert⟩

end Grant

/-! ## Invariants of every run -/

/-- What the steps of the system owe an invariant of the world, under a condition on the replicas.
-/
structure Kept (G : Nat → QueueWorld → QueueOp → Prop) (I : QueueWorld → Prop) : Prop where
  replica : ∀ {n w o x w'}, I w → G n w o → pollContract.may (w.heldJobs n) o →
    grantReplica n w o x = some w' → I w'
  insert : ∀ {w} job id hfresh, I w → I { w with table := w.table.insert job w.now id hfresh }
  tick : ∀ {w} now, I w → I { w with now }
  die : ∀ {w} n, I w → I { w.leavePoll n with dead := n :: w.dead }

section Runs

variable (settings : WorkerSettings) (replicaId : Nat → Uuid) (calls : Nat → EnqueueCall)
  (G : Nat → QueueWorld → QueueOp → Prop)

/-- A condition on the statements of the replicas. -/
def ReplicaGuard : (i : QueueParty) → QueueWorld →
    ((queueSystem settings replicaId calls).sig i).Op → Prop
  | .replica n, w, o => G n w o
  | .producer _, _, _ => True

abbrev PollGhost : QueueParty → Type
  | .replica _ => List ClaimedJob
  | .producer _ => Unit

def pollContracts : (i : QueueParty) →
    Contract ((queueSystem settings replicaId calls).sig i) (PollGhost i)
  | .replica _ => pollContract
  | .producer _ =>
    { may := fun _ _ => True
      answers := fun _ _ _ => True
      next := fun _ _ _ => () }

/-- Between two polls a replica holds nothing. -/
def pollPoints : (i : QueueParty) → (queueSystem settings replicaId calls).Point i → PollGhost i → Prop
  | .replica _ => fun _ g => g = []
  | .producer _ => fun _ _ => True

theorem wp_poll (id : Uuid) :
    Prog.wp (ε := Empty) pollContract
      ((runOnceUntil settings id).attempt >>= fun _ => pure (some ())) []
      (fun g r => ∀ l : Unit, r = some l → g = []) (fun _ _ => True) := by
  rw [Prog.wp_bind, Prog.wp_attempt]
  refine Prog.wp_mono (wp_runOnceUntil settings id) ?_ ?_
  · rintro g outcome rfl l' -
    rfl
  · rintro g error rfl l' -
    rfl

theorem wp_producer (call : EnqueueCall) :
    (call.code settings).wp (pollContracts settings replicaId calls (.producer 0)) ()
      (fun _ r => ∀ l, r = some l → True) (fun _ _ => True) := by
  have hany : ∀ {α : Type} (p : Prog producerSig Empty α),
      p.wp (pollContracts settings replicaId calls (.producer 0)) () (fun _ _ => True)
        (fun _ _ => True) := by
    intro α p
    induction p with
    | ret a => trivial
    | fail e => trivial
    | op o k ih => exact ⟨trivial, fun x _ => ih x⟩
  exact Prog.wp_mono (hany _) (fun _ _ _ _ _ => trivial) (fun _ _ h => h)

def keptOutline {G : Nat → QueueWorld → QueueOp → Prop} {I : QueueWorld → Prop} (hkept : Kept G I) :
    System.Outline (queueSystem settings replicaId calls) where
  Ghost := PollGhost
  contract := pollContracts settings replicaId calls
  at_ := pollPoints settings replicaId calls
  shared w γ := I w ∧ ∀ n, n ∉ w.dead → γ (.replica n) = w.heldJobs n
  guard := ReplicaGuard settings replicaId calls G
  code_ok i l g h := by
    cases i with
    | replica n =>
      obtain rfl : g = [] := h
      exact wp_poll settings (replicaId n)
    | producer n => exact wp_producer settings replicaId calls (calls n)
  act_ok i w o x w' γ hshared hguard hmay hgrant := by
    obtain ⟨hI, hheld⟩ := hshared
    cases i with
    | replica n =>
      have hgrant' : (if n ∈ w.dead then none else grantReplica n w o x) = some w' := hgrant
      split at hgrant'
      · cases hgrant'
      rename_i halive
      have hmay' : pollContract.may (w.heldJobs n) o := by
        rw [← hheld n halive]
        exact hmay
      obtain ⟨hanswers, hself, hothers⟩ := heldJobs_grant hmay' hgrant'
      refine ⟨?_, hkept.replica hI hguard hmay' hgrant', fun m hm => ?_⟩
      · show pollContract.answers (γ (.replica n)) o x
        rw [hheld n halive]
        exact hanswers
      · rw [dead_grantReplica hgrant'] at hm
        by_cases heq : m = n
        · subst heq
          rw [Function.update_self, hself, ← hheld m hm]
          rfl
        · rw [Function.update_of_ne (by simpa using heq), hothers m heq]
          exact hheld m hm
    | producer n =>
      have hgrant' : grantProducer w o x = some w' := hgrant
      refine ⟨trivial, ?_⟩
      have hγ : ∀ m, Function.update γ (.producer n)
          ((pollContracts settings replicaId calls (.producer n)).next (γ (.producer n)) o x)
          (.replica m) = γ (.replica m) := fun m => Function.update_of_ne (by simp) ..
      rcases grantProducer_cases hgrant' with rfl | ⟨job, id, hfresh, -, rfl⟩
      · exact ⟨hI, fun m hm => (hγ m).trans (hheld m hm)⟩
      · exact ⟨hkept.insert job id hfresh hI, fun m hm => (hγ m).trans (hheld m hm)⟩
  nature_ok w e w' γ hshared h := by
    obtain ⟨hI, hheld⟩ := hshared
    cases e with
    | tick elapsed =>
      obtain rfl := Option.some.inj h
      exact ⟨hkept.tick _ hI, hheld⟩
    | die n =>
      obtain rfl := Option.some.inj h
      refine ⟨hkept.die n hI, fun m hm => ?_⟩
      -- nothing is owed to a replica that is dead
      obtain ⟨hne, halive⟩ : m ≠ n ∧ m ∉ w.dead := by simpa using hm
      exact (hheld m halive).trans (QueueWorld.heldJobs_leavePoll_of_ne hne).symm

/--
**The invariant rule of the queue**: what the statements keep holds throughout every run that meets
the condition, and every statement of a replica that is alive keeps the contract of a poll.
-/
theorem invariant_of_kept {G : Nat → QueueWorld → QueueOp → Prop} {I : QueueWorld → Prop}
    (hkept : Kept G I) (hI : I {}) {moves : List (queueSystem settings replicaId calls).Move}
    {t : (queueSystem settings replicaId calls).State}
    (hmeets : Transition.Meets (queueSystem settings replicaId calls).step
      (System.Guarded (ReplicaGuard settings replicaId calls G))
      (queueInitial settings replicaId calls) moves)
    (hrun : Transition.runFrom (queueSystem settings replicaId calls).step
      (queueInitial settings replicaId calls) moves = some t) :
    I t.world ∧ ∀ n (o : QueueOp) k, t.proc (.replica n) = .op o k → n ∉ QueueWorld.dead t.world →
      pollContract.may (QueueWorld.heldJobs t.world n) o := by
  have hinitial : (keptOutline settings replicaId calls hkept).Holds
      (queueInitial settings replicaId calls) := by
    refine ⟨fun | .replica _ => ([] : List ClaimedJob) | .producer _ => (), ⟨hI, fun _ _ => rfl⟩,
      fun i => ?_⟩
    cases i with
    | replica n =>
      rintro l ⟨⟩
      rfl
    | producer n =>
      rintro l ⟨⟩
      trivial
  obtain ⟨γ, ⟨hI', hheld⟩, hproc⟩ :=
    (keptOutline settings replicaId calls hkept).guarded hinitial hmeets hrun
  refine ⟨hI', fun n o k hop halive => ?_⟩
  have hpre := hproc (.replica n)
  rw [hop] at hpre
  have hmay : pollContract.may (γ (.replica n)) o := hpre.1
  rwa [hheld n halive] at hmay

end Runs

end Moira.Workers
