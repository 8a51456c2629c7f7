import Moira.Workers.Properties.Poll

/-!
# Who settles a claim

A settle write asks for `status = 'running'` and not for its own claim. Where a job is claimed again
while an earlier claimer is still at work on it, the earlier one's late write settles the later
claim.

- `JobTable.Quiet` — a statement that claims nothing
-/

namespace Moira.Workers

open Transition (runFrom)

/-! ## Statements that claim nothing -/

/-- A row goes on: the same job with the same attempts, and not started by the way. -/
structure JobRow.Continues (old new : JobRow) : Prop where
  id_eq : new.id = old.id
  attempts_eq : new.attempts = old.attempts
  maxAttempts_eq : new.maxAttempts = old.maxAttempts
  running : new.status = .running → old.status = .running

theorem JobRow.Continues.refl (row : JobRow) : row.Continues row :=
  ⟨rfl, rfl, rfl, fun h => h⟩

variable {row : JobRow} {id : Uuid}

variable {table : JobTable}

namespace JobTable

/-- Every row continues one that was there. -/
def Quiet (before after : JobTable) : Prop :=
  ∀ new ∈ after.rows, ∃ old ∈ before.rows, old.Continues new

theorem Quiet.refl (table : JobTable) : table.Quiet table :=
  fun row hrow => ⟨row, hrow, .refl row⟩

variable {f : JobRow → JobRow}

variable {hid : ∀ row, (f row).id = row.id}

theorem mem_update : row ∈ (table.update f hid).rows ↔ ∃ old ∈ table.rows, f old = row :=
  List.mem_map

theorem quiet_update (hid : ∀ row, (f row).id = row.id)
    (hf : ∀ row : JobRow, row.Continues (f row)) : table.Quiet (table.update f hid) := by
  intro new hnew
  obtain ⟨old, hold, rfl⟩ := mem_update.mp hnew
  exact ⟨old, hold, hf old⟩

theorem quiet_settle (hf : ∀ row : JobRow, row.Continues (f row)) :
    table.Quiet (table.settle id f hid) := by
  apply quiet_update
  intro row
  split
  · exact hf row
  · exact .refl row

theorem quiet_complete (now : Int) (id : Uuid) : table.Quiet (table.complete now id) :=
  quiet_settle fun _ => ⟨rfl, rfl, rfl, nofun⟩

theorem quiet_reschedule (id : Uuid) (runAt : Int) (error : String) :
    table.Quiet (table.reschedule id runAt error) :=
  quiet_settle fun _ => ⟨rfl, rfl, rfl, nofun⟩

theorem quiet_deadLetter (now : Int) (id : Uuid) (error : String) :
    table.Quiet (table.deadLetter now id error) :=
  quiet_settle fun _ => ⟨rfl, rfl, rfl, nofun⟩

theorem quiet_requeueStale (now : Int) (staleSeconds : Nat) :
    table.Quiet (table.requeueStale now staleSeconds) := by
  apply quiet_update
  intro row
  split
  · exact ⟨rfl, rfl, rfl, nofun⟩
  · exact .refl row

theorem quiet_pruneTerminal (now : Int) (retentionHours : Nat) :
    table.Quiet (table.pruneTerminal now retentionHours) :=
  fun row hrow => ⟨row, (List.mem_filter.mp hrow).1, .refl row⟩

theorem settle_eq_self (h : ∀ row ∈ table.rows, row.id = id → row.status ≠ .running) :
    (table.settle id f hid).rows = table.rows := by
  show table.rows.map _ = table.rows
  apply (List.map_congr_left fun row hrow => ?_).trans (List.map_id _)
  rw [if_neg, id_eq]
  intro hmatch
  obtain ⟨hid, hrunning⟩ := of_decide_eq_true hmatch
  exact h row hrow hid hrunning

end JobTable

/-- What a statement other than `claim_batch` leaves: a quiet table, fewer jobs in hand. -/
structure QueueWorld.Quiet (w w' : QueueWorld) : Prop where
  table : w.table.Quiet w'.table
  held : ∀ h ∈ w'.held, h ∈ w.held
  claims : w'.claims = w.claims
  batches : w'.batches = w.batches

variable {n : Nat}

variable {w : QueueWorld}

theorem quiet_grantSettle (h : w.table.Quiet table) (reply : Reply Unit) :
    w.Quiet (grantSettle n w id table reply) := by
  cases reply with
  | ok a => exact ⟨h, fun _ hheld => (List.mem_filter.mp hheld).1, rfl, rfl⟩
  | lost a => exact ⟨h, fun _ hheld => (List.mem_filter.mp hheld).1, rfl, rfl⟩
  | failed => exact ⟨.refl _, fun _ hheld => (List.mem_filter.mp hheld).1, rfl, rfl⟩

variable {o : QueueOp}

variable {w' : QueueWorld}

/-- **A step of a replica**: it claims the jobs of a batch, or it is quiet. -/
theorem grantReplica_cases {x : queueSig.Ans o} (h : grantReplica n w o x = some w') :
    (∃ claimedBy limit jobs, o = .claimBatch claimedBy limit ∧
      w.table.Claimable w.now claimedBy limit jobs ∧
      (w' = (w.claimed claimedBy jobs).hold n w.batches jobs ∨ w' = w.claimed claimedBy jobs)) ∨
    w.Quiet w' := by
  have hsame : w.Quiet w := ⟨.refl _, fun _ hheld => hheld, rfl, rfl⟩
  cases o with
  | claimBatch claimedBy limit =>
    cases x with
    | failed =>
      cases h
      exact .inr hsame
    | ok jobs | lost jobs =>
      simp only [grantReplica] at h
      split at h
      · rename_i hclaimable
        cases h
        exact .inl ⟨claimedBy, limit, jobs, rfl, hclaimable, by simp⟩
      · cases h
  | requeueStale staleSeconds =>
    cases x with
    | failed =>
      cases h
      exact .inr hsame
    | ok a | lost a =>
      simp only [grantReplica] at h
      split at h
      · cases h
        exact .inr ⟨JobTable.quiet_requeueStale _ _, fun _ hheld => hheld, rfl, rfl⟩
      · cases h
  | pruneTerminal retentionHours =>
    cases x with
    | failed =>
      cases h
      exact .inr ⟨.refl _, fun _ hheld => (List.mem_filter.mp hheld).1, rfl, rfl⟩
    | ok a | lost a =>
      simp only [grantReplica] at h
      split at h
      · cases h
        exact .inr ⟨JobTable.quiet_pruneTerminal _ _, fun _ hheld => (List.mem_filter.mp hheld).1,
          rfl, rfl⟩
      · cases h
  | complete id =>
    cases h
    exact .inr (quiet_grantSettle (JobTable.quiet_complete _ _) x)
  | reschedule id runAt error =>
    cases h
    exact .inr (quiet_grantSettle (JobTable.quiet_reschedule _ _ _) x)
  | deadLetter id error =>
    cases h
    exact .inr (quiet_grantSettle (JobTable.quiet_deadLetter _ _ _) x)
  | instant | stop | dispatch job budget | utcNow =>
    cases h
    exact .inr hsame

/-! ## The invariant -/

/-- A running job in the hands of a replica runs under that replica's claim. -/
def OwnClaims (w : QueueWorld) : Prop :=
  ∀ h ∈ w.held, ∀ row ∈ w.table.rows, row.id = h.job.id → row.status = .running →
    w.currentClaim h.job.id = some h.claim

/-- The condition on a step: no due job is one that a replica still has in hand. -/
def ClaimsNothingHeld (_ : Nat) (w : QueueWorld) : QueueOp → Prop
  | .claimBatch .. => ∀ h ∈ w.held, ∀ row ∈ w.table.rows, row.id = h.job.id → row.due w.now = false
  | _ => True

instance (n : Nat) (w : QueueWorld) (o : QueueOp) : Decidable (ClaimsNothingHeld n w o) := by
  cases o <;> unfold ClaimsNothingHeld <;> infer_instance

section

theorem ownClaims_quiet (h : OwnClaims w) (hquiet : w.Quiet w') : OwnClaims w' := by
  intro held hheld row hrow hid hrunning
  obtain ⟨old, hold, hcontinues⟩ := hquiet.table row hrow
  rw [QueueWorld.currentClaim, hquiet.claims]
  exact h held (hquiet.held held hheld) old hold (hcontinues.id_eq.symm.trans hid)
    (hcontinues.running hrunning)

variable {jobs : List ClaimedJob}

theorem lookup_claimed (claimedBy : Uuid) :
    (w.claimed claimedBy jobs).currentClaim id =
      if id ∈ jobs.map ClaimedJob.id then some w.batches else w.currentClaim id := by
  show (jobs.map (fun job => (job.id, w.batches)) ++ w.claims).lookup id = _
  induction jobs with
  | nil => rfl
  | cons job jobs ih =>
    rw [List.map_cons, List.cons_append, List.lookup_cons, List.map_cons]
    by_cases hid : id = job.id
    · simp [hid]
    · have hne : (id == job.id) = false := by simpa using hid
      simp only [hne, ih, List.mem_cons, hid, false_or]

variable {claimedBy : Uuid}

theorem mem_claimBatch {now : Int} (h : row ∈ (table.claimBatch now claimedBy jobs).rows) :
    ∃ old ∈ table.rows, row.id = old.id ∧
      ((old.id ∈ jobs.map ClaimedJob.id ∧ row = old.claim claimedBy now) ∨
        (old.id ∉ jobs.map ClaimedJob.id ∧ row = old)) := by
  obtain ⟨old, hold, rfl⟩ := JobTable.mem_update.mp h
  refine ⟨old, hold, ?_⟩
  by_cases hclaimed : old.id ∈ jobs.map ClaimedJob.id
  · rw [if_pos hclaimed]
    exact ⟨rfl, .inl ⟨hclaimed, rfl⟩⟩
  · rw [if_neg hclaimed]
    exact ⟨rfl, .inr ⟨hclaimed, rfl⟩⟩

theorem due_of_claimable {now : Int} {limit : Nat} (h : table.Claimable now claimedBy limit jobs)
    (hrow : row ∈ table.rows) (hid : row.id ∈ jobs.map ClaimedJob.id) : row.due now := by
  obtain ⟨job, hjob, heq⟩ := List.mem_map.mp hid
  obtain ⟨old, hold, hdue, rfl⟩ := h.2.2 job hjob
  rwa [List.inj_on_of_nodup_map table.id_unique hrow hold heq.symm]

theorem ownClaims_claimed (h : OwnClaims w) {limit : Nat}
    (hclaimable : w.table.Claimable w.now claimedBy limit jobs)
    (hguard : ∀ h ∈ w.held, ∀ row ∈ w.table.rows, row.id = h.job.id → row.due w.now = false) :
    OwnClaims (w.claimed claimedBy jobs) := by
  intro held hheld row hrow hid hrunning
  rw [lookup_claimed]
  obtain ⟨old, hold, hidold, hcases⟩ := mem_claimBatch hrow
  rcases hcases with ⟨hclaimed, -⟩ | ⟨hclaimed, rfl⟩
  · -- the job was due, so nobody had it in hand
    have hdue := due_of_claimable hclaimable hold hclaimed
    rw [hguard held hheld old hold (hidold.symm.trans hid)] at hdue
    cases hdue
  · rw [if_neg (hid ▸ hclaimed)]
    exact h held hheld row hold hid hrunning

theorem kept_ownClaims : Kept ClaimsNothingHeld OwnClaims where
  replica {n w o x w'} h hguard _ hgrant := by
    rcases grantReplica_cases hgrant with ⟨claimedBy, limit, jobs, rfl, hclaimable, hw'⟩ | hquiet
    · have hclaimed := ownClaims_claimed h hclaimable hguard
      rcases hw' with rfl | rfl
      · intro held hheld row hrow hid hrunning
        rcases List.mem_append.mp hheld with hheld | hheld
        · exact hclaimed held hheld row hrow hid hrunning
        · -- the new claim is the current one
          obtain ⟨job, hjob, rfl⟩ := List.mem_map.mp hheld
          show (w.claimed claimedBy jobs).currentClaim job.id = _
          rw [lookup_claimed, if_pos (List.mem_map_of_mem hjob)]
      · exact hclaimed
    · exact ownClaims_quiet h hquiet
  insert {w} job id hfresh h := by
    intro held hheld row hrow hid hrunning
    rcases List.mem_append.mp hrow with hrow | hrow
    · exact h held hheld row hrow hid hrunning
    · rw [List.mem_singleton] at hrow
      rw [hrow] at hrunning
      cases hrunning
  tick now h := h
  die n h := fun held hheld => h held (List.mem_filter.mp hheld).1

end

/-! ## Settle writes -/

theorem table_grantSettle (n : Nat) (w : QueueWorld) (id : Uuid) (table : JobTable)
    (reply : Reply Unit) :
    (grantSettle n w id table reply).table = table ∨
      (grantSettle n w id table reply).table = w.table := by
  cases reply with
  | ok a => exact .inl rfl
  | lost a => exact .inl rfl
  | failed => exact .inr rfl

theorem rows_of_settles {x : queueSig.Ans o} (h : grantReplica n w o x = some w')
    (hsettles : o.settles = some id)
    (hidle : ∀ row ∈ w.table.rows, row.id = id → row.status ≠ .running) :
    w'.table.rows = w.table.rows := by
  cases o with
  | complete id' | reschedule id' runAt error | deadLetter id' error =>
    cases hsettles
    cases h
    rcases table_grantSettle n w _ _ x with heq | heq
    · rw [heq]
      exact JobTable.settle_eq_self hidle
    · rw [heq]
  | requeueStale | claimBatch | instant | stop | dispatch | utcNow | pruneTerminal => cases hsettles

theorem heldClaim_of_may (hsettles : o.settles = some id)
    (hmay : pollContract.may (w.heldJobs n) o) :
    ∃ h ∈ w.held, h.replica = n ∧ h.job.id = id ∧ w.heldClaim n id = some h.claim := by
  have hmem : id ∈ (w.heldJobs n).map ClaimedJob.id := by
    cases o with
    | complete id' | deadLetter id' error =>
      cases hsettles
      exact hmay
    | reschedule id' runAt error =>
      cases hsettles
      exact hmay.1
    | requeueStale | claimBatch | instant | stop | dispatch | utcNow | pruneTerminal =>
      cases hsettles
  obtain ⟨job, hjob, hid⟩ := List.mem_map.mp hmem
  obtain ⟨held, hheld, hreplica, hheldJob⟩ := QueueWorld.mem_heldJobs.mp hjob
  have hsome : (w.held.find? fun h => h.replica = n ∧ h.job.id = id).isSome := by
    rw [List.find?_isSome]
    exact ⟨held, hheld, by simp [hreplica, hheldJob, hid]⟩
  obtain ⟨found, hfound⟩ := Option.isSome_iff_exists.mp hsome
  have hmatch : found.replica = n ∧ found.job.id = id := by simpa using List.find?_some hfound
  refine ⟨found, List.mem_of_find?_eq_some hfound, hmatch.1, hmatch.2, ?_⟩
  rw [QueueWorld.heldClaim, hfound, Option.map_some]

section Main

variable (settings : WorkerSettings) (replicaId : Nat → Uuid) (calls : Nat → EnqueueCall)

/--
**A settle write changes the row only under its own claim**, in every run in which no job is claimed
while another replica still has it in hand.
-/
theorem settles_own_claim {moves : List (queueSystem settings replicaId calls).Move}
    {s s' : (queueSystem settings replicaId calls).State}
    (hmeets : Transition.Meets (queueSystem settings replicaId calls).step
      (System.Guarded (ReplicaGuard settings replicaId calls ClaimsNothingHeld))
      (queueInitial settings replicaId calls) moves)
    (hrun : runFrom (queueSystem settings replicaId calls).step
      (queueInitial settings replicaId calls) moves = some s)
    {n : Nat} {o : QueueOp} {k} (hproc : s.proc (.replica n) = .op o k) {id : Uuid}
    (hsettles : o.settles = some id) {answer}
    (hstep : (queueSystem settings replicaId calls).step s (.act (.replica n) answer) = some s') :
    (QueueWorld.table s'.world).rows = (QueueWorld.table s.world).rows ∨
      ∃ claim, QueueWorld.heldClaim s.world n id = some claim ∧
        QueueWorld.currentClaim s.world id = some claim := by
  obtain ⟨hown, hmay⟩ := invariant_of_kept settings replicaId calls kept_ownClaims nofun hmeets hrun
  -- the step is the write of a replica that is alive
  simp only [System.step, hproc] at hstep
  obtain ⟨w, hgrant, rfl⟩ := Option.map_eq_some_iff.mp hstep
  have hgrant' : (if n ∈ QueueWorld.dead s.world then none else grantReplica n s.world o (answer o)) =
      some w := hgrant
  split at hgrant'
  · cases hgrant'
  rename_i halive
  obtain ⟨h, hheld, -, hid, hclaim⟩ := heldClaim_of_may hsettles (hmay n o k hproc halive)
  by_cases hrunning : ∃ row ∈ (QueueWorld.table s.world).rows, row.id = id ∧ row.status = .running
  · obtain ⟨row, hrow, hrowId, hstatus⟩ := hrunning
    refine .inr ⟨h.claim, hclaim, ?_⟩
    rw [← hid]
    exact hown h hheld row hrow (hrowId.trans hid.symm) hstatus
  · refine .inl (rows_of_settles hgrant' hsettles fun row hrow hrowId hstatus => ?_)
    exact hrunning ⟨row, hrow, hrowId, hstatus⟩

end Main

namespace Sample

abbrev queue : System QueueParty :=
  queueSystem {} (fun n => n) fun _ => .enqueue "embedding-retry" .null none

abbrev queueStart : queue.State :=
  queueInitial {} (fun n => n) fun _ => .enqueue "embedding-retry" .null none

/-- The answers of a database that works: every due job is claimed, and a handler ends as told. -/
def workingAnswers (w : QueueWorld) (result : Except String Unit) (stopping : Bool) :
    (o : QueueOp) → queueSig.Ans o
  | .requeueStale staleSeconds => .ok (w.table.requeueStaleCount w.now staleSeconds)
  | .claimBatch claimedBy limit =>
    .ok (((w.table.rows.filter (JobRow.due w.now)).take limit).map fun row =>
      (row.claim claimedBy w.now).claimedJob)
  | .instant => (0 : Nat)
  | .stop => stopping
  | .dispatch .. => .finished result
  | .complete _ | .reschedule .. | .deadLetter .. => .ok ()
  | .utcNow => w.now
  | .pruneTerminal retentionHours => .ok (w.table.pruneTerminalCount w.now retentionHours)

/-- A move of a replica, a new job, time, or a death. -/
inductive QueueCue
  | poll (n : Nat)
  | statement (n : Nat)
  | jobFails (n : Nat)
  | stopSignal (n : Nat)
  | producer (n : Nat)
  | insert (n : Nat) (id : Uuid)
  | wait (secs : Nat)
  | die (n : Nat)

def queueMove (s : queue.State) : QueueCue → queue.Move
  | .poll n => .jump (.replica n)
  | .statement n => .act (.replica n) (workingAnswers s.world (.ok ()) false)
  | .jobFails n => .act (.replica n) (workingAnswers s.world (.error "upstream refused") false)
  | .stopSignal n => .act (.replica n) (workingAnswers s.world (.ok ()) true)
  | .producer n => .jump (.producer n)
  | .insert n id => .act (.producer n) fun _ => .ok (some id)
  | .wait secs => .nature (.tick (secs * 1000000))
  | .die n => .nature (.die n)

def performQueue : List QueueCue → queue.State → List queue.Move
  | [], _ => []
  | cue :: rest, s =>
    queueMove s cue :: ((queue.step s (queueMove s cue)).map (performQueue rest)).getD []

/-- The job that the next statement of a replica settles. -/
def settling (s : queue.State) (n : Nat) : Option Uuid :=
  match s.proc (.replica n) with
  | .op o _ => QueueOp.settles o
  | _ => none

theorem proc_of_settling {s : queue.State} (h : settling s n = some id) :
    ∃ (o : QueueOp) (k : _), s.proc (.replica n) = .op o k ∧ o.settles = some id := by
  unfold settling at h
  split at h
  · rename_i o k hproc
    exact ⟨o, k, hproc, h⟩
  · cases h

/-- The first replica dies with the job in hand; the second claims it and is about to complete it.
-/
def takenOverCues : List QueueCue :=
  [.producer 0, .insert 0 7, .poll 0, .statement 0, .statement 0, .die 0, .wait 301, .poll 1,
    .statement 1, .statement 1, .statement 1, .statement 1, .statement 1, .statement 1]

def takenOver : List queue.Move := performQueue takenOverCues queueStart

/-- The first replica is only slow: it is about to complete the job when the second claims it. -/
def overtakenCues : List QueueCue :=
  [.producer 0, .insert 0 7, .poll 0, .statement 0, .statement 0, .statement 0, .statement 0,
    .statement 0, .statement 0, .wait 301, .poll 1, .statement 1, .statement 1]

def overtaken : List queue.Move := performQueue overtakenCues queueStart

/-- The status and the claimer of every job. -/
def statuses (s : queue.State) : List (JobStatus × Option Uuid) :=
  (QueueWorld.table s.world).rows.map fun row => (row.status, row.claimedBy)

/-- The next statement of a replica. -/
def afterStatement (s : queue.State) (n : Nat) : Option queue.State :=
  queue.step s (queueMove s (.statement n))

/-- What is seen of a settle write of the job: the two claims, and the rows before and after it. -/
structure Seen where
  settles : Option Uuid
  heldClaim : Option Nat
  currentClaim : Option Nat
  before : List (JobStatus × Option Uuid)
  after : Option (List (JobStatus × Option Uuid))
  deriving DecidableEq

def seen (n : Nat) (s : queue.State) : Seen where
  settles := settling s n
  heldClaim := QueueWorld.heldClaim s.world n 7
  currentClaim := QueueWorld.currentClaim s.world 7
  before := statuses s
  after := (afterStatement s n).map statuses

instance (G : Nat → QueueWorld → QueueOp → Prop) [hdec : ∀ n w o, Decidable (G n w o)]
    (s : queue.State) (m : queue.Move) : Decidable (System.Guarded (ReplicaGuard {} (fun n => n)
      (fun _ => .enqueue "embedding-retry" .null none) G) s m) :=
  @System.instDecidableGuarded _ queue _
    (fun i w o => by
      cases i with
      | replica n => exact hdec n w o
      | producer n => exact isTrue trivial) s m

end Sample

open Sample in
theorem settles_own_claim_takenOver :
    ∃ s s', runFrom queue.step queueStart takenOver = some s ∧ settling s 1 = some 7 ∧
      afterStatement s 1 = some s' ∧ statuses s' = [(.completed, none)] ∧
      ((QueueWorld.table s'.world).rows = (QueueWorld.table s.world).rows ∨
        ∃ claim, QueueWorld.heldClaim s.world 1 7 = some claim ∧
          QueueWorld.currentClaim s.world 7 = some claim) := by
  have hmoves : (runFrom queue.step queueStart takenOver).map (seen 1) =
      some ⟨some 7, some 1, some 1, [(.running, some 1)], some [(.completed, none)]⟩ := by
    decide +kernel
  have hmeets : Transition.Meets queue.step (System.Guarded (ReplicaGuard {} (fun n => n)
      (fun _ => .enqueue "embedding-retry" .null none) ClaimsNothingHeld)) queueStart takenOver := by
    decide +kernel
  obtain ⟨s, hrun, hseen⟩ := Option.map_eq_some_iff.mp hmoves
  simp only [seen, Seen.mk.injEq] at hseen
  obtain ⟨hsettling, -, -, -, hafter⟩ := hseen
  obtain ⟨s', hstep, hstatuses⟩ := Option.map_eq_some_iff.mp hafter
  obtain ⟨o, k, hproc, hsettles⟩ := proc_of_settling hsettling
  exact ⟨s, s', hrun, hsettling, hstep, hstatuses,
    settles_own_claim {} _ _ hmeets hrun hproc hsettles hstep⟩

open Sample in
/-- The first claimer completes the job that the second has just claimed. -/
theorem settles_another_claim_overtaken :
    ∃ s s', runFrom queue.step queueStart overtaken = some s ∧ settling s 0 = some 7 ∧
      afterStatement s 0 = some s' ∧
      ¬((QueueWorld.table s'.world).rows = (QueueWorld.table s.world).rows ∨
        ∃ claim, QueueWorld.heldClaim s.world 0 7 = some claim ∧
          QueueWorld.currentClaim s.world 7 = some claim) := by
  have hmoves : (runFrom queue.step queueStart overtaken).map (seen 0) =
      some ⟨some 7, some 0, some 1, [(.running, some 1)], some [(.completed, none)]⟩ := by
    decide +kernel
  obtain ⟨s, hrun, hseen⟩ := Option.map_eq_some_iff.mp hmoves
  simp only [seen, Seen.mk.injEq] at hseen
  obtain ⟨hsettling, hheld, hcurrent, hbefore, hafter⟩ := hseen
  obtain ⟨s', hstep, hstatuses⟩ := Option.map_eq_some_iff.mp hafter
  refine ⟨s, s', hrun, hsettling, hstep, ?_⟩
  rintro (hrows | ⟨claim, hclaim, hclaim'⟩)
  · have hsame : statuses s' = statuses s := by rw [statuses, hrows, statuses]
    rw [hstatuses, hbefore] at hsame
    cases hsame
  · rw [hheld] at hclaim
    rw [hcurrent, ← hclaim] at hclaim'
    cases hclaim'

end Moira.Workers
