import Moira.Workers.Properties.Budget
import Moira.Workers.Properties.Turn

/-!
# Dead letters

A claim costs an attempt whether or not its job reaches a handler, so `attempts` counts claims and
not executions. What a dead letter does tell: its budget is spent, its handler has been called, and
never twice for one claim.

- **`dead_letter_accounted`**
-/

namespace Moira.Workers

open Transition (runFrom)

/-! ## The history -/

/-- What the table does not remember. -/
structure QueueHistory where
  /-- The ids that the inserts were given. -/
  inserted : List Uuid := []
  /-- One entry for each call of a handler: the job, and the claim it was called for. -/
  invoked : List (Uuid × Option Nat) := []

def recordReplica (n : Nat) (w : QueueWorld) (hist : QueueHistory) : QueueOp → QueueHistory
  | .dispatch job _ => { hist with invoked := (job.id, w.heldClaim n job.id) :: hist.invoked }
  | _ => hist

def recordProducer (reply : Reply (Option Uuid)) (hist : QueueHistory) : QueueHistory :=
  { hist with inserted := (insertedId reply).toList ++ hist.inserted }

namespace QueueHistory

/-- How often the handler of a job was called. -/
def invocations (hist : QueueHistory) (id : Uuid) : Nat :=
  (hist.invoked.map Prod.fst).count id

end QueueHistory

namespace QueueWorld

/-- How often a job was claimed. -/
def claimCount (w : QueueWorld) (id : Uuid) : Nat :=
  (w.claims.map Prod.fst).count id

/-- How many of the claims of a job reached its handler. -/
def handedOver (w : QueueWorld) (hist : QueueHistory) (id : Uuid) : Nat :=
  w.claims.countP fun claim => claim.1 = id ∧ (claim.1, some claim.2) ∈ hist.invoked

end QueueWorld

/-- Attempts are claims, and every call of a handler is for a claim of its own. -/
structure Accounted (w : QueueWorld) (hist : QueueHistory) : Prop where
  rows_inserted : ∀ row ∈ w.table.rows, row.id ∈ hist.inserted
  claims_inserted : ∀ claim ∈ w.claims, claim.1 ∈ hist.inserted
  attempts : ∀ row ∈ w.table.rows, row.attempts = w.claimCount row.id
  claims_nodup : w.claims.Nodup
  claims_numbered : ∀ claim ∈ w.claims, claim.2 < w.batches
  held_claimed : ∀ e ∈ w.held, (e.job.id, e.claim) ∈ w.claims
  held_known : ∀ e ∈ w.held, ∀ row ∈ w.table.rows, row.id = e.job.id →
    e.job.attempts ≤ row.attempts ∧ e.job.maxAttempts = row.maxAttempts
  held_once : ∀ e ∈ w.held, ∀ e' ∈ w.held, e.replica = e'.replica → e.job.id = e'.job.id → e = e'
  held_apart : ∀ e ∈ w.held, ∀ e' ∈ w.held, e.job.id = e'.job.id → e.claim = e'.claim → e = e'
  invoked_nodup : hist.invoked.Nodup
  invoked_claims : ∀ call ∈ hist.invoked, ∃ claim ∈ w.claims, call = (claim.1, some claim.2)
  dead : ∀ row ∈ w.table.rows, row.status = .deadLetter →
    row.maxAttempts ≤ row.attempts ∧ ∃ claim, (row.id, claim) ∈ hist.invoked

/-- The turn of a replica: its handler was called for the current job and for none after it. -/
structure InTurn (w : QueueWorld) (hist : QueueHistory) (n : Nat) (g : Turn) : Prop where
  jobs : w.heldJobs n = g.jobs
  nodup : (g.jobs.map ClaimedJob.id).Nodup
  called : ∀ e ∈ w.held, e.replica = n →
    ((e.job.id, some e.claim) ∈ hist.invoked ↔ g.current.map ClaimedJob.id = some e.job.id)

/-! ## One step -/

variable {id : Uuid} {o : QueueOp}

variable {x : queueSig.Ans o}

variable {n : Nat} {hist : QueueHistory}

section Step

variable {w w' : QueueWorld} {g : Turn}

theorem accounted_quiet (h : Accounted w hist) (hquiet : w.Quiet w')
    (hdead : ∀ row ∈ w'.table.rows, row.status = .deadLetter →
      row.maxAttempts ≤ row.attempts ∧ ∃ claim, (row.id, claim) ∈ hist.invoked) :
    Accounted w' hist where
  rows_inserted row hrow := by
    obtain ⟨old, hold, hcontinues⟩ := hquiet.table row hrow
    rw [hcontinues.id_eq]
    exact h.rows_inserted old hold
  claims_inserted := by
    rw [hquiet.claims]
    exact h.claims_inserted
  attempts row hrow := by
    obtain ⟨old, hold, hcontinues⟩ := hquiet.table row hrow
    rw [hcontinues.attempts_eq, hcontinues.id_eq, QueueWorld.claimCount, hquiet.claims]
    exact h.attempts old hold
  claims_nodup := by
    rw [hquiet.claims]
    exact h.claims_nodup
  claims_numbered := by
    rw [hquiet.claims, hquiet.batches]
    exact h.claims_numbered
  held_claimed e he := by
    rw [hquiet.claims]
    exact h.held_claimed e (hquiet.held e he)
  held_known e he row hrow hid := by
    obtain ⟨old, hold, hcontinues⟩ := hquiet.table row hrow
    rw [hcontinues.attempts_eq, hcontinues.maxAttempts_eq]
    exact h.held_known e (hquiet.held e he) old hold (hcontinues.id_eq.symm.trans hid)
  held_once e he e' he' := h.held_once e (hquiet.held e he) e' (hquiet.held e' he')
  held_apart e he e' he' := h.held_apart e (hquiet.held e he) e' (hquiet.held e' he')
  invoked_nodup := h.invoked_nodup
  invoked_claims := by
    rw [hquiet.claims]
    exact h.invoked_claims
  dead := hdead

theorem claimCount_claimed (claimedBy : Uuid) (jobs : List ClaimedJob) (id : Uuid) :
    (w.claimed claimedBy jobs).claimCount id =
      (jobs.map ClaimedJob.id).count id + w.claimCount id := by
  simp [QueueWorld.claimCount, QueueWorld.claimed, Function.comp_def]

variable {claimedBy : Uuid} {jobs : List ClaimedJob}

theorem accounted_claimed (h : Accounted w hist) {limit : Nat}
    (hclaimable : w.table.Claimable w.now claimedBy limit jobs) :
    Accounted (w.claimed claimedBy jobs) hist where
  rows_inserted row hrow := by
    obtain ⟨old, hold, hid, -⟩ := mem_claimBatch hrow
    rw [hid]
    exact h.rows_inserted old hold
  claims_inserted claim hclaim := by
    rcases List.mem_append.mp hclaim with hnew | hold
    · obtain ⟨job, hjob, rfl⟩ := List.mem_map.mp hnew
      obtain ⟨row, hrow, -, rfl⟩ := hclaimable.2.2 job hjob
      exact h.rows_inserted row hrow
    · exact h.claims_inserted claim hold
  attempts row hrow := by
    obtain ⟨old, hold, hid, hcases⟩ := mem_claimBatch hrow
    rw [claimCount_claimed, hid, ← h.attempts old hold]
    rcases hcases with ⟨hclaimed, rfl⟩ | ⟨hclaimed, rfl⟩
    · rw [List.count_eq_one_of_mem hclaimable.2.1 hclaimed, Nat.add_comm]
      rfl
    · rw [List.count_eq_zero_of_not_mem hclaimed, Nat.zero_add]
  claims_nodup := by
    refine List.nodup_append.mpr ⟨?_, h.claims_nodup, ?_⟩
    · refine List.Nodup.of_map Prod.fst ?_
      simpa [Function.comp_def] using hclaimable.2.1
    · rintro claim hnew _ hold rfl
      -- the number of this batch is new
      obtain ⟨job, -, rfl⟩ := List.mem_map.mp hnew
      exact Nat.lt_irrefl _ (h.claims_numbered _ hold)
  claims_numbered claim hclaim := by
    rcases List.mem_append.mp hclaim with hnew | hold
    · obtain ⟨job, -, rfl⟩ := List.mem_map.mp hnew
      exact Nat.lt_succ_self _
    · exact Nat.lt_succ_of_lt (h.claims_numbered claim hold)
  held_claimed e he := List.mem_append_right _ (h.held_claimed e he)
  held_known e he row hrow hid := by
    obtain ⟨old, hold, hidold, hcases⟩ := mem_claimBatch hrow
    obtain ⟨hattempts, hmax⟩ := h.held_known e he old hold (hidold.symm.trans hid)
    rcases hcases with ⟨-, rfl⟩ | ⟨-, rfl⟩
    · exact ⟨Nat.le_succ_of_le hattempts, hmax⟩
    · exact ⟨hattempts, hmax⟩
  held_once := h.held_once
  held_apart := h.held_apart
  invoked_nodup := h.invoked_nodup
  invoked_claims call hcall := by
    obtain ⟨claim, hclaim, heq⟩ := h.invoked_claims call hcall
    exact ⟨claim, List.mem_append_right _ hclaim, heq⟩
  dead row hrow hstatus := by
    obtain ⟨old, hold, -, hcases⟩ := mem_claimBatch hrow
    rcases hcases with ⟨-, rfl⟩ | ⟨-, rfl⟩
    · cases hstatus
    · exact h.dead row hold hstatus

theorem replica_ne_of_empty (hempty : w.heldJobs n = []) {e : Held} (he : e ∈ w.held) :
    e.replica ≠ n := by
  intro hreplica
  have hmem : e.job ∈ w.heldJobs n := QueueWorld.mem_heldJobs.mpr ⟨e, he, hreplica, rfl⟩
  rw [hempty] at hmem
  cases hmem

theorem accounted_hold (h : Accounted w hist) {limit : Nat}
    (hclaimable : w.table.Claimable w.now claimedBy limit jobs) (hempty : w.heldJobs n = []) :
    Accounted ((w.claimed claimedBy jobs).hold n w.batches jobs) hist := by
  have hclaimed := accounted_claimed h hclaimable
  have hsame : ∀ job ∈ jobs, ∀ job' ∈ jobs, job.id = job'.id → job = job' :=
    fun job hjob job' hjob' => List.inj_on_of_nodup_map hclaimable.2.1 hjob hjob'
  refine { hclaimed with held_claimed := ?_, held_known := ?_, held_once := ?_, held_apart := ?_ }
  · intro e he
    rcases List.mem_append.mp he with he | he
    · exact hclaimed.held_claimed e he
    · obtain ⟨job, hjob, rfl⟩ := List.mem_map.mp he
      exact List.mem_append_left _ (List.mem_map_of_mem hjob)
  · intro e he row hrow hid
    rcases List.mem_append.mp he with he | he
    · exact hclaimed.held_known e he row hrow hid
    · -- the job was returned as the update left the row
      obtain ⟨job, hjob, rfl⟩ := List.mem_map.mp he
      obtain ⟨old, hold, hidold, hcases⟩ := mem_claimBatch hrow
      obtain ⟨source, hsource, -, hreturned⟩ := hclaimable.2.2 job hjob
      have hidsource : old.id = source.id := by
        rw [← hidold, hid, ← hreturned]
        rfl
      have hrowsame : old = source :=
        List.inj_on_of_nodup_map w.table.id_unique hold hsource hidsource
      rcases hcases with ⟨-, rfl⟩ | ⟨hnot, -⟩
      · rw [hrowsame, ← hreturned]
        exact ⟨Nat.le_refl _, rfl⟩
      · exact absurd (hidold ▸ hid ▸ List.mem_map_of_mem hjob) hnot
  · intro e he e' he' hreplica hid
    rcases List.mem_append.mp he with he | he <;> rcases List.mem_append.mp he' with he' | he'
    · exact h.held_once e he e' he' hreplica hid
    · obtain ⟨job, -, rfl⟩ := List.mem_map.mp he'
      exact absurd hreplica (replica_ne_of_empty hempty he)
    · obtain ⟨job, -, rfl⟩ := List.mem_map.mp he
      exact absurd hreplica.symm (replica_ne_of_empty hempty he')
    · obtain ⟨job, hjob, rfl⟩ := List.mem_map.mp he
      obtain ⟨job', hjob', rfl⟩ := List.mem_map.mp he'
      rw [hsame job hjob job' hjob' hid]
  · intro e he e' he' hid hclaim
    rcases List.mem_append.mp he with he | he <;> rcases List.mem_append.mp he' with he' | he'
    · exact h.held_apart e he e' he' hid hclaim
    · obtain ⟨job, -, rfl⟩ := List.mem_map.mp he'
      have hlt := h.claims_numbered _ (h.held_claimed e he)
      exact absurd hclaim (Nat.ne_of_lt hlt)
    · obtain ⟨job, -, rfl⟩ := List.mem_map.mp he
      have hlt := h.claims_numbered _ (h.held_claimed e' he')
      exact absurd hclaim.symm (Nat.ne_of_lt hlt)
    · obtain ⟨job, hjob, rfl⟩ := List.mem_map.mp he
      obtain ⟨job', hjob', rfl⟩ := List.mem_map.mp he'
      rw [hsame job hjob job' hjob' hid]

variable {job : ClaimedJob} {budget : Nat}

theorem heldClaim_of_dispatch (hturn : InTurn w hist n g)
    (hmay : turnContract.may g (.dispatch job budget)) :
    ∃ e ∈ w.held, e.replica = n ∧ e.job.id = job.id ∧ w.heldClaim n job.id = some e.claim ∧
      (e.job.id, some e.claim) ∉ hist.invoked := by
  obtain ⟨jobs, rfl⟩ := hmay
  have hmem : job ∈ w.heldJobs n := by
    rw [hturn.jobs]
    exact List.mem_cons_self
  have hid : job.id ∈ (w.heldJobs n).map ClaimedJob.id := List.mem_map_of_mem hmem
  obtain ⟨e, he, hreplica, hid, hclaim⟩ :=
    heldClaim_of_may (o := .complete job.id) rfl hid
  refine ⟨e, he, hreplica, hid, hclaim, fun hcalled => ?_⟩
  have hnone := (hturn.called e he hreplica).mp hcalled
  cases hnone

theorem accounted_dispatch (h : Accounted w hist) (hturn : InTurn w hist n g)
    (hmay : turnContract.may g (.dispatch job budget)) :
    Accounted w (recordReplica n w hist (.dispatch job budget)) := by
  obtain ⟨e, he, -, hid, hclaim, hnew⟩ := heldClaim_of_dispatch hturn hmay
  refine { h with invoked_nodup := ?_, invoked_claims := ?_, dead := ?_ }
  · refine List.nodup_cons.mpr ⟨?_, h.invoked_nodup⟩
    rw [hclaim, ← hid]
    exact hnew
  · intro call hcall
    rcases List.mem_cons.mp hcall with rfl | hcall
    · exact ⟨_, h.held_claimed e he, by rw [hclaim, hid]⟩
    · exact h.invoked_claims call hcall
  · intro row hrow hstatus
    obtain ⟨hspent, claim, hcalled⟩ := h.dead row hrow hstatus
    exact ⟨hspent, claim, List.mem_cons_of_mem _ hcalled⟩

variable {row : JobRow}

theorem mem_settle_of_dead {table : JobTable} {f : JobRow → JobRow}
    {hid : ∀ row, (f row).id = row.id} (hf : ∀ row, (f row).status ≠ .deadLetter)
    (hrow : row ∈ (table.settle id f hid).rows) (hstatus : row.status = .deadLetter) :
    row ∈ table.rows := by
  obtain ⟨old, hold, rfl⟩ := JobTable.mem_update.mp hrow
  split at hstatus
  · exact absurd hstatus (hf old)
  · rename_i hmatch
    rwa [if_neg hmatch]

theorem dead_grantReplica_cases (hgrant : grantReplica n w o x = some w')
    (hrow : row ∈ w'.table.rows) (hstatus : row.status = .deadLetter) :
    row ∈ w.table.rows ∨ ∃ error, o = .deadLetter row.id error ∧ ∃ old ∈ w.table.rows,
      old.Continues row := by
  cases o with
  | requeueStale staleSeconds =>
    cases x with
    | failed =>
      cases hgrant
      exact .inl hrow
    | ok a | lost a =>
      simp only [grantReplica] at hgrant
      split at hgrant
      · cases hgrant
        obtain ⟨old, hold, rfl⟩ := List.mem_map.mp hrow
        split at hstatus
        · cases hstatus
        · rename_i hstale
          rw [if_neg hstale]
          exact .inl hold
      · cases hgrant
  | claimBatch claimedBy limit =>
    cases x with
    | failed =>
      cases hgrant
      exact .inl hrow
    | ok jobs | lost jobs =>
      simp only [grantReplica] at hgrant
      split at hgrant
      · cases hgrant
        obtain ⟨old, hold, -, hcases⟩ := mem_claimBatch hrow
        rcases hcases with ⟨-, rfl⟩ | ⟨-, rfl⟩
        · cases hstatus
        · exact .inl hold
      · cases hgrant
  | complete id =>
    cases hgrant
    rcases table_grantSettle n w id (w.table.complete w.now id) x with heq | heq
    · rw [heq] at hrow
      exact .inl (mem_settle_of_dead (fun _ => by simp [JobTable.completeRow]) hrow hstatus)
    · rw [heq] at hrow
      exact .inl hrow
  | reschedule id runAt error =>
    cases hgrant
    rcases table_grantSettle n w id (w.table.reschedule id runAt error) x with heq | heq
    · rw [heq] at hrow
      exact .inl (mem_settle_of_dead (fun _ => by simp [JobTable.rescheduleRow]) hrow hstatus)
    · rw [heq] at hrow
      exact .inl hrow
  | deadLetter id error =>
    cases hgrant
    rcases table_grantSettle n w id (w.table.deadLetter w.now id error) x with heq | heq
    · rw [heq] at hrow
      obtain ⟨old, hold, rfl⟩ := List.mem_map.mp hrow
      split
      · rename_i hmatch
        have hid : old.id = id := (of_decide_eq_true hmatch).1
        exact .inr ⟨error, by rw [← hid]; rfl, old, hold, ⟨rfl, rfl, rfl, fun h => by cases h⟩⟩
      · exact .inl hold
    · rw [heq] at hrow
      exact .inl hrow
  | pruneTerminal retentionHours =>
    cases x with
    | failed =>
      cases hgrant
      exact .inl hrow
    | ok a | lost a =>
      simp only [grantReplica] at hgrant
      split at hgrant
      · cases hgrant
        exact .inl (List.mem_filter.mp hrow).1
      · cases hgrant
  | instant | stop | dispatch job budget | utcNow =>
    cases hgrant
    exact .inl hrow

theorem spent_of_deadLetter (h : Accounted w hist) (hturn : InTurn w hist n g) {error : String}
    (hmay : turnContract.may g (.deadLetter id error)) (hrow : row ∈ w.table.rows)
    (hid : row.id = id) :
    row.maxAttempts ≤ row.attempts ∧ ∃ claim, (row.id, claim) ∈ hist.invoked := by
  obtain ⟨job, hcurrent, rfl, hspent⟩ := hmay
  have hmem : job ∈ w.heldJobs n := by
    rw [hturn.jobs]
    simp [Turn.jobs, hcurrent]
  obtain ⟨e, he, hreplica, rfl⟩ := QueueWorld.mem_heldJobs.mp hmem
  obtain ⟨hattempts, hmax⟩ := h.held_known e he row hrow hid
  constructor
  · have hle : max e.job.maxAttempts 1 ≤ e.job.attempts := of_decide_eq_true hspent
    omega
  · refine ⟨some e.claim, ?_⟩
    rw [hid, hturn.called e he hreplica, hcurrent]
    rfl

/-- **One statement of a replica.** -/
theorem accounted_grant (h : Accounted w hist) (hturn : InTurn w hist n g)
    (hmay : turnContract.may g o) (hgrant : grantReplica n w o x = some w') :
    Accounted w' (recordReplica n w hist o) := by
  rcases grantReplica_cases hgrant with ⟨claimedBy, limit, jobs, rfl, hclaimable, hw'⟩ | hquiet
  · rcases hw' with rfl | rfl
    · have hempty : w.heldJobs n = [] := by
        obtain rfl : g = {} := hmay
        exact hturn.jobs
      exact accounted_hold h hclaimable hempty
    · exact accounted_claimed h hclaimable
  by_cases hdispatch : ∃ job budget, o = .dispatch job budget
  · obtain ⟨job, budget, rfl⟩ := hdispatch
    cases hgrant
    exact accounted_dispatch h hturn hmay
  · have hsame : recordReplica n w hist o = hist := by
      cases o with
      | dispatch job budget => exact absurd ⟨job, budget, rfl⟩ hdispatch
      | _ => rfl
    rw [hsame]
    refine accounted_quiet h hquiet fun row hrow hstatus => ?_
    rcases dead_grantReplica_cases hgrant hrow hstatus with hold | ⟨error, rfl, old, hold, hcontinues⟩
    · exact h.dead row hold hstatus
    · rw [hcontinues.attempts_eq, hcontinues.maxAttempts_eq, hcontinues.id_eq]
      exact spent_of_deadLetter h hturn hmay hold hcontinues.id_eq.symm

theorem called_hold (h : Accounted w hist) (hturn : InTurn w hist n {}) :
    ∀ e ∈ ((w.claimed claimedBy jobs).hold n w.batches jobs).held, e.replica = n →
      ((e.job.id, some e.claim) ∈ hist.invoked ↔
        (none : Option ClaimedJob).map ClaimedJob.id = some e.job.id) := by
  intro e he hreplica
  rcases List.mem_append.mp he with he | he
  · exact absurd hreplica (replica_ne_of_empty hturn.jobs he)
  · obtain ⟨job, -, rfl⟩ := List.mem_map.mp he
    refine ⟨fun hcalled => ?_, nofun⟩
    obtain ⟨claim, hclaim, heq⟩ := h.invoked_claims _ hcalled
    have hlt := h.claims_numbered claim hclaim
    rw [← Option.some.inj (Prod.mk.inj heq).2] at hlt
    exact absurd hlt (Nat.lt_irrefl _)

theorem called_dispatch (h : Accounted w hist) (hturn : InTurn w hist n g)
    (hmay : turnContract.may g (.dispatch job budget)) :
    ∀ e ∈ w.held, e.replica = n →
      ((e.job.id, some e.claim) ∈ (recordReplica n w hist (.dispatch job budget)).invoked ↔
        (some job).map ClaimedJob.id = some e.job.id) := by
  obtain ⟨found, hfound, hreplicaFound, hid, hclaim, -⟩ := heldClaim_of_dispatch hturn hmay
  obtain ⟨jobs, rfl⟩ := hmay
  intro e he hreplica
  have hbefore : (e.job.id, some e.claim) ∉ hist.invoked := by
    rw [hturn.called e he hreplica]
    nofun
  show _ ∈ (job.id, w.heldClaim n job.id) :: hist.invoked ↔ some job.id = some e.job.id
  rw [List.mem_cons, hclaim]
  constructor
  · rintro (heq | hcalled)
    · rw [(Prod.mk.inj heq).1]
    · exact absurd hcalled hbefore
  · -- the replica holds the job once
    intro heq
    have hsame : e = found := h.held_once e he found hfound (hreplica.trans hreplicaFound.symm)
      ((Option.some.inj heq).symm.trans hid.symm)
    exact .inl (by rw [hsame, hid])

theorem called_settled (hturn : InTurn w hist n g) (hcurrent : g.current = some job)
    {table : JobTable} (reply : Reply Unit) :
    ∀ e ∈ (grantSettle n w job.id table reply).held, e.replica = n →
      ((e.job.id, some e.claim) ∈ hist.invoked ↔
        (g.settled reply).current.map ClaimedJob.id = some e.job.id) := by
  cases reply with
  | ok a =>
    intro e he hreplica
    obtain ⟨he, hother⟩ := List.mem_filter.mp he
    have hne : ¬(e.replica = n ∧ e.job.id = job.id) := of_decide_eq_true hother
    refine ⟨fun hcalled => ?_, nofun⟩
    have hid := (hturn.called e he hreplica).mp hcalled
    rw [hcurrent] at hid
    exact absurd ⟨hreplica, (Option.some.inj hid).symm⟩ hne
  | failed | lost a =>
    intro e he hreplica
    exact absurd hreplica (replica_ne_of_empty QueueWorld.heldJobs_leavePoll_self he)

theorem inTurn_self (h : Accounted w hist) (hturn : InTurn w hist n g)
    (hmay : turnContract.may g o) (hgrant : grantReplica n w o x = some w') :
    InTurn w' (recordReplica n w hist o) n (turnContract.next g o x) := by
  have hpoll : pollContract.may (w.heldJobs n) o := by
    rw [hturn.jobs]
    exact may_of_turn hturn.nodup hmay
  obtain ⟨hanswers, hself, -⟩ := heldJobs_grant hpoll hgrant
  have hjobs : w'.heldJobs n = (turnContract.next g o x).jobs := by
    rw [hself, hturn.jobs, jobs_next hturn.nodup hmay]
  refine ⟨hjobs, nodup_next hturn.nodup hmay hanswers, ?_⟩
  cases o with
  | claimBatch claimedBy limit =>
    obtain rfl : g = {} := hmay
    cases x with
    | failed =>
      cases hgrant
      exact hturn.called
    | ok jobs =>
      simp only [grantReplica] at hgrant
      split at hgrant
      · cases hgrant
        exact called_hold h hturn
      · cases hgrant
    | lost jobs =>
      simp only [grantReplica] at hgrant
      split at hgrant
      · cases hgrant
        exact hturn.called
      · cases hgrant
  | requeueStale staleSeconds =>
    cases x with
    | failed =>
      cases hgrant
      exact hturn.called
    | ok a | lost a =>
      simp only [grantReplica] at hgrant
      split at hgrant
      · cases hgrant
        exact hturn.called
      · cases hgrant
  | dispatch job budget =>
    cases hgrant
    exact called_dispatch h hturn hmay
  | complete id =>
    obtain ⟨job, hcurrent, rfl⟩ := hmay
    cases hgrant
    exact called_settled hturn hcurrent x
  | reschedule id runAt error | deadLetter id error =>
    obtain ⟨job, hcurrent, rfl, -⟩ := hmay
    cases hgrant
    exact called_settled hturn hcurrent x
  | pruneTerminal retentionHours =>
    intro e he hreplica
    exact absurd hreplica (replica_ne_of_empty hjobs he)
  | instant | stop | utcNow =>
    cases hgrant
    exact hturn.called

theorem inTurn_other {m : Nat} {g' : Turn} (h : Accounted w hist) (hturn : InTurn w hist n g)
    (hmay : turnContract.may g o) (hgrant : grantReplica n w o x = some w') (hne : m ≠ n)
    (hother : InTurn w hist m g') : InTurn w' (recordReplica n w hist o) m g' := by
  have hpoll : pollContract.may (w.heldJobs n) o := by
    rw [hturn.jobs]
    exact may_of_turn hturn.nodup hmay
  obtain ⟨-, -, hothers⟩ := heldJobs_grant hpoll hgrant
  refine ⟨(hothers m hne).trans hother.jobs, hother.nodup, fun e he hreplica => ?_⟩
  have hheld : e ∈ w.held := by
    rcases grantReplica_cases hgrant with ⟨claimedBy, limit, jobs, rfl, -, hw'⟩ | hquiet
    · rcases hw' with rfl | rfl
      · rcases List.mem_append.mp he with he | he
        · exact he
        · obtain ⟨job, -, rfl⟩ := List.mem_map.mp he
          exact absurd hreplica.symm hne
      · exact he
    · exact hquiet.held e he
  rw [← hother.called e hheld hreplica]
  cases o with
  | dispatch job budget =>
    obtain ⟨found, hfound, hreplicaFound, hid, hclaim, -⟩ := heldClaim_of_dispatch hturn hmay
    show _ ∈ (job.id, w.heldClaim n job.id) :: hist.invoked ↔ _
    rw [List.mem_cons, hclaim]
    refine ⟨?_, .inr⟩
    rintro (heq | hcalled)
    · -- two replicas never hold a job under one claim
      obtain ⟨hidEq, hclaimEq⟩ := Prod.mk.inj heq
      have hsame := h.held_apart e hheld found hfound (hidEq.trans hid.symm)
        (Option.some.inj hclaimEq)
      rw [hsame, hreplicaFound] at hreplica
      exact absurd hreplica.symm hne
    · exact hcalled
  | _ => exact Iff.rfl

theorem accounted_recordProducer (h : Accounted w hist) (reply : Reply (Option Uuid)) :
    Accounted w (recordProducer reply hist) :=
  { h with
    rows_inserted := fun row hrow => List.mem_append_right _ (h.rows_inserted row hrow)
    claims_inserted := fun claim hclaim => List.mem_append_right _ (h.claims_inserted claim hclaim) }

theorem accounted_initial : Accounted {} {} where
  rows_inserted _ hrow := absurd hrow List.not_mem_nil
  claims_inserted _ hclaim := absurd hclaim List.not_mem_nil
  attempts _ hrow := absurd hrow List.not_mem_nil
  claims_nodup := List.nodup_nil
  claims_numbered _ hclaim := absurd hclaim List.not_mem_nil
  held_claimed _ he := absurd he List.not_mem_nil
  held_known _ he := absurd he List.not_mem_nil
  held_once _ he := absurd he List.not_mem_nil
  held_apart _ he := absurd he List.not_mem_nil
  invoked_nodup := List.nodup_nil
  invoked_claims _ hcall := absurd hcall List.not_mem_nil
  dead _ hrow := absurd hrow List.not_mem_nil

theorem accounted_insert (h : Accounted w hist) {reply : Reply (Option Uuid)}
    {job : WorkerJobInsert} {hfresh : id ∉ w.table.rows.map JobRow.id}
    (hreply : insertedId reply = some id) (hnew : id ∉ hist.inserted) :
    Accounted { w with table := w.table.insert job w.now id hfresh } (recordProducer reply hist) := by
  have hrecorded := accounted_recordProducer h reply
  have hunclaimed : ∀ claim ∈ w.claims, claim.1 ≠ id := by
    rintro claim hclaim rfl
    exact hnew (h.claims_inserted claim hclaim)
  refine { hrecorded with rows_inserted := ?_, attempts := ?_, held_known := ?_, dead := ?_ }
  · intro row hrow
    rcases List.mem_append.mp hrow with hrow | hrow
    · exact hrecorded.rows_inserted row hrow
    · rw [List.mem_singleton] at hrow
      subst hrow
      show id ∈ (insertedId reply).toList ++ hist.inserted
      rw [hreply]
      exact List.mem_cons_self
  · intro row hrow
    rcases List.mem_append.mp hrow with hrow | hrow
    · exact h.attempts row hrow
    · rw [List.mem_singleton] at hrow
      subst hrow
      refine (List.count_eq_zero_of_not_mem fun hmem => ?_).symm
      obtain ⟨claim, hclaim, hid⟩ := List.mem_map.mp hmem
      exact hunclaimed claim hclaim hid
  · intro e he row hrow hid
    rcases List.mem_append.mp hrow with hrow | hrow
    · exact h.held_known e he row hrow hid
    · rw [List.mem_singleton] at hrow
      subst hrow
      exact absurd hid.symm (hunclaimed _ (h.held_claimed e he))
  · intro row hrow hstatus
    rcases List.mem_append.mp hrow with hrow | hrow
    · exact h.dead row hrow hstatus
    · rw [List.mem_singleton] at hrow
      subst hrow
      cases hstatus

theorem accounted_die (h : Accounted w hist) (n : Nat) :
    Accounted { w.leavePoll n with dead := n :: w.dead } hist :=
  accounted_quiet h ⟨.refl _, fun _ he => (List.mem_filter.mp he).1, rfl, rfl⟩ h.dead

theorem inTurn_die {m : Nat} (hne : m ≠ n) (hturn : InTurn w hist m g) :
    InTurn { w.leavePoll n with dead := n :: w.dead } hist m g where
  jobs := (QueueWorld.heldJobs_leavePoll_of_ne hne).trans hturn.jobs
  nodup := hturn.nodup
  called e he := hturn.called e (List.mem_filter.mp he).1

end Step

/-! ## Every run -/

section Runs

variable (settings : WorkerSettings) (replicaId : Nat → Uuid) (calls : Nat → EnqueueCall)

def recordQueue : (i : QueueParty) → QueueWorld →
    (o : ((queueSystem settings replicaId calls).sig i).Op) →
    ((queueSystem settings replicaId calls).sig i).Ans o → QueueHistory → QueueHistory
  | .replica n, w, o, _, hist => recordReplica n w hist o
  | .producer _, _, _, reply, hist => recordProducer reply hist

/-- The queue with its history. -/
abbrev recordedQueue : System QueueParty :=
  (queueSystem settings replicaId calls).recorded (recordQueue settings replicaId calls)

abbrev TurnGhost : QueueParty → Type
  | .replica _ => Turn
  | .producer _ => Unit

def turnContracts : (i : QueueParty) →
    Contract ((recordedQueue settings replicaId calls).sig i) (TurnGhost i)
  | .replica _ => turnContract
  | .producer n => pollContracts settings replicaId calls (.producer n)

/-- Between two polls a replica holds nothing. -/
def turnPoints : (i : QueueParty) → (recordedQueue settings replicaId calls).Point i → TurnGhost i →
    Prop
  | .replica _ => fun _ g => g = {}
  | .producer _ => fun _ _ => True

/-- What holds while no two rows were given the same id. -/
def QueueAccount (w : QueueWorld × QueueHistory) (γ : (i : QueueParty) → TurnGhost i) : Prop :=
  w.2.inserted.Nodup →
    Accounted w.1 w.2 ∧ ∀ n, n ∉ w.1.dead → InTurn w.1 w.2 n (γ (.replica n))

variable {settings replicaId calls} {w w' : QueueWorld} {γ : (i : QueueParty) → TurnGhost i}

theorem queueAccount_replica (h : QueueAccount (w, hist) γ) (halive : n ∉ w.dead)
    (hmay : turnContract.may (γ (.replica n)) o) (hgrant : grantReplica n w o x = some w') :
    QueueAccount (w', recordReplica n w hist o)
      (Function.update γ (.replica n) (turnContract.next (γ (.replica n)) o x)) := by
  intro hnodup
  have hsame : (recordReplica n w hist o).inserted = hist.inserted := by cases o <;> rfl
  obtain ⟨haccount, hturns⟩ := h (hsame ▸ hnodup)
  refine ⟨accounted_grant haccount (hturns n halive) hmay hgrant, fun m hm => ?_⟩
  rw [dead_grantReplica hgrant] at hm
  by_cases heq : m = n
  · subst heq
    rw [Function.update_self]
    exact inTurn_self haccount (hturns m halive) hmay hgrant
  · rw [Function.update_of_ne (by simpa using heq)]
    exact inTurn_other haccount (hturns n halive) hmay hgrant heq (hturns m hm)

theorem queueAccount_producer {o : ProducerOp} {reply : Reply (Option Uuid)} {g : Unit}
    (h : QueueAccount (w, hist) γ) (hgrant : grantProducer w o reply = some w') :
    QueueAccount (w', recordProducer reply hist) (Function.update γ (.producer n) g) := by
  intro hnodup
  have hγ : ∀ m, Function.update γ (.producer n) g (.replica m) = γ (.replica m) :=
    fun m => Function.update_of_ne (by simp) ..
  have hbefore : hist.inserted.Nodup := (List.nodup_append.mp hnodup).2.1
  obtain ⟨haccount, hturns⟩ := h hbefore
  rcases grantProducer_cases hgrant with rfl | ⟨job, id, hfresh, hreply, rfl⟩
  · refine ⟨accounted_recordProducer haccount reply, fun m hm => ?_⟩
    rw [hγ]
    exact { hturns m hm with }
  · have hnew : id ∉ hist.inserted := by
      have hcons : (id :: hist.inserted).Nodup := by
        simpa [recordProducer, hreply] using hnodup
      exact (List.nodup_cons.mp hcons).1
    refine ⟨accounted_insert haccount hreply hnew, fun m hm => ?_⟩
    rw [hγ]
    exact { hturns m hm with }

variable (settings replicaId calls)

theorem wp_poll_turn (id : Uuid) :
    Prog.wp (ε := Empty) turnContract
      ((runOnceUntil settings id).attempt >>= fun _ => pure (some ())) {}
      (fun g r => ∀ l : Unit, r = some l → g = {}) (fun _ _ => True) := by
  rw [Prog.wp_bind, Prog.wp_attempt]
  refine Prog.wp_mono (wp_runOnceUntil_turn settings id) ?_ ?_
  · rintro g outcome rfl l' -
    rfl
  · rintro g error rfl l' -
    rfl

def turnOutline : System.Outline (recordedQueue settings replicaId calls) where
  Ghost := TurnGhost
  contract := turnContracts settings replicaId calls
  at_ := turnPoints settings replicaId calls
  shared := QueueAccount
  code_ok i l g h := by
    cases i with
    | replica n =>
      obtain rfl : g = {} := h
      exact wp_poll_turn settings (replicaId n)
    | producer n => exact wp_producer settings replicaId calls (calls n)
  act_ok i w o x w' γ hshared _ hmay hgrant := by
    obtain ⟨w₁, hgranted, rfl⟩ := Option.map_eq_some_iff.mp hgrant
    refine ⟨by cases i <;> trivial, ?_⟩
    cases i with
    | replica n =>
      have hgrant' : (if n ∈ w.1.dead then none else grantReplica n w.1 o x) = some w₁ := hgranted
      split at hgrant'
      · cases hgrant'
      rename_i halive
      exact queueAccount_replica hshared halive hmay hgrant'
    | producer n => exact queueAccount_producer hshared hgranted
  nature_ok w e w' γ hshared h := by
    obtain ⟨w₁, hmoved, rfl⟩ := Option.map_eq_some_iff.mp h
    intro hnodup
    obtain ⟨haccount, hturns⟩ := hshared hnodup
    cases e with
    | tick elapsed =>
      obtain rfl := Option.some.inj hmoved
      exact ⟨{ haccount with }, fun n hn => { hturns n hn with }⟩
    | die n =>
      obtain rfl := Option.some.inj hmoved
      refine ⟨accounted_die haccount n, fun m hm => ?_⟩
      -- nothing is owed to a replica that is dead
      obtain ⟨hne, halive⟩ : m ≠ n ∧ m ∉ w.1.dead := by simpa using hm
      exact inTurn_die hne (hturns m halive)

/-- What a run has called and inserted. -/
def queueHistory (moves : List (queueSystem settings replicaId calls).Move) : QueueHistory :=
  System.history (recordQueue settings replicaId calls) (queueInitial settings replicaId calls) {} moves

theorem accounted_of_run {moves : List (queueSystem settings replicaId calls).Move}
    {t : (queueSystem settings replicaId calls).State}
    (hids : (queueHistory settings replicaId calls moves).inserted.Nodup)
    (hrun : runFrom (queueSystem settings replicaId calls).step
      (queueInitial settings replicaId calls) moves = some t) :
    Accounted t.world (queueHistory settings replicaId calls moves) := by
  have hinitial : (turnOutline settings replicaId calls).Holds
      ((queueInitial settings replicaId calls).withHistory (recordQueue settings replicaId calls) {}) := by
    refine ⟨fun | .replica _ => ({} : Turn) | .producer _ => (), fun _ => ⟨?_, fun n _ => ?_⟩,
      fun i => ?_⟩
    · exact accounted_initial
    · exact ⟨rfl, List.nodup_nil, fun e he => absurd he List.not_mem_nil⟩
    · cases i with
      | replica n =>
        rintro l ⟨⟩
        rfl
      | producer n =>
        rintro l ⟨⟩
        trivial
  obtain ⟨γ, haccount, -⟩ := (turnOutline settings replicaId calls).invariant (fun _ _ _ => trivial)
    hinitial (System.runFrom_recorded (recordQueue settings replicaId calls) {} hrun)
  exact (haccount hids).1

theorem invocations_eq_handedOver (h : Accounted w hist) (id : Uuid) :
    hist.invocations id = w.handedOver hist id := by
  have hcalls : hist.invocations id = (hist.invoked.filter fun call => call.1 = id).length := by
    rw [QueueHistory.invocations, List.count_eq_countP, List.countP_map, List.countP_eq_length_filter]
    rfl
  have hclaims : w.handedOver hist id = ((w.claims.filter fun claim =>
      claim.1 = id ∧ (claim.1, some claim.2) ∈ hist.invoked).map
        fun claim => (claim.1, some claim.2)).length := by
    rw [QueueWorld.handedOver, List.countP_eq_length_filter, List.length_map]
  rw [hcalls, hclaims]
  -- both lists have no duplicates and the same entries
  refine (List.perm_ext_iff_of_nodup (h.invoked_nodup.filter _) ?_).mpr ?_ |>.length_eq
  · refine (h.claims_nodup.filter _).map fun a b heq => ?_
    obtain ⟨hid, hnumber⟩ := Prod.mk.inj heq
    exact Prod.ext hid (Option.some.inj hnumber)
  · intro call
    simp only [List.mem_filter, List.mem_map, decide_eq_true_eq]
    constructor
    · rintro ⟨hcall, hid⟩
      obtain ⟨claim, hclaim, rfl⟩ := h.invoked_claims call hcall
      exact ⟨claim, ⟨hclaim, hid, hcall⟩, rfl⟩
    · rintro ⟨claim, ⟨-, hid, hcall⟩, rfl⟩
      exact ⟨hcall, hid⟩

/--
**Dead letters**: in every run, a row in `dead_letter` has been claimed exactly `attempts` times, at
least `max_attempts` times, and its handler was called, once for each of the claims that reached it.
-/
theorem dead_letter_accounted {moves : List (queueSystem settings replicaId calls).Move}
    {t : (queueSystem settings replicaId calls).State}
    (hids : (queueHistory settings replicaId calls moves).inserted.Nodup)
    (hrun : runFrom (queueSystem settings replicaId calls).step
      (queueInitial settings replicaId calls) moves = some t) :
    ∀ row ∈ (QueueWorld.table t.world).rows, row.status = .deadLetter →
      row.maxAttempts ≤ row.attempts ∧ row.attempts = QueueWorld.claimCount t.world row.id ∧
      0 < (queueHistory settings replicaId calls moves).invocations row.id ∧
      (queueHistory settings replicaId calls moves).invocations row.id =
        QueueWorld.handedOver t.world (queueHistory settings replicaId calls moves) row.id := by
  have haccount := accounted_of_run settings replicaId calls hids hrun
  intro row hrow hstatus
  obtain ⟨hspent, claim, hcalled⟩ := haccount.dead row hrow hstatus
  refine ⟨hspent, haccount.attempts row hrow, ?_, invocations_eq_handedOver haccount row.id⟩
  exact List.count_pos_iff.mpr (List.mem_map_of_mem (f := Prod.fst) hcalled)

end Runs

namespace Sample

/-- A poll whose job fails, up to the settle write. -/
def failingPoll : List QueueCue :=
  [.poll 0, .statement 0, .statement 0, .statement 0, .statement 0, .statement 0, .jobFails 0]

/-- Four polls that stop before the job, and one that calls its handler. -/
def cutShort : List queue.Move :=
  performQueue ([.producer 0, .insert 0 7] ++ (List.replicate 4 stoppedPoll).flatten ++ failingPoll)
    queueStart

abbrev sampleHistory (moves : List queue.Move) : QueueHistory :=
  queueHistory {} (fun n => n) (fun _ => .enqueue "embedding-retry" .null none) moves

/-- The dead letters with their attempts. -/
def deadLetters (s : queue.State) : List (Uuid × Nat) :=
  ((QueueWorld.table s.world).rows.filter fun row => row.status = .deadLetter).map fun row =>
    (row.id, row.attempts)

/-- The settle write after the run. -/
def settleWrite (s : queue.State) : queue.Move := queueMove s (.statement 0)

theorem mem_deadLetters {s : queue.State} {attempts : Nat} (h : (id, attempts) ∈ deadLetters s) :
    ∃ row ∈ (QueueWorld.table s.world).rows,
      row.status = .deadLetter ∧ row.id = id ∧ row.attempts = attempts := by
  obtain ⟨row, hrow, heq⟩ := List.mem_map.mp h
  obtain ⟨hrow, hstatus⟩ := List.mem_filter.mp hrow
  obtain ⟨hid, hattempts⟩ := Prod.mk.inj heq
  exact ⟨row, hrow, of_decide_eq_true hstatus, hid, hattempts⟩

theorem cutShort_run : ∃ s s', runFrom queue.step queueStart cutShort = some s ∧
    queue.step s (settleWrite s) = some s' ∧ deadLetters s = [] ∧ deadLetters s' = [(7, 5)] ∧
    (sampleHistory (cutShort ++ [settleWrite s])).inserted = [7] ∧
    (sampleHistory (cutShort ++ [settleWrite s])).invocations 7 = 1 := by
  have hmoves : (runFrom queue.step queueStart cutShort).map (fun s => (deadLetters s,
      (queue.step s (settleWrite s)).map deadLetters,
      (sampleHistory (cutShort ++ [settleWrite s])).inserted,
      (sampleHistory (cutShort ++ [settleWrite s])).invocations 7)) =
      some ([], some [(7, 5)], [7], 1) := by
    decide +kernel
  obtain ⟨s, hrun, hseen⟩ := Option.map_eq_some_iff.mp hmoves
  simp only [Prod.mk.injEq] at hseen
  obtain ⟨hbefore, hafter, hinserted, hinvoked⟩ := hseen
  obtain ⟨s', hstep, hdead⟩ := Option.map_eq_some_iff.mp hafter
  exact ⟨s, s', hrun, hstep, hbefore, hdead, hinserted, hinvoked⟩

end Sample

open Sample in
theorem dead_letter_accounted_cutShort :
    ∃ s s', runFrom queue.step queueStart (cutShort ++ [settleWrite s]) = some s' ∧
      ∃ row ∈ (QueueWorld.table s'.world).rows, row.status = .deadLetter ∧
        row.maxAttempts ≤ row.attempts ∧ row.attempts = QueueWorld.claimCount s'.world row.id ∧
        0 < (sampleHistory (cutShort ++ [settleWrite s])).invocations row.id ∧
        (sampleHistory (cutShort ++ [settleWrite s])).invocations row.id =
          QueueWorld.handedOver s'.world (sampleHistory (cutShort ++ [settleWrite s])) row.id := by
  obtain ⟨s, s', hrun, hstep, -, hdead, hinserted, -⟩ := cutShort_run
  have hwhole : runFrom queue.step queueStart (cutShort ++ [settleWrite s]) = some s' :=
    Transition.runFrom_append.mpr ⟨s, hrun, Transition.runFrom_cons.mpr ⟨s', hstep, rfl⟩⟩
  have hids : (sampleHistory (cutShort ++ [settleWrite s])).inserted.Nodup := by
    rw [hinserted]
    exact List.nodup_singleton 7
  obtain ⟨row, hrow, hstatus, -, -⟩ : ∃ row ∈ (QueueWorld.table s'.world).rows,
      row.status = .deadLetter ∧ row.id = 7 ∧ row.attempts = 5 :=
    mem_deadLetters (by rw [hdead]; exact List.mem_singleton_self _)
  exact ⟨s, s', hwhole, row, hrow, hstatus,
    dead_letter_accounted {} _ _ hids hwhole row hrow hstatus⟩

open Sample in
/-- Four of the five attempts never reached the handler of the job that is abandoned. -/
theorem abandoned_after_one_call :
    ∃ s s', runFrom queue.step queueStart cutShort = some s ∧
      queue.step s (settleWrite s) = some s' ∧ deadLetters s = [] ∧
      ∃ row ∈ (QueueWorld.table s'.world).rows, row.status = .deadLetter ∧
        (sampleHistory (cutShort ++ [settleWrite s])).invocations row.id ≠ row.attempts := by
  obtain ⟨s, s', hrun, hstep, hbefore, hdead, -, hinvoked⟩ := cutShort_run
  obtain ⟨row, hrow, hstatus, hid, hattempts⟩ : ∃ row ∈ (QueueWorld.table s'.world).rows,
      row.status = .deadLetter ∧ row.id = 7 ∧ row.attempts = 5 :=
    mem_deadLetters (by rw [hdead]; exact List.mem_singleton_self _)
  refine ⟨s, s', hrun, hstep, hbefore, row, hrow, hstatus, ?_⟩
  rw [hid, hinvoked, hattempts]
  decide

end Moira.Workers
