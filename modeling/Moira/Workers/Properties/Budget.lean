import Mathlib.Algebra.GroupWithZero.Nat
import Moira.Workers.Properties.Claims

/-!
# Attempts and their delays

`retry_delay` on machine words, against the delay without a word size.

`attempts` is incremented by the claim and checked only where a failure is settled. Two statements
put a job back to `pending` without a check of the row: the stale sweep, and a reschedule whose
claim has been overtaken.

- `Machine.retryDelay` — the function at its own types; `toNat_retryDelay` — it is `retryDelay` of
  the queue
- **`attempts_le_maxAttempts`** — it holds while neither of the two returns a job that has none
-/

namespace Moira

namespace Workers

/-! ## Machine words -/

namespace Machine

/-- `u64::checked_shl`: the check is on the amount only. -/
def checkedShl (value : UInt64) (exponent : UInt32) : Option UInt64 :=
  if exponent < 64 then some (value <<< exponent.toUInt64) else none

/-- `u32::try_from` -/
def u32TryFrom (value : Int32) : Option UInt32 :=
  if 0 ≤ value then some value.toUInt32 else none

/-- The delay before a failed attempt is retried, in seconds. -/
def retryDelay (attempts : Int32) (baseSeconds maxSeconds : UInt64) : UInt64 :=
  let base := max baseSeconds 1
  let limit := max maxSeconds base
  let exponent := (u32TryFrom (max attempts 1 - 1)).getD 0xffffffff
  ((checkedShl base exponent).filter (· ≤ limit)).getD limit

end Machine

variable {attempts : Int32} {baseSeconds maxSeconds : UInt64}

theorem toNat_max (a b : UInt64) : (max a b).toNat = max a.toNat b.toNat := by
  show (if a ≤ b then b else a).toNat = _
  split
  · next h =>
    have := UInt64.le_iff_toNat_le.mp h
    omega
  · next h =>
    have := UInt64.le_iff_toNat_le.not.mp h
    omega

theorem toInt_max (a b : Int32) : (max a b).toInt = max a.toInt b.toInt := by
  show (if a ≤ b then b else a).toInt = _
  split
  · next h =>
    have := Int32.le_iff_toInt_le.mp h
    omega
  · next h =>
    have := Int32.le_iff_toInt_le.not.mp h
    omega

theorem toNat_exponent : ((Machine.u32TryFrom (max attempts 1 - 1)).getD 0xffffffff).toNat =
    max attempts.toInt.toNat 1 - 1 := by
  have hone : (1 : Int32).toInt = 1 := rfl
  have hmax := toInt_max attempts 1
  have hle : attempts.toInt ≤ 2 ^ 31 - 1 := attempts.toInt_le
  have hvalue : (max attempts 1 - 1).toInt = max attempts.toInt 1 - 1 := by
    rw [Int32.toInt_sub, hmax, hone, Int.bmod_eq_of_le] <;> omega
  have hpos : 0 ≤ max attempts 1 - 1 := by
    rw [Int32.le_iff_toInt_le, hvalue]
    show (0 : Int) ≤ _
    omega
  unfold Machine.u32TryFrom
  rw [if_pos hpos, Option.getD_some, Int32.toNat_toUInt32_of_le hpos]
  show (max attempts 1 - 1).toInt.toNat = _
  rw [hvalue]
  omega

theorem toNat_retryDelay : (Machine.retryDelay attempts baseSeconds maxSeconds).toNat =
    retryDelay attempts.toInt.toNat baseSeconds.toNat maxSeconds.toNat := by
  have hbase : (max baseSeconds 1).toNat = max baseSeconds.toNat 1 := toNat_max baseSeconds 1
  have hlimit := toNat_max maxSeconds (max baseSeconds 1)
  unfold Machine.retryDelay retryDelay
  simp only
  rw [← toNat_exponent, ← hbase, ← hlimit]
  generalize (Machine.u32TryFrom (max attempts 1 - 1)).getD 0xffffffff = exponent
  generalize max baseSeconds 1 = base
  generalize max maxSeconds base = limit
  unfold Machine.checkedShl checkedShl
  by_cases h : exponent < 64
  · have h' : exponent.toNat < 64 := UInt32.lt_iff_toNat_lt.mp h
    have hshift : (base <<< exponent.toUInt64).toNat = base.toNat * 2 ^ exponent.toNat % 2 ^ 64 := by
      rw [UInt64.toNat_shiftLeft, UInt32.toNat_toUInt64, Nat.mod_eq_of_lt h', Nat.shiftLeft_eq]
    rw [if_pos h, if_pos h', Option.filter_some, Option.filter_some, ← hshift]
    by_cases hle : base <<< exponent.toUInt64 ≤ limit
    · rw [if_pos (by simpa using hle), if_pos (by simpa using UInt64.le_iff_toNat_le.mp hle)]
      rfl
    · rw [if_neg (by simpa using hle), if_neg (by simpa using UInt64.le_iff_toNat_le.not.mp hle)]
      rfl
  · have h' : ¬ exponent.toNat < 64 := UInt32.lt_iff_toNat_lt.not.mp h
    rw [if_neg h, if_neg h']
    rfl

/-! ## The doubling delay -/

/-- `base'` -/
def leastDelay (baseSeconds : UInt64) : Nat :=
  max baseSeconds.toNat 1

/-- `max'` -/
def mostDelay (baseSeconds maxSeconds : UInt64) : Nat :=
  max maxSeconds.toNat (leastDelay baseSeconds)

/-- How often the delay has been doubled. -/
def doublings (attempts : Int32) : Nat :=
  (max attempts.toInt 1 - 1).toNat

/-- Doubling from the base up to the ceiling. -/
structure BacksOff (attempts : Int32) (baseSeconds maxSeconds : UInt64) : Prop where
  value : (Machine.retryDelay attempts baseSeconds maxSeconds).toNat =
    min (mostDelay baseSeconds maxSeconds) (leastDelay baseSeconds * 2 ^ doublings attempts)
  least : leastDelay baseSeconds ≤ (Machine.retryDelay attempts baseSeconds maxSeconds).toNat
  most : (Machine.retryDelay attempts baseSeconds maxSeconds).toNat ≤ mostDelay baseSeconds maxSeconds
  growing : ∀ earlier ≤ attempts, Machine.retryDelay earlier baseSeconds maxSeconds ≤
    Machine.retryDelay attempts baseSeconds maxSeconds

theorem retryDelay_eq : (Machine.retryDelay attempts baseSeconds maxSeconds).toNat =
    if doublings attempts < 64 ∧
        leastDelay baseSeconds * 2 ^ doublings attempts % 2 ^ 64 ≤ mostDelay baseSeconds maxSeconds then
      leastDelay baseSeconds * 2 ^ doublings attempts % 2 ^ 64
    else mostDelay baseSeconds maxSeconds := by
  have hexponent : max attempts.toInt.toNat 1 - 1 = doublings attempts := by
    unfold doublings
    omega
  rw [toNat_retryDelay]
  unfold retryDelay checkedShl
  rw [hexponent]
  show (Option.filter (fun value => decide (value ≤ mostDelay baseSeconds maxSeconds))
    (if doublings attempts < 64 then some (leastDelay baseSeconds * 2 ^ doublings attempts % 2 ^ 64)
      else none)).getD (mostDelay baseSeconds maxSeconds) = _
  by_cases hshift : doublings attempts < 64
  · rw [if_pos hshift, Option.filter_some]
    by_cases hle : leastDelay baseSeconds * 2 ^ doublings attempts % 2 ^ 64 ≤ mostDelay baseSeconds maxSeconds
    · rw [if_pos (decide_eq_true hle), if_pos ⟨hshift, hle⟩, Option.getD_some]
    · rw [if_neg (by simpa using hle), if_neg fun h => hle h.2, Option.getD_none]
  · rw [if_neg hshift, if_neg fun h => hshift h.1]
    rfl

theorem least_le_most : leastDelay baseSeconds ≤ mostDelay baseSeconds maxSeconds :=
  Nat.le_max_right ..

theorem most_lt : mostDelay baseSeconds maxSeconds < 2 ^ 64 := by
  have hbase := baseSeconds.toNat_lt
  have hmax := maxSeconds.toNat_lt
  unfold mostDelay leastDelay
  omega

theorem least_le_doubled : leastDelay baseSeconds ≤ leastDelay baseSeconds * 2 ^ doublings attempts :=
  Nat.le_mul_of_pos_right _ (Nat.two_pow_pos _)

theorem most_lt_doubled (h : ¬ doublings attempts < 64) :
    mostDelay baseSeconds maxSeconds < leastDelay baseSeconds * 2 ^ doublings attempts := by
  have hpow : 2 ^ 64 ≤ 2 ^ doublings attempts := Nat.pow_le_pow_right (by omega) (by omega)
  have hleast : 1 ≤ leastDelay baseSeconds := Nat.le_max_right ..
  calc mostDelay baseSeconds maxSeconds < 2 ^ 64 := most_lt
    _ ≤ 2 ^ doublings attempts := hpow
    _ ≤ leastDelay baseSeconds * 2 ^ doublings attempts := Nat.le_mul_of_pos_left _ hleast

theorem retryDelay_le : (Machine.retryDelay attempts baseSeconds maxSeconds).toNat ≤
    min (mostDelay baseSeconds maxSeconds) (leastDelay baseSeconds * 2 ^ doublings attempts) := by
  have hmod := Nat.mod_le (leastDelay baseSeconds * 2 ^ doublings attempts) (2 ^ 64)
  rw [retryDelay_eq]
  split
  · next h => exact Nat.le_min.mpr ⟨h.2, hmod⟩
  · next h =>
    refine Nat.le_min.mpr ⟨Nat.le_refl _, ?_⟩
    by_cases hshift : doublings attempts < 64
    · have := fun hle => h ⟨hshift, hle⟩
      omega
    · exact Nat.le_of_lt (most_lt_doubled hshift)

theorem retryDelay_value_iff : (Machine.retryDelay attempts baseSeconds maxSeconds).toNat =
      min (mostDelay baseSeconds maxSeconds) (leastDelay baseSeconds * 2 ^ doublings attempts) ↔
    (doublings attempts < 64 → 2 ^ 64 ≤ leastDelay baseSeconds * 2 ^ doublings attempts →
      mostDelay baseSeconds maxSeconds ≤ leastDelay baseSeconds * 2 ^ doublings attempts % 2 ^ 64) := by
  have hmost : mostDelay baseSeconds maxSeconds < 2 ^ 64 := most_lt
  rw [retryDelay_eq]
  by_cases hshift : doublings attempts < 64
  · by_cases hfits : leastDelay baseSeconds * 2 ^ doublings attempts < 2 ^ 64
    · -- No bit is lost.
      rw [Nat.mod_eq_of_lt hfits]
      split <;> omega
    · split <;> omega
  · have hlong : mostDelay baseSeconds maxSeconds < leastDelay baseSeconds * 2 ^ doublings attempts :=
      most_lt_doubled hshift
    rw [if_neg fun h => hshift h.1]
    omega

theorem doublings_mono {earlier : Int32} (h : earlier ≤ attempts) :
    doublings earlier ≤ doublings attempts := by
  have := Int32.le_iff_toInt_le.mp h
  unfold doublings
  omega

/-- **The delay backs off** unless what a shift leaves of the word is below the ceiling. -/
theorem retryDelay_backsOff_iff (attempts : Int32) (baseSeconds maxSeconds : UInt64) :
    BacksOff attempts baseSeconds maxSeconds ↔
      (doublings attempts < 64 → 2 ^ 64 ≤ leastDelay baseSeconds * 2 ^ doublings attempts →
        mostDelay baseSeconds maxSeconds ≤ leastDelay baseSeconds * 2 ^ doublings attempts % 2 ^ 64) := by
  rw [← retryDelay_value_iff]
  constructor
  · exact BacksOff.value
  · intro hvalue
    refine ⟨hvalue, ?_, ?_, fun earlier hearlier => ?_⟩
    · rw [hvalue]
      exact Nat.le_min.mpr ⟨least_le_most, least_le_doubled⟩
    · rw [hvalue]
      exact Nat.min_le_left ..
    · -- An earlier delay may have lost bits: it is no longer than its doubled one.
      have hpow : 2 ^ doublings earlier ≤ 2 ^ doublings attempts :=
        Nat.pow_le_pow_right (by omega) (doublings_mono hearlier)
      have hdoubled := Nat.mul_le_mul_left (leastDelay baseSeconds) hpow
      have hle : (Machine.retryDelay earlier baseSeconds maxSeconds).toNat ≤ _ := retryDelay_le
      rw [UInt64.le_iff_toNat_le, hvalue]
      omega

/-- The sixty-second attempt with a base of eight seconds is retried at once. -/
theorem not_backsOff_sixtyTwo : ¬ BacksOff 62 8 300 := by
  intro h
  exact absurd h.least (by decide)

/-- The attempts of a row are within its budget, with one left while it is pending. -/
def JobRow.WithinBudget (row : JobRow) : Prop :=
  row.attempts ≤ row.maxAttempts ∧ (row.status = .pending → row.attempts < row.maxAttempts)

/-- The rows, and what a replica knows of the jobs whose claim is still the current one. -/
structure WithinBudget (w : QueueWorld) : Prop where
  rows : ∀ row ∈ w.table.rows, row.WithinBudget
  numbered : ∀ h ∈ w.held, h.claim < w.batches
  known : ∀ h ∈ w.held, ∀ row ∈ w.table.rows, row.id = h.job.id → row.status = .running →
    w.currentClaim h.job.id = some h.claim →
    row.attempts = h.job.attempts ∧ row.maxAttempts = h.job.maxAttempts

/-- The row can go back to `pending`: it has an attempt left. -/
def JobRow.hasAttemptLeft (row : JobRow) : Bool :=
  row.attempts < row.maxAttempts

/-- The condition on a step: what the sweep returns, and what an overtaken claimer reschedules, has
an attempt left. -/
def ReturnsWithinBudget (n : Nat) (w : QueueWorld) : QueueOp → Prop
  | .requeueStale staleSeconds =>
    ∀ row ∈ w.table.rows, row.stale w.now staleSeconds → row.hasAttemptLeft
  | .reschedule id _ _ => w.heldClaim n id = w.currentClaim id ∨
    ∀ row ∈ w.table.rows, JobTable.runningJob id row → row.hasAttemptLeft
  | _ => True

instance (n : Nat) (w : QueueWorld) (o : QueueOp) : Decidable (ReturnsWithinBudget n w o) :=
  match o with
  | .requeueStale staleSeconds =>
    inferInstanceAs (Decidable (∀ row ∈ w.table.rows, row.stale w.now staleSeconds → row.hasAttemptLeft))
  | .reschedule id _ _ => inferInstanceAs (Decidable (w.heldClaim n id = w.currentClaim id ∨
    ∀ row ∈ w.table.rows, JobTable.runningJob id row → row.hasAttemptLeft))
  | .instant | .stop | .dispatch .. | .utcNow | .claimBatch .. | .complete _ | .deadLetter ..
  | .pruneTerminal _ => isTrue trivial

section

variable {n : Nat} {w w' : QueueWorld}

theorem known_quiet (h : WithinBudget w) (hquiet : w.Quiet w') :
    (∀ h ∈ w'.held, h.claim < w'.batches) ∧
      ∀ h ∈ w'.held, ∀ row ∈ w'.table.rows, row.id = h.job.id → row.status = .running →
        w'.currentClaim h.job.id = some h.claim →
        row.attempts = h.job.attempts ∧ row.maxAttempts = h.job.maxAttempts := by
  constructor
  · intro held hheld
    rw [hquiet.batches]
    exact h.numbered held (hquiet.held held hheld)
  · intro held hheld row hrow hid hrunning hclaim
    obtain ⟨old, hold, hcontinues⟩ := hquiet.table row hrow
    rw [QueueWorld.currentClaim, hquiet.claims] at hclaim
    rw [hcontinues.attempts_eq, hcontinues.maxAttempts_eq]
    exact h.known held (hquiet.held held hheld) old hold (hcontinues.id_eq.symm.trans hid)
      (hcontinues.running hrunning) hclaim

theorem withinBudget_continues {old new : JobRow} (h : old.WithinBudget) (hnew : old.Continues new)
    (hpending : new.status = .pending → old.status = .pending ∨ old.hasAttemptLeft) :
    new.WithinBudget := by
  rw [JobRow.WithinBudget, hnew.attempts_eq, hnew.maxAttempts_eq]
  refine ⟨h.1, fun hstatus => ?_⟩
  rcases hpending hstatus with hold | hleft
  · exact h.2 hold
  · exact of_decide_eq_true hleft

variable {id : Uuid}

theorem rows_settle (h : ∀ row ∈ w.table.rows, row.WithinBudget) {f : JobRow → JobRow}
    {hid : ∀ row, (f row).id = row.id} (hf : ∀ row : JobRow, row.Continues (f row))
    (hpending : ∀ row ∈ w.table.rows, JobTable.runningJob id row → (f row).status = .pending →
      row.hasAttemptLeft) : ∀ row ∈ (w.table.settle id f hid).rows, row.WithinBudget := by
  intro row hrow
  obtain ⟨old, hold, rfl⟩ := JobTable.mem_update.mp hrow
  split
  · rename_i hmatch
    exact withinBudget_continues (h old hold) (hf old)
      fun hstatus => .inr (hpending old hold hmatch hstatus)
  · exact h old hold

theorem rows_requeueStale (h : ∀ row ∈ w.table.rows, row.WithinBudget) {now : Int}
    {staleSeconds : Nat}
    (hleft : ∀ row ∈ w.table.rows, row.stale now staleSeconds → row.hasAttemptLeft) :
    ∀ row ∈ (w.table.requeueStale now staleSeconds).rows, row.WithinBudget := by
  intro row hrow
  obtain ⟨old, hold, rfl⟩ := JobTable.mem_update.mp hrow
  split
  · rename_i hstale
    exact withinBudget_continues (h old hold) ⟨rfl, rfl, rfl, nofun⟩
      fun _ => .inr (hleft old hold hstale)
  · exact h old hold

variable {claimedBy : Uuid} {jobs : List ClaimedJob}

variable {limit : Nat}

theorem rows_claimed (h : WithinBudget w)
    (hclaimable : w.table.Claimable w.now claimedBy limit jobs) :
    ∀ row ∈ (w.table.claimBatch w.now claimedBy jobs).rows, row.WithinBudget := by
  intro row hrow
  obtain ⟨old, hold, -, hcases⟩ := mem_claimBatch hrow
  rcases hcases with ⟨hclaimed, rfl⟩ | ⟨-, rfl⟩
  · -- the row was pending, so the claim takes an attempt that was left
    have hdue := of_decide_eq_true (due_of_claimable hclaimable hold hclaimed)
    exact ⟨(h.rows old hold).2 hdue.1, nofun⟩
  · exact h.rows row hold

theorem withinBudget_claimed (h : WithinBudget w)
    (hclaimable : w.table.Claimable w.now claimedBy limit jobs) :
    WithinBudget (w.claimed claimedBy jobs) where
  rows := rows_claimed h hclaimable
  numbered held hheld := Nat.lt_succ_of_lt (h.numbered held hheld)
  known held hheld row hrow hid hrunning hclaim := by
    rw [lookup_claimed] at hclaim
    obtain ⟨old, hold, hidold, hcases⟩ := mem_claimBatch hrow
    rcases hcases with ⟨hclaimed, -⟩ | ⟨hclaimed, rfl⟩
    · -- an older claim is not the current one any more
      rw [if_pos (hid ▸ hidold ▸ hclaimed)] at hclaim
      have hnumbered := h.numbered held hheld
      rw [← Option.some.inj hclaim] at hnumbered
      exact absurd hnumbered (Nat.lt_irrefl _)
    · rw [if_neg (hid ▸ hclaimed)] at hclaim
      exact h.known held hheld row hold hid hrunning hclaim

theorem withinBudget_hold (h : WithinBudget w)
    (hclaimable : w.table.Claimable w.now claimedBy limit jobs) :
    WithinBudget ((w.claimed claimedBy jobs).hold n w.batches jobs) := by
  have hclaimed := withinBudget_claimed h hclaimable
  refine ⟨hclaimed.rows, fun held hheld => ?_, fun held hheld row hrow hid hrunning hclaim => ?_⟩
  · rcases List.mem_append.mp hheld with hheld | hheld
    · exact hclaimed.numbered held hheld
    · obtain ⟨job, -, rfl⟩ := List.mem_map.mp hheld
      exact Nat.lt_succ_self _
  · rcases List.mem_append.mp hheld with hheld | hheld
    · exact hclaimed.known held hheld row hrow hid hrunning hclaim
    · -- the job was returned as the update left the row
      obtain ⟨job, hjob, rfl⟩ := List.mem_map.mp hheld
      obtain ⟨old, hold, hidold, hcases⟩ := mem_claimBatch hrow
      obtain ⟨source, hsource, -, hreturned⟩ := hclaimable.2.2 job hjob
      have hsame : old = source := by
        refine List.inj_on_of_nodup_map w.table.id_unique hold hsource ?_
        rw [← hidold, hid, ← hreturned]
        rfl
      rcases hcases with ⟨-, rfl⟩ | ⟨hnot, rfl⟩
      · rw [hsame, ← hreturned]
        exact ⟨rfl, rfl⟩
      · exact absurd (hid ▸ List.mem_map_of_mem hjob) hnot

theorem hasAttemptLeft_of_reschedule (h : WithinBudget w) {runAt : Int} {error : String}
    (hguard : ReturnsWithinBudget n w (.reschedule id runAt error))
    (hmay : pollContract.may (w.heldJobs n) (.reschedule id runAt error)) {row : JobRow}
    (hrow : row ∈ w.table.rows) (hmatch : JobTable.runningJob id row) : row.hasAttemptLeft := by
  rcases hguard with hcurrent | hleft
  · obtain ⟨held, hheld, hreplica, hid, hclaim⟩ := heldClaim_of_may rfl hmay
    obtain ⟨hrowId, hrunning⟩ := of_decide_eq_true hmatch
    have hlookup : w.currentClaim held.job.id = some held.claim := by
      rw [hid, ← hcurrent, hclaim]
    obtain ⟨hattempts, hmax⟩ :=
      h.known held hheld row hrow (hrowId.trans hid.symm) hrunning hlookup
    have hjob : held.job ∈ w.heldJobs n :=
      QueueWorld.mem_heldJobs.mpr ⟨held, hheld, hreplica, rfl⟩
    have hexhausted := hmay.2 held.job hjob hid
    rw [← hattempts, ← hmax, attemptsExhausted, decide_eq_false_iff_not] at hexhausted
    have hpos := row.maxAttempts_pos
    rw [JobRow.hasAttemptLeft, decide_eq_true_eq]
    omega
  · exact hleft row hrow hmatch

theorem rows_grantSettle {table : JobTable} (reply : Reply Unit)
    (h : ∀ row ∈ w.table.rows, row.WithinBudget) (htable : ∀ row ∈ table.rows, row.WithinBudget) :
    ∀ row ∈ (grantSettle n w id table reply).table.rows, row.WithinBudget := by
  rcases table_grantSettle n w id table reply with heq | heq
  · rw [heq]
    exact htable
  · rw [heq]
    exact h

theorem rows_grantReplica {o : QueueOp} {x : queueSig.Ans o} (h : WithinBudget w)
    (hguard : ReturnsWithinBudget n w o) (hmay : pollContract.may (w.heldJobs n) o)
    (hgrant : grantReplica n w o x = some w') : ∀ row ∈ w'.table.rows, row.WithinBudget := by
  cases o with
  | claimBatch claimedBy limit =>
    cases x with
    | failed =>
      cases hgrant
      exact h.rows
    | ok jobs | lost jobs =>
      simp only [grantReplica] at hgrant
      split at hgrant
      · rename_i hclaimable
        cases hgrant
        exact rows_claimed h hclaimable
      · cases hgrant
  | requeueStale staleSeconds =>
    cases x with
    | failed =>
      cases hgrant
      exact h.rows
    | ok a | lost a =>
      simp only [grantReplica] at hgrant
      split at hgrant
      · cases hgrant
        exact rows_requeueStale h.rows hguard
      · cases hgrant
  | complete id =>
    cases hgrant
    exact rows_grantSettle x h.rows
      (rows_settle h.rows (fun _ => ⟨rfl, rfl, rfl, fun h => by cases h⟩) fun _ _ _ h => by cases h)
  | reschedule id runAt error =>
    cases hgrant
    exact rows_grantSettle x h.rows (rows_settle h.rows (fun _ => ⟨rfl, rfl, rfl, fun h => by cases h⟩)
      fun row hrow hmatch _ => hasAttemptLeft_of_reschedule h hguard hmay hrow hmatch)
  | deadLetter id error =>
    cases hgrant
    exact rows_grantSettle x h.rows
      (rows_settle h.rows (fun _ => ⟨rfl, rfl, rfl, fun h => by cases h⟩) fun _ _ _ h => by cases h)
  | pruneTerminal retentionHours =>
    cases x with
    | failed =>
      cases hgrant
      exact h.rows
    | ok a | lost a =>
      simp only [grantReplica] at hgrant
      split at hgrant
      · cases hgrant
        exact fun row hrow => h.rows row (List.mem_filter.mp hrow).1
      · cases hgrant
  | instant | stop | dispatch job budget | utcNow =>
    cases hgrant
    exact h.rows

theorem kept_withinBudget : Kept ReturnsWithinBudget WithinBudget where
  replica {n w o x w'} h hguard hmay hgrant := by
    rcases grantReplica_cases hgrant with ⟨claimedBy, limit, jobs, rfl, hclaimable, hw'⟩ | hquiet
    · rcases hw' with rfl | rfl
      · exact withinBudget_hold h hclaimable
      · exact withinBudget_claimed h hclaimable
    · obtain ⟨hnumbered, hknown⟩ := known_quiet h hquiet
      exact ⟨rows_grantReplica h hguard hmay hgrant, hnumbered, hknown⟩
  insert {w} job id hfresh h := by
    refine ⟨fun row hrow => ?_, h.numbered, fun held hheld row hrow hid hrunning hclaim => ?_⟩
    · rcases List.mem_append.mp hrow with hrow | hrow
      · exact h.rows row hrow
      · rw [List.mem_singleton] at hrow
        subst hrow
        exact ⟨Nat.zero_le _, fun _ => job.maxAttempts_pos⟩
    · rcases List.mem_append.mp hrow with hrow | hrow
      · exact h.known held hheld row hrow hid hrunning hclaim
      · rw [List.mem_singleton] at hrow
        rw [hrow] at hrunning
        cases hrunning
  tick now h := ⟨h.rows, h.numbered, h.known⟩
  die n h :=
    ⟨h.rows, fun held hheld => h.numbered held (List.mem_filter.mp hheld).1,
      fun held hheld => h.known held (List.mem_filter.mp hheld).1⟩

end

/--
**No job is claimed more often than its budget allows**, in every run in which neither the stale
sweep nor an overtaken claimer returns a job that has no attempt left.
-/
theorem attempts_le_maxAttempts (settings : WorkerSettings) (replicaId : Nat → Uuid)
    (calls : Nat → EnqueueCall) {moves : List (queueSystem settings replicaId calls).Move}
    {t : (queueSystem settings replicaId calls).State}
    (hmeets : Transition.Meets (queueSystem settings replicaId calls).step
      (System.Guarded (ReplicaGuard settings replicaId calls ReturnsWithinBudget))
      (queueInitial settings replicaId calls) moves)
    (hrun : Transition.runFrom (queueSystem settings replicaId calls).step
      (queueInitial settings replicaId calls) moves = some t) :
    ∀ row ∈ (QueueWorld.table t.world).rows, row.attempts ≤ row.maxAttempts := by
  obtain ⟨hbudget, -⟩ := invariant_of_kept settings replicaId calls kept_withinBudget
    ⟨fun _ hrow => absurd hrow List.not_mem_nil, nofun, nofun⟩ hmeets hrun
  exact fun row hrow => (hbudget.rows row hrow).1

namespace Sample

/-- A poll that stops before its first job, after which the claim goes stale. -/
def stoppedPoll : List QueueCue :=
  [.poll 0, .statement 0, .statement 0, .statement 0, .stopSignal 0, .statement 0, .statement 0,
    .wait 301]

/-- The attempts and the budget of every job. -/
def budgets (s : queue.State) : List (Nat × Nat) :=
  (QueueWorld.table s.world).rows.map fun row => (row.attempts, row.maxAttempts)

/-- One job and five polls that stop early. -/
def fiveStops : List queue.Move :=
  performQueue ([QueueCue.producer 0, .insert 0 7] ++ (List.replicate 5 stoppedPoll).flatten) queueStart

/-- The sixth claims the job once more. -/
def sixStops : List queue.Move :=
  performQueue ([QueueCue.producer 0, .insert 0 7] ++ (List.replicate 6 stoppedPoll).flatten) queueStart

end Sample

open Sample in
theorem attempts_le_maxAttempts_fiveStops :
    ∃ t, Transition.runFrom queue.step queueStart fiveStops = some t ∧ budgets t = [(5, 5)] ∧
      ∀ row ∈ (QueueWorld.table t.world).rows, row.attempts ≤ row.maxAttempts := by
  have hmoves : (Transition.runFrom queue.step queueStart fiveStops).map budgets =
      some [(5, 5)] := by
    decide +kernel
  have hmeets : Transition.Meets queue.step (System.Guarded (ReplicaGuard {} (fun n => n)
      (fun _ => .enqueue "embedding-retry" .null none) ReturnsWithinBudget)) queueStart
      fiveStops := by
    decide +kernel
  obtain ⟨t, hrun, hbudgets⟩ := Option.map_eq_some_iff.mp hmoves
  exact ⟨t, hrun, hbudgets, attempts_le_maxAttempts {} _ _ hmeets hrun⟩

open Sample in
/-- The stale sweep returns the job for a sixth attempt of five. -/
theorem attempts_exceed_sixStops :
    ∃ t, Transition.runFrom queue.step queueStart sixStops = some t ∧
      ¬ ∀ row ∈ (QueueWorld.table t.world).rows, row.attempts ≤ row.maxAttempts := by
  have hmoves : (Transition.runFrom queue.step queueStart sixStops).map budgets =
      some [(6, 5)] := by
    decide +kernel
  obtain ⟨t, hrun, hbudgets⟩ := Option.map_eq_some_iff.mp hmoves
  refine ⟨t, hrun, fun hwithin => ?_⟩
  have hmem : (6, 5) ∈ budgets t := by
    rw [hbudgets]
    exact List.mem_singleton_self _
  obtain ⟨row, hrow, heq⟩ := List.mem_map.mp hmem
  have hle := hwithin row hrow
  rw [(Prod.mk.inj heq).1, (Prod.mk.inj heq).2] at hle
  omega

end Workers

end Moira
