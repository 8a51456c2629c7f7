import Mathlib.Data.List.Basic
import Moira.Cluster.Leases

/-!
# The admission ceiling

**`admission_ceiling`**: there are never more live rows than `max_replicas`; a lease that was
reclaimed or released is never renewed, and a status that is lost is never held again.
-/

namespace Moira

open Transition

/-! ## The statements -/

/-- A statement that brings no lease to life. -/
structure NoNewLive (table table' : LeaseTable) : Prop where
  live : countLive table' ≤ countLive table
  holds : ∀ id, table'.countP (ReplicaLease.holds id) ≤ table.countP (ReplicaLease.holds id)

section

variable {table table' table'' : LeaseTable} {now : Int} {id : Nat}

theorem NoNewLive.trans (h : NoNewLive table table') (h' : NoNewLive table' table'') :
    NoNewLive table table'' :=
  ⟨Nat.le_trans h'.live h.live, fun id => Nat.le_trans (h'.holds id) (h.holds id)⟩

theorem countP_map_le {α : Type} {p : α → Bool} {f : α → α} (hf : ∀ a, p (f a) = true → p a = true)
    (l : List α) : (l.map f).countP p ≤ l.countP p := by
  rw [List.countP_map]
  exact List.countP_mono_left fun a _ ha => hf a ha

theorem noNewLive_map {f : ReplicaLease → ReplicaLease}
    (hid : ∀ row, (f row).replicaId = row.replicaId)
    (hlive : ∀ row, (f row).live = true → row.live = true) : NoNewLive table (table.map f) := by
  refine ⟨countP_map_le hlive table, fun id => countP_map_le ?_ table⟩
  intro row hrow
  obtain ⟨hrowId, hrowLive⟩ := of_decide_eq_true hrow
  exact decide_eq_true ⟨(hid row).symm.trans hrowId, hlive row hrowLive⟩

theorem noNewLive_reclaim (expiry : Int) : NoNewLive table (reclaimExpired now expiry table) := by
  apply noNewLive_map
  · intro row
    split <;> rfl
  · intro row hrow
    split at hrow
    · cases hrow
    · exact hrow

theorem noNewLive_prune : NoNewLive table (pruneReleased now table) :=
  ⟨List.filter_sublist.countP_le, fun _ => List.filter_sublist.countP_le⟩

theorem noNewLive_renew : NoNewLive table (renewLease now id table).2 := by
  apply noNewLive_map
  · intro row
    split <;> rfl
  · intro row hrow
    split at hrow
    · exact hrow
    · exact hrow

theorem noNewLive_release : NoNewLive table (releaseLease now id table) := by
  apply noNewLive_map
  · intro row
    split <;> rfl
  · intro row hrow
    split at hrow
    · cases hrow
    · exact hrow

theorem renewLease_dead (h : table.countP (ReplicaLease.holds id) = 0) :
    (renewLease now id table).1 = false := by
  unfold renewLease
  rw [h]
  rfl

theorem acquireLease_cases {podName : String} {maxReplicas expirySeconds : Nat}
    {outcome : ClusterLeaseOutcome}
    (h : acquireLease now id podName maxReplicas expirySeconds table = some (outcome, table')) :
    (NoNewLive table table' ∧ ∃ live, outcome = .denied live maxReplicas) ∨
    ∃ rest row grant, NoNewLive table rest ∧ countLive rest < maxReplicas ∧ row.replicaId = id ∧
      table' = row :: rest ∧ outcome = .granted grant ∧ grant.replicaId = id := by
  have hcleared : NoNewLive table
      (pruneReleased now (reclaimExpired now (expiryAsI64 expirySeconds) table)) :=
    (noNewLive_reclaim _).trans noNewLive_prune
  unfold acquireLease at h
  simp only at h
  split at h
  · cases h
    exact .inl ⟨hcleared, _, rfl⟩
  · next hroom =>
    unfold insertLease at h
    split at h
    · cases h
    · cases h
      exact .inr ⟨_, _, _, hcleared, Nat.not_le.mp hroom, rfl, rfl, rfl, rfl⟩

end

/-! ## One move -/

/-- What a move does to the table. -/
structure TableStep (maxReplicas : Nat) (s s' : LeaseCluster) : Prop where
  ceiling : countLive s.table ≤ maxReplicas → countLive s'.table ≤ maxReplicas
  drawn : ∀ id ∈ s.drawn, id ∈ s'.drawn
  holds : ∀ id ∈ s.drawn,
    s'.table.countP (ReplicaLease.holds id) ≤ s.table.countP (ReplicaLease.holds id)
  -- an id that is drawn now may get a row
  fresh : ∀ id ∉ s.drawn, s.table.countP (ReplicaLease.holds id) = 0 →
    s'.table.countP (ReplicaLease.holds id) ≤ if id ∈ s'.drawn then 1 else 0

section

variable {maxReplicas expirySeconds : Nat} {s s' : LeaseCluster} {m : LeaseMove} {id : Nat}

theorem tableStep_of_noNewLive (htable : NoNewLive s.table s'.table)
    (hdrawn : ∀ id ∈ s.drawn, id ∈ s'.drawn) : TableStep maxReplicas s s' := by
  refine ⟨Nat.le_trans htable.live, hdrawn, fun id _ => htable.holds id, ?_⟩
  intro id _ hnone
  have hle := htable.holds id
  omega

theorem NoNewLive.refl {table : LeaseTable} : NoNewLive table table :=
  ⟨Nat.le_refl _, fun _ => Nat.le_refl _⟩

theorem tableStep_acquire {podName : String} {startedAt : Int} {fate : CallFate} (hfresh : id ∉ s.drawn) :
    TableStep maxReplicas s (s.acquire maxReplicas expirySeconds id podName startedAt fate) := by
  unfold LeaseCluster.acquire
  simp only
  split
  · exact tableStep_of_noNewLive .refl fun _ h => List.mem_cons_of_mem _ h
  split
  · exact tableStep_of_noNewLive .refl fun _ h => List.mem_cons_of_mem _ h
  · next hacquire =>
    rcases acquireLease_cases hacquire with ⟨hdenied, -⟩ | ⟨_, _, _, _, _, _, _, hgranted, _⟩
    · exact tableStep_of_noNewLive hdenied fun _ h => List.mem_cons_of_mem _ h
    · cases hgranted
  · next hacquire =>
    rcases acquireLease_cases hacquire with ⟨-, _, hdenied⟩ | ⟨rest, row, _, hrest, hroom, hrow, rfl, -, -⟩
    · cases hdenied
    -- the new row is live, and belongs to an id that was never drawn before
    have htable : TableStep maxReplicas s { s with table := row :: rest, drawn := id :: s.drawn } := by
      have hother : ∀ other ≠ id, (row :: rest).countP (ReplicaLease.holds other) ≤
          s.table.countP (ReplicaLease.holds other) := by
        intro other hne
        have hfalse : row.holds other = false :=
          decide_eq_false fun heq => hne (heq.1.symm.trans hrow)
        rw [List.countP_cons_of_neg (by simp [hfalse])]
        exact hrest.holds other
      refine ⟨fun _ => ?_, fun _ h => List.mem_cons_of_mem _ h, ?_, ?_⟩
      · have hcons : countLive (row :: rest) ≤ countLive rest + 1 := by
          unfold countLive
          rw [List.countP_cons]
          split <;> omega
        exact Nat.le_trans hcons hroom
      · intro other hdrawn
        exact hother other fun heq => hfresh (heq ▸ hdrawn)
      · intro other hdrawn hnone
        by_cases heq : other = id
        · subst heq
          have hrest := hrest.holds other
          rw [if_pos List.mem_cons_self, List.countP_cons]
          split <;> omega
        · have hle := hother other heq
          rw [hnone] at hle
          exact Nat.le_trans hle (Nat.zero_le _)
    split
    · exact ⟨htable.ceiling, htable.drawn, htable.holds, htable.fresh⟩
    · exact htable

theorem leaseStep_table (hstep : leaseStep maxReplicas expirySeconds s m = some s') :
    TableStep maxReplicas s s' := by
  cases m with
  | acquire replicaId podName startedAt fate =>
    simp only [leaseStep] at hstep
    split at hstep
    · next hfresh =>
      cases hstep
      exact tableStep_acquire hfresh.1
    · cases hstep
  | renew replicaId startedAt fate =>
    obtain ⟨holder, -, hstep⟩ := Option.bind_eq_some_iff.mp hstep
    split at hstep
    · cases hstep
      cases fate with
      | neverRan => exact tableStep_of_noNewLive .refl fun _ h => h
      | ranUnanswered => exact tableStep_of_noNewLive noNewLive_renew fun _ h => h
      | answered => exact tableStep_of_noNewLive noNewLive_renew fun _ h => h
    · cases hstep
  | beat replicaId =>
    simp only [leaseStep, Option.bind_eq_bind, Option.bind_eq_some_iff] at hstep
    obtain ⟨holder, -, renewed, -, hstep⟩ := hstep
    cases hstep
    exact tableStep_of_noNewLive .refl fun _ h => h
  | stop replicaId =>
    obtain ⟨holder, -, hstep⟩ := Option.bind_eq_some_iff.mp hstep
    cases hstep
    exact tableStep_of_noNewLive .refl fun _ h => h
  | release replicaId startedAt fate =>
    obtain ⟨holder, -, hstep⟩ := Option.bind_eq_some_iff.mp hstep
    split at hstep
    · cases hstep
      cases fate with
      | neverRan => exact tableStep_of_noNewLive .refl fun _ h => h
      | ranUnanswered => exact tableStep_of_noNewLive noNewLive_release fun _ h => h
      | answered => exact tableStep_of_noNewLive noNewLive_release fun _ h => h
    · cases hstep
  | crash replicaId =>
    cases hstep
    exact tableStep_of_noNewLive .refl fun _ h => h
  | elapse micros =>
    cases hstep
    exact tableStep_of_noNewLive .refl fun _ h => h

/-- What a move does to the process of `id`. -/
inductive HolderStep (id : Nat) (s : LeaseCluster) (drawn : List Nat) : Option LeaseHolder → Prop
  | same : HolderStep id s drawn (s.holders id)
  | granted (hfresh : id ∉ s.drawn) (hdrawn : id ∈ drawn) : HolderStep id s drawn (some { status := .held })
  | renewed {holder : LeaseHolder} {now : Int} (h : s.holders id = some holder) :
    HolderStep id s drawn (some { holder with renewing := some (some (renewLease now id s.table).1) })
  | unanswered {holder : LeaseHolder} (h : s.holders id = some holder) :
    HolderStep id s drawn (some { holder with renewing := some none })
  | beat {holder : LeaseHolder} {renewed : Option Bool} (h : s.holders id = some holder)
    (hrenewing : holder.renewing = some renewed) : HolderStep id s drawn (some (holder.beat renewed))
  | stopped {holder : LeaseHolder} (h : s.holders id = some holder) :
    HolderStep id s drawn (some { holder with renewing := none, stopped := true })
  | released {holder : LeaseHolder} (h : s.holders id = some holder) :
    HolderStep id s drawn (some { holder with status := .notEnforced })
  | crashed : HolderStep id s drawn none

theorem holderStep_setHolder {drawn : List Nat} {holders : Nat → Option LeaseHolder} {replicaId : Nat}
    {holder : Option LeaseHolder} (hsame : holders = s.holders)
    (h : id = replicaId → HolderStep id s drawn holder) :
    HolderStep id s drawn (Function.update holders replicaId holder id) := by
  by_cases hid : id = replicaId
  · rw [hid, Function.update_self, ← hid]
    exact h hid
  · rw [Function.update_of_ne hid, hsame]
    exact .same

theorem leaseStep_holder (hstep : leaseStep maxReplicas expirySeconds s m = some s') (id : Nat) :
    HolderStep id s s'.drawn (s'.holders id) := by
  cases m with
  | acquire replicaId podName startedAt fate =>
    simp only [leaseStep] at hstep
    split at hstep
    · next hfresh =>
      cases hstep
      unfold LeaseCluster.acquire
      simp only
      split
      · exact .same
      split
      · exact .same
      · exact .same
      · next hacquire =>
        split
        · apply holderStep_setHolder rfl
          rcases acquireLease_cases hacquire with ⟨-, _, hdenied⟩ | ⟨_, _, _, _, _, _, -, hgrant, hid⟩
          · cases hdenied
          · cases hgrant
            rintro rfl
            exact .granted (hid ▸ hfresh.1) (hid ▸ List.mem_cons_self)
        · exact .same
    · cases hstep
  | renew replicaId startedAt fate =>
    obtain ⟨holder, hholder, hstep⟩ := Option.bind_eq_some_iff.mp hstep
    split at hstep
    · cases hstep
      cases fate with
      | neverRan =>
        apply holderStep_setHolder rfl
        rintro rfl
        exact .unanswered hholder
      | ranUnanswered =>
        apply holderStep_setHolder rfl
        rintro rfl
        exact .unanswered hholder
      | answered =>
        apply holderStep_setHolder rfl
        rintro rfl
        exact .renewed hholder
    · cases hstep
  | beat replicaId =>
    simp only [leaseStep, Option.bind_eq_bind, Option.bind_eq_some_iff] at hstep
    obtain ⟨holder, hholder, renewed, hrenewing, hstep⟩ := hstep
    cases hstep
    apply holderStep_setHolder rfl
    rintro rfl
    exact .beat hholder hrenewing
  | stop replicaId =>
    obtain ⟨holder, hholder, hstep⟩ := Option.bind_eq_some_iff.mp hstep
    cases hstep
    apply holderStep_setHolder rfl
    rintro rfl
    exact .stopped hholder
  | release replicaId startedAt fate =>
    obtain ⟨holder, hholder, hstep⟩ := Option.bind_eq_some_iff.mp hstep
    split at hstep
    · cases hstep
      apply holderStep_setHolder rfl
      rintro rfl
      exact .released hholder
    · cases hstep
  | crash replicaId =>
    cases hstep
    exact holderStep_setHolder rfl fun _ => .crashed
  | elapse micros =>
    cases hstep
    exact .same

/-! ## Replicas without a lease -/

/-- `id` was drawn, and has no live row: it was reclaimed, released, or never granted. -/
structure Dead (id : Nat) (s : LeaseCluster) : Prop where
  drawn : id ∈ s.drawn
  none : s.table.countP (ReplicaLease.holds id) = 0

/-- The process of `id` does not report a lease, and will not. -/
structure Outside (id : Nat) (s : LeaseCluster) : Prop where
  dead : Dead id s
  quiet : ∀ holder, s.holders id = some holder →
    holder.status ≠ .held ∧ holder.renewing ≠ some (some true)

/-- What the processes have heard of their leases is true of the table, which has one row a replica.
-/
structure Heard (s : LeaseCluster) : Prop where
  unique : ∀ id, s.table.countP (ReplicaLease.holds id) ≤ if id ∈ s.drawn then 1 else 0
  drawn : ∀ id holder, s.holders id = some holder → id ∈ s.drawn
  lost : ∀ id holder, s.holders id = some holder → holder.status = .lost → Outside id s
  refused : ∀ id holder, s.holders id = some holder → holder.renewing = some (some false) → Dead id s

theorem dead_step (h : Dead id s) (hstep : leaseStep maxReplicas expirySeconds s m = some s') :
    Dead id s' := by
  have htable := leaseStep_table hstep
  have hholds := htable.holds id h.drawn
  have hnone := h.none
  exact ⟨htable.drawn id h.drawn, by omega⟩

theorem outside_step (h : Outside id s) (hstep : leaseStep maxReplicas expirySeconds s m = some s') :
    Outside id s' := by
  refine ⟨dead_step h.dead hstep, ?_⟩
  intro holder' hholder'
  have hmove := leaseStep_holder hstep id
  rw [hholder'] at hmove
  generalize hnew : some holder' = new at hmove
  cases hmove with
  | same => exact h.quiet holder' hnew.symm
  | granted hfresh => exact absurd h.dead.drawn hfresh
  | renewed hholder =>
    cases hnew
    refine ⟨(h.quiet _ hholder).1, ?_⟩
    rw [renewLease_dead h.dead.none]
    exact nofun
  | unanswered hholder =>
    cases hnew
    exact ⟨(h.quiet _ hholder).1, nofun⟩
  | beat hholder hrenewing =>
    cases hnew
    rename_i holder renewed
    have hquiet := h.quiet holder hholder
    rcases renewed with - | - | -
    · exact ⟨hquiet.1, nofun⟩
    · exact ⟨nofun, nofun⟩
    · exact absurd hrenewing hquiet.2
  | stopped hholder =>
    cases hnew
    exact ⟨(h.quiet _ hholder).1, nofun⟩
  | released hholder =>
    cases hnew
    exact ⟨nofun, (h.quiet _ hholder).2⟩
  | crashed => cases hnew

/-- No drawn id is held twice after a step. -/
theorem unique_step (h : Heard s) (hstep : leaseStep maxReplicas expirySeconds s m = some s') (id : Nat) :
    s'.table.countP (ReplicaLease.holds id) ≤ if id ∈ s'.drawn then 1 else 0 := by
  have htable := leaseStep_table hstep
  have hunique := h.unique id
  by_cases hdrawn : id ∈ s.drawn
  · rw [if_pos hdrawn] at hunique
    rw [if_pos (htable.drawn id hdrawn)]
    exact Nat.le_trans (htable.holds id hdrawn) hunique
  · rw [if_neg hdrawn] at hunique
    exact htable.fresh id hdrawn (Nat.le_zero.mp hunique)

theorem dead_of_refused {now : Int} (h : Heard s) (hdrawn : id ∈ s.drawn)
    (hrefused : (renewLease now id s.table).1 = false) : Dead id s := by
  have hunique := h.unique id
  rw [if_pos hdrawn] at hunique
  have hne : s.table.countP (ReplicaLease.holds id) ≠ 1 := of_decide_eq_false hrefused
  exact ⟨hdrawn, by omega⟩

theorem heard_step (h : Heard s) (hstep : leaseStep maxReplicas expirySeconds s m = some s') :
    Heard s' := by
  have hkept : ∀ id ∈ s.drawn, id ∈ s'.drawn := (leaseStep_table hstep).drawn
  refine ⟨unique_step h hstep, ?_, ?_, ?_⟩
  · intro id holder' hholder'
    have hmove := leaseStep_holder hstep id
    rw [hholder'] at hmove
    generalize hnew : some holder' = new at hmove
    cases hmove with
    | same => exact hkept id (h.drawn id _ hnew.symm)
    | granted _ hdrawn => exact hdrawn
    | renewed hholder | unanswered hholder | beat hholder | stopped hholder | released hholder =>
      exact hkept id (h.drawn id _ hholder)
    | crashed => cases hnew
  · intro id holder' hholder' hlost
    -- a status is lost because it was, or because a refused renewal resolves
    have hmove := leaseStep_holder hstep id
    rw [hholder'] at hmove
    generalize hnew : some holder' = new at hmove
    cases hmove with
    | same => exact outside_step (h.lost id _ hnew.symm hlost) hstep
    | granted => cases hnew; cases hlost
    | renewed hholder | unanswered hholder | stopped hholder =>
      cases hnew
      exact outside_step (h.lost id _ hholder hlost) hstep
    | beat hholder hrenewing =>
      cases hnew
      rename_i holder renewed
      rcases renewed with - | - | -
      · exact outside_step (h.lost id _ hholder hlost) hstep
      · refine ⟨dead_step (h.refused id _ hholder hrenewing) hstep, ?_⟩
        intro other hother
        obtain rfl := Option.some.inj (hother.symm.trans hholder')
        exact ⟨nofun, nofun⟩
      · cases hlost
    | released => cases hnew; cases hlost
    | crashed => cases hnew
  · intro id holder' hholder' hrefused
    have hmove := leaseStep_holder hstep id
    rw [hholder'] at hmove
    generalize hnew : some holder' = new at hmove
    cases hmove with
    | same => exact dead_step (h.refused id _ hnew.symm hrefused) hstep
    | renewed hholder =>
      cases hnew
      have hanswer := Option.some.inj (Option.some.inj hrefused)
      exact dead_step (dead_of_refused h (h.drawn id _ hholder) hanswer) hstep
    | granted | unanswered | stopped => cases hnew; cases hrefused
    | beat hholder hrenewing =>
      cases hnew
      rename_i holder renewed
      rcases renewed with - | - | - <;> cases hrefused
    | released hholder =>
      cases hnew
      exact dead_step (h.refused id _ hholder hrefused) hstep
    | crashed => cases hnew

end

/--
**The admission ceiling**: there are never more live rows than `max_replicas`; once a replica's row
has been reclaimed or released, every later renewal of it returns `false`; and a process whose
status is lost never reports a held lease again.
-/
theorem admission_ceiling (maxReplicas expirySeconds : Nat) {s t : LeaseCluster}
    {before after : List LeaseMove}
    (hbefore : runFrom (leaseStep maxReplicas expirySeconds) {} before = some s)
    (hafter : runFrom (leaseStep maxReplicas expirySeconds) s after = some t) :
    countLive t.table ≤ maxReplicas ∧
    (∀ id, Dead id s → ∀ now, (renewLease now id t.table).1 = false) ∧
    ∀ id holder holder', s.holders id = some holder → holder.status = .lost →
      t.holders id = some holder' → holder'.status ≠ .held := by
  have hceiling : countLive s.table ≤ maxReplicas :=
    runFrom_invariant (I := fun s => countLive s.table ≤ maxReplicas) hbefore (Nat.zero_le _)
      fun _ _ _ h hstep => (leaseStep_table hstep).ceiling h
  have hheard : Heard s := by
    refine runFrom_invariant hbefore ⟨fun _ => Nat.zero_le _, ?_, ?_, ?_⟩ fun _ _ _ h => heard_step h
    all_goals exact nofun
  refine ⟨?_, ?_, ?_⟩
  · exact runFrom_invariant (I := fun s => countLive s.table ≤ maxReplicas) hafter hceiling
      fun _ _ _ h hstep => (leaseStep_table hstep).ceiling h
  · intro id hdead now
    have hdead' : Dead id t := runFrom_invariant hafter hdead fun _ _ _ h => dead_step h
    exact renewLease_dead hdead'.none
  · intro id holder holder' hholder hlost hholder'
    have hout : Outside id t :=
      runFrom_invariant hafter (hheard.lost id holder hholder hlost) fun _ _ _ h => outside_step h
    exact (hout.quiet holder' hholder').1

namespace Trial

/-- One replica at most, and a lease that expires after ten seconds. -/
def reclaimed : List LeaseMove :=
  [.acquire 1 "moira-0" 0 .answered, .elapse 11000000, .acquire 2 "moira-1" 11000000 .answered]

/-- The first replica hears of it, and tries again. -/
def twoBeats : List LeaseMove :=
  [.renew 1 11000000 .answered, .beat 1, .renew 1 11000000 .answered, .beat 1]

end Trial

open Trial in
theorem admission_ceiling_reclaimed : ∃ s t,
    runFrom (leaseStep 1 10) {} reclaimed = some s ∧ runFrom (leaseStep 1 10) s twoBeats = some t ∧
    Dead 1 s ∧ countLive t.table ≤ 1 ∧ (renewLease 11000000 1 t.table).1 = false := by
  have hdead : ∀ s, runFrom (leaseStep 1 10) {} reclaimed = some s → Dead 1 s := by
    intro s hrun
    cases hrun
    exact ⟨by decide, by decide⟩
  have h := @admission_ceiling 1 10 _ _ reclaimed twoBeats rfl rfl
  exact ⟨_, _, rfl, rfl, hdead _ rfl, h.1, h.2.1 1 (hdead _ rfl) _⟩

end Moira
