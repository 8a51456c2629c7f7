import Mathlib.Data.List.Basic
import Moira.Orchestration.Concurrency

/-!
# The cluster-wide ceiling

**`cluster_permits_bounded`**: with both, live replicas never hold more permits than the limit.
Without the second, they can (`permits_exceed_longHold`).
-/

namespace Moira

open Transition

/-- Every release that does land lands less than the TTL after its own acquire. -/
def LandsInTime (ttl : Nat) (s : ClusterPermits) : PermitMove → Prop
  | .release permit => s.now < permit.grantedAt + permitTtl ttl
  | _ => True

/-- No live replica still holds a permit when the TTL has passed since its acquire. -/
def HeldInTime (ttl : Nat) (s : ClusterPermits) : PermitMove → Prop
  | .elapse nanos => ∀ permit ∈ s.held, s.now + nanos < permit.grantedAt + permitTtl ttl
  | _ => True

instance (ttl : Nat) (s : ClusterPermits) : ∀ m, Decidable (LandsInTime ttl s m)
  | .release permit => inferInstanceAs (Decidable (s.now < permit.grantedAt + permitTtl ttl))
  | .acquire .. | .loseRelease _ | .crash _ | .elapse _ => isTrue trivial

instance (ttl : Nat) (s : ClusterPermits) : ∀ m, Decidable (HeldInTime ttl s m)
  | .elapse nanos => inferInstanceAs
    (Decidable (∀ permit ∈ s.held, s.now + nanos < permit.grantedAt + permitTtl ttl))
  | .acquire .. | .release _ | .loseRelease _ | .crash _ => isTrue trivial

/-- Younger than the TTL. -/
def ClusterPermits.young (ttl : Nat) (s : ClusterPermits) : List ClusterPermit :=
  s.outstanding.filter fun permit => s.now < permit.grantedAt + permitTtl ttl

/-- The counter counts every young permit, and its deadline is not before theirs. -/
structure Counted (key : String) (limit ttl : Nat) (s : ClusterPermits) : Prop where
  past : ∀ permit ∈ s.outstanding, permit.grantedAt ≤ s.now
  entry : ∀ e, s.db key = some e → 0 < e.value ∧ e.value ≤ max limit 1 ∧
    ∃ deadline, e.expiresAt = some deadline ∧
      ∀ permit ∈ s.outstanding, permit.grantedAt + permitTtl ttl ≤ deadline
  young : ((s.young ttl).length : Int) ≤ s.counter key
  held : ∀ permit ∈ s.held, s.now < permit.grantedAt + permitTtl ttl

section

variable {key : String} {limit ttl : Nat} {s s' : ClusterPermits} {m : PermitMove}

theorem permitTtl_pos : 0 < permitTtl ttl := by
  unfold permitTtl redisMillis
  omega

theorem tryAcquirePermit_eq : tryAcquirePermit s.db s.now key limit ttl =
    if ((min (max limit 1) redisIntegerMax : Nat) : Int) ≤ s.counter key then (false, s.db)
    else (true, s.db.set key
      { value := s.counter key + 1, expiresAt := some (s.now + permitTtl ttl) }) := by
  by_cases hfull : ((min (max limit 1) redisIntegerMax : Nat) : Int) ≤ s.counter key
  · have hscript : permitAcquireScript s.db s.now key ((min (max limit 1) redisIntegerMax : Nat) : Int)
        (redisMillis ttl) = (0, s.db) := if_pos hfull
    simp only [tryAcquirePermit, hscript, if_pos hfull]
    rfl
  · -- the increment leaves the key alive, so that its deadline is set
    have hlive : (s.db.incr s.now key).2.live s.now key =
        some { value := s.counter key + 1
               expiresAt := (s.db.live s.now key).bind RedisEntry.expiresAt } := by
      apply RedisDb.live_set
      cases hentry : s.db.live s.now key with
      | none => rfl
      | some e => exact (RedisDb.live_eq_some.mp hentry).2
    have hscript : permitAcquireScript s.db s.now key ((min (max limit 1) redisIntegerMax : Nat) : Int)
        (redisMillis ttl) = (1, s.db.set key
          { value := s.counter key + 1, expiresAt := some (s.now + permitTtl ttl) }) := by
      have hincr : (s.db.incr s.now key).2 = s.db.set key
          { value := s.counter key + 1
            expiresAt := (s.db.live s.now key).bind RedisEntry.expiresAt } := rfl
      have hroom : ¬((min (max limit 1) redisIntegerMax : Nat) : Int) ≤
          (s.db.get s.now key).getD 0 := hfull
      simp only [permitAcquireScript, if_neg hroom, RedisDb.pexpire, hlive, permitTtl]
      rw [hincr, RedisDb.set_set]
    simp only [tryAcquirePermit, hscript, if_neg hfull]
    rfl

theorem live_cases (h : Counted key limit ttl s) :
    (s.db.live s.now key = none ∧ s.counter key = 0 ∧ s.young ttl = []) ∨
    ∃ e, s.db key = some e ∧ s.db.live s.now key = some e ∧ s.counter key = e.value := by
  cases hlive : s.db.live s.now key with
  | none =>
    have hzero : s.counter key = 0 := by
      unfold ClusterPermits.counter RedisDb.get
      rw [hlive]
      rfl
    refine .inl ⟨rfl, hzero, ?_⟩
    have hyoung := h.young
    rw [hzero] at hyoung
    exact List.eq_nil_of_length_eq_zero (by omega)
  | some e =>
    refine .inr ⟨e, (RedisDb.live_eq_some.mp hlive).1, rfl, ?_⟩
    unfold ClusterPermits.counter RedisDb.get
    rw [hlive]
    rfl

theorem counter_bounds (h : Counted key limit ttl s) :
    0 ≤ s.counter key ∧ s.counter key ≤ max limit 1 := by
  rcases live_cases h with ⟨-, hzero, -⟩ | ⟨e, he, -, hvalue⟩
  · rw [hzero]
    omega
  · obtain ⟨hpos, hle, -⟩ := h.entry e he
    rw [hvalue]
    omega

variable {outstanding : List ClusterPermit}

theorem counter_set {db : RedisDb} {e : RedisEntry} {crashed : List Nat} {now : Nat}
    (he : e.expiresAt.all fun deadline => now < deadline) :
    ClusterPermits.counter key { db := db.set key e, now, outstanding, crashed } = e.value := by
  unfold ClusterPermits.counter RedisDb.get
  simp only
  rw [RedisDb.live_set he]
  rfl

theorem counted_taken (h : Counted key limit ttl s)
    (hroom : ¬((min (max limit 1) redisIntegerMax : Nat) : Int) ≤ s.counter key)
    (hmem : ∀ permit ∈ outstanding, permit ∈ s.outstanding ∨ permit.grantedAt = s.now)
    (hlength : ((outstanding.filter fun permit => s.now < permit.grantedAt + permitTtl ttl).length : Int) ≤
      (s.young ttl).length + 1) :
    Counted key limit ttl
      { s with
        db := s.db.set key { value := s.counter key + 1, expiresAt := some (s.now + permitTtl ttl) }
        outstanding } := by
  have hpast : ∀ permit ∈ outstanding, permit.grantedAt ≤ s.now := by
    intro permit hpermit
    rcases hmem permit hpermit with hold | hnew
    · exact h.past permit hold
    · exact Nat.le_of_eq hnew
  have hlate : (some (s.now + permitTtl ttl)).all (fun deadline => s.now < deadline) = true := by
    rw [Option.all_some]
    exact decide_eq_true (Nat.lt_add_of_pos_right permitTtl_pos)
  obtain ⟨hnonneg, -⟩ := counter_bounds h
  refine ⟨hpast, ?_, ?_, ?_⟩
  · intro e he
    have hself : s.db.set key { value := s.counter key + 1, expiresAt := some (s.now + permitTtl ttl) }
        key = some { value := s.counter key + 1, expiresAt := some (s.now + permitTtl ttl) } :=
      Function.update_self ..
    obtain rfl := Option.some.inj (hself.symm.trans he)
    refine ⟨?_, ?_, _, rfl, ?_⟩
    · show 0 < s.counter key + 1
      omega
    · show s.counter key + 1 ≤ _
      omega
    intro permit hpermit
    have hle := hpast permit hpermit
    omega
  · rw [counter_set hlate]
    have hyoung := h.young
    show ((outstanding.filter fun permit => s.now < permit.grantedAt + permitTtl ttl).length : Int) ≤
      s.counter key + 1
    omega
  · intro permit hpermit
    obtain ⟨hpermit, hlive⟩ := List.mem_filter.mp hpermit
    rcases hmem permit hpermit with hold | hnew
    · exact h.held permit (List.mem_filter.mpr ⟨hold, hlive⟩)
    · have hpos : 0 < permitTtl ttl := permitTtl_pos
      show s.now < _
      omega

theorem counted_acquire (h : Counted key limit ttl s) (replica : Nat) (delivered : Bool) :
    Counted key limit ttl (s.acquire key limit ttl replica delivered) := by
  unfold ClusterPermits.acquire
  rw [tryAcquirePermit_eq]
  by_cases hfull : ((min (max limit 1) redisIntegerMax : Nat) : Int) ≤ s.counter key
  · simp only [if_pos hfull, Bool.false_eq_true, false_and, if_false]
    exact h
  · simp only [if_neg hfull, true_and]
    split
    · apply counted_taken h hfull
      · intro permit hpermit
        rcases List.mem_cons.mp hpermit with rfl | hpermit
        · exact .inr rfl
        · exact .inl hpermit
      · have hcons : ((⟨replica, s.now⟩ : ClusterPermit) :: s.outstanding).filter
            (fun permit => s.now < permit.grantedAt + permitTtl ttl) =
              ⟨replica, s.now⟩ :: s.young ttl := by
          apply List.filter_cons_of_pos
          exact decide_eq_true (Nat.lt_add_of_pos_right permitTtl_pos)
        rw [hcons, List.length_cons]
        omega
    · exact counted_taken h hfull (fun permit hpermit => .inl hpermit) (by
        show ((s.young ttl).length : Int) ≤ _
        omega)

theorem counter_release {e : RedisEntry} (he : s.db.live s.now key = some e) (hpos : 0 < e.value) :
    (permitReleaseScript s.db s.now key).2 =
      if e.value = 1 then s.db.del key else s.db.set key { e with value := e.value - 1 } := by
  have hcurrent : (s.db.get s.now key).getD 0 = e.value := by
    rw [RedisDb.get, he]
    rfl
  have hsome : ¬(s.db.get s.now key).getD 0 ≤ 0 := by omega
  have hdecr : s.db.decr s.now key =
      (e.value + -1, s.db.set key { e with value := e.value + -1 }) := by
    simp only [RedisDb.decr, RedisDb.incrBy, RedisDb.get, he, Option.map_some, Option.getD_some,
      Option.bind_some]
  have hnonneg : ¬e.value + -1 < 0 := by omega
  simp only [permitReleaseScript, if_neg hsome, hdecr, if_neg hnonneg]
  by_cases hone : e.value = 1
  · rw [if_pos hone, if_pos (by omega : e.value + -1 = 0)]
    exact Function.update_idem ..
  · rw [if_neg hone, if_neg (by omega : ¬e.value + -1 = 0)]
    rfl

theorem counted_fewer (h : Counted key limit ttl s) (hsub : outstanding.Sublist s.outstanding) :
    Counted key limit ttl { s with outstanding } := by
  refine ⟨fun permit hpermit => h.past permit (hsub.subset hpermit), ?_, ?_, ?_⟩
  · intro e he
    obtain ⟨hpos, hle, deadline, hdeadline, hlate⟩ := h.entry e he
    exact ⟨hpos, hle, deadline, hdeadline, fun permit hpermit => hlate permit (hsub.subset hpermit)⟩
  · have hlength := (hsub.filter fun permit => s.now < permit.grantedAt + permitTtl ttl).length_le
    have hyoung := h.young
    show ((outstanding.filter fun permit => s.now < permit.grantedAt + permitTtl ttl).length : Int) ≤
      s.counter key
    have hbefore : (s.young ttl).length =
      (s.outstanding.filter fun permit => s.now < permit.grantedAt + permitTtl ttl).length := rfl
    omega
  · intro permit hpermit
    obtain ⟨hpermit, hlive⟩ := List.mem_filter.mp hpermit
    exact h.held permit (List.mem_filter.mpr ⟨hsub.subset hpermit, hlive⟩)

theorem counted_release (h : Counted key limit ttl s) {permit : ClusterPermit}
    (hpermit : permit ∈ s.outstanding) (htime : s.now < permit.grantedAt + permitTtl ttl) :
    Counted key limit ttl (s.release key permit) := by
  have hmine : permit ∈ s.young ttl := List.mem_filter.mpr ⟨hpermit, decide_eq_true htime⟩
  have hfewer := counted_fewer h (List.erase_sublist (a := permit) (l := s.outstanding))
  rcases live_cases h with ⟨-, -, hnone⟩ | ⟨e, he, hlive, hvalue⟩
  · rw [hnone] at hmine
    cases hmine
  obtain ⟨hpos, hle, deadline, hdeadline, hlate⟩ := hfewer.entry e he
  have hyoung : (((s.outstanding.erase permit).filter fun p =>
      s.now < p.grantedAt + permitTtl ttl).length : Int) ≤ e.value - 1 := by
    have herase : (s.outstanding.erase permit).filter (fun p => s.now < p.grantedAt + permitTtl ttl) =
        (s.young ttl).erase permit := (List.erase_filter ..).symm
    have hlength := List.length_erase_of_mem hmine
    have hpositive := List.length_pos_of_mem hmine
    have hcounted := h.young
    rw [herase]
    omega
  unfold ClusterPermits.release
  rw [counter_release hlive hpos]
  by_cases hone : e.value = 1
  · rw [if_pos hone]
    refine ⟨hfewer.past, ?_, ?_, hfewer.held⟩
    · intro e' he'
      have hself : s.db.del key key = none := Function.update_self ..
      cases hself.symm.trans he'
    · have hzero : ClusterPermits.counter key
          { s with db := s.db.del key, outstanding := s.outstanding.erase permit } = 0 := by
        unfold ClusterPermits.counter RedisDb.get RedisDb.live RedisDb.del
        simp only [Function.update_self]
        rfl
      rw [hzero]
      show (((s.outstanding.erase permit).filter fun p =>
        s.now < p.grantedAt + permitTtl ttl).length : Int) ≤ 0
      omega
  · rw [if_neg hone]
    have halive : e.expiresAt.all (fun deadline => s.now < deadline) = true :=
      (RedisDb.live_eq_some.mp hlive).2
    refine ⟨hfewer.past, ?_, ?_, hfewer.held⟩
    · intro e' he'
      have hself : s.db.set key { e with value := e.value - 1 } key =
          some { e with value := e.value - 1 } := Function.update_self ..
      obtain rfl := Option.some.inj (hself.symm.trans he')
      refine ⟨?_, ?_, deadline, hdeadline, hlate⟩
      · show 0 < e.value - 1
        omega
      · show e.value - 1 ≤ _
        omega
    · rw [counter_set (e := { e with value := e.value - 1 }) halive]
      exact hyoung

theorem counted_elapse (h : Counted key limit ttl s) {nanos : Nat}
    (hheld : ∀ permit ∈ s.held, s.now + nanos < permit.grantedAt + permitTtl ttl) :
    Counted key limit ttl { s with now := s.now + nanos } := by
  refine ⟨fun permit hpermit => Nat.le_add_right_of_le (h.past permit hpermit), h.entry, ?_, hheld⟩
  have hsub : (ClusterPermits.young ttl { s with now := s.now + nanos }).length ≤ (s.young ttl).length := by
    apply List.Sublist.length_le
    apply List.monotone_filter_right
    intro permit hyoung
    have := of_decide_eq_true hyoung
    exact decide_eq_true (by simp only at this; omega)
  have hnonneg : 0 ≤ ClusterPermits.counter key { s with now := s.now + nanos } := by
    unfold ClusterPermits.counter RedisDb.get
    cases hlive : s.db.live (s.now + nanos) key with
    | none => exact Int.le_refl 0
    | some e => exact Int.le_of_lt (h.entry e (RedisDb.live_eq_some.mp hlive).1).1
  rcases live_cases h with ⟨-, -, hempty⟩ | ⟨e, he, hlive, hvalue⟩
  · rw [hempty, List.length_nil] at hsub
    omega
  · obtain ⟨-, -, deadline, hdeadline, hlate⟩ := h.entry e he
    by_cases hexpired : deadline ≤ s.now + nanos
    · have hempty : ClusterPermits.young ttl { s with now := s.now + nanos } = [] := by
        apply List.filter_eq_nil_iff.mpr
        intro permit hpermit
        have hold := hlate permit hpermit
        simp only [decide_eq_true_eq]
        omega
      rw [hempty]
      exact hnonneg
    · have halive : s.db.live (s.now + nanos) key = some e := by
        refine RedisDb.live_eq_some.mpr ⟨he, ?_⟩
        rw [hdeadline]
        exact decide_eq_true (Nat.not_le.mp hexpired)
      have hsame : ClusterPermits.counter key { s with now := s.now + nanos } = e.value := by
        unfold ClusterPermits.counter RedisDb.get
        simp only [halive]
        rfl
      have hyoung := h.young
      omega

/-- A step in time keeps the count. -/
theorem counted_step (h : Counted key limit ttl s) (hlands : LandsInTime ttl s m)
    (hheld : HeldInTime ttl s m) (hstep : permitStep key limit ttl s m = some s') :
    Counted key limit ttl s' := by
  cases m with
  | acquire replica delivered =>
    simp only [permitStep] at hstep
    split at hstep
    · cases hstep
    · cases hstep
      exact counted_acquire h replica delivered
  | release permit =>
    simp only [permitStep] at hstep
    split at hstep
    · next hmem =>
      cases hstep
      exact counted_release h hmem hlands
    · cases hstep
  | loseRelease permit =>
    simp only [permitStep] at hstep
    split at hstep
    · cases hstep
      exact counted_fewer h List.erase_sublist
    · cases hstep
  | crash replica =>
    cases hstep
    refine ⟨h.past, h.entry, h.young, ?_⟩
    intro permit hpermit
    obtain ⟨hmem, hlive⟩ := List.mem_filter.mp hpermit
    refine h.held permit (List.mem_filter.mpr ⟨hmem, ?_⟩)
    have hlive' : permit.replica ∉ replica :: s.crashed := of_decide_eq_true hlive
    exact decide_eq_true fun hcrashed => hlive' (List.mem_cons_of_mem _ hcrashed)
  | elapse nanos =>
    cases hstep
    exact counted_elapse h hheld

end

/--
**The ceiling holds across the cluster**: if every release that lands, lands within the TTL of its
own acquire, and no live replica holds a permit for the TTL or longer, then the live replicas never
hold more than the limit, and the counter is never negative.
-/
theorem cluster_permits_bounded (key : String) (limit ttl : Nat) {s : ClusterPermits}
    {moves : List PermitMove} (hrun : runFrom (permitStep key limit ttl) {} moves = some s)
    (hmeets : Meets (permitStep key limit ttl)
      (fun s m => LandsInTime ttl s m ∧ HeldInTime ttl s m) {} moves) :
    s.held.length ≤ max limit 1 ∧ 0 ≤ s.counter key := by
  have hinitial : Counted key limit ttl {} :=
    ⟨fun _ h => (nomatch h), fun _ h => (nomatch h), Int.le_refl 0, fun _ h => (nomatch h)⟩
  have h : Counted key limit ttl s :=
    runFrom_guarded hrun hmeets hinitial fun _ _ _ h hm => counted_step h hm.1 hm.2
  obtain ⟨hnonneg, hle⟩ := counter_bounds h
  refine ⟨?_, hnonneg⟩
  -- what live replicas hold is young
  have hsub : s.held.length ≤ (s.young ttl).length := by
    apply List.Sublist.length_le
    have hheld : s.held = s.held.filter fun permit => s.now < permit.grantedAt + permitTtl ttl :=
      (List.filter_eq_self.mpr fun permit hpermit => decide_eq_true (h.held permit hpermit)).symm
    rw [hheld]
    exact List.filter_sublist.filter _
  have hyoung := h.young
  omega

namespace Trial

/-- The settings of the runs below: one slot, and a TTL of a second. -/
def oneSecond : Nat := 1000000000

/-- A replica holds its permit for the whole TTL, and another one takes the slot. -/
def longHold : List PermitMove :=
  [.acquire 1 true, .elapse oneSecond, .acquire 2 true]

/-- The first replica gives its slot back in time. -/
def handOver : List PermitMove :=
  [.acquire 1 true, .elapse 5, .release { replica := 1, grantedAt := 0 }, .acquire 2 true]

end Trial

open Trial in
/-- No release lands at all, and two permits are out for one slot. -/
theorem permits_exceed_longHold : ∃ s,
    runFrom (permitStep "permit:global" 1 oneSecond) {} longHold = some s ∧
    Meets (permitStep "permit:global" 1 oneSecond) (LandsInTime oneSecond) {} longHold ∧
    max 1 1 < s.held.length := by
  refine ⟨_, rfl, ⟨trivial, fun _ _ => ⟨trivial, fun _ _ => ⟨trivial, fun _ _ => trivial⟩⟩⟩, ?_⟩
  decide +kernel

open Trial in
theorem cluster_permits_bounded_handOver : ∃ s,
    runFrom (permitStep "permit:global" 1 oneSecond) {} handOver = some s ∧ s.held.length ≤ 1 := by
  have hrun : runFrom (permitStep "permit:global" 1 oneSecond) {} handOver = some _ := rfl
  refine ⟨_, hrun, (cluster_permits_bounded "permit:global" 1 oneSecond hrun ?_).1⟩
  decide +kernel

end Moira
