import Moira.Orchestration.Concurrency
import Moira.Orchestration.Properties.RateLimit

/-!
# Concurrency accounting

**`concurrency_accounting`**: the counts are right in every reachable state, a permit is granted
only below the limit passed for it, and a call that ends, refused or not, leaves nothing behind.
-/

namespace Moira

open Transition

variable {limits : ConcurrencyLimits} {s s' : ConcurrencyController limits} {m : ConcurrencyMove}

/-! ## What a move does -/

/-- The result of a move, with what allowed it. -/
inductive Moved (s : ConcurrencyController limits) : ConcurrencyMove → ConcurrencyController limits → Prop
  | enter (n : Nat) (args : AcquireArgs) (hnone : s.calls n = none) :
    Moved s (.enter n args) (s.setStage n args .entered)
  | globalRefused (n : Nat) (args : AcquireArgs) (hcall : s.calls n = some ⟨args, .entered⟩) :
    Moved s (.takeGlobal n) (s.setStage n args (.dropping (some .global)))
  | globalTaken (n : Nat) (args : AcquireArgs) (hcall : s.calls n = some ⟨args, .entered⟩)
    (havailable : s.available ≠ 0) :
    Moved s (.takeGlobal n)
      ({ s with available := s.available - 1, globalLive := n :: s.globalLive }.setStage n args
        (.acquiring LimiterScope.order))
  | skipped (n : Nat) (scope : LimiterScope) (args : AcquireArgs) (rest : List LimiterScope)
    (hcall : s.calls n = some ⟨args, .acquiring (scope :: rest)⟩) (hwants : args.wants limits scope = none) :
    Moved s (.take n scope none) (s.setStage n args (.acquiring rest))
  | taken (n : Nat) (scope : LimiterScope) (evicted : Option scope.Key) (args : AcquireArgs)
    (rest : List LimiterScope) (key : scope.Key) (limit : Nat) (l : Limiters scope.Key)
    (hcall : s.calls n = some ⟨args, .acquiring (scope :: rest)⟩)
    (hwants : args.wants limits scope = some (key, limit))
    (hacquire : (s.registries scope).acquireDynamicLimiter s.now n key limit scope.capacityScope
      (max limits.maxDynamicLimiters 1) evicted = some (.ok (), l)) :
    Moved s (.take n scope evicted) ((s.setRegistry scope l).setStage n args (.acquiring rest))
  | refused (n : Nat) (scope : LimiterScope) (evicted : Option scope.Key) (args : AcquireArgs)
    (rest : List LimiterScope) (key : scope.Key) (limit : Nat) (l : Limiters scope.Key)
    (refused : CapacityScope) (hcall : s.calls n = some ⟨args, .acquiring (scope :: rest)⟩)
    (hwants : args.wants limits scope = some (key, limit))
    (hacquire : (s.registries scope).acquireDynamicLimiter s.now n key limit scope.capacityScope
      (max limits.maxDynamicLimiters 1) evicted = some (.error refused, l)) :
    Moved s (.take n scope evicted) ((s.setRegistry scope l).setStage n args (.dropping (some refused)))
  | finish (n : Nat) (args : AcquireArgs) (hcall : s.calls n = some ⟨args, .acquiring []⟩) :
    Moved s (.finish n) (s.setStage n args .held)
  | drop (n : Nat) (args : AcquireArgs) (stage : AcquireStage) (hcall : s.calls n = some ⟨args, stage⟩) :
    Moved s (.drop n) (s.setStage n args (.dropping none))
  | globalDropped (n : Nat) (hmem : n ∈ s.globalLive) :
    Moved s (.dropGlobal n)
      { s with available := s.available + 1, globalLive := s.globalLive.erase n }
  | permitDropped (n : Nat) (scope : LimiterScope) (permit : DynamicPermit scope.Key)
    (hcall : permit.call = n) (hmem : permit ∈ (s.registries scope).live) :
    Moved s (.dropPermit n scope permit)
      (s.setRegistry scope ((s.registries scope).dropPermit permit))
  | leave (n : Nat) (hempty : s.HasNone n) : Moved s (.leave n) (s.setCall n none)
  | elapse (nanos : Nat) : Moved s (.elapse nanos) { s with now := s.now + nanos }

theorem concurrencyStep_moved (hstep : concurrencyStep limits s m = some s') : Moved s m s' := by
  cases m with
  | enter n args =>
    simp only [concurrencyStep] at hstep
    split at hstep
    · next hnone =>
      cases hstep
      exact .enter n args (Option.isNone_iff_eq_none.mp hnone)
    · cases hstep
  | takeGlobal n =>
    obtain ⟨c, hcall, hstep⟩ := Option.bind_eq_some_iff.mp hstep
    split at hstep
    · split at hstep
      · cases hstep
        exact .globalRefused n _ hcall
      · next havailable =>
        cases hstep
        exact .globalTaken n _ hcall havailable
    · cases hstep
  | take n scope evicted =>
    obtain ⟨c, hcall, hstep⟩ := Option.bind_eq_some_iff.mp hstep
    split at hstep
    · split at hstep
      · next hnext =>
        subst hnext
        unfold ConcurrencyController.take at hstep
        split at hstep
        · next hwants =>
          split at hstep
          · next hnone =>
            cases hstep
            cases Option.isNone_iff_eq_none.mp hnone
            exact .skipped n _ _ _ hcall hwants
          · cases hstep
        · next hwants =>
          simp only [Option.bind_eq_bind, Option.bind_eq_some_iff] at hstep
          obtain ⟨⟨result, l⟩, hacquire, hstep⟩ := hstep
          rcases result with refused | ⟨⟩
          · cases hstep
            exact .refused n _ evicted _ _ _ _ l refused hcall hwants hacquire
          · cases hstep
            exact .taken n _ evicted _ _ _ _ l hcall hwants hacquire
      · cases hstep
    · cases hstep
  | finish n =>
    obtain ⟨c, hcall, hstep⟩ := Option.bind_eq_some_iff.mp hstep
    split at hstep
    · cases hstep
      exact .finish n _ hcall
    · cases hstep
  | drop n =>
    simp only [concurrencyStep, Option.bind_eq_bind, Option.bind_eq_some_iff] at hstep
    obtain ⟨⟨args, stage⟩, hcall, hstep⟩ := hstep
    split at hstep
    · cases hstep
    all_goals
      cases hstep
      exact .drop n _ _ hcall
  | dropGlobal n =>
    obtain ⟨c, -, hstep⟩ := Option.bind_eq_some_iff.mp hstep
    split at hstep
    · split at hstep
      · next hmem =>
        cases hstep
        exact .globalDropped n hmem
      · cases hstep
    · cases hstep
  | dropPermit n scope permit =>
    obtain ⟨c, -, hstep⟩ := Option.bind_eq_some_iff.mp hstep
    split at hstep
    · split at hstep
      · next hpermit =>
        cases hstep
        exact .permitDropped n scope permit hpermit.1 hpermit.2
      · cases hstep
    · cases hstep
  | leave n =>
    obtain ⟨c, -, hstep⟩ := Option.bind_eq_some_iff.mp hstep
    split at hstep
    · split at hstep
      · next hempty =>
        cases hstep
        exact .leave n hempty
      · cases hstep
    · cases hstep
  | elapse nanos =>
    cases hstep
    exact .elapse nanos

/-! ## The invariant -/

/-- The limit of the scopes that have one limit for every call. -/
def ConcurrencyLimits.fixed (limits : ConcurrencyLimits) : LimiterScope → Option Nat
  | .application => some (max limits.applicationLimit 1)
  | .user => some (max limits.userLimit 1)
  | .providerRequest | .providerStream => none

variable {args : AcquireArgs} {scope : LimiterScope} {limit : Nat}

variable {key : scope.Key}

theorem wants_fixed {fixed : Nat} (hwants : args.wants limits scope = some (key, limit))
    (hfixed : limits.fixed scope = some fixed) : max limit 1 = fixed := by
  cases scope with
  | providerRequest => cases hfixed
  | providerStream => cases hfixed
  | application =>
    obtain ⟨id, -, hpair⟩ := Option.map_eq_some_iff.mp hwants
    cases hpair
    cases hfixed
    omega
  | user =>
    obtain ⟨id, -, hpair⟩ := Option.map_eq_some_iff.mp hwants
    cases hpair
    cases hfixed
    omega

/-- The permits that are out, and who has them. -/
structure PermitLedger (s : ConcurrencyController limits) : Prop where
  accounted : ∀ scope, Accounted (max limits.maxDynamicLimiters 1) (s.registries scope)
  fixed : ∀ scope, ∀ limit ∈ limits.fixed scope, ∀ key, (s.registries scope).livePermits key ≤ limit
  global : s.available + s.globalLive.length = max limits.globalLimit 1
  globalOwner : ∀ n ∈ s.globalLive, (s.calls n).isSome
  owner : ∀ scope, ∀ permit ∈ (s.registries scope).live, (s.calls permit.call).isSome

theorem mem_order (scope : LimiterScope) : scope ∈ LimiterScope.order := by
  cases scope <;> decide

variable {n : Nat}

theorem hasNone_of_calls (h : PermitLedger s) (hnone : s.calls n = none) : s.HasNone n := by
  refine ⟨?_, ?_⟩
  · intro hmem
    have := h.globalOwner n hmem
    rw [hnone] at this
    cases this
  · rintro scope - permit hpermit rfl
    have := h.owner scope permit hpermit
    rw [hnone] at this
    cases this

theorem forall_setRegistry {P : (scope : LimiterScope) → Limiters scope.Key → Prop}
    {l : Limiters scope.Key} (h : ∀ scope, P scope (s.registries scope)) (hl : P scope l)
    (other : LimiterScope) : P other ((s.setRegistry scope l).registries other) := by
  show P other (Function.update s.registries scope l other)
  by_cases hother : other = scope
  · subst hother
    rw [Function.update_self]
    exact hl
  · rw [Function.update_of_ne hother]
    exact h other

theorem isSome_setCall {k : Nat} {state : Option AcquireCall} (hstate : k = n → state.isSome)
    (h : (s.calls k).isSome) : ((s.setCall n state).calls k).isSome := by
  show (Function.update s.calls n state k).isSome
  by_cases hk : k = n
  · rw [hk, Function.update_self]
    exact hstate hk
  · rw [Function.update_of_ne hk]
    exact h

theorem permitLedger_setStage (h : PermitLedger s) (n : Nat) (args : AcquireArgs) (stage : AcquireStage) :
    PermitLedger (s.setStage n args stage) := by
  refine ⟨h.accounted, h.fixed, h.global, ?_, ?_⟩
  · exact fun k hk => isSome_setCall (fun _ => rfl) (h.globalOwner k hk)
  · exact fun scope permit hpermit => isSome_setCall (fun _ => rfl) (h.owner scope permit hpermit)

theorem permitLedger_acquired {l : Limiters scope.Key} {result : Except CapacityScope Unit}
    (h : PermitLedger s) (hcall : (s.calls n).isSome)
    (hwants : args.wants limits scope = some (key, limit))
    (hl : Acquired (max limits.maxDynamicLimiters 1) n limit key (s.registries scope) result l) :
    PermitLedger (s.setRegistry scope l) := by
  -- the permits after the section: the ones before, or one more below the limit
  have hlive : l.live = (s.registries scope).live ∨ (l.livePermits key ≤ max limit 1 ∧
      ∃ limiter, l.live = { call := n, key, limiter } :: (s.registries scope).live) := by
    cases result with
    | error refused => exact .inl (hl.refused refused rfl)
    | ok => exact .inr (hl.granted rfl)
  refine ⟨?_, ?_, h.global, h.globalOwner, ?_⟩
  · exact forall_setRegistry (P := fun _ l => Accounted (max limits.maxDynamicLimiters 1) l)
      h.accounted hl.accounted
  · refine forall_setRegistry
      (P := fun scope l => ∀ limit ∈ limits.fixed scope, ∀ key, l.livePermits key ≤ limit) h.fixed ?_
    intro fixed hfixed other
    have hbefore := h.fixed scope fixed hfixed other
    unfold Limiters.livePermits at hbefore ⊢
    rcases hlive with hlive | ⟨hle, limiter, hlive⟩
    · rw [hlive]
      exact hbefore
    · by_cases hother : other = key
      · subst hother
        exact Nat.le_trans hle (Nat.le_of_eq (wants_fixed hwants hfixed))
      · rw [hlive, List.countP_cons_of_neg (by simpa using fun heq => hother heq.symm)]
        exact hbefore
  · refine forall_setRegistry (P := fun _ l => ∀ permit ∈ l.live, (s.calls permit.call).isSome)
      h.owner ?_
    intro permit hpermit
    rcases hlive with hlive | ⟨-, limiter, hlive⟩
    · exact h.owner scope permit (hlive ▸ hpermit)
    · rw [hlive] at hpermit
      rcases List.mem_cons.mp hpermit with rfl | hpermit
      · exact hcall
      · exact h.owner scope permit hpermit

theorem livePermits_dropPermit_le {K : Type} [DecidableEq K] {l : Limiters K} {permit : DynamicPermit K}
    {key : K} : (l.dropPermit permit).livePermits key ≤ l.livePermits key :=
  List.erase_sublist.countP_le

theorem permitLedger_moved (h : PermitLedger s) (hmoved : Moved s m s') : PermitLedger s' := by
  cases hmoved with
  | enter n args => exact permitLedger_setStage h n args _
  | globalRefused n args => exact permitLedger_setStage h n args _
  | globalTaken n args hcall havailable =>
    have hglobal := h.global
    apply permitLedger_setStage
    refine ⟨h.accounted, h.fixed, ?_, ?_, h.owner⟩
    · simp only [List.length_cons]
      omega
    · intro k hk
      rcases List.mem_cons.mp hk with rfl | hk
      · rw [hcall]
        rfl
      · exact h.globalOwner k hk
  | skipped n scope args => exact permitLedger_setStage h n args _
  | taken n scope evicted args rest key limit l hcall hwants hacquire =>
    apply permitLedger_setStage
    exact permitLedger_acquired h (hcall ▸ rfl) hwants (acquired_acquire (h.accounted scope) hacquire)
  | refused n scope evicted args rest key limit l refused hcall hwants hacquire =>
    apply permitLedger_setStage
    exact permitLedger_acquired h (hcall ▸ rfl) hwants (acquired_acquire (h.accounted scope) hacquire)
  | finish n args => exact permitLedger_setStage h n args _
  | drop n args => exact permitLedger_setStage h n args _
  | globalDropped n hmem =>
    have hglobal := h.global
    have hlength := List.length_erase_of_mem hmem
    have hpos := List.length_pos_of_mem hmem
    refine ⟨h.accounted, h.fixed, ?_, fun k hk => h.globalOwner k (List.mem_of_mem_erase hk), h.owner⟩
    simp only
    omega
  | permitDropped n scope permit hcall hmem =>
    refine ⟨?_, ?_, h.global, h.globalOwner, ?_⟩
    · exact forall_setRegistry (P := fun _ l => Accounted (max limits.maxDynamicLimiters 1) l)
        h.accounted (accounted_dropPermit (h.accounted scope) hmem)
    · refine forall_setRegistry
        (P := fun scope l => ∀ limit ∈ limits.fixed scope, ∀ key, l.livePermits key ≤ limit) h.fixed ?_
      intro fixed hfixed key
      exact Nat.le_trans livePermits_dropPermit_le (h.fixed scope fixed hfixed key)
    · refine forall_setRegistry (P := fun _ l => ∀ permit ∈ l.live, (s.calls permit.call).isSome)
        h.owner ?_
      exact fun other hother => h.owner scope other (List.mem_of_mem_erase hother)
  | leave n hempty =>
    -- nothing that is alive belongs to the call that leaves
    refine ⟨h.accounted, h.fixed, h.global, ?_, ?_⟩
    · intro k hk
      refine isSome_setCall (fun heq => ?_) (h.globalOwner k hk)
      exact absurd (heq ▸ hk) hempty.1
    · intro scope permit hpermit
      refine isSome_setCall (fun heq => ?_) (h.owner scope permit hpermit)
      exact absurd heq (hempty.2 scope (mem_order scope) permit hpermit)
  | elapse nanos => exact ⟨h.accounted, h.fixed, h.global, h.globalOwner, h.owner⟩

theorem permitLedger_initial : PermitLedger ({} : ConcurrencyController limits) := by
  refine ⟨fun _ => ⟨List.nodup_nil, Nat.zero_le _, nofun, nofun, nofun, nofun⟩, ?_, rfl, nofun,
    fun _ => nofun⟩
  exact fun _ _ _ _ => Nat.zero_le _

theorem permitLedger_run {moves : List ConcurrencyMove} {t : ConcurrencyController limits}
    (h : PermitLedger s)
    (hrun : runFrom (concurrencyStep limits) s moves = some t) : PermitLedger t :=
  runFrom_invariant hrun h fun _ _ _ h hstep => permitLedger_moved h (concurrencyStep_moved hstep)

/-! ## Limits -/

/-- The move takes, or tries to take, a permit for the key. -/
def TakesKey (scope : LimiterScope) (key : scope.Key) (s : ConcurrencyController limits) :
    ConcurrencyMove → Prop
  | .take n other _ => other = scope ∧
    ∃ c limit, s.calls n = some c ∧ c.args.wants limits scope = some (key, limit)
  | _ => False

theorem livePermits_moved_le (h : PermitLedger s) (hmoved : Moved s m s') (scope : LimiterScope) :
    ∀ key, ¬TakesKey scope key s m →
      (s'.registries scope).livePermits key ≤ (s.registries scope).livePermits key := by
  have hsame : ∀ scope, ∀ key, ¬TakesKey scope key s m →
      (s.registries scope).livePermits key ≤ (s.registries scope).livePermits key :=
    fun _ _ _ => Nat.le_refl _
  cases hmoved with
  | taken n other evicted args rest taken limit l hcall hwants hacquire =>
    refine forall_setRegistry (P := fun scope l => ∀ key, ¬TakesKey scope key s _ →
      l.livePermits key ≤ (s.registries scope).livePermits key) hsame ?_ scope
    intro key htakes
    have hne : taken ≠ key := by
      rintro rfl
      exact htakes ⟨rfl, _, limit, hcall, hwants⟩
    obtain ⟨-, limiter, hlive⟩ := (acquired_acquire (h.accounted other) hacquire).granted rfl
    refine Nat.le_of_eq ?_
    rw [Limiters.livePermits, hlive, List.countP_cons_of_neg (by simpa using hne),
      Limiters.livePermits]
  | refused n other evicted args rest taken limit l refused hcall hwants hacquire =>
    refine forall_setRegistry (P := fun scope l => ∀ key, ¬TakesKey scope key s _ →
      l.livePermits key ≤ (s.registries scope).livePermits key) hsame ?_ scope
    intro key _
    have hlive := (acquired_acquire (h.accounted other) hacquire).refused refused rfl
    refine Nat.le_of_eq ?_
    rw [Limiters.livePermits, hlive, Limiters.livePermits]
  | permitDropped n other permit hcall hmem =>
    refine forall_setRegistry (P := fun scope l => ∀ key, ¬TakesKey scope key s _ →
      l.livePermits key ≤ (s.registries scope).livePermits key) hsame ?_ scope
    exact fun key _ => livePermits_dropPermit_le
  | enter | globalRefused | globalTaken | skipped | finish | drop | globalDropped | leave | elapse =>
    exact hsame scope

theorem livePermits_taken {evicted : Option scope.Key} {rest rest' : List LimiterScope}
    (h : PermitLedger s) (hcall : s.calls n = some ⟨args, .acquiring rest⟩)
    (hwants : args.wants limits scope = some (key, limit))
    (hmoved : Moved s (.take n scope evicted) s')
    (hgranted : s'.calls n = some ⟨args, .acquiring rest'⟩) :
    (s'.registries scope).livePermits key ≤ max limit 1 := by
  cases hmoved with
  | skipped _ _ args' rest hcall' hnone =>
    cases hcall.symm.trans hcall'
    cases hwants.symm.trans hnone
  | taken _ _ _ args' rest key' limit' l hcall' hwants' hacquire =>
    cases hcall.symm.trans hcall'
    cases hwants.symm.trans hwants'
    show ((Function.update s.registries scope l) scope).livePermits key ≤ _
    rw [Function.update_self]
    exact ((acquired_acquire (h.accounted scope) hacquire).granted rfl).1
  | refused _ _ _ args' rest key' limit' l refused hcall' hwants' hacquire =>
    have hself : Function.update s.calls n _ n = _ :=
        Function.update_self n (some ⟨args', .dropping (some refused)⟩) s.calls
    cases hself.symm.trans hgranted

/-! ## A call on its own -/

/-- The call that makes the move; time is nobody's. -/
def ConcurrencyMove.isBy (n : Nat) : ConcurrencyMove → Prop
  | .enter call _ | .takeGlobal call | .take call _ _ | .finish call | .drop call | .dropGlobal call
  | .dropPermit call _ _ | .leave call => call = n
  | .elapse _ => True

/-- The permits of the other calls. -/
def Limiters.others {K : Type} (l : Limiters K) (n : Nat) : List (DynamicPermit K) :=
  l.live.filter fun permit => permit.call ≠ n

theorem filter_erase_of_neg {α : Type} [DecidableEq α] {p : α → Bool} {a : α} (ha : p a = false)
    (l : List α) : (l.erase a).filter p = l.filter p := by
  rw [← List.erase_filter, List.erase_of_not_mem]
  intro hmem
  rw [(List.mem_filter.mp hmem).2] at ha
  cases ha

theorem others_moved (h : PermitLedger s) (hmoved : Moved s m s') (hby : m.isBy n) :
    (∀ scope, (s'.registries scope).others n = (s.registries scope).others n) ∧
    s'.globalLive.filter (· ≠ n) = s.globalLive.filter (· ≠ n) := by
  cases hmoved with
  | taken k scope evicted args rest key limit l hcall hwants hacquire =>
    obtain rfl : k = n := hby
    refine ⟨forall_setRegistry (P := fun scope l => l.others k = (s.registries scope).others k)
      (fun _ => rfl) ?_, rfl⟩
    obtain ⟨-, limiter, hlive⟩ := (acquired_acquire (h.accounted scope) hacquire).granted rfl
    unfold Limiters.others
    rw [hlive, List.filter_cons_of_neg (by simp)]
  | refused k scope evicted args rest key limit l refused hcall hwants hacquire =>
    refine ⟨forall_setRegistry (P := fun scope l => l.others n = (s.registries scope).others n)
      (fun _ => rfl) ?_, rfl⟩
    unfold Limiters.others
    rw [(acquired_acquire (h.accounted scope) hacquire).refused refused rfl]
  | permitDropped k scope permit hcall hmem =>
    obtain rfl : k = n := hby
    refine ⟨forall_setRegistry (P := fun scope l => l.others k = (s.registries scope).others k)
      (fun _ => rfl) ?_, rfl⟩
    exact filter_erase_of_neg (by simp [hcall]) _
  | globalTaken k args hcall havailable =>
    obtain rfl : k = n := hby
    exact ⟨fun _ => rfl, List.filter_cons_of_neg (by simp)⟩
  | globalDropped k hmem =>
    obtain rfl : k = n := hby
    exact ⟨fun _ => rfl, filter_erase_of_neg (by simp) _⟩
  | enter | globalRefused | skipped | finish | drop | leave | elapse =>
    exact ⟨fun _ => rfl, rfl⟩

/-- The active count a key has; a key without an entry has none. -/
def Limiters.activeCount {K : Type} [DecidableEq K] (l : Limiters K) (key : K) : Nat :=
  ((l.entry key).map l.activeOf).getD 0

theorem activeCount_eq {K : Type} [DecidableEq K] {l : Limiters K} {max : Nat} (h : Accounted max l)
    (key : K) : l.activeCount key = l.livePermits key := by
  unfold Limiters.activeCount
  cases hentry : l.entry key with
  | none => exact (livePermits_eq_zero h hentry).symm
  | some entry => exact h.active (key, entry) (lookup_mem hentry)

theorem counts_restored {moves : List ConcurrencyMove} {t : ConcurrencyController limits}
    (h : PermitLedger s) (hrun : runFrom (concurrencyStep limits) s moves = some t)
    (hby : ∀ m ∈ moves, m.isBy n) (hbefore : s.calls n = none) (hafter : t.calls n = none) :
    t.available = s.available ∧
      ∀ scope key, (t.registries scope).activeCount key = (s.registries scope).activeCount key := by
  have ht : PermitLedger t := permitLedger_run h hrun
  have hothers : PermitLedger t ∧
      (∀ scope, (t.registries scope).others n = (s.registries scope).others n) ∧
      t.globalLive.filter (· ≠ n) = s.globalLive.filter (· ≠ n) := by
    refine runFrom_guarded (G := fun _ m => m.isBy n) (I := fun t => PermitLedger t ∧
        (∀ scope, (t.registries scope).others n = (s.registries scope).others n) ∧
        t.globalLive.filter (· ≠ n) = s.globalLive.filter (· ≠ n))
      hrun (meets_of_forall hby) ⟨h, fun _ => rfl, rfl⟩ ?_
    rintro u m u' ⟨hu, hregistries, hglobal⟩ hm hstep
    have hmoved := concurrencyStep_moved hstep
    obtain ⟨hregistries', hglobal'⟩ := others_moved hu hmoved hm
    exact ⟨permitLedger_moved hu hmoved, fun scope => (hregistries' scope).trans (hregistries scope),
      hglobal'.trans hglobal⟩
  -- the call has no permit at either end, so the others are all there are
  have hall : ∀ {u : ConcurrencyController limits}, PermitLedger u → u.calls n = none →
      (∀ scope, (u.registries scope).others n = (u.registries scope).live) ∧
      u.globalLive.filter (· ≠ n) = u.globalLive := by
    intro u hu hnone
    have hempty := hasNone_of_calls hu hnone
    refine ⟨fun scope => ?_, ?_⟩
    · apply List.filter_eq_self.mpr
      exact fun permit hpermit => decide_eq_true (hempty.2 scope (mem_order scope) permit hpermit)
    · apply List.filter_eq_self.mpr
      intro k hk
      exact decide_eq_true fun heq => hempty.1 (heq ▸ hk)
  obtain ⟨hlive, hglobal⟩ := hall h hbefore
  obtain ⟨hlive', hglobal'⟩ := hall ht hafter
  obtain ⟨-, hregistries, hglobals⟩ := hothers
  rw [hglobal, hglobal'] at hglobals
  have hsum := h.global
  have hsum' := ht.global
  rw [hglobals] at hsum'
  refine ⟨by omega, fun scope key => ?_⟩
  have hsame : (t.registries scope).live = (s.registries scope).live := by
    rw [← hlive scope, ← hlive' scope]
    exact hregistries scope
  rw [activeCount_eq (ht.accounted scope), activeCount_eq (h.accounted scope)]
  unfold Limiters.livePermits
  rw [hsame]

/-- The scope is within the limit a call passes for it. -/
def Bounded (args : AcquireArgs) (s : ConcurrencyController limits) (scope : LimiterScope) : Prop :=
  ∀ key limit, args.wants limits scope = some (key, limit) →
    (s.registries scope).livePermits key ≤ max limit 1

/-- The scopes a call has behind it are within the limits it passed. -/
def WithinLimits (args : AcquireArgs) (s : ConcurrencyController limits) : AcquireStage → Prop
  | .entered | .dropping _ => True
  | .acquiring rest => ∃ passed, LimiterScope.order = passed ++ rest ∧ ∀ scope ∈ passed, Bounded args s scope
  | .held => ∀ scope, Bounded args s scope

theorem withinLimits_of_le {stage : AcquireStage}
    (hle : ∀ scope key, (s'.registries scope).livePermits key ≤ (s.registries scope).livePermits key)
    (h : WithinLimits args s stage) : WithinLimits args s' stage := by
  have hbounded : ∀ scope, Bounded args s scope → Bounded args s' scope :=
    fun scope h key limit hwants => Nat.le_trans (hle scope key) (h key limit hwants)
  cases stage with
  | entered => trivial
  | dropping => trivial
  | held => exact fun scope => hbounded scope (h scope)
  | acquiring rest =>
    obtain ⟨passed, horder, hpassed⟩ := h
    exact ⟨passed, horder, fun scope hscope => hbounded scope (hpassed scope hscope)⟩

theorem setStage_calls {k : Nat} {args' : AcquireArgs} {stage stage' : AcquireStage}
    (h : (s.setStage n args stage).calls k = some ⟨args', stage'⟩) :
    (k = n ∧ args' = args ∧ stage' = stage) ∨ (k ≠ n ∧ s.calls k = some ⟨args', stage'⟩) := by
  unfold ConcurrencyController.setStage ConcurrencyController.setCall at h
  by_cases hk : k = n
  · simp only [hk, Function.update_self] at h
    cases h
    exact .inl ⟨hk, rfl, rfl⟩
  · simp only [Function.update_of_ne hk] at h
    exact .inr ⟨hk, h⟩

theorem withinLimits_moved (h : PermitLedger s) (hmoved : Moved s m s') (hby : m.isBy n)
    (hwithin : ∀ args stage, s.calls n = some ⟨args, stage⟩ → WithinLimits args s stage) :
    ∀ args stage, s'.calls n = some ⟨args, stage⟩ → WithinLimits args s' stage := by
  intro args' stage' hcall'
  cases hmoved with
  | enter k args hnone =>
    rcases setStage_calls hcall' with ⟨-, -, rfl⟩ | ⟨hk, -⟩
    · trivial
    · exact absurd hby.symm hk
  | globalRefused k args hcall =>
    rcases setStage_calls hcall' with ⟨-, -, rfl⟩ | ⟨hk, -⟩
    · trivial
    · exact absurd hby.symm hk
  | globalTaken k args hcall havailable =>
    rcases setStage_calls hcall' with ⟨-, -, rfl⟩ | ⟨hk, -⟩
    · exact ⟨[], rfl, nofun⟩
    · exact absurd hby.symm hk
  | skipped k scope args rest hcall hwants =>
    obtain rfl : k = n := hby
    rcases setStage_calls hcall' with ⟨-, rfl, rfl⟩ | ⟨hk, -⟩
    · obtain ⟨passed, horder, hpassed⟩ := hwithin _ _ hcall
      refine ⟨passed ++ [scope], by simp [horder], ?_⟩
      intro other hother
      rcases List.mem_append.mp hother with hother | hother
      · exact hpassed other hother
      · cases List.mem_singleton.mp hother
        intro key limit hsome
        cases hwants.symm.trans hsome
    · exact absurd rfl hk
  | taken k scope evicted args rest key limit l hcall hwants hacquire =>
    obtain rfl : k = n := hby
    rcases setStage_calls hcall' with ⟨-, rfl, rfl⟩ | ⟨hk, -⟩
    · obtain ⟨passed, horder, hpassed⟩ := hwithin _ _ hcall
      refine ⟨passed ++ [scope], by simp [horder], ?_⟩
      intro other hother
      show Bounded _ (s.setRegistry scope l) other
      by_cases heq : other = scope
      · subst heq
        intro key' limit' hwants'
        cases hwants.symm.trans hwants'
        have hmoved := Moved.taken k other evicted _ rest key limit l hcall hwants hacquire
        have hle := livePermits_taken h hcall hwants hmoved hcall'
        exact hle
      · have hbefore : other ∈ passed := by
          rcases List.mem_append.mp hother with hother | hother
          · exact hother
          · exact absurd (List.mem_singleton.mp hother) heq
        intro key' limit' hwants'
        show ((Function.update s.registries scope l) other).livePermits key' ≤ _
        rw [Function.update_of_ne heq]
        exact hpassed other hbefore key' limit' hwants'
    · exact absurd rfl hk
  | refused k scope evicted args rest key limit l refused hcall hwants hacquire =>
    rcases setStage_calls hcall' with ⟨-, -, rfl⟩ | ⟨hk, -⟩
    · trivial
    · exact absurd hby.symm hk
  | finish k args hcall =>
    obtain rfl : k = n := hby
    rcases setStage_calls hcall' with ⟨-, rfl, rfl⟩ | ⟨hk, -⟩
    · obtain ⟨passed, horder, hpassed⟩ := hwithin _ _ hcall
      intro scope
      exact hpassed scope (by simpa [horder] using mem_order scope)
    · exact absurd rfl hk
  | drop k args stage hcall =>
    rcases setStage_calls hcall' with ⟨-, -, rfl⟩ | ⟨hk, -⟩
    · trivial
    · exact absurd hby.symm hk
  | globalDropped k hmem => exact withinLimits_of_le (fun _ _ => Nat.le_refl _) (hwithin _ _ hcall')
  | permitDropped k scope permit hcall hmem =>
    refine withinLimits_of_le (fun other key => ?_) (hwithin _ _ hcall')
    exact livePermits_moved_le h (.permitDropped k scope permit hcall hmem) other key nofun
  | leave k hempty =>
    obtain rfl : k = n := hby
    have hself : Function.update s.calls k none k = none := Function.update_self ..
    cases hself.symm.trans hcall'
  | elapse nanos => exact withinLimits_of_le (fun _ _ => Nat.le_refl _) (hwithin _ _ hcall')

/-! ## A call that gives back -/

/-- The permits that are out, of all scopes. -/
def ConcurrencyController.outstanding (s : ConcurrencyController limits) : Nat :=
  s.globalLive.length +
    (LimiterScope.order.map fun scope => (s.registries scope).live.length).sum

theorem outstanding_dropPermit {permit : DynamicPermit scope.Key}
    (hmem : permit ∈ (s.registries scope).live) :
    (s.setRegistry scope ((s.registries scope).dropPermit permit)).outstanding < s.outstanding := by
  have hlength := List.length_erase_of_mem hmem
  have hpos := List.length_pos_of_mem hmem
  cases scope <;>
    simp [ConcurrencyController.outstanding, ConcurrencyController.setRegistry, LimiterScope.order,
      Limiters.dropPermit, Function.update, hlength] <;>
    omega

/-- A call that gives back, and still has a permit, can drop one. -/
theorem drops_one {refused : Option CapacityScope}
    (hcall : s.calls n = some ⟨args, .dropping refused⟩) (hsome : ¬s.HasNone n) :
    ∃ m s', m.isBy n ∧ concurrencyStep limits s m = some s' ∧ s'.calls = s.calls ∧
      s'.outstanding < s.outstanding := by
  by_cases hglobal : n ∈ s.globalLive
  · refine ⟨.dropGlobal n,
      { s with available := s.available + 1, globalLive := s.globalLive.erase n }, rfl, ?_, rfl, ?_⟩
    · simp [concurrencyStep, hcall, hglobal]
    have hlength := List.length_erase_of_mem hglobal
    have hpos := List.length_pos_of_mem hglobal
    simp only [ConcurrencyController.outstanding]
    omega
  · have hpermit : ∃ scope, ∃ permit ∈ (s.registries scope).live, permit.call = n := by
      by_contra hnone
      exact hsome ⟨hglobal, fun scope _ permit hpermit heq => hnone ⟨scope, permit, hpermit, heq⟩⟩
    obtain ⟨scope, permit, hmem, howner⟩ := hpermit
    refine ⟨.dropPermit n scope permit,
      s.setRegistry scope ((s.registries scope).dropPermit permit), rfl, ?_, rfl,
      outstanding_dropPermit hmem⟩
    simp [concurrencyStep, hcall, howner, hmem]

/-- A refused or dropped call gives back all it has, by moves of its own. -/
theorem drains {refused : Option CapacityScope} :
    ∀ {s : ConcurrencyController limits}, s.calls n = some ⟨args, .dropping refused⟩ →
      ∃ moves t, (∀ m ∈ moves, m.isBy n) ∧ runFrom (concurrencyStep limits) s moves = some t ∧
        t.calls n = none := by
  intro s
  induction hout : s.outstanding using Nat.strong_induction_on generalizing s with
  | _ k ih =>
    intro hcall
    by_cases hnone : s.HasNone n
    · refine ⟨[.leave n], s.setCall n none, by simp [ConcurrencyMove.isBy], ?_, ?_⟩
      · simp [runFrom, concurrencyStep, hcall, hnone]
      · simp [ConcurrencyController.setCall]
    · obtain ⟨m, s', hby, hstep, hcalls, hlt⟩ := drops_one hcall hnone
      obtain ⟨moves, t, hmoves, hrun, hend⟩ := ih _ (hout ▸ hlt) rfl (hcalls ▸ hcall)
      exact ⟨m :: moves, t, List.forall_mem_cons.mpr ⟨hby, hmoves⟩,
        runFrom_cons.mpr ⟨s', hstep, hrun⟩, hend⟩

/-! ## The accounts -/

/-- What is right in a state, and stays right from there on. -/
structure Accounts (s : ConcurrencyController limits) : Prop where
  /-- A registered limiter counts the live permits of its key. -/
  active : ∀ scope, ∀ pair ∈ (s.registries scope).registry,
    (s.registries scope).activeOf pair.2 = (s.registries scope).livePermits pair.1
  /-- A key with a live permit is registered, with the limiter of that permit. -/
  registered : ∀ scope, ∀ permit ∈ (s.registries scope).live,
    ∃ pair ∈ (s.registries scope).registry, pair.1 = permit.key ∧ pair.2.limiter = permit.limiter
  room : ∀ scope, (s.registries scope).registry.length ≤ max limits.maxDynamicLimiters 1
  global : s.globalLive.length ≤ max limits.globalLimit 1
  applications : ∀ id, (s.registries .application).livePermits id ≤ max limits.applicationLimit 1
  users : ∀ id, (s.registries .user).livePermits id ≤ max limits.userLimit 1
  /-- A granted permit is within the limit passed for it, until the next one of its key is taken. -/
  granted : ∀ n scope evicted args key limit rest rest' s' after t,
    s.calls n = some ⟨args, .acquiring rest⟩ → args.wants limits scope = some (key, limit) →
    concurrencyStep limits s (.take n scope evicted) = some s' →
    s'.calls n = some ⟨args, .acquiring rest'⟩ → runFrom (concurrencyStep limits) s' after = some t →
    Meets (concurrencyStep limits) (fun s m => ¬TakesKey scope key s m) s' after →
    (t.registries scope).livePermits key ≤ max limit 1
  /-- A call that no other interleaves with returns within every limit it passed. -/
  returned : ∀ n moves t args, s.calls n = none → runFrom (concurrencyStep limits) s moves = some t →
    (∀ m ∈ moves, m.isBy n) → t.calls n = some ⟨args, .held⟩ → ∀ scope, Bounded args t scope
  /-- A call that is over has no permit. -/
  finished : ∀ n, s.calls n = none → s.HasNone n
  /-- A call that was refused or dropped can bring itself to an end, whatever it has. -/
  drained : ∀ n args refused, s.calls n = some ⟨args, .dropping refused⟩ →
    ∃ moves t, (∀ m ∈ moves, m.isBy n) ∧ runFrom (concurrencyStep limits) s moves = some t ∧
      t.calls n = none
  /-- A call that no other interleaves with leaves every count as it was, once it is over. -/
  restored : ∀ n moves t, s.calls n = none → runFrom (concurrencyStep limits) s moves = some t →
    (∀ m ∈ moves, m.isBy n) → t.calls n = none →
    t.available = s.available ∧
      ∀ scope key, (t.registries scope).activeCount key = (s.registries scope).activeCount key

/-- **Concurrency accounting**: the accounts are right in every reachable state. -/
theorem concurrency_accounting (limits : ConcurrencyLimits) {s : ConcurrencyController limits}
    {moves : List ConcurrencyMove} (hrun : runFrom (concurrencyStep limits) {} moves = some s) :
    Accounts s := by
  have h : PermitLedger s := permitLedger_run permitLedger_initial hrun
  refine ⟨fun scope => (h.accounted scope).active, fun scope => (h.accounted scope).registered,
    fun scope => (h.accounted scope).room, ?_, h.fixed .application _ rfl, h.fixed .user _ rfl,
    ?_, ?_, fun n => hasNone_of_calls h, fun n args refused => drains, ?_⟩
  · have hglobal := h.global
    omega
  · intro n scope evicted args key limit rest rest' s' after t hcall hwants hstep hgranted hafter hmeets
    have hmoved := concurrencyStep_moved hstep
    have hstart := livePermits_taken h hcall hwants hmoved hgranted
    have hend : PermitLedger t ∧ (t.registries scope).livePermits key ≤ max limit 1 := by
      refine runFrom_guarded
        (I := fun t => PermitLedger t ∧ (t.registries scope).livePermits key ≤ max limit 1)
        hafter hmeets ⟨permitLedger_moved h hmoved, hstart⟩ ?_
      rintro u m u' ⟨hu, hle⟩ htakes hstep
      have hmoved := concurrencyStep_moved hstep
      exact ⟨permitLedger_moved hu hmoved, Nat.le_trans (livePermits_moved_le hu hmoved scope key htakes) hle⟩
    exact hend.2
  · intro n moves t args hnone hrun hby hheld
    have hend : PermitLedger t ∧ ∀ args stage, t.calls n = some ⟨args, stage⟩ →
        WithinLimits args t stage := by
      refine runFrom_guarded (G := fun _ m => m.isBy n)
        (I := fun t => PermitLedger t ∧
          ∀ args stage, t.calls n = some ⟨args, stage⟩ → WithinLimits args t stage)
        hrun (meets_of_forall hby) ⟨h, fun _ _ hcall => ?_⟩ ?_
      · cases hnone.symm.trans hcall
      · rintro u m u' ⟨hu, hwithin⟩ hm hstep
        have hmoved := concurrencyStep_moved hstep
        exact ⟨permitLedger_moved hu hmoved, withinLimits_moved hu hmoved hm hwithin⟩
    exact hend.2 args .held hheld
  · intro n moves t hbefore hrun hby hafter
    exact counts_restored h hrun hby hbefore hafter

namespace Trial

def tenEach : ConcurrencyLimits where
  globalLimit := 10
  applicationLimit := 10
  userLimit := 10
  maxDynamicLimiters := 100

/-- A request to provider `7` under a limit of `limit`. -/
def toProvider (limit : Nat) : AcquireArgs where
  providerId := 7
  providerRequestLimit := limit
  isStream := false
  providerStreamLimit := 1
  applicationId := none
  externalUserId := none

/-- The scopes that `toProvider` does not take. -/
def skips (n : Nat) : List ConcurrencyMove :=
  [.take n .providerStream none, .take n .application none, .take n .user none]

/-- The policy is raised to five while the first call is between two scopes. -/
def raisedMeanwhile : List ConcurrencyMove :=
  [.enter 1 (toProvider 1), .takeGlobal 1, .take 1 .providerRequest none,
    .enter 2 (toProvider 5), .takeGlobal 2, .take 2 .providerRequest none] ++ skips 2 ++ [.finish 2] ++
    skips 1

/-- The provider is full when the second call comes to it. -/
def secondRefused : List ConcurrencyMove :=
  [.enter 1 (toProvider 1), .takeGlobal 1, .take 1 .providerRequest none] ++ skips 1 ++
    [.finish 1, .enter 2 (toProvider 1), .takeGlobal 2, .take 2 .providerRequest none]

end Trial

open Trial in
/-- The first call returns, and its provider has more live permits than the limit it passed. -/
theorem limit_exceeded_raisedMeanwhile : ∃ s s',
    runFrom (concurrencyStep tenEach) {} raisedMeanwhile = some s ∧
    concurrencyStep tenEach s (.finish 1) = some s' ∧
    (s'.calls 1).map AcquireCall.stage = some .held ∧
    (toProvider 1).wants tenEach .providerRequest = some ((7 : Nat), 1) ∧
    max 1 1 < (s'.registries .providerRequest).livePermits (7 : Nat) :=
  ⟨_, _, rfl, rfl, rfl, rfl, by decide⟩

open Trial in
/-- A call is refused while it has the global permit, and gives it back. -/
theorem concurrency_accounting_refused : ∃ s t moves,
    runFrom (concurrencyStep tenEach) {} secondRefused = some s ∧ Accounts s ∧
    (s.calls 2).map AcquireCall.stage = some (.dropping (some .providerRequest)) ∧
    s.globalLive = [2, 1] ∧ runFrom (concurrencyStep tenEach) s moves = some t ∧
    t.calls 2 = none := by
  have hrun : runFrom (concurrencyStep tenEach) {} secondRefused = some _ := rfl
  have haccounts := concurrency_accounting tenEach hrun
  obtain ⟨moves, t, -, hdrained, hend⟩ := haccounts.drained 2 (toProvider 1) (some .providerRequest) rfl
  exact ⟨_, t, moves, hrun, haccounts, rfl, rfl, hdrained, hend⟩

end Moira
