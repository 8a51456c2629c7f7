import Moira.Orchestration.RuntimeCache

/-!
# Caches

**`reads_no_older`**: under `PutsNoneOlder` no call returns the methods as they were before a write
whose invalidation was processed when it began. A reader that is slow enough breaks it
(`slow_reader_restores`).

**`single_flight`**: under `OneLock` at most one build of a key is in progress. The first call that
makes a second lock is enough for two (`two_builds_of_one_key`), because whoever leaves removes the
lock that others still wait for.
-/

namespace Moira

open Transition

variable {M : Type}

/-- A list that a call has read is put only while no invalidation of a later write is processed. -/
def PutsNoneOlder (s : AuthSettingsReplica M) : AuthSettingsMove M → Prop
  | .put call =>
    match s.calls call with
    | some { phase := .read _ version, .. } => s.processed ≤ version
    | _ => True
  | _ => True

/-- The methods as the table answered them after at least `since` writes. -/
def AuthSettingsReplica.NoOlder (s : AuthSettingsReplica M) (since : Nat) (methods : M) : Prop :=
  ∃ version, since ≤ version ∧ s.methodsAt version = some methods

/-- What holds between the cache, the calls and the invalidations processed. -/
structure UpToDate (s : AuthSettingsReplica M) : Prop where
  committed : s.processed ≤ s.writes.length
  cached : ∀ entry, s.methods = some entry →
    s.processed ≤ entry.version ∧ s.methodsAt entry.version = some entry.value
  began : ∀ n c, s.calls n = some c → c.since ≤ s.processed
  read : ∀ n c methods version, s.calls n = some c → c.phase = .read methods version →
    c.since ≤ version ∧ s.methodsAt version = some methods
  returned : ∀ r ∈ s.returned, s.NoOlder r.since r.methods

section

variable {ttl n write : Nat} {s s' : AuthSettingsReplica M} {c : AuthReadCall M} {methods : M}
  {m : AuthSettingsMove M} {state : Option (AuthReadCall M)}

/-! ## Parts of a move -/

theorem UpToDate.setCall (h : UpToDate s) (hbegan : ∀ c, state = some c → c.since ≤ s.processed)
    (hread : ∀ c methods version, state = some c → c.phase = .read methods version →
      c.since ≤ version ∧ s.methodsAt version = some methods) : UpToDate (s.setCall n state) := by
  have hcalls : ∀ k c, (s.setCall n state).calls k = some c → state = some c ∨ s.calls k = some c := by
    intro k c hcall
    unfold AuthSettingsReplica.setCall at hcall
    by_cases hk : k = n
    · simp only [hk, Function.update_self] at hcall
      exact .inl hcall
    · simp only [Function.update_of_ne hk] at hcall
      exact .inr hcall
  refine ⟨h.committed, h.cached, fun k c hcall => ?_, fun k c methods version hcall hphase => ?_, h.returned⟩
  · rcases hcalls k c hcall with hstate | hold
    · exact hbegan c hstate
    · exact h.began k c hold
  · rcases hcalls k c hcall with hstate | hold
    · exact hread c methods version hstate hphase
    · exact h.read k c methods version hold hphase

theorem UpToDate.drop (h : UpToDate s) : UpToDate (s.setCall n none) :=
  h.setCall (fun _ hnone => (nomatch hnone)) (fun _ _ _ hnone => (nomatch hnone))

theorem UpToDate.endWith {since : Nat} (h : UpToDate s) (hmethods : s.NoOlder since methods) :
    UpToDate (s.endWith n since methods) := by
  have hnoted : UpToDate { s with returned := ⟨since, methods⟩ :: s.returned } := by
    refine ⟨h.committed, h.cached, h.began, h.read, fun r hr => ?_⟩
    rcases List.mem_cons.mp hr with rfl | hr
    · exact hmethods
    · exact h.returned r hr
  exact hnoted.drop

theorem UpToDate.put (h : UpToDate s) (version : Nat) (hversion : s.processed ≤ version)
    (hmethods : s.methodsAt version = some methods) :
    UpToDate (s.putEnabledMethods ttl methods version) := by
  refine ⟨h.committed, fun entry hentry => ?_, h.began, h.read, h.returned⟩
  obtain rfl := Option.some.inj hentry
  exact ⟨hversion, hmethods⟩

theorem UpToDate.invalidateAll (h : UpToDate s) : UpToDate s.invalidateAll :=
  ⟨h.committed, fun _ hnone => (nomatch hnone), h.began, h.read, h.returned⟩

theorem UpToDate.applyInvalidation (h : UpToDate s) (payload : Option RuntimeConfigChange) :
    UpToDate (s.applyInvalidation payload) := by
  unfold AuthSettingsReplica.applyInvalidation
  split
  · exact h.invalidateAll
  · exact h

theorem UpToDate.process (h : UpToDate s) (hempty : s.methods = none) (hwrite : write < s.writes.length) :
    UpToDate (s.process write) := by
  refine ⟨?_, fun entry hentry => ?_, fun k c hcall => ?_, h.read, h.returned⟩
  · have hcommitted := h.committed
    show max s.processed (write + 1) ≤ s.writes.length
    omega
  · cases hempty.symm.trans hentry
  · exact Nat.le_trans (h.began k c hcall) (Nat.le_max_left _ _)

theorem applyInvalidation_authProviderSettings (rowId : Uuid) :
    s.applyInvalidation (some { resourceType := "auth_provider_settings", resourceId := some rowId }) =
      s.invalidateAll := by
  unfold AuthSettingsReplica.applyInvalidation
  rw [if_pos]
  have hcaches := caches_invalidationPlan
    { resourceType := "auth_provider_settings", resourceId := some rowId } rowId rfl
  cases hplan : (invalidationPlan
      (some { resourceType := "auth_provider_settings", resourceId := some rowId })).caches with
  | true => rfl
  | false =>
    have hdata := hcaches.mp hplan
    simp [runtimeDataResourceTypes] at hdata

theorem methodsAt_commit {version : Nat} (new : AuthSettingsWrite M)
    (h : s.methodsAt version = some methods) :
    { s with writes := s.writes ++ [new] }.methodsAt version = some methods := by
  cases version with
  | zero => exact h
  | succ version =>
    obtain ⟨old, hold, rfl⟩ := Option.map_eq_some_iff.mp h
    obtain ⟨hlt, -⟩ := List.getElem?_eq_some_iff.mp hold
    show Option.map _ (s.writes ++ [new])[version]? = _
    rw [List.getElem?_append_left hlt, hold]
    rfl

/-! ## One move -/

theorem upToDate_step (h : UpToDate s) (hputs : PutsNoneOlder s m)
    (hstep : authSettingsStep ttl s m = some s') : UpToDate s' := by
  cases m with
  | enter n =>
    simp only [authSettingsStep] at hstep
    split at hstep
    · cases hstep
      refine h.setCall ?_ ?_
      · rintro _ ⟨⟩
        exact Nat.le_refl _
      · rintro _ _ _ ⟨⟩ hphase
        cases hphase
    · cases hstep
  | look n =>
    obtain ⟨c, hcall, hstep⟩ := Option.bind_eq_some_iff.mp hstep
    split at hstep
    · next since =>
      have hbegan := h.began n _ hcall
      split at hstep
      · next entry hentry =>
        cases hstep
        obtain ⟨hversion, hvalue⟩ := h.cached entry (Option.filter_eq_some_iff.mp hentry).1
        exact h.endWith ⟨entry.version, Nat.le_trans hbegan hversion, hvalue⟩
      · cases hstep
        refine h.setCall ?_ ?_
        · rintro _ ⟨⟩
          exact hbegan
        · rintro _ _ _ ⟨⟩ hphase
          cases hphase
    · cases hstep
  | list n succeeds =>
    obtain ⟨c, hcall, hstep⟩ := Option.bind_eq_some_iff.mp hstep
    split at hstep
    · next since =>
      have hbegan := h.began n _ hcall
      split at hstep
      · obtain ⟨methods, hmethods, hstep⟩ := Option.bind_eq_some_iff.mp hstep
        cases hstep
        -- the table has every write by now, those before the call among them
        refine h.setCall ?_ ?_
        · rintro _ ⟨⟩
          exact hbegan
        · rintro _ _ _ ⟨⟩ hphase
          cases hphase
          exact ⟨Nat.le_trans hbegan h.committed, hmethods⟩
      · cases hstep
        exact h.drop
    · cases hstep
  | put n =>
    obtain ⟨c, hcall, hstep⟩ := Option.bind_eq_some_iff.mp hstep
    split at hstep
    · next since methods version =>
      cases hstep
      obtain ⟨hsince, hmethods⟩ := h.read n _ methods version hcall rfl
      have hversion : s.processed ≤ version := by
        simpa only [PutsNoneOlder, hcall] using hputs
      exact (h.put version hversion hmethods).endWith ⟨version, hsince, hmethods⟩
    · cases hstep
  | cancel n =>
    obtain ⟨c, hcall, hstep⟩ := Option.bind_eq_some_iff.mp hstep
    cases hstep
    exact h.drop
  | commit new =>
    cases hstep
    refine ⟨?_, fun entry hentry => ?_, h.began, fun k c methods version hcall hphase => ?_, fun r hr => ?_⟩
    · have hcommitted := h.committed
      show s.processed ≤ (s.writes ++ [new]).length
      rw [List.length_append]
      omega
    · obtain ⟨hversion, hvalue⟩ := h.cached entry hentry
      exact ⟨hversion, methodsAt_commit new hvalue⟩
    · obtain ⟨hsince, hmethods⟩ := h.read k c methods version hcall hphase
      exact ⟨hsince, methodsAt_commit new hmethods⟩
    · obtain ⟨version, hsince, hmethods⟩ := h.returned r hr
      exact ⟨version, hsince, methodsAt_commit new hmethods⟩
  | invalidated write =>
    simp only [authSettingsStep] at hstep
    split at hstep
    · next hwrite =>
      cases hstep
      exact h.invalidateAll.process rfl hwrite
    · cases hstep
  | notified write =>
    obtain ⟨row, hrow, hstep⟩ := Option.bind_eq_some_iff.mp hstep
    obtain ⟨hwrite, -⟩ := List.getElem?_eq_some_iff.mp hrow
    cases hstep
    rw [notifyRuntimeConfigChange, List.foldl_cons, applyInvalidation_authProviderSettings]
    exact h.invalidateAll.process rfl hwrite
  | announced payload =>
    cases hstep
    exact h.applyInvalidation payload
  | elapse nanos =>
    cases hstep
    exact ⟨h.committed, h.cached, h.began, h.read, h.returned⟩

end

/--
**Later reads.** In every run in which no call puts a list that was read before a write whose
invalidation the replica has processed, no call returns the methods as they were before a write
whose invalidation was processed when the call began.
-/
theorem reads_no_older (ttl : Nat) (initial : M) {s : AuthSettingsReplica M}
    {moves : List (AuthSettingsMove M)}
    (hrun : runFrom (authSettingsStep ttl) { initial } moves = some s)
    (hmeets : Meets (authSettingsStep ttl) PutsNoneOlder { initial } moves) :
    ∀ r ∈ s.returned, s.NoOlder r.since r.methods := by
  have hinitial : UpToDate ({ initial } : AuthSettingsReplica M) :=
    ⟨Nat.le_refl _, nofun, nofun, fun _ _ _ _ hcall => (nomatch hcall), nofun⟩
  have h : UpToDate s := runFrom_guarded hrun hmeets hinitial fun _ _ _ h hputs => upToDate_step h hputs
  exact h.returned

namespace Trial

/-- The first call has read the table before the write, and puts what it has read after the
invalidation. -/
def slowReader : List (AuthSettingsMove Nat) :=
  [.enter 1, .look 1, .list 1 true, .commit ⟨1, 20⟩, .invalidated 0, .notified 0, .put 1,
    .enter 2, .look 2]

/-- The same, with the first call done before the invalidation. -/
def promptReader : List (AuthSettingsMove Nat) :=
  [.enter 1, .look 1, .list 1 true, .commit ⟨1, 20⟩, .put 1, .invalidated 0,
    .enter 2, .look 2, .list 2 true, .put 2]

end Trial

open Trial in
/-- The second call begins after the invalidation, and returns the methods as they were before the
write. -/
theorem slow_reader_restores : ∃ s,
    runFrom (authSettingsStep 300) { initial := 10 } slowReader = some s ∧
    ∃ r ∈ s.returned, r.since = 1 ∧ r.methods = 10 ∧ ¬s.NoOlder r.since r.methods := by
  refine ⟨_, rfl, _, List.mem_cons_self, rfl, rfl, ?_⟩
  rintro ⟨version, hsince, hmethods⟩
  match version, hsince, hmethods with
  | 0, hsince, _ => exact absurd hsince (by decide)
  | 1, _, hmethods => exact absurd (Option.some.inj hmethods) (by decide)
  | _ + 2, _, hmethods => cases hmethods

open Trial in
theorem reads_no_older_promptReader : ∃ s,
    runFrom (authSettingsStep 300) { initial := 10 } promptReader = some s ∧
    (∃ r ∈ s.returned, r.since = 1 ∧ r.methods = 20) ∧ ∀ r ∈ s.returned, s.NoOlder r.since r.methods := by
  have hrun : runFrom (authSettingsStep 300) { initial := 10 } promptReader = some _ := rfl
  refine ⟨_, hrun, ⟨_, List.mem_cons_self, rfl, rfl⟩, reads_no_older 300 10 hrun ?_⟩
  -- both puts come before the next invalidation
  refine (meets_cons rfl).mpr ⟨trivial, (meets_cons rfl).mpr ⟨trivial, (meets_cons rfl).mpr ⟨trivial, ?_⟩⟩⟩
  refine (meets_cons rfl).mpr ⟨trivial, (meets_cons rfl).mpr ⟨by exact Nat.le_refl 0, ?_⟩⟩
  refine (meets_cons rfl).mpr ⟨trivial, (meets_cons rfl).mpr ⟨trivial, (meets_cons rfl).mpr ⟨trivial, ?_⟩⟩⟩
  exact (meets_cons rfl).mpr ⟨trivial, (meets_cons rfl).mpr ⟨by exact Nat.le_refl 1, trivial⟩⟩

/-! ## Build locks -/

open Transition

variable {H : Type}

/-- The lock a call is going to build under, or builds under. -/
def BuildPhase.pending : BuildPhase H → Option Nat
  | .waiting lock | .locked lock | .building lock => some lock
  | .entered | .missed | .built .. | .leaving _ | .returning _ => none

/-- Some call of `key` is pending under `lock`. -/
def RuntimeCache.Pending (s : RuntimeCache H) (key : RuntimeCacheKey) (lock : Nat) : Prop :=
  ∃ n c, s.calls n = some c ∧ c.key = key ∧ c.phase.pending = some lock

/-- The call builds a handle for `key`. -/
def RuntimeCache.Builds (s : RuntimeCache H) (key : RuntimeCacheKey) (n : Nat) : Prop :=
  ∃ lock, s.calls n = some { key, phase := .building lock }

/-- A call of `key` that finds no build lock in the map finds no other call pending either. -/
def OneLock (key : RuntimeCacheKey) (s : RuntimeCache H) : RuntimeCacheMove H → Prop
  | .takeBuildLock n => s.calls n = some { key, phase := .missed } → s.buildLocks key = none →
    ∀ lock, ¬s.Pending key lock
  | _ => True

/-- What keeps the builds of `key` apart. -/
structure SingleFlight (key : RuntimeCacheKey) (s : RuntimeCache H) : Prop where
  owned : ∀ n c lock, s.calls n = some c → c.phase.guard = some lock → s.owner lock = some n
  same : ∀ l l', s.Pending key l → s.Pending key l' → l = l'
  mapped : ∀ l l', s.buildLocks key = some l → s.Pending key l' → l' = l

section

variable {key : RuntimeCacheKey} {ttl : Int} {maxEntries n lock : Nat} {s s' : RuntimeCache H}
  {m : RuntimeCacheMove H} {state : Option (BuildCall H)}

theorem setCall_calls {k : Nat} {c : BuildCall H} (h : (s.setCall n state).calls k = some c) :
    (k = n ∧ state = some c) ∨ (k ≠ n ∧ s.calls k = some c) := by
  unfold RuntimeCache.setCall at h
  by_cases hk : k = n
  · simp only [hk, Function.update_self] at h
    exact .inl ⟨hk, h⟩
  · simp only [Function.update_of_ne hk] at h
    exact .inr ⟨hk, h⟩

theorem pending_setCall (h : (s.setCall n state).Pending key lock) : s.Pending key lock ∨
    ∃ c, state = some c ∧ c.key = key ∧ c.phase.pending = some lock := by
  obtain ⟨k, c, hcall, hkey, hpending⟩ := h
  rcases setCall_calls hcall with ⟨-, hstate⟩ | ⟨-, hother⟩
  · exact .inr ⟨c, hstate, hkey, hpending⟩
  · exact .inl ⟨k, c, hother, hkey, hpending⟩

theorem singleFlight_setCall (h : SingleFlight key s)
    (hpending : ∀ c, state = some c → c.key = key → ∀ l, c.phase.pending = some l → s.Pending key l)
    (hguard : ∀ c, state = some c → ∀ l, c.phase.guard = some l → s.owner l = some n) :
    SingleFlight key (s.setCall n state) := by
  have hback : ∀ l, (s.setCall n state).Pending key l → s.Pending key l := by
    intro l hl
    rcases pending_setCall hl with hl | ⟨c, hstate, hkey, hl⟩
    · exact hl
    · exact hpending c hstate hkey l hl
  refine ⟨?_, fun l l' hl hl' => h.same l l' (hback l hl) (hback l' hl'),
    fun l l' hl hl' => h.mapped l l' hl (hback l' hl')⟩
  intro k c lock hcall hlock
  rcases setCall_calls hcall with ⟨rfl, hstate⟩ | ⟨-, hother⟩
  · exact hguard c hstate lock hlock
  · exact h.owned k c lock hother hlock

theorem singleFlight_onward {c c' : BuildCall H} (h : SingleFlight key s) (hcall : s.calls n = some c)
    (hkey : c'.key = c.key)
    (hpending : ∀ l, c'.phase.pending = some l → c.phase.pending = some l)
    (hguard : ∀ l, c'.phase.guard = some l → c.phase.guard = some l) :
    SingleFlight key (s.setCall n (some c')) := by
  apply singleFlight_setCall h
  · intro _ hstate hkey' l hl
    cases hstate
    exact ⟨n, c, hcall, hkey ▸ hkey', hpending l hl⟩
  · intro _ hstate l hl
    cases hstate
    exact h.owned n c l hcall (hguard l hl)

theorem singleFlight_endCall {c : BuildCall H} (h : SingleFlight key s) (hcall : s.calls n = some c) :
    SingleFlight key (s.endCall n c) := by
  unfold RuntimeCache.endCall
  split
  · next lock hlock =>
    have howner := h.owned n c lock hcall hlock
    have hback : ∀ l, ((s.setOwner lock none).setCall n none).Pending key l → s.Pending key l := by
      intro l hl
      rcases pending_setCall hl with hl | ⟨_, hnone, -⟩
      · exact hl
      · cases hnone
    refine ⟨?_, fun l l' hl hl' => h.same l l' (hback l hl) (hback l' hl'),
      fun l l' hl hl' => h.mapped l l' hl (hback l' hl')⟩
    intro k c' lock' hcall' hlock'
    rcases setCall_calls hcall' with ⟨-, hnone⟩ | ⟨hk, hother⟩
    · cases hnone
    · -- a guard has one owner, so the other call has another lock
      have howner' := h.owned k c' lock' hother hlock'
      have hne : lock' ≠ lock := by
        rintro rfl
        exact hk (Option.some.inj (howner'.symm.trans howner))
      exact (Function.update_of_ne hne ..).trans howner'
  · exact singleFlight_setCall h (fun _ hnone => (nomatch hnone)) (fun _ hnone => (nomatch hnone))

variable {k : RuntimeCacheKey}

theorem singleFlight_waiting (h : SingleFlight key s) (hmap : s.buildLocks k = some lock) :
    SingleFlight key (s.setCall n (some { key := k, phase := .waiting lock })) := by
  have hall : ∀ l, (s.setCall n (some { key := k, phase := .waiting lock })).Pending key l →
      s.Pending key l ∨ (k = key ∧ lock = l) := by
    intro l hl
    rcases pending_setCall hl with hold | ⟨_, hstate, hkey, hnew⟩
    · exact .inl hold
    · cases hstate
      exact .inr ⟨hkey, Option.some.inj hnew⟩
  refine ⟨?_, ?_, ?_⟩
  · intro k' c lock' hcall' hlock'
    rcases setCall_calls hcall' with ⟨-, hstate⟩ | ⟨-, hother⟩
    · cases hstate
      cases hlock'
    · exact h.owned k' c lock' hother hlock'
  · intro l l' hl hl'
    rcases hall l hl with hold | ⟨hkey, hlock⟩
    · rcases hall l' hl' with hold' | ⟨hkey', hlock'⟩
      · exact h.same l l' hold hold'
      · exact (h.mapped lock l (hkey' ▸ hmap) hold).trans hlock'
    · rcases hall l' hl' with hold' | ⟨-, hlock'⟩
      · exact (hlock.symm.trans (h.mapped lock l' (hkey ▸ hmap) hold').symm)
      · exact hlock.symm.trans hlock'
  · intro l l' hl hl'
    rcases hall l' hl' with hold' | ⟨hkey, hlock⟩
    · exact h.mapped l l' hl hold'
    · exact hlock.symm.trans (Option.some.inj ((hkey ▸ hmap).symm.trans hl))

theorem singleFlight_takeBuildLock (h : SingleFlight key s)
    (hcall : s.calls n = some { key := k, phase := .missed })
    (hone : OneLock key s (.takeBuildLock n)) :
    SingleFlight key ((s.buildLock k).2.setCall n
      (some { key := k, phase := .waiting (s.buildLock k).1 })) := by
  unfold RuntimeCache.buildLock
  cases hmap : s.buildLocks k with
  | some lock => exact singleFlight_waiting h hmap
  | none =>
    -- a new lock, and no call of the key is pending under an older one
    have hnew : SingleFlight key { s with
        buildLocks := Function.update s.buildLocks k (some s.allocated)
        allocated := s.allocated + 1 } := by
      refine ⟨h.owned, h.same, ?_⟩
      intro l l' hl hl'
      by_cases hk : key = k
      · subst hk
        exact absurd hl' (hone hcall hmap l')
      · exact h.mapped l l' ((Function.update_of_ne hk ..).symm.trans hl) hl'
    exact singleFlight_waiting hnew (Function.update_self ..)

theorem singleFlight_lock (h : SingleFlight key s)
    (hcall : s.calls n = some { key := k, phase := .waiting lock }) (hfree : s.owner lock = none) :
    SingleFlight key ((s.setOwner lock (some n)).setCall n (some { key := k, phase := .locked lock })) := by
  have howned : SingleFlight key (s.setOwner lock (some n)) := by
    refine ⟨?_, h.same, h.mapped⟩
    intro k' c lock' hcall' hlock'
    have howner := h.owned k' c lock' hcall' hlock'
    have hne : lock' ≠ lock := by
      rintro rfl
      cases hfree.symm.trans howner
    exact (Function.update_of_ne hne ..).trans howner
  apply singleFlight_setCall howned
  · intro _ hstate hkey l hl
    cases hstate
    exact ⟨n, _, hcall, hkey, hl⟩
  · intro _ hstate l hl
    cases hstate
    cases hl
    exact Function.update_self ..

/-! ## One move -/

/-- With one lock a step keeps the flight single. -/
theorem singleFlight_step (h : SingleFlight key s) (hone : OneLock key s m)
    (hstep : runtimeCacheStep ttl maxEntries s m = some s') : SingleFlight key s' := by
  cases m with
  | enter n k =>
    simp only [runtimeCacheStep] at hstep
    split at hstep
    · cases hstep
      apply singleFlight_setCall h
      · intro _ hstate _ l hl
        cases hstate
        cases hl
      · intro _ hstate l hl
        cases hstate
        cases hl
    · cases hstep
  | look n =>
    obtain ⟨c, hcall, hstep⟩ := Option.bind_eq_some_iff.mp hstep
    split at hstep
    · split at hstep
      · cases hstep
        exact singleFlight_setCall h (fun _ hnone => (nomatch hnone)) (fun _ hnone => (nomatch hnone))
      · cases hstep
        exact singleFlight_onward h hcall rfl (fun _ hl => (nomatch hl)) (fun _ hl => (nomatch hl))
    · cases hstep
  | takeBuildLock n =>
    obtain ⟨c, hcall, hstep⟩ := Option.bind_eq_some_iff.mp hstep
    split at hstep
    · cases hstep
      exact singleFlight_takeBuildLock h hcall hone
    · cases hstep
  | lock n =>
    obtain ⟨c, hcall, hstep⟩ := Option.bind_eq_some_iff.mp hstep
    split at hstep
    · split at hstep
      · next hfree =>
        cases hstep
        exact singleFlight_lock h hcall (Option.isNone_iff_eq_none.mp hfree)
      · cases hstep
    · cases hstep
  | lookAgain n =>
    obtain ⟨c, hcall, hstep⟩ := Option.bind_eq_some_iff.mp hstep
    split at hstep
    · split at hstep
      · cases hstep
        exact singleFlight_onward h hcall rfl (fun _ hl => (nomatch hl)) (fun _ hl => hl)
      · cases hstep
        exact singleFlight_onward h hcall rfl (fun _ hl => hl) (fun _ hl => hl)
    · cases hstep
  | build n result =>
    obtain ⟨c, hcall, hstep⟩ := Option.bind_eq_some_iff.mp hstep
    split at hstep
    · split at hstep
      · cases hstep
        exact singleFlight_onward h hcall rfl (fun _ hl => (nomatch hl)) (fun _ hl => hl)
      · cases hstep
        exact singleFlight_onward h hcall rfl (fun _ hl => (nomatch hl)) (fun _ hl => hl)
    · cases hstep
  | insertBuilt n evicted =>
    obtain ⟨c, hcall, hstep⟩ := Option.bind_eq_some_iff.mp hstep
    split at hstep
    · split at hstep
      · cases hstep
        refine singleFlight_onward ⟨h.owned, h.same, h.mapped⟩ hcall rfl ?_ (fun _ hl => hl)
        exact fun _ hl => (nomatch hl)
      · cases hstep
    · cases hstep
  | removeBuildLock n =>
    obtain ⟨c, hcall, hstep⟩ := Option.bind_eq_some_iff.mp hstep
    split at hstep
    · next k lock =>
      cases hstep
      have hremoved : SingleFlight key { s with buildLocks := Function.update s.buildLocks k none } := by
        refine ⟨h.owned, h.same, ?_⟩
        intro l l' hl hl'
        by_cases hk : key = k
        · subst hk
          cases (Function.update_self (β := fun _ => Option Nat) key none s.buildLocks).symm.trans hl
        · exact h.mapped l l' ((Function.update_of_ne hk ..).symm.trans hl) hl'
      exact singleFlight_onward hremoved hcall rfl (fun _ hl => (nomatch hl)) (fun _ hl => hl)
    · cases hstep
  | unlock n =>
    obtain ⟨c, hcall, hstep⟩ := Option.bind_eq_some_iff.mp hstep
    split at hstep
    · cases hstep
      exact singleFlight_endCall h hcall
    · cases hstep
  | cancel n =>
    obtain ⟨c, hcall, hstep⟩ := Option.bind_eq_some_iff.mp hstep
    cases hstep
    exact singleFlight_endCall h hcall
  | insert k handle evicted =>
    simp only [runtimeCacheStep] at hstep
    split at hstep
    · cases hstep
      exact ⟨h.owned, h.same, h.mapped⟩
    · cases hstep
  | invalidateAll =>
    cases hstep
    exact ⟨h.owned, h.same, h.mapped⟩
  | elapse nanos =>
    cases hstep
    exact ⟨h.owned, h.same, h.mapped⟩

end

/--
**Single flight**: in every run in which no call of `key` makes a build lock while another call of
it is pending under an older one, at most one build for `key` is in progress.
-/
theorem single_flight (ttl : Int) (maxEntries : Nat) (key : RuntimeCacheKey) {s : RuntimeCache H}
    {moves : List (RuntimeCacheMove H)}
    (hrun : runFrom (runtimeCacheStep ttl maxEntries) {} moves = some s)
    (hmeets : Meets (runtimeCacheStep ttl maxEntries) (OneLock key) {} moves)
    {n k : Nat} (hn : s.Builds key n) (hk : s.Builds key k) : n = k := by
  have hinitial : SingleFlight key ({} : RuntimeCache H) :=
    ⟨nofun, fun _ _ ⟨_, _, hcall, _⟩ => (nomatch hcall), nofun⟩
  have h : SingleFlight key s :=
    runFrom_guarded hrun hmeets hinitial fun _ _ _ h hone => singleFlight_step h hone
  obtain ⟨lock, hcall⟩ := hn
  obtain ⟨lock', hcall'⟩ := hk
  -- both are pending, so under one lock, which has one owner
  obtain rfl : lock = lock' := h.same lock lock' ⟨n, _, hcall, rfl, rfl⟩ ⟨k, _, hcall', rfl, rfl⟩
  have howner := h.owned n _ lock hcall rfl
  exact Option.some.inj (howner.symm.trans (h.owned k _ lock hcall' rfl))

namespace Trial

def runtimeKey : RuntimeCacheKey where
  providerId := 1
  providerVersion := 1
  modelId := 2
  modelVersion := 1
  credentialId := 3
  credentialVersion := 1
  runtimePolicyVersion := 1

/-- The second call waits for the lock of the first, whose build fails. -/
def failedBuild : List (RuntimeCacheMove Unit) :=
  [.enter 1 runtimeKey, .look 1, .takeBuildLock 1, .lock 1, .lookAgain 1,
    .enter 2 runtimeKey, .look 2, .takeBuildLock 2,
    .build 1 none, .removeBuildLock 1, .unlock 1, .lock 2, .lookAgain 2]

/-- A third one finds no lock in the map. -/
def thirdCall : List (RuntimeCacheMove Unit) :=
  failedBuild ++ [.enter 3 runtimeKey, .look 3, .takeBuildLock 3, .lock 3, .lookAgain 3]

end Trial

open Trial in
/-- The second call builds under the old lock, and the third under a new one. -/
theorem two_builds_of_one_key : ∃ s,
    runFrom (runtimeCacheStep 300 16) {} thirdCall = some s ∧
    s.Builds runtimeKey 2 ∧ s.Builds runtimeKey 3 :=
  ⟨_, rfl, ⟨0, rfl⟩, ⟨1, rfl⟩⟩

open Trial in
theorem single_flight_failedBuild : ∃ s,
    runFrom (runtimeCacheStep 300 16) {} failedBuild = some s ∧ s.Builds runtimeKey 2 ∧
    ∀ k, s.Builds runtimeKey k → 2 = k := by
  have hrun : runFrom (runtimeCacheStep 300 16) {} failedBuild = some _ := rfl
  refine ⟨_, hrun, ⟨0, rfl⟩, fun k hk => single_flight 300 16 runtimeKey hrun ?_ ⟨0, rfl⟩ hk⟩
  -- the first call makes the lock alone, and the second finds it
  refine (meets_cons rfl).mpr ⟨trivial, (meets_cons rfl).mpr ⟨trivial, (meets_cons rfl).mpr ⟨?_, ?_⟩⟩⟩
  · rintro - - lock ⟨n, c, hcall, -, hpending⟩
    rcases setCall_calls hcall with ⟨-, hstate⟩ | ⟨-, hcall⟩
    · cases hstate
      cases hpending
    · rcases setCall_calls hcall with ⟨-, hstate⟩ | ⟨-, hcall⟩
      · cases hstate
        cases hpending
      · cases hcall
  · refine (meets_cons rfl).mpr ⟨trivial, (meets_cons rfl).mpr ⟨trivial, (meets_cons rfl).mpr ⟨trivial, ?_⟩⟩⟩
    refine (meets_cons rfl).mpr ⟨trivial, (meets_cons rfl).mpr ⟨fun _ hnone => (nomatch hnone), ?_⟩⟩
    exact (meets_cons rfl).mpr ⟨trivial, (meets_cons rfl).mpr ⟨trivial, (meets_cons rfl).mpr ⟨trivial,
      (meets_cons rfl).mpr ⟨trivial, (meets_cons rfl).mpr ⟨trivial, trivial⟩⟩⟩⟩⟩

end Moira
