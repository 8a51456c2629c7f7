import Moira.Security.JwksCache

/-!
# One fetch per URL, and no key set beyond the ceiling

**`jwks_cache_spec`**: over every run. A failed load does evict an entry beyond the ceiling
(`failed_load_evicts`).
-/

namespace Moira

open Transition

variable {K E : Type}

/-! ## The invariant -/

/-- The lock a call waits for, or has. -/
def JwksPhase.lock : JwksPhase E → Option Nat
  | .waiting lock | .lookingAgain lock | .fetching lock | .retaining lock _ => some lock
  | .looking | .seeking | .registering => none

/-- What keeps the fetches of a URL apart. -/
structure Locked (s : JwksCache K E) : Prop where
  owned : ∀ n c l, s.calls n = some c → c.phase.guard = some l → s.owner l = some n
  named : ∀ n c l, s.calls n = some c → c.phase.lock = some l → s.locks c.url = some l

/-- A fetch of the URL has returned the key set, at most the stale ceiling before `instant`. -/
def Recent (settings : JwksFetchSettings) (s : JwksCache K E) (url : String) (jwks : K) (instant : Nat) :
    Prop :=
  ∃ t, ⟨url, jwks, t⟩ ∈ s.fetched ∧ t ≤ instant ∧ instant ≤ t + fromSecs settings.maxStaleSeconds

/-- What the observer says of the entries and of what was returned. -/
structure Vouched (settings : JwksFetchSettings) (s : JwksCache K E) : Prop where
  stored : ∀ url entry, s.entries url = some entry →
    ⟨url, entry.jwks, entry.storedAt⟩ ∈ s.fetched ∧ entry.storedAt ≤ s.now ∧
      entry.expiresAt = entry.storedAt + jwksCacheTtl
  recent : ∀ r ∈ s.returned, Recent settings s r.url r.jwks r.instant

structure Coherent (settings : JwksFetchSettings) (s : JwksCache K E) : Prop where
  locked : Locked s
  vouched : Vouched settings s

section

variable {settings : JwksFetchSettings} {s s' : JwksCache K E} {n l : Nat} {c : JwksCall E}
  {state : Option (JwksCall E)} {url : String} {jwks : K} {m : JwksMove K E}

theorem JwksPhase.lock_of_guard {phase : JwksPhase E} (h : phase.guard = some l) : phase.lock = some l := by
  cases phase <;> first | exact h | cases h

/-! ## Locks -/

theorem jwksCalls_setCall {k : Nat} {c : JwksCall E} (h : (s.setCall n state).calls k = some c) :
    (k = n ∧ state = some c) ∨ (k ≠ n ∧ s.calls k = some c) := by
  unfold JwksCache.setCall at h
  by_cases hk : k = n
  · simp only [hk, Function.update_self] at h
    exact .inl ⟨hk, h⟩
  · simp only [Function.update_of_ne hk] at h
    exact .inr ⟨hk, h⟩

theorem Locked.setCall (h : Locked s)
    (hguard : ∀ c, state = some c → ∀ l, c.phase.guard = some l → s.owner l = some n)
    (hlock : ∀ c, state = some c → ∀ l, c.phase.lock = some l → s.locks c.url = some l) :
    Locked (s.setCall n state) := by
  constructor
  · intro k c l hcall hl
    rcases jwksCalls_setCall hcall with ⟨rfl, hstate⟩ | ⟨-, hother⟩
    · exact hguard c hstate l hl
    · exact h.owned k c l hother hl
  · intro k c l hcall hl
    rcases jwksCalls_setCall hcall with ⟨rfl, hstate⟩ | ⟨-, hother⟩
    · exact hlock c hstate l hl
    · exact h.named k c l hother hl

theorem Locked.begin (h : Locked s) (hlock : c.phase.lock = none) :
    Locked (s.setCall n (some c)) := by
  refine h.setCall ?_ ?_
  · rintro _ ⟨⟩ l hl
    cases hlock.symm.trans (JwksPhase.lock_of_guard hl)
  · rintro _ ⟨⟩ l hl
    cases hlock.symm.trans hl

theorem Locked.onward {c' : JwksCall E} (h : Locked s) (hcall : s.calls n = some c)
    (hurl : c'.url = c.url) (hguard : ∀ l, c'.phase.guard = some l → c.phase.guard = some l)
    (hlock : ∀ l, c'.phase.lock = some l → c.phase.lock = some l) :
    Locked (s.setCall n (some c')) := by
  refine h.setCall ?_ ?_
  · rintro _ ⟨⟩ l hl
    exact h.owned n c l hcall (hguard l hl)
  · rintro _ ⟨⟩ l hl
    rw [hurl]
    exact h.named n c l hcall (hlock l hl)

theorem Locked.waiting (h : Locked s) (hlock : s.locks c.url = some l) :
    Locked (s.setCall n (some { c with phase := .waiting l })) := by
  refine h.setCall ?_ ?_
  · rintro _ ⟨⟩ l' hl
    cases hl
  · rintro _ ⟨⟩ l' hl
    cases hl
    exact hlock

theorem Locked.lockFor (h : Locked s) (url : String) :
    Locked (s.lockFor url).2 ∧ (s.lockFor url).2.locks url = some (s.lockFor url).1 := by
  unfold JwksCache.lockFor
  split
  · next lock hlock => exact ⟨h, hlock⟩
  · next hnone =>
    refine ⟨⟨h.owned, ?_⟩, Function.update_self ..⟩
    intro k c l hcall hl
    have hnamed := h.named k c l hcall hl
    have hne : c.url ≠ url := by
      intro heq
      cases (heq ▸ hnamed).symm.trans hnone
    exact (Function.update_of_ne hne ..).trans hnamed

theorem Locked.take (h : Locked s) (hfree : s.owner l = none) :
    Locked (s.setOwner l (some n)) := by
  refine ⟨?_, h.named⟩
  intro k c l' hcall hl
  have howner := h.owned k c l' hcall hl
  have hne : l' ≠ l := by
    rintro rfl
    cases hfree.symm.trans howner
  exact (Function.update_of_ne hne ..).trans howner

theorem Locked.endCall (h : Locked s) (hcall : s.calls n = some c) : Locked (s.endCall n c) := by
  unfold JwksCache.endCall
  split
  · next lock hlock =>
    have howner := h.owned n c lock hcall hlock
    constructor
    · intro k c' l hcall' hl
      rcases jwksCalls_setCall hcall' with ⟨-, hnone⟩ | ⟨hk, hother⟩
      · cases hnone
      · -- a guard has one owner, so the other call has another lock
        have howner' := h.owned k c' l hother hl
        have hne : l ≠ lock := by
          rintro rfl
          exact hk (Option.some.inj (howner'.symm.trans howner))
        exact (Function.update_of_ne hne ..).trans howner'
    · intro k c' l hcall' hl
      rcases jwksCalls_setCall hcall' with ⟨-, hnone⟩ | ⟨-, hother⟩
      · cases hnone
      · exact h.named k c' l hother hl
  · exact h.setCall (fun _ hnone => (nomatch hnone)) (fun _ hnone => (nomatch hnone))

/-! ## Key sets -/

section

variable (h : Vouched settings s)
include h

theorem Vouched.of_same (hnow : s'.now = s.now) (hentries : s'.entries = s.entries)
    (hfetched : s'.fetched = s.fetched) (hreturned : s'.returned = s.returned) :
    Vouched settings s' := by
  constructor
  · rw [hentries, hfetched, hnow]
    exact h.stored
  · unfold Recent
    rw [hreturned, hfetched]
    exact h.recent

theorem Vouched.endCall : Vouched settings (s.endCall n c) := by
  unfold JwksCache.endCall
  split
  · exact h.of_same rfl rfl rfl rfl
  · exact h.of_same rfl rfl rfl rfl

theorem Vouched.endWith (hrecent : Recent settings s c.url jwks s.now) :
    Vouched settings (s.endWith n c jwks) := by
  refine Vouched.endCall ⟨h.stored, ?_⟩
  intro r hr
  rcases List.mem_cons.mp hr with rfl | hr
  · exact hrecent
  · exact h.recent r hr

theorem Vouched.fresh (hfresh : s.fresh url = some jwks) : Recent settings s url jwks s.now := by
  unfold JwksCache.fresh at hfresh
  obtain ⟨entry, hentry, rfl⟩ := Option.map_eq_some_iff.mp hfresh
  obtain ⟨hentry, hlive⟩ := Option.filter_eq_some_iff.mp hentry
  obtain ⟨hfetched, hpast, hexpires⟩ := h.stored url entry hentry
  have hceiling : jwksCacheTtl ≤ fromSecs settings.maxStaleSeconds :=
    Nat.mul_le_mul_right _ settings.validated
  have hbefore : s.now < entry.expiresAt := by simpa using hlive
  exact ⟨entry.storedAt, hfetched, hpast, by omega⟩

theorem Vouched.retained : Vouched settings (s.retained settings url).2 ∧
    ∀ jwks, (s.retained settings url).1 = some jwks →
      Recent settings (s.retained settings url).2 url jwks (s.retained settings url).2.now := by
  unfold JwksCache.retained
  split
  · exact ⟨h, fun _ hnone => (nomatch hnone)⟩
  · next entry hentry =>
    split
    · next hwithin =>
      refine ⟨h, fun jwks hjwks => ?_⟩
      obtain rfl := Option.some.inj hjwks
      obtain ⟨hfetched, hpast, -⟩ := h.stored url entry hentry
      have hage : s.now - entry.storedAt ≤ fromSecs settings.maxStaleSeconds := by
        simpa [JwksCache.withinCeiling] using hwithin
      have hlimit : s.now ≤ entry.storedAt + fromSecs settings.maxStaleSeconds := by omega
      exact ⟨entry.storedAt, hfetched, hpast, hlimit⟩
    · refine ⟨⟨fun other kept hkept => ?_, h.recent⟩, fun _ hnone => (nomatch hnone)⟩
      by_cases heq : other = url
      · subst heq
        cases (Function.update_self (β := fun _ => Option (CachedJwks K)) other none s.entries).symm.trans hkept
      · exact h.stored other kept ((Function.update_of_ne heq ..).symm.trans hkept)

theorem Vouched.store : Vouched settings (s.store url jwks) := by
  constructor
  · intro other entry hentry
    by_cases heq : other = url
    · subst heq
      obtain rfl := Option.some.inj ((Function.update_self (β := fun _ => Option (CachedJwks K)) other _
        s.entries).symm.trans hentry)
      exact ⟨List.mem_cons_self, Nat.le_refl _, rfl⟩
    · obtain ⟨hfetched, hrest⟩ := h.stored other entry ((Function.update_of_ne heq ..).symm.trans hentry)
      exact ⟨List.mem_cons_of_mem _ hfetched, hrest⟩
  · intro r hr
    obtain ⟨t, hfetched, hrest⟩ := h.recent r hr
    exact ⟨t, List.mem_cons_of_mem _ hfetched, hrest⟩

/-! ## One move -/

end

theorem coherent_endWith (hlocked : Locked s) (hvouched : Vouched settings s) (hcall : s.calls n = some c)
    (hrecent : Recent settings s c.url jwks s.now) : Coherent settings (s.endWith n c jwks) := by
  have hreturned : Locked { s with returned := ⟨c.url, jwks, s.now⟩ :: s.returned } :=
    ⟨hlocked.owned, hlocked.named⟩
  exact ⟨hreturned.endCall hcall, hvouched.endWith hrecent⟩

theorem coherent_setCall (hlocked : Locked (s.setCall n state)) (hvouched : Vouched settings s) :
    Coherent settings (s.setCall n state) :=
  ⟨hlocked, hvouched.of_same rfl rfl rfl rfl⟩

theorem coherent_retaining (h : Coherent settings s) (hcall : s.calls n = some c)
    (hstep : (match s.retained settings c.url with
      | (some jwks, s) => some (s.endWith n c jwks)
      | (none, s) => some (s.endCall n c)) = some s') : Coherent settings s' := by
  obtain ⟨hvouched, hrecent⟩ := @Vouched.retained _ _ _ _ c.url h.vouched
  have hsame : (s.retained settings c.url).2.calls = s.calls ∧
      (s.retained settings c.url).2.owner = s.owner ∧ (s.retained settings c.url).2.locks = s.locks := by
    unfold JwksCache.retained
    split
    · exact ⟨rfl, rfl, rfl⟩
    · split <;> exact ⟨rfl, rfl, rfl⟩
  obtain ⟨hcalls, howner, hlocks⟩ := hsame
  have hlocked : Locked (s.retained settings c.url).2 := by
    constructor
    · rw [hcalls, howner]
      exact h.locked.owned
    · rw [hcalls, hlocks]
      exact h.locked.named
  have hcall' : (s.retained settings c.url).2.calls n = some c := hcalls ▸ hcall
  split at hstep
  · next jwks after heq =>
    cases hstep
    rw [heq] at hvouched hrecent hlocked hcall'
    exact coherent_endWith hlocked hvouched hcall' (hrecent jwks rfl)
  · next after heq =>
    cases hstep
    rw [heq] at hvouched hlocked hcall'
    exact ⟨hlocked.endCall hcall', hvouched.endCall⟩

theorem coherent_resume (h : Coherent settings s) (hcall : s.calls n = some c)
    (hstep : s.resume settings n c = some s') : Coherent settings s' := by
  obtain ⟨url, forced, phase⟩ := c
  unfold JwksCache.resume at hstep
  cases phase with
  | looking =>
    simp only at hstep
    split at hstep
    · next hfresh =>
      cases hstep
      exact coherent_endWith h.locked h.vouched hcall (h.vouched.fresh hfresh)
    · cases hstep
      exact coherent_setCall (h.locked.begin rfl) h.vouched
  | seeking =>
    simp only at hstep
    split at hstep
    · next lock hlock =>
      cases hstep
      exact coherent_setCall (h.locked.waiting (c := ⟨url, forced, .seeking⟩) hlock) h.vouched
    · cases hstep
      exact coherent_setCall (h.locked.begin rfl) h.vouched
  | registering =>
    cases hstep
    obtain ⟨hlocked, hlock⟩ := h.locked.lockFor url
    have hvouched : Vouched settings (s.lockFor url).2 := by
      unfold JwksCache.lockFor
      split
      · exact h.vouched
      · exact h.vouched.of_same rfl rfl rfl rfl
    exact coherent_setCall (hlocked.waiting (c := ⟨url, forced, .registering⟩) hlock) hvouched
  | waiting lock =>
    simp only at hstep
    split at hstep
    · next hfree =>
      cases hstep
      have hnamed := h.locked.named n _ lock hcall rfl
      have htaken := h.locked.take (n := n) (Option.isNone_iff_eq_none.mp hfree)
      refine coherent_setCall (htaken.setCall ?_ ?_) (h.vouched.of_same rfl rfl rfl rfl)
      · -- the lock it waited for, whichever way it goes on
        rintro _ ⟨⟩ l hl
        have hl' : l = lock := by
          cases forced <;> exact (Option.some.inj hl).symm
        rw [hl']
        exact Function.update_self ..
      · rintro _ ⟨⟩ l hl
        have hl' : l = lock := by
          cases forced <;> exact (Option.some.inj hl).symm
        rw [hl']
        exact hnamed
    · cases hstep
  | lookingAgain lock =>
    simp only at hstep
    split at hstep
    · next hfresh =>
      cases hstep
      exact coherent_endWith h.locked h.vouched hcall (h.vouched.fresh hfresh)
    · cases hstep
      exact coherent_setCall (h.locked.onward hcall rfl (fun _ hl => hl) fun _ hl => hl) h.vouched
  | fetching lock => cases hstep
  | retaining lock failure => exact coherent_retaining h hcall hstep

/-- **Every move keeps the invariant.** -/
theorem coherent_step (h : Coherent settings s) (hstep : jwksCacheStep settings s m = some s') :
    Coherent settings s' := by
  cases m with
  | load n url =>
    simp only [jwksCacheStep] at hstep
    split at hstep
    · cases hstep
      exact coherent_setCall (h.locked.begin rfl) h.vouched
    · cases hstep
  | refresh n url =>
    simp only [jwksCacheStep] at hstep
    split at hstep
    · cases hstep
      exact coherent_setCall (h.locked.begin rfl) h.vouched
    · cases hstep
  | resume n =>
    simp only [jwksCacheStep, Option.bind_eq_bind, Option.bind_eq_some_iff] at hstep
    obtain ⟨c, hcall, hstep⟩ := hstep
    exact coherent_resume h hcall hstep
  | fetched n result =>
    simp only [jwksCacheStep, Option.bind_eq_bind, Option.bind_eq_some_iff] at hstep
    obtain ⟨c, hcall, hstep⟩ := hstep
    split at hstep
    · next url forced lock =>
      split at hstep
      · next jwks =>
        cases hstep
        have hstored : Locked (s.store url jwks) := ⟨h.locked.owned, h.locked.named⟩
        exact coherent_endWith hstored h.vouched.store hcall
          ⟨s.now, List.mem_cons_self, Nat.le_refl _, Nat.le_add_right _ _⟩
      · split at hstep
        · cases hstep
          exact ⟨h.locked.endCall hcall, h.vouched.endCall⟩
        · cases hstep
          exact coherent_setCall (h.locked.onward hcall rfl (fun _ hl => hl) fun _ hl => hl) h.vouched
    · cases hstep
  | cancel n =>
    simp only [jwksCacheStep, Option.bind_eq_bind, Option.bind_eq_some_iff] at hstep
    obtain ⟨c, hcall, hstep⟩ := hstep
    cases hstep
    exact ⟨h.locked.endCall hcall, h.vouched.endCall⟩
  | elapse nanos =>
    cases hstep
    refine ⟨⟨h.locked.owned, h.locked.named⟩, ⟨fun url entry hentry => ?_, h.vouched.recent⟩⟩
    obtain ⟨hfetched, hpast, hexpires⟩ := h.vouched.stored url entry hentry
    exact ⟨hfetched, Nat.le_trans hpast (Nat.le_add_right _ _), hexpires⟩

end

/-! ## Failed fetches -/

/-- The call fetches the key set of `url`. -/
def JwksCache.Fetches (s : JwksCache K E) (url : String) (n : Nat) : Prop :=
  ∃ c lock, s.calls n = some c ∧ c.url = url ∧ c.phase = .fetching lock

/--
A fetch that fails leaves the entries as they are. A load that is left with the failure keeps every
entry too, except the one of its URL when that one is beyond the stale ceiling.
-/
structure FailedFetchKeeps (settings : JwksFetchSettings) (s : JwksCache K E) : Prop where
  failing : ∀ n failure s', jwksCacheStep settings s (.fetched n (.error failure)) = some s' →
    s'.entries = s.entries
  failed : ∀ n c lock failure s', s.calls n = some c → c.phase = .retaining lock failure →
    jwksCacheStep settings s (.resume n) = some s' →
    s'.entries = Function.update s.entries c.url
      ((s.entries c.url).filter (s.withinCeiling settings))

theorem JwksCache.endCall_entries (s : JwksCache K E) (n : Nat) (c : JwksCall E) :
    (s.endCall n c).entries = s.entries := by
  unfold JwksCache.endCall
  split <;> rfl

theorem JwksCache.retained_entries (settings : JwksFetchSettings) (s : JwksCache K E) (url : String) :
    (s.retained settings url).2.entries =
      Function.update s.entries url ((s.entries url).filter (s.withinCeiling settings)) := by
  unfold JwksCache.retained
  split
  · next hnone => rw [hnone, Option.filter_none, ← hnone, Function.update_eq_self]
  · next entry hentry =>
    split
    · next hwithin => rw [hentry, Option.filter_some, if_pos hwithin, ← hentry, Function.update_eq_self]
    · next hbeyond => rw [hentry, Option.filter_some, if_neg hbeyond]

theorem failedFetchKeeps (settings : JwksFetchSettings) (s : JwksCache K E) :
    FailedFetchKeeps settings s := by
  constructor
  · intro n failure s' hstep
    simp only [jwksCacheStep, Option.bind_eq_bind, Option.bind_eq_some_iff] at hstep
    obtain ⟨c, hcall, hstep⟩ := hstep
    split at hstep
    · split at hstep
      · cases hstep
        exact s.endCall_entries n _
      · cases hstep
        rfl
    · cases hstep
  · rintro n ⟨url, forced, phase⟩ lock failure s' hcall rfl hstep
    simp only [jwksCacheStep, hcall, Option.bind_eq_bind, Option.bind_some, JwksCache.resume] at hstep
    rw [← s.retained_entries settings url]
    -- with or without a key set, the call ends
    split at hstep
    · next heq =>
      cases hstep
      rw [heq]
      exact JwksCache.endCall_entries ..
    · next heq =>
      cases hstep
      rw [heq]
      exact JwksCache.endCall_entries ..

/--
**The JWKS cache.** In every run at most one fetch of a URL is in progress, every key set returned
was fetched at most `max_stale_seconds` before, and a failed fetch takes away nothing but an entry
of its own URL that is beyond that ceiling.
-/
theorem jwks_cache_spec (settings : JwksFetchSettings) {s : JwksCache K E} {moves : List (JwksMove K E)}
    (hrun : runFrom (jwksCacheStep settings) {} moves = some s) :
    (∀ url n k, s.Fetches url n → s.Fetches url k → n = k) ∧
    (∀ r ∈ s.returned, Recent settings s r.url r.jwks r.instant) ∧
    FailedFetchKeeps settings s := by
  have hinitial : Coherent settings ({} : JwksCache K E) :=
    ⟨⟨nofun, nofun⟩, ⟨nofun, nofun⟩⟩
  have h : Coherent settings s := runFrom_invariant hrun hinitial fun _ _ _ => coherent_step
  refine ⟨?_, h.vouched.recent, failedFetchKeeps settings s⟩
  rintro url n k ⟨c, lock, hn, rfl, hc⟩ ⟨c', lock', hk, hurl, hc'⟩
  -- both have the lock of the URL, which has one owner
  have hlock := h.locked.named n c lock hn (by rw [hc]; rfl)
  have hlock' := h.locked.named k c' lock' hk (by rw [hc']; rfl)
  rw [hurl] at hlock'
  obtain rfl : lock = lock' := Option.some.inj (hlock.symm.trans hlock')
  have howner := h.locked.owned n c lock hn (by rw [hc]; rfl)
  have howner' := h.locked.owned k c' lock hk (by rw [hc']; rfl)
  exact Option.some.inj (howner.symm.trans howner')

namespace Trial

/-- The default ceiling. -/
def jwksSettings : JwksFetchSettings where
  maxStaleSeconds := 86400
  validated := by decide

/-- A key set is fetched, and refreshed a day and a second later. -/
def dayOldKeys : List (JwksMove Nat Unit) :=
  [.load 1 "jwks", .resume 1, .resume 1, .resume 1, .resume 1, .resume 1, .fetched 1 (.ok 7),
    .elapse 86401000000000, .load 2 "jwks", .resume 2, .resume 2, .resume 2, .resume 2]

end Trial

open Trial in
/-- The failed fetch of a load evicts the entry of its URL. -/
theorem failed_load_evicts : ∃ s s',
    runFrom (jwksCacheStep jwksSettings) {} dayOldKeys = some s ∧ s.Fetches "jwks" 2 ∧
    runFrom (jwksCacheStep jwksSettings) s [.fetched 2 (.error ()), .resume 2] = some s' ∧
    (s.entries "jwks").map (·.jwks) = some 7 ∧ (s'.entries "jwks").map (·.jwks) = none :=
  ⟨_, _, rfl, ⟨_, 0, rfl, rfl, rfl⟩, rfl, rfl, rfl⟩

open Trial in
theorem jwks_cache_spec_dayOldKeys : ∃ s,
    runFrom (jwksCacheStep jwksSettings) {} dayOldKeys = some s ∧ s.Fetches "jwks" 2 ∧
    (∀ k, s.Fetches "jwks" k → 2 = k) ∧ FailedFetchKeeps jwksSettings s := by
  have hrun : runFrom (jwksCacheStep jwksSettings) {} dayOldKeys = some _ := rfl
  obtain ⟨hone, -, hkeeps⟩ := jwks_cache_spec jwksSettings hrun
  exact ⟨_, hrun, ⟨_, 0, rfl, rfl, rfl⟩, fun k hk => hone "jwks" 2 k ⟨_, 0, rfl, rfl, rfl⟩ hk, hkeeps⟩

end Moira
