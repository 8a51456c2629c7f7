import Mathlib.Data.List.Dedup
import Mathlib.Data.List.Nodup
import Mathlib.Data.List.Perm.Subperm
import Mathlib.Data.List.TakeWhile
import Moira.Orchestration.RateLimit

/-!
# Limiters

**`rate_limiters_agree`**: the same answers from both, and in each window exactly the first calls
are admitted.
-/

namespace Moira

variable {now : Nat}

section Registry

variable {K : Type}

/-- The invariant of one registry. -/
structure Accounted [DecidableEq K] (max : Nat) (l : Limiters K) : Prop where
  keys : (l.registry.map Prod.fst).Nodup
  room : l.registry.length ≤ max
  allocated : ∀ pair ∈ l.registry, pair.2.limiter < l.allocated
  /-- Two keys have two limiters. -/
  apart : ∀ pair ∈ l.registry, ∀ other ∈ l.registry, pair.2.limiter = other.2.limiter → pair.1 = other.1
  active : ∀ pair ∈ l.registry, l.activeOf pair.2 = l.livePermits pair.1
  /-- The limiter a permit was taken from is still the one of its key. -/
  registered : ∀ permit ∈ l.live, ∃ pair ∈ l.registry,
    pair.1 = permit.key ∧ pair.2.limiter = permit.limiter

variable [DecidableEq K] {l l' : Limiters K} {call limit max limiter : Nat} {key : K}

theorem lookup_mem {entry : LimiterEntry} (h : l.entry key = some entry) :
    (key, entry) ∈ l.registry := by
  obtain ⟨before, after, hregistry, -⟩ := List.lookup_eq_some_iff.mp h
  rw [hregistry]
  exact List.mem_append_right _ List.mem_cons_self

theorem not_mem_of_lookup (h : l.entry key = none) : ∀ pair ∈ l.registry, pair.1 ≠ key := by
  unfold Limiters.entry at h
  rw [List.lookup_eq_none_iff] at h
  intro pair hpair heq
  have := h pair hpair
  simp [heq] at this

theorem livePermits_eq_zero (h : Accounted max l) (hnone : l.entry key = none) :
    l.livePermits key = 0 := by
  unfold Limiters.livePermits
  rw [List.countP_eq_zero]
  intro permit hpermit hkey
  obtain ⟨pair, hpair, hpairKey, -⟩ := h.registered permit hpermit
  exact not_mem_of_lookup hnone pair hpair (hpairKey.trans (of_decide_eq_true hkey))

/-! ## The section of the registry -/

theorem accounted_touch {entry : LimiterEntry} (h : Accounted max l) :
    Accounted max (l.touch now key limit entry.limiter) := by
  have hback : ∀ pair ∈ (l.touch now key limit entry.limiter).registry, ∃ old ∈ l.registry,
      old.1 = pair.1 ∧ old.2.limiter = pair.2.limiter := by
    intro pair hpair
    obtain ⟨old, hold, rfl⟩ := List.mem_map.mp hpair
    refine ⟨old, hold, ?_⟩
    split
    · next hkey => exact ⟨hkey, rfl⟩
    · exact ⟨rfl, rfl⟩
  have hactive : ∀ id, ((l.touch now key limit entry.limiter).limiters id).active =
      (l.limiters id).active := by
    intro id
    show (Function.update l.limiters entry.limiter _ id).active = _
    by_cases hid : id = entry.limiter
    · rw [hid, Function.update_self]
    · rw [Function.update_of_ne hid]
  refine ⟨?_, ?_, ?_, ?_, ?_, ?_⟩
  · have hfst : (l.touch now key limit entry.limiter).registry.map Prod.fst =
        l.registry.map Prod.fst := by
      unfold Limiters.touch
      rw [List.map_map]
      apply List.map_congr_left
      intro pair _
      simp only [Function.comp]
      split
      · next hkey => exact hkey.symm
      · rfl
    rw [hfst]
    exact h.keys
  · unfold Limiters.touch
    rw [List.length_map]
    exact h.room
  · intro pair hpair
    obtain ⟨old, hold, -, hlimiter⟩ := hback pair hpair
    exact hlimiter ▸ h.allocated old hold
  · intro pair hpair other hother heq
    obtain ⟨old, hold, hkey, hlimiter⟩ := hback pair hpair
    obtain ⟨old', hold', hkey', hlimiter'⟩ := hback other hother
    rw [← hkey, ← hkey']
    exact h.apart old hold old' hold' (hlimiter.trans (heq.trans hlimiter'.symm))
  · intro pair hpair
    obtain ⟨old, hold, hkey, hlimiter⟩ := hback pair hpair
    rw [Limiters.activeOf, hactive, ← hlimiter, ← hkey]
    exact h.active old hold
  · intro permit hpermit
    obtain ⟨pair, hpair, hkey, hlimiter⟩ := h.registered permit hpermit
    refine ⟨_, List.mem_map_of_mem hpair, ?_⟩
    split
    · next heq => exact ⟨heq.symm.trans hkey, hlimiter⟩
    · exact ⟨hkey, hlimiter⟩

theorem accounted_register (h : Accounted max l) (hnone : l.entry key = none)
    (hroom : l.registry.length < max) : Accounted max (l.register now key limit) := by
  -- the new limiter is nobody else's
  have hold : ∀ pair ∈ l.registry, ((l.register now key limit).limiters pair.2.limiter) =
      l.limiters pair.2.limiter := by
    intro pair hpair
    exact Function.update_of_ne (Nat.ne_of_lt (h.allocated pair hpair)) ..
  have hnew : ∀ pair ∈ l.registry, pair.1 ≠ key := not_mem_of_lookup hnone
  refine ⟨?_, hroom, ?_, ?_, ?_, ?_⟩
  · refine List.nodup_cons.mpr ⟨?_, h.keys⟩
    intro hmem
    obtain ⟨pair, hpair, hkey⟩ := List.mem_map.mp hmem
    exact hnew pair hpair hkey
  · intro pair hpair
    rcases List.mem_cons.mp hpair with rfl | hpair
    · exact Nat.lt_succ_self _
    · exact Nat.lt_succ_of_lt (h.allocated pair hpair)
  · intro pair hpair other hother heq
    rcases List.mem_cons.mp hpair with rfl | hpair
    · rcases List.mem_cons.mp hother with rfl | hother
      · rfl
      · exact absurd heq.symm (Nat.ne_of_lt (h.allocated other hother))
    · rcases List.mem_cons.mp hother with rfl | hother
      · exact absurd heq (Nat.ne_of_lt (h.allocated pair hpair))
      · exact h.apart pair hpair other hother heq
  · intro pair hpair
    rcases List.mem_cons.mp hpair with rfl | hpair
    · have hzero := livePermits_eq_zero h hnone
      have hself : (l.register now key limit).limiters l.allocated =
        { limit := Nat.max limit 1, active := 0 } := Function.update_self ..
      rw [Limiters.activeOf, hself]
      exact hzero.symm
    · rw [Limiters.activeOf, hold pair hpair]
      exact h.active pair hpair
  · intro permit hpermit
    obtain ⟨pair, hpair, hkey, hlimiter⟩ := h.registered permit hpermit
    exact ⟨pair, List.mem_cons_of_mem _ hpair, hkey, hlimiter⟩

theorem accounted_remove (h : Accounted max l) (hold : l.OldestInactive key) :
    Accounted max (l.remove key) ∧ (l.remove key).registry.length < max := by
  obtain ⟨pair, hpair, rfl, hinactive, -⟩ := hold
  have hsub : (l.remove pair.1).registry.Sublist l.registry := List.filter_sublist
  have hgone : l.livePermits pair.1 = 0 := (h.active pair hpair).symm.trans hinactive
  constructor
  · refine ⟨h.keys.sublist (hsub.map _), Nat.le_trans hsub.length_le h.room,
      fun pair hpair => h.allocated pair (hsub.subset hpair),
      fun pair hpair other hother => h.apart pair (hsub.subset hpair) other (hsub.subset hother),
      fun pair hpair => h.active pair (hsub.subset hpair), ?_⟩
    intro permit hpermit
    obtain ⟨home, hhome, hkey, hlimiter⟩ := h.registered permit hpermit
    refine ⟨home, List.mem_filter.mpr ⟨hhome, decide_eq_true ?_⟩, hkey, hlimiter⟩
    intro heq
    have hpos : 0 < l.livePermits pair.1 :=
      List.countP_pos_iff.mpr ⟨permit, hpermit, decide_eq_true (hkey.symm.trans heq)⟩
    omega
  · have hlt : (l.remove pair.1).registry.length < l.registry.length := by
      apply List.length_filter_lt_length_iff_exists.mpr
      exact ⟨pair, hpair, by simp⟩
    exact Nat.lt_of_lt_of_le hlt h.room

theorem accounted_tryAcquire (pair : K × LimiterEntry) (h : Accounted max l) (hpair : pair ∈ l.registry)
    (hacquire : l.tryAcquire call pair.1 pair.2.limiter = some l') :
    Accounted max l' ∧ l'.live = { call, key := pair.1, limiter := pair.2.limiter } :: l.live ∧
    l'.livePermits pair.1 ≤ (l.limiters pair.2.limiter).limit := by
  unfold Limiters.tryAcquire at hacquire
  simp only at hacquire
  split at hacquire
  · cases hacquire
  next hbelow =>
  cases hacquire
  have hactive : (l.limiters pair.2.limiter).active = l.livePermits pair.1 := h.active pair hpair
  have hlive : ∀ other, List.countP (fun permit => decide (permit.key = other))
      (({ call, key := pair.1, limiter := pair.2.limiter } : DynamicPermit K) :: l.live) =
        l.livePermits other + if pair.1 = other then 1 else 0 := by
    intro other
    rw [List.countP_cons]
    simp only [decide_eq_true_eq]
    rfl
  refine ⟨⟨h.keys, h.room, h.allocated, h.apart, ?_, ?_⟩, rfl, ?_⟩
  · intro other hother
    show (Function.update l.limiters pair.2.limiter _ other.2.limiter).active = List.countP _ _
    rw [hlive]
    by_cases hlimiter : other.2.limiter = pair.2.limiter
    · have hkey := h.apart other hother pair hpair hlimiter
      rw [hlimiter, Function.update_self, if_pos hkey.symm, hkey]
      exact congrArg (· + 1) hactive
    · have hkey : pair.1 ≠ other.1 := by
        intro hkey
        have heq := List.inj_on_of_nodup_map h.keys hpair hother hkey
        exact hlimiter (heq ▸ rfl)
      rw [Function.update_of_ne hlimiter, if_neg hkey]
      exact h.active other hother
  · intro permit hpermit
    rcases List.mem_cons.mp hpermit with rfl | hpermit
    · exact ⟨pair, hpair, rfl, rfl⟩
    · exact h.registered permit hpermit
  · show List.countP _ _ ≤ _
    rw [hlive, if_pos rfl]
    omega

/-- What a section of the registry leaves behind. -/
structure Acquired (max call limit : Nat) (key : K) (l : Limiters K) (result : Except CapacityScope Unit)
    (l' : Limiters K) : Prop where
  accounted : Accounted max l'
  granted : result = .ok () → l'.livePermits key ≤ Nat.max limit 1 ∧
    ∃ limiter, l'.live = { call, key, limiter } :: l.live
  refused : ∀ scope, result = .error scope → l'.live = l.live

theorem acquired_entry (now call limit : Nat) (scope : CapacityScope) (h : Accounted max l)
    (hroom : (l.entry key).isSome ∨ l.registry.length < max) :
    Acquired max call limit key l (l.acquireEntry now call key limit scope).1
      (l.acquireEntry now call key limit scope).2 := by
  have hready : ∃ mid limiter entry, (l.acquireEntry now call key limit scope =
        (mid.tryAcquire call key limiter).elim (.error scope, mid) fun l => (.ok (), l)) ∧
      Accounted max mid ∧ mid.live = l.live ∧ (key, entry) ∈ mid.registry ∧ entry.limiter = limiter ∧
      (mid.limiters limiter).limit = Nat.max limit 1 := by
    cases hentry : l.entry key with
    | some entry =>
      refine ⟨l.touch now key limit entry.limiter, entry.limiter, { entry with lastUsed := now }, ?_,
        accounted_touch h, rfl, ?_, rfl, ?_⟩
      · simp only [Limiters.acquireEntry, hentry]
        cases (l.touch now key limit entry.limiter).tryAcquire call key entry.limiter <;> rfl
      · refine List.mem_map.mpr ⟨(key, entry), lookup_mem hentry, ?_⟩
        rw [if_pos rfl]
      · show (Function.update l.limiters entry.limiter _ entry.limiter).limit = _
        rw [Function.update_self]
    | none =>
      have hless : l.registry.length < max := by
        rcases hroom with hsome | hless
        · rw [hentry] at hsome
          cases hsome
        · exact hless
      refine ⟨l.register now key limit, l.allocated, { limiter := l.allocated, lastUsed := now }, ?_,
        accounted_register h hentry hless, rfl, List.mem_cons_self, rfl, ?_⟩
      · simp only [Limiters.acquireEntry, hentry]
        cases (l.register now key limit).tryAcquire call key l.allocated <;> rfl
      · show (Function.update l.limiters l.allocated _ l.allocated).limit = _
        rw [Function.update_self]
  obtain ⟨mid, limiter, entry, heq, hmid, hlive, hmem, rfl, hlimit⟩ := hready
  rw [heq]
  cases htry : mid.tryAcquire call key entry.limiter with
  | none => exact ⟨hmid, nofun, fun _ _ => hlive⟩
  | some l' =>
    obtain ⟨haccounted, hnew, hle⟩ := accounted_tryAcquire (key, entry) hmid hmem htry
    refine ⟨haccounted, fun _ => ⟨?_, entry.limiter, hlive ▸ hnew⟩, nofun⟩
    exact hlimit ▸ hle

/-- **One section**: the accounts stay right, and a permit is granted only below the limit passed.
-/
theorem acquired_acquire {scope : CapacityScope} {evicted : Option K} {result : Except CapacityScope Unit}
    (h : Accounted max l)
    (hacquire : l.acquireDynamicLimiter now call key limit scope max evicted = some (result, l')) :
    Acquired max call limit key l result l' := by
  unfold Limiters.acquireDynamicLimiter at hacquire
  split at hacquire
  · next hroom =>
    split at hacquire
    · have hentry := acquired_entry now call limit scope h hroom
      rwa [Option.some.inj hacquire] at hentry
    · cases hacquire
  · split at hacquire
    · split at hacquire
      · next hold =>
        obtain ⟨hremoved, hroom⟩ := accounted_remove h hold
        have hentry : Acquired max call limit key (l.remove _) _ _ :=
          acquired_entry now call limit scope hremoved (.inr hroom)
        rw [Option.some.inj hacquire] at hentry
        exact ⟨hentry.accounted, hentry.granted, hentry.refused⟩
      · cases hacquire
    · split at hacquire
      · cases hacquire
        exact ⟨h, nofun, fun _ _ => rfl⟩
      · cases hacquire

/-! ## Drops -/

theorem livePermits_erase {permit : DynamicPermit K} (hpermit : permit ∈ l.live) (key : K) :
    (l.dropPermit permit).livePermits key + (if permit.key = key then 1 else 0) = l.livePermits key := by
  have hperm := (List.perm_cons_erase hpermit).countP_eq fun p => decide (p.key = key)
  rw [List.countP_cons] at hperm
  simp only [decide_eq_true_eq] at hperm
  exact hperm.symm

/-- A permit that is dropped keeps the accounts. -/
theorem accounted_dropPermit {permit : DynamicPermit K} (h : Accounted max l) (hpermit : permit ∈ l.live) :
    Accounted max (l.dropPermit permit) := by
  obtain ⟨home, hhome, hkey, hlimiter⟩ := h.registered permit hpermit
  refine ⟨h.keys, h.room, h.allocated, h.apart, ?_, ?_⟩
  · intro pair hpair
    have herase := livePermits_erase hpermit pair.1
    have hactive := h.active pair hpair
    unfold Limiters.activeOf at hactive
    show (Function.update l.limiters permit.limiter _ pair.2.limiter).active = _
    by_cases heq : pair.2.limiter = permit.limiter
    · have hsame := h.apart pair hpair home hhome (heq.trans hlimiter.symm)
      rw [if_pos (hkey.symm.trans hsame.symm)] at herase
      rw [heq] at hactive
      rw [heq, Function.update_self]
      show (l.limiters permit.limiter).active - 1 = _
      omega
    · have hne : permit.key ≠ pair.1 := by
        intro hpermitKey
        have hpairs := List.inj_on_of_nodup_map h.keys hpair hhome (hkey.trans hpermitKey).symm
        exact heq (hpairs ▸ hlimiter)
      rw [if_neg hne] at herase
      rw [Function.update_of_ne heq]
      omega
  · intro other hother
    exact h.registered other (List.mem_of_mem_erase hother)

end Registry

/-! ## Answers to checks -/

/-- What a check answers. -/
def rateAnswer (admitted : Bool) : Except AppError Unit :=
  if admitted then .ok () else .error rateLimited

/-- One check of one key: whether it is admitted, and the bucket after it. -/
def windowCheck (limit : UInt32) (window now : Nat) (bucket : Option RateLimitBucket) :
    Bool × RateLimitBucket :=
  let bucket := InMemoryRateLimiter.rollBucket (bucket.getD { windowStarted := now, count := 0 })
    window now
  if max limit.toNat 1 ≤ bucket.count then (false, bucket)
  else (true, { bucket with count := bucket.count + 1 })

variable {window : Nat} {bucket : RateLimitBucket}

section

variable {limit : UInt32}

theorem saturatingSucc_eq {count : Nat} (h : ¬max limit.toNat 1 ≤ count) :
    saturatingSucc count = count + 1 := by
  have hlimit : limit.toNat < 2 ^ 32 := limit.toNat_lt
  unfold saturatingSucc
  omega

theorem windowCheck_none :
    windowCheck limit window now none = (true, { windowStarted := now, count := 1 }) := by
  have hroll : InMemoryRateLimiter.rollBucket { windowStarted := now, count := 0 } window now =
      { windowStarted := now, count := 0 } := by
    unfold InMemoryRateLimiter.rollBucket
    split <;> rfl
  have hlimit : ¬max limit.toNat 1 ≤ 0 := by omega
  simp [windowCheck, hroll, hlimit]

theorem windowCheck_elapsed (h : window ≤ now - bucket.windowStarted) :
    windowCheck limit window now (some bucket) = windowCheck limit window now none := by
  rw [windowCheck_none]
  have hlimit : ¬max limit.toNat 1 ≤ 0 := by omega
  simp [windowCheck, InMemoryRateLimiter.rollBucket, h, hlimit]

theorem windowCheck_within (h : ¬window ≤ now - bucket.windowStarted) :
    windowCheck limit window now (some bucket) =
      if max limit.toNat 1 ≤ bucket.count then (false, bucket)
      else (true, { bucket with count := bucket.count + 1 }) := by
  simp [windowCheck, InMemoryRateLimiter.rollBucket, h]

end

/-! ## The limiter in memory -/

variable {keys : List String}

namespace InMemoryRateLimiter

variable {limiter : InMemoryRateLimiter} {key other : String} {limit : UInt32}

/-- The limiter has seen only these keys, and has room for all of them. -/
structure Roomy (keys : List String) (limiter : InMemoryRateLimiter) : Prop where
  room : keys.length ≤ limiter.maxEntries
  seen : ∀ entry ∈ limiter.buckets, entry.1 ∈ keys
  distinct : (limiter.buckets.map Prod.fst).Nodup

theorem lookup_isNone : (limiter.buckets.lookup key).isNone ↔ key ∉ limiter.buckets.map Prod.fst := by
  rw [Option.isNone_iff_eq_none, List.lookup_eq_none_iff]
  simp only [List.mem_map, not_exists, not_and, bne_iff_ne]
  constructor
  · intro h entry hentry heq
    exact h entry hentry heq.symm
  · intro h entry hentry heq
    exact h entry hentry heq.symm

theorem makeRoom_eq (h : Roomy keys limiter) (hkey : key ∈ keys) :
    limiter.makeRoom key = limiter.buckets := by
  unfold makeRoom
  rw [if_neg]
  rintro ⟨hfull, hnew⟩
  have hnodup : (key :: limiter.buckets.map Prod.fst).Nodup :=
    List.nodup_cons.mpr ⟨lookup_isNone.mp hnew, h.distinct⟩
  have hsubset : key :: limiter.buckets.map Prod.fst ⊆ keys := by
    intro k hk
    rcases List.mem_cons.mp hk with rfl | hk
    · exact hkey
    · obtain ⟨entry, hentry, rfl⟩ := List.mem_map.mp hk
      exact h.seen entry hentry
  have hlength := (List.Nodup.subperm hnodup hsubset).length_le
  rw [List.length_cons, List.length_map] at hlength
  have hroom := h.room
  omega

theorem lookup_store {buckets : List (String × RateLimitBucket)} :
    ((key, bucket) :: buckets.filter fun entry => entry.1 ≠ key).lookup other =
      if other = key then some bucket else buckets.lookup other := by
  rw [List.lookup_cons]
  by_cases hother : other = key
  · subst hother
    simp
  · rw [if_neg hother]
    simp only [beq_eq_false_iff_ne.mpr hother]
    induction buckets with
    | nil => rfl
    | cons entry buckets ih =>
      obtain ⟨k, b⟩ := entry
      by_cases hk : k = key
      · have hne : ¬other = k := fun heq => hother (heq.trans hk)
        rw [List.filter_cons_of_neg (by simpa using hk), ih, List.lookup_cons,
          beq_eq_false_iff_ne.mpr hne]
      · rw [List.filter_cons_of_pos (by simpa using hk), List.lookup_cons, List.lookup_cons, ih]

/-- **What a check does** while there is room for its key. -/
theorem check_spec (limit : UInt32) (window now : Nat) (h : Roomy keys limiter)
    (hkey : key ∈ keys) :
    (limiter.check key limit window now).1 =
      rateAnswer (windowCheck limit window now (limiter.buckets.lookup key)).1 ∧
    (∀ other, (limiter.check key limit window now).2.buckets.lookup other =
      if other = key then some (windowCheck limit window now (limiter.buckets.lookup key)).2
      else limiter.buckets.lookup other) ∧
    Roomy keys (limiter.check key limit window now).2 := by
  have hroomy : ∀ bucket : RateLimitBucket, Roomy keys
      { limiter with buckets := (key, bucket) :: limiter.buckets.filter fun entry => entry.1 ≠ key } := by
    intro bucket
    refine ⟨h.room, ?_, ?_⟩
    · intro entry hentry
      rcases List.mem_cons.mp hentry with rfl | hentry
      · exact hkey
      · exact h.seen entry (List.mem_filter.mp hentry).1
    · rw [List.map_cons, List.nodup_cons]
      refine ⟨fun hmem => ?_, h.distinct.sublist (List.filter_sublist.map _)⟩
      obtain ⟨entry, hentry, heq⟩ := List.mem_map.mp hmem
      simpa [heq] using (List.mem_filter.mp hentry).2
  unfold check windowCheck
  simp only [makeRoom_eq h hkey]
  split
  · exact ⟨rfl, fun _ => lookup_store, hroomy _⟩
  · next hallowed =>
    rw [saturatingSucc_eq hallowed]
    exact ⟨rfl, fun _ => lookup_store, hroomy _⟩

end InMemoryRateLimiter

/-! ## The script -/

/-- The counter of a bucket: it expires when the window has elapsed. -/
def RateLimitBucket.counter (bucket : RateLimitBucket) (window : Nat) : RedisEntry where
  value := bucket.count
  expiresAt := some (bucket.windowStarted + window)

/-- The key of an increment expires exactly when the window has elapsed: the window is a positive
whole number of milliseconds, and the argument of `PEXPIRE` is that number. -/
def ExpiresExactly (window : Nat) : Prop :=
  0 < window ∧ redisMillis window * 1000000 = window

variable {db : RedisDb}

section

variable {key other : String} {limit : UInt32}

theorem checkRateWindow_new (limit : UInt32) (window : Nat) (hlive : db.live now key = none) :
    (checkRateWindow db now key limit window).1 = true ∧
    (checkRateWindow db now key limit window).2 =
      db.set key { value := 1, expiresAt := some (now + redisMillis window * 1000000) } := by
  have hset : (db.set key { value := 1 }).live now key = some { value := 1 } := RedisDb.live_set rfl
  have hlast : ∀ entry : RedisEntry, RedisDb.set (db.set key { value := 1 }) key entry =
      db.set key entry := fun entry => Function.update_idem ..
  simp [checkRateWindow, rateLimitScript, RedisDb.get, RedisDb.incr, RedisDb.incrBy, hlive,
    RedisDb.pexpire, hset, hlast]

theorem checkRateWindow_present {entry : RedisEntry} (hlive : db.live now key = some entry)
    (hvalue : 0 < entry.value) :
    checkRateWindow db now key limit window =
      if ((max limit.toNat 1 : Nat) : Int) ≤ entry.value then (false, db)
      else (true, db.set key { entry with value := entry.value + 1 }) := by
  have hsecond : ¬entry.value + 1 = 1 := by omega
  by_cases hfull : ((max limit.toNat 1 : Nat) : Int) ≤ entry.value
  · rw [if_pos hfull]
    simp only [checkRateWindow, rateLimitScript, RedisDb.get, hlive, Option.map_some, Option.getD_some,
      if_pos hfull]
    rfl
  · rw [if_neg hfull]
    simp only [checkRateWindow, rateLimitScript, RedisDb.get, RedisDb.incr, RedisDb.incrBy, hlive,
      Option.map_some, Option.getD_some, Option.bind_some, if_neg hfull, if_neg hsecond]
    rfl

theorem live_counter (now : Nat) (hwindow : 0 < window)
    (h : db key = some (bucket.counter window)) :
    db.live now key =
      if window ≤ now - bucket.windowStarted then none else some (bucket.counter window) := by
  unfold RedisDb.live
  rw [h]
  by_cases helapsed : window ≤ now - bucket.windowStarted
  · rw [if_pos helapsed, Option.filter_some, if_neg]
    simp only [RateLimitBucket.counter, Option.all_some, decide_eq_true_eq]
    omega
  · rw [if_neg helapsed, Option.filter_some, if_pos]
    simp only [RateLimitBucket.counter, Option.all_some, decide_eq_true_eq]
    omega

/-- **What a check does** to the counter of a bucket. -/
theorem checkRateWindow_spec (limit : UInt32) (now : Nat) (hwindow : ExpiresExactly window)
    {bucket : Option RateLimitBucket}
    (hdb : db key = bucket.map fun b => b.counter window) (hcount : ∀ b, bucket = some b → 0 < b.count) :
    (checkRateWindow db now key limit window).1 = (windowCheck limit window now bucket).1 ∧
    (checkRateWindow db now key limit window).2 key =
      some ((windowCheck limit window now bucket).2.counter window) ∧
    ∀ other, other ≠ key → (checkRateWindow db now key limit window).2 other = db other := by
  obtain ⟨hpos, hexact⟩ := hwindow
  -- the key is not there: a first increment, and its deadline
  have hnew : db.live now key = none →
      (checkRateWindow db now key limit window).1 = (windowCheck limit window now none).1 ∧
      (checkRateWindow db now key limit window).2 key =
        some ((windowCheck limit window now none).2.counter window) ∧
      ∀ other, other ≠ key → (checkRateWindow db now key limit window).2 other = db other := by
    intro hlive
    obtain ⟨hallowed, hafter⟩ := checkRateWindow_new limit window hlive
    rw [windowCheck_none, hallowed, hafter, hexact]
    refine ⟨rfl, Function.update_self .., fun other hother => Function.update_of_ne hother ..⟩
  cases bucket with
  | none =>
    apply hnew
    unfold RedisDb.live
    rw [hdb]
    rfl
  | some b =>
    have hlive := live_counter now hpos hdb
    by_cases helapsed : window ≤ now - b.windowStarted
    · rw [windowCheck_elapsed helapsed]
      apply hnew
      rw [hlive, if_pos helapsed]
    · rw [if_neg helapsed] at hlive
      have hvalue : 0 < (b.counter window).value := by
        have := hcount b rfl
        simp only [RateLimitBucket.counter]
        omega
      rw [checkRateWindow_present hlive hvalue, windowCheck_within helapsed]
      by_cases hfull : max limit.toNat 1 ≤ b.count
      · have hfull' : ((max limit.toNat 1 : Nat) : Int) ≤ (b.counter window).value :=
          Int.ofNat_le.mpr hfull
        rw [if_pos hfull, if_pos hfull']
        exact ⟨rfl, hdb, fun _ _ => rfl⟩
      · have hfull' : ¬((max limit.toNat 1 : Nat) : Int) ≤ (b.counter window).value :=
          fun h => hfull (Int.ofNat_le.mp h)
        rw [if_neg hfull, if_neg hfull']
        refine ⟨rfl, Function.update_self .., fun other hother => Function.update_of_ne hother ..⟩

end

/-! ## The simulation -/

/-- The counters of Redis are those of the buckets, each of which has admitted a call. -/
structure Agrees (window : String → Nat) (limiter : InMemoryRateLimiter) (db : RedisDb) : Prop where
  counter : ∀ key, db key = (limiter.buckets.lookup key).map fun b => b.counter (window key)
  counted : ∀ key b, limiter.buckets.lookup key = some b → 0 < b.count

theorem windowCheck_counted {limit : UInt32} {bucket : Option RateLimitBucket}
    (h : ∀ b, bucket = some b → 0 < b.count) :
    0 < (windowCheck limit window now bucket).2.count := by
  cases bucket with
  | none =>
    rw [windowCheck_none]
    exact Nat.one_pos
  | some b =>
    by_cases helapsed : window ≤ now - b.windowStarted
    · rw [windowCheck_elapsed helapsed, windowCheck_none]
      exact Nat.one_pos
    · rw [windowCheck_within helapsed]
      split
      · exact h b rfl
      · exact Nat.succ_pos _

variable {c : RateCheck}

theorem agrees_check {window : String → Nat} {limiter : InMemoryRateLimiter}
    (hwindow : ∀ key, ExpiresExactly (window key)) (hroomy : limiter.Roomy keys)
    (h : Agrees window limiter db) (hkey : c.key ∈ keys) :
    (limiter.check c.key c.limit (window c.key) c.now).1 =
      (clusterCheck db c.key c.limit (window c.key) c.now).1 ∧
    Agrees window (limiter.check c.key c.limit (window c.key) c.now).2
      (clusterCheck db c.key c.limit (window c.key) c.now).2 := by
  obtain ⟨hresult, hlookup, -⟩ := InMemoryRateLimiter.check_spec c.limit (window c.key) c.now hroomy
    hkey
  obtain ⟨hallowed, hself, hothers⟩ := checkRateWindow_spec c.limit c.now
    (hwindow c.key) (h.counter c.key) (h.counted c.key)
  refine ⟨?_, ?_, ?_⟩
  · rw [hresult, ← hallowed]
    rfl
  · intro key
    show (checkRateWindow db c.now c.key c.limit (window c.key)).2 key = _
    rw [hlookup]
    by_cases heq : key = c.key
    · subst heq
      rw [if_pos rfl, hself]
      rfl
    · rw [if_neg heq, hothers key heq, h.counter]
  · intro key b hb
    rw [hlookup] at hb
    by_cases heq : key = c.key
    · rw [if_pos heq] at hb
      obtain rfl := Option.some.inj hb
      exact windowCheck_counted (h.counted c.key)
    · rw [if_neg heq] at hb
      exact h.counted key b hb

variable {checks : List RateCheck}

theorem inMemoryResults_cons {window : String → Nat} {limiter : InMemoryRateLimiter} :
    inMemoryResults window limiter (c :: checks) =
      (limiter.check c.key c.limit (window c.key) c.now).1 ::
        inMemoryResults window (limiter.check c.key c.limit (window c.key) c.now).2 checks := rfl

theorem clusterResults_cons {window : String → Nat} :
    clusterResults window db (c :: checks) =
      (clusterCheck db c.key c.limit (window c.key) c.now).1 ::
        clusterResults window (clusterCheck db c.key c.limit (window c.key) c.now).2 checks := rfl

theorem results_agree {window : String → Nat} (hwindow : ∀ key, ExpiresExactly (window key))
    (hkeys : ∀ c ∈ checks, c.key ∈ keys) {limiter : InMemoryRateLimiter}
    (hroomy : limiter.Roomy keys) (h : Agrees window limiter db) :
    inMemoryResults window limiter checks = clusterResults window db checks := by
  induction checks generalizing limiter db with
  | nil => rfl
  | cons c checks ih =>
    have hkey := hkeys c List.mem_cons_self
    obtain ⟨hresult, hnext⟩ := agrees_check hwindow hroomy h hkey
    have hroomy' := (InMemoryRateLimiter.check_spec c.limit (window c.key) c.now hroomy hkey).2.2
    rw [inMemoryResults_cons, clusterResults_cons, hresult,
        ih (fun c' hc' => hkeys c' (List.mem_cons_of_mem _ hc')) hroomy' hnext]

/-! ## Fixed windows -/

/-- The calls of one key, cut into windows: each starts with the first call after the last one. -/
def windowsOf (window : Nat) : List Nat → List (List Nat)
  | [] => []
  | t :: ts =>
    (t :: ts.takeWhile (· < t + window)) :: windowsOf window (ts.dropWhile (· < t + window))
termination_by ts => ts.length
decreasing_by
  exact Nat.lt_succ_of_le (List.dropWhile_sublist _).length_le

/-- The answers in one window: the first calls are admitted. -/
def windowAnswers (limit : UInt32) (calls : List Nat) : List (Except AppError Unit) :=
  List.replicate (min calls.length (max limit.toNat 1)) (rateAnswer true) ++
    List.replicate (calls.length - max limit.toNat 1) (rateAnswer false)

/-- The answers to the calls of one key. -/
def bucketResults (limit : UInt32) (window : Nat) :
    Option RateLimitBucket → List Nat → List (Except AppError Unit)
  | _, [] => []
  | bucket, now :: times =>
    rateAnswer (windowCheck limit window now bucket).1 ::
      bucketResults limit window (some (windowCheck limit window now bucket).2) times

section

variable {limit : UInt32}

theorem bucketResults_within (limit : UInt32) (hpos : 0 < window) {started count : Nat}
    {calls : List Nat} (rest : List Nat) (hcalls : ∀ t ∈ calls, t < started + window)
    (hcount : count ≤ max limit.toNat 1) :
    ∃ count', bucketResults limit window (some ⟨started, count⟩) (calls ++ rest) =
      List.replicate (min calls.length (max limit.toNat 1 - count)) (rateAnswer true) ++
        List.replicate (calls.length - (max limit.toNat 1 - count)) (rateAnswer false) ++
        bucketResults limit window (some ⟨started, count'⟩) rest := by
  induction calls generalizing count with
  | nil => exact ⟨count, by simp⟩
  | cons t calls ih =>
    have ht := hcalls t List.mem_cons_self
    have hrest : ∀ t ∈ calls, t < started + window := fun t' ht' =>
      hcalls t' (List.mem_cons_of_mem _ ht')
    have hwithin : ¬window ≤ t - (⟨started, count⟩ : RateLimitBucket).windowStarted := by
      show ¬window ≤ t - started
      omega
    rw [List.cons_append, bucketResults, windowCheck_within hwithin]
    by_cases hfull : max limit.toNat 1 ≤ count
    · obtain ⟨count', hresults⟩ := ih hrest hcount
      refine ⟨count', ?_⟩
      have hzero : max limit.toNat 1 - count = 0 := by omega
      rw [if_pos hfull, hresults, hzero]
      simp [List.replicate_succ]
    · obtain ⟨count', hresults⟩ := ih hrest (Nat.not_le.mp hfull)
      refine ⟨count', ?_⟩
      rw [if_neg hfull]
      have hmin : min (t :: calls).length (max limit.toNat 1 - count) =
          min calls.length (max limit.toNat 1 - (count + 1)) + 1 := by
        rw [List.length_cons]
        omega
      have hsub : (t :: calls).length - (max limit.toNat 1 - count) =
          calls.length - (max limit.toNat 1 - (count + 1)) := by
        rw [List.length_cons]
        omega
      rw [hresults, hmin, hsub, List.replicate_succ]
      rfl

theorem bucketResults_eq {bucket : Option RateLimitBucket} {times : List Nat}
    (hpos : 0 < window)
    (h : ∀ b t, bucket = some b → times.head? = some t → window ≤ t - b.windowStarted) :
    bucketResults limit window bucket times = (windowsOf window times).flatMap (windowAnswers limit) := by
  induction times using windowsOf.induct window generalizing bucket with
  | case1 => simp [bucketResults, windowsOf]
  | case2 t ts ih =>
    have hfirst : windowCheck limit window t bucket = (true, ⟨t, 1⟩) := by
      cases bucket with
      | none => exact windowCheck_none
      | some b => rw [windowCheck_elapsed (h b t rfl rfl), windowCheck_none]
    have hsplit : ts = ts.takeWhile (· < t + window) ++ ts.dropWhile (· < t + window) :=
      List.takeWhile_append_dropWhile.symm
    have hcalls : ∀ t' ∈ ts.takeWhile (· < t + window), t' < t + window := fun t' ht' => by
      simpa using List.mem_takeWhile_imp ht'
    obtain ⟨count', hresults⟩ := bucketResults_within limit hpos
      (ts.dropWhile (· < t + window)) hcalls (by omega : 1 ≤ max limit.toNat 1)
    -- the first call that is not in the window has it elapsed
    have hnext : ∀ b t', some (⟨t, count'⟩ : RateLimitBucket) = some b →
        (ts.dropWhile (· < t + window)).head? = some t' → window ≤ t' - b.windowStarted := by
      rintro b t' ⟨⟩ hhead
      have hnot := List.head?_dropWhile_not (· < t + window) ts
      rw [hhead] at hnot
      simp only [decide_eq_false_iff_not] at hnot
      show window ≤ t' - t
      omega
    rw [bucketResults, hfirst, windowsOf, List.flatMap_cons, ← ih hnext]
    conv_lhs => rw [hsplit]
    rw [hresults]
    have hmin : min (t :: ts.takeWhile (· < t + window)).length (max limit.toNat 1) =
        min (ts.takeWhile (· < t + window)).length (max limit.toNat 1 - 1) + 1 := by
      rw [List.length_cons]
      omega
    have hsub : (t :: ts.takeWhile (· < t + window)).length - max limit.toNat 1 =
        (ts.takeWhile (· < t + window)).length - (max limit.toNat 1 - 1) := by
      rw [List.length_cons]
      omega
    rw [windowAnswers, hmin, hsub, List.replicate_succ]
    simp

end

/-- The answers that a sequence of checks got for one key. -/
def answersFor (key : String) (checks : List RateCheck) (results : List (Except AppError Unit)) :
    List (Except AppError Unit) :=
  ((checks.zip results).filter fun entry => entry.1.key = key).map Prod.snd

/-- When the checks of one key were made. -/
def timesFor (key : String) (checks : List RateCheck) : List Nat :=
  (checks.filter fun c => c.key = key).map RateCheck.now

theorem answersFor_eq {window : String → Nat} {key : String} {limit : UInt32}
    (hkeys : ∀ c ∈ checks, c.key ∈ keys) (hlimit : ∀ c ∈ checks, c.key = key → c.limit = limit)
    {limiter : InMemoryRateLimiter} (hroomy : limiter.Roomy keys) :
    answersFor key checks (inMemoryResults window limiter checks) =
      bucketResults limit (window key) (limiter.buckets.lookup key) (timesFor key checks) := by
  induction checks generalizing limiter with
  | nil => rfl
  | cons c checks ih =>
    obtain ⟨hresult, hlookup, hroomy'⟩ := InMemoryRateLimiter.check_spec c.limit (window c.key) c.now
      hroomy (hkeys c List.mem_cons_self)
    have hrest := ih (fun c' hc' => hkeys c' (List.mem_cons_of_mem _ hc'))
      (fun c' hc' => hlimit c' (List.mem_cons_of_mem _ hc')) hroomy'
    rw [inMemoryResults_cons]
    unfold answersFor timesFor at hrest ⊢
    by_cases heq : c.key = key
    · have hc : c.limit = limit := hlimit c List.mem_cons_self heq
      subst heq
      rw [hlookup, if_pos rfl] at hrest
      rw [List.zip_cons_cons, List.filter_cons_of_pos (by simp), List.map_cons, hrest,
        List.filter_cons_of_pos (by simp), List.map_cons, bucketResults, hresult, hc]
    · rw [hlookup, if_neg (Ne.symm heq)] at hrest
      rw [List.zip_cons_cons, List.filter_cons_of_neg (by simpa using heq), hrest,
        List.filter_cons_of_neg (by simpa using heq)]

/--
**The two backends admit and refuse the same calls**, for every sequence of checks over at most
`maxEntries` keys whose windows expire exactly; and in each window of a key with one limit, exactly
the first `max limit 1` calls are admitted.
-/
theorem rate_limiters_agree (maxEntries : Nat) (window : String → Nat)
    (hwindow : ∀ key, ExpiresExactly (window key)) (checks : List RateCheck)
    (hkeys : (checks.map RateCheck.key).dedup.length ≤ maxEntries) :
    inMemoryResults window (.new maxEntries) checks = clusterResults window (fun _ => none) checks ∧
    ∀ key limit, (∀ c ∈ checks, c.key = key → c.limit = limit) →
      answersFor key checks (inMemoryResults window (.new maxEntries) checks) =
        (windowsOf (window key) (timesFor key checks)).flatMap (windowAnswers limit) := by
  have hmem : ∀ c ∈ checks, c.key ∈ (checks.map RateCheck.key).dedup := fun c hc =>
    List.mem_dedup.mpr (List.mem_map_of_mem hc)
  have hroomy : (InMemoryRateLimiter.new maxEntries).Roomy (checks.map RateCheck.key).dedup :=
    ⟨Nat.le_trans hkeys (Nat.le_max_left _ _), fun _ hentry => (nomatch hentry), List.nodup_nil⟩
  constructor
  · exact results_agree hwindow hmem hroomy ⟨fun _ => rfl, fun _ _ hb => nomatch hb⟩
  · intro key limit hlimit
    rw [answersFor_eq hmem hlimit hroomy]
    exact bucketResults_eq (hwindow key).1 fun _ _ hb => nomatch hb

namespace Trial

/-- A minute. -/
def minute : Nat := 60000000000

/-- Four calls of one application, and one of another in between. -/
def fourCalls : List RateCheck :=
  [{ key := "app", limit := 3, now := 0 }, { key := "app", limit := 3, now := 5 },
    { key := "other", limit := 1, now := 6 }, { key := "app", limit := 3, now := 7 },
    { key := "app", limit := 3, now := 8 }]

end Trial

open Trial in
theorem rate_limiters_agree_fourCalls :
    inMemoryResults (fun _ => minute) (.new 16) fourCalls =
      clusterResults (fun _ => minute) (fun _ => none) fourCalls ∧
    answersFor "app" fourCalls (inMemoryResults (fun _ => minute) (.new 16) fourCalls) =
      [.ok (), .ok (), .ok (), .error rateLimited] := by
  obtain ⟨hagree, hwindows⟩ := rate_limiters_agree 16 (fun _ => minute)
    (fun _ => ⟨by decide, by decide +kernel⟩) fourCalls (by decide +kernel)
  refine ⟨hagree, (hwindows "app" 3 (by decide +kernel)).trans ?_⟩
  have htimes : timesFor "app" fourCalls = [0, 5, 7, 8] := by decide +kernel
  rw [htimes]
  simp [windowsOf, windowAnswers, minute, rateAnswer]

end Moira
