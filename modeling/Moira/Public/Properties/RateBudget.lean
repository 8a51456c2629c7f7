import Moira.Orchestration.Properties.RateLimit
import Moira.Public.RateBudget

/-!
# One counter for two budgets

Requests and streams have a limit each, and one bucket.

**`budgets_independent_iff`**
-/

namespace Moira

namespace Public

/-! ## Lists, member by member -/

section

variable {α : Type} {P Q : List α → α → Prop} {l : List α} {a : α}

/-- `P` of each member, with those before it. -/
def AtEach (P : List α → α → Prop) (l : List α) : Prop :=
  ∀ before a rest, l = before ++ a :: rest → P before a

theorem atEach_nil : AtEach P [] := by
  intro before a rest h
  simp at h

theorem atEach_concat : AtEach P (l ++ [a]) ↔ AtEach P l ∧ P l a := by
  constructor
  · intro h
    refine ⟨fun before b rest hl => ?_, h l a [] rfl⟩
    exact h before b (rest ++ [a]) (by rw [hl]; simp)
  · rintro ⟨hl, ha⟩ before b rest heq
    rcases List.eq_nil_or_concat rest with rfl | ⟨rest, c, rfl⟩
    · obtain ⟨rfl, hb⟩ := List.append_inj' heq rfl
      rw [← List.singleton_inj.mp hb]
      exact ha
    · rw [List.concat_eq_append, ← List.cons_append, ← List.append_assoc] at heq
      obtain ⟨hbefore, -⟩ := List.append_inj' heq rfl
      exact hl before b rest hbefore

theorem atEach_iff (h : ∀ l' a, l' ++ [a] <+: l → AtEach P l' → (P l' a ↔ Q l' a)) :
    AtEach P l ↔ AtEach Q l := by
  induction l using List.reverseRecOn with
  | nil => exact ⟨fun _ => atEach_nil, fun _ => atEach_nil⟩
  | append_singleton l a ih =>
    have ih := ih fun l' b hpre => h l' b (hpre.trans (List.prefix_append l [a]))
    rw [atEach_concat, atEach_concat, ← ih]
    exact and_congr_right (h l a List.prefix_rfl)

end

/-! ## The bucket -/

variable {limiter : InMemoryRateLimiter}

section

variable {key : String} {limit : UInt32} {window now : Nat}

theorem check_own (limiter : InMemoryRateLimiter) (key : String) (limit : UInt32) (window now : Nat) :
    (limiter.check key limit window now).1 =
      rateAnswer (windowCheck limit window now (limiter.buckets.lookup key)).1 ∧
    (limiter.check key limit window now).2.buckets.lookup key =
      some (windowCheck limit window now (limiter.buckets.lookup key)).2 := by
  have hroom : (limiter.makeRoom key).lookup key = limiter.buckets.lookup key := by
    unfold InMemoryRateLimiter.makeRoom
    split
    · next hnew =>
      -- only the bucket of another key goes
      have hnone : limiter.buckets.lookup key = none := by simpa using hnew.2
      split
      · rw [hnone, List.lookup_eq_none_iff]
        intro entry hentry
        exact List.lookup_eq_none_iff.mp hnone entry (List.mem_filter.mp hentry).1
      · rfl
    · rfl
  unfold InMemoryRateLimiter.check windowCheck
  simp only [hroom]
  split
  · exact ⟨rfl, by simp⟩
  · next hlimit =>
    refine ⟨rfl, ?_⟩
    rw [saturatingSucc_eq hlimit]
    simp

/-- The bucket counts `n` calls in the window that has begun at `start`. -/
def Counts (key : String) (start n : Nat) (limiter : InMemoryRateLimiter) : Prop :=
  (n = 0 ∧ ∀ bucket, limiter.buckets.lookup key = some bucket →
    rateWindow ≤ start - bucket.windowStarted) ∨
  ∃ bucket, limiter.buckets.lookup key = some bucket ∧ start ≤ bucket.windowStarted ∧ bucket.count = n

/-- **A check** within the window is admitted below its own limit, and then counted. -/
theorem counts_check (limit : UInt32) {start n : Nat} (h : Counts key start n limiter) (hnow : start ≤ now)
    (hwindow : now < start + rateWindow) :
    (limiter.check key limit rateWindow now).1 = rateAnswer (decide (n < max limit.toNat 1)) ∧
    Counts key start (if n < max limit.toNat 1 then n + 1 else n)
      (limiter.check key limit rateWindow now).2 := by
  obtain ⟨hanswer, hlookup⟩ := check_own limiter key limit rateWindow now
  rw [hanswer]
  rcases h with ⟨rfl, hold⟩ | ⟨bucket, hbucket, hstarted, rfl⟩
  · -- the first call of the window
    have hfirst : windowCheck limit rateWindow now (limiter.buckets.lookup key) =
        (true, { windowStarted := now, count := 1 }) := by
      cases hlook : limiter.buckets.lookup key with
      | none => exact windowCheck_none
      | some bucket =>
        have helapsed := hold bucket hlook
        rw [windowCheck_elapsed (by omega)]
        exact windowCheck_none
    have hpos : 0 < max limit.toNat 1 := by omega
    rw [hfirst] at hlookup ⊢
    rw [if_pos hpos]
    exact ⟨by simp [hpos], .inr ⟨_, hlookup, hnow, rfl⟩⟩
  · rw [hbucket, windowCheck_within (by omega)] at hlookup ⊢
    split at hlookup
    · next hfull =>
      have hover : ¬bucket.count < max limit.toNat 1 := by omega
      rw [if_pos hfull, if_neg hover, decide_eq_false hover]
      exact ⟨rfl, .inr ⟨_, hlookup, hstarted, rfl⟩⟩
    · next hfull =>
      have hunder : bucket.count < max limit.toNat 1 := by omega
      rw [if_neg hfull, if_pos hunder, decide_eq_true hunder]
      exact ⟨rfl, .inr ⟨_, hlookup, hstarted, rfl⟩⟩

theorem rateAnswer_eq_ok {admitted : Bool} : rateAnswer admitted = .ok () ↔ admitted = true := by
  cases admitted <;> simp [rateAnswer]

end

theorem toNat_limitOf (limit : Int32) : (limitOf limit).toNat = (max limit.toInt 1).toNat := by
  have hmax : (max limit 1).toInt = max limit.toInt 1 := by
    rw [show max limit 1 = if limit ≤ 1 then 1 else limit from rfl]
    split
    · next h =>
      have hle : limit.toInt ≤ 1 := Int32.le_iff_toInt_le.mp h
      rw [max_eq_right hle]
      rfl
    · next h =>
      have hle : ¬limit.toInt ≤ 1 := fun h' => h (Int32.le_iff_toInt_le.mpr h')
      rw [max_eq_left (by omega)]
  have hpos : (0 : Int32) ≤ max limit 1 := by
    rw [Int32.le_iff_toInt_le, hmax]
    exact le_trans (by decide) (le_max_right _ _)
  rw [limitOf, Int32.toNat_toUInt32_of_le hpos, ← Int32.toNat_toInt, hmax]

/-! ## The calls -/

namespace CallKind

def other : CallKind → CallKind
  | .create => .stream
  | .stream => .create

end CallKind

section

variable (actor : Actor) (stored : ApplicationExecutionPolicyRecord)

/-- A call comes to its rate limit. -/
def Asks (call : BudgetCall) : Prop :=
  ∃ asked, limitFor actor stored call = .ok asked

instance : DecidablePred (Asks actor stored) := fun call =>
  match h : limitFor actor stored call with
  | .ok asked => isTrue ⟨asked, h⟩
  | .error _ => isFalse fun ⟨_, ha⟩ => by rw [h] at ha; cases ha

/-- `max(R, 1)` and `max(S, 1)` of the policy the principal is under. -/
def budget (kind : CallKind) : Nat :=
  let policy := executionPolicy stored actor.internalApplicationId
  match kind with
  | .create => (max policy.rateLimitRequestsPerMinute.toInt 1).toNat
  | .stream => (max policy.rateLimitStreamsPerMinute.toInt 1).toNat

/-- The calls of a kind that came to their rate limit. -/
def asked (calls : List BudgetCall) (kind : CallKind) : Nat :=
  calls.countP fun call => call.kind = kind ∧ Asks actor stored call

/-- The calls of a kind that were admitted. -/
def admitted (limiter : InMemoryRateLimiter) (calls : List BudgetCall) (kind : CallKind) : Nat :=
  (budgetRun actor stored limiter calls).1.countP fun entry => entry.1.kind = kind ∧ entry.2.isOk

/-- Each call is admitted exactly while fewer than the budget of its kind have been. -/
def Independent (limiter : InMemoryRateLimiter) : List BudgetCall → Prop :=
  AtEach fun before call => Asks actor stored call →
    ((budgetCall actor stored (budgetRun actor stored limiter before).2 call).1 = .ok () ↔
      admitted actor stored limiter before call.kind < budget actor stored call.kind)

/--
Each call comes after as many of its kind as the budget has, or so early that the calls of the other
kind, up to their budget, leave room for it.
-/
def Fits : List BudgetCall → Prop :=
  AtEach fun before call => Asks actor stored call →
    budget actor stored call.kind ≤ asked actor stored before call.kind ∨
    asked actor stored before call.kind +
      min (asked actor stored before call.kind.other) (budget actor stored call.kind.other) <
        budget actor stored call.kind

/-- One rate window: the bucket of the principal has elapsed at its start, and no call is after it.
-/
structure OneWindow (limiter : InMemoryRateLimiter) (start : Nat) (calls : List BudgetCall) : Prop where
  fresh : ∀ bucket,
    limiter.buckets.lookup (rateLimitKey actor actor.internalApplicationId) = some bucket →
      rateWindow ≤ start - bucket.windowStarted
  within : ∀ call ∈ calls, start ≤ call.now ∧ call.now < start + rateWindow

end

section

variable {actor : Actor} {stored : ApplicationExecutionPolicyRecord} {start n : Nat}
  {call : BudgetCall} {calls : List BudgetCall}

theorem publicAccess_eq_ok {privileged : Bool} {applicationId : Option Uuid}
    (h : publicAccess actor privileged = .ok applicationId) :
    applicationId = actor.internalApplicationId := by
  unfold publicAccess at h
  dsimp only at h
  split at h
  · cases h
  · exact (Except.ok.inj h).symm

theorem limitFor_eq_ok {applicationId : Option Uuid} {limit : Int32}
    (h : limitFor actor stored call = .ok (applicationId, limit)) :
    applicationId = actor.internalApplicationId ∧
    (limitOf limit).toNat = budget actor stored call.kind := by
  unfold limitFor at h
  rw [toNat_limitOf]
  cases hkind : call.kind with
  | create =>
    simp only [hkind, createResponseLimit] at h
    cases hrequire : actor.require "moira:responses:create" with
    | error e => simp [hrequire, bind, Except.bind] at h
    | ok u =>
      cases haccess : publicAccess actor false with
      | error e => simp [hrequire, haccess, bind, Except.bind] at h
      | ok application =>
        simp only [hrequire, haccess, bind, Except.bind] at h
        split at h
        · cases h
        · obtain ⟨rfl, rfl⟩ := Prod.mk.inj (Except.ok.inj h)
          rw [publicAccess_eq_ok haccess]
          exact ⟨rfl, rfl⟩
  | stream =>
    simp only [hkind, streamResponseLimit] at h
    split at h
    · cases h
    · cases hrequire : actor.require "moira:responses:stream" with
      | error e => simp [hrequire, bind, Except.bind] at h
      | ok u =>
        cases haccess : publicAccess actor false with
        | error e => simp [hrequire, haccess, bind, Except.bind] at h
        | ok application =>
          simp only [hrequire, haccess, bind, Except.bind] at h
          split at h
          · cases h
          · obtain ⟨rfl, rfl⟩ := Prod.mk.inj (Except.ok.inj h)
            rw [publicAccess_eq_ok haccess]
            exact ⟨rfl, rfl⟩

theorem budget_pos (actor : Actor) (stored : ApplicationExecutionPolicyRecord) (kind : CallKind) :
    0 < budget actor stored kind := by
  unfold budget
  cases kind <;> simp only <;> omega

/-! ## Runs -/

theorem budgetCall_of_not_asks (limiter : InMemoryRateLimiter) (h : ¬Asks actor stored call) :
    (budgetCall actor stored limiter call).1.isOk = false ∧
    (budgetCall actor stored limiter call).2 = limiter := by
  unfold budgetCall
  cases hlimit : limitFor actor stored call with
  | error err => exact ⟨rfl, rfl⟩
  | ok asked => exact absurd ⟨asked, hlimit⟩ h

/-- **A call** that comes to its rate limit is admitted below the budget of its kind. -/
theorem budgetCall_of_asks (h : Asks actor stored call)
    (hcounts : Counts (rateLimitKey actor actor.internalApplicationId) start n limiter)
    (hstart : start ≤ call.now) (hwindow : call.now < start + rateWindow) :
    (budgetCall actor stored limiter call).1 =
      rateAnswer (decide (n < budget actor stored call.kind)) ∧
    Counts (rateLimitKey actor actor.internalApplicationId) start
      (if n < budget actor stored call.kind then n + 1 else n)
      (budgetCall actor stored limiter call).2 := by
  obtain ⟨⟨applicationId, limit⟩, hlimit⟩ := h
  obtain ⟨rfl, hbudget⟩ := limitFor_eq_ok hlimit
  have hmax : max (limitOf limit).toNat 1 = budget actor stored call.kind := by
    have := budget_pos actor stored call.kind
    omega
  have hcheck := counts_check (limitOf limit) hcounts hstart hwindow
  rw [hmax] at hcheck
  simpa only [budgetCall, hlimit, checkRateLimit] using hcheck

theorem budgetRun_concat (limiter : InMemoryRateLimiter) (calls : List BudgetCall) (call : BudgetCall) :
    budgetRun actor stored limiter (calls ++ [call]) =
      ((budgetRun actor stored limiter calls).1 ++
          [(call, (budgetCall actor stored (budgetRun actor stored limiter calls).2 call).1)],
        (budgetCall actor stored (budgetRun actor stored limiter calls).2 call).2) := by
  induction calls generalizing limiter with
  | nil => rfl
  | cons first calls ih =>
    rw [List.cons_append, budgetRun, budgetRun]
    simp only [ih, List.cons_append]

theorem asked_concat (kind : CallKind) : asked actor stored (calls ++ [call]) kind =
    asked actor stored calls kind + if call.kind = kind ∧ Asks actor stored call then 1 else 0 := by
  simp [asked, List.countP_append, List.countP_cons]

theorem admitted_concat (kind : CallKind) : admitted actor stored limiter (calls ++ [call]) kind =
    admitted actor stored limiter calls kind +
      if call.kind = kind ∧ (budgetCall actor stored (budgetRun actor stored limiter calls).2 call).1.isOk
      then 1 else 0 := by
  simp [admitted, budgetRun_concat, List.countP_append, List.countP_cons]

theorem isOk_iff {answer : Except AppError Unit} : answer.isOk = true ↔ answer = .ok () := by
  cases answer with
  | error err => simp [Except.isOk, Except.toBool]
  | ok u => simp [Except.isOk, Except.toBool]

theorem isOk_rateAnswer (b : Bool) : (rateAnswer b).isOk = b := by
  cases b <;> rfl

theorem counts_run (stored : ApplicationExecutionPolicyRecord)
    (h : OneWindow actor limiter start calls) :
    Counts (rateLimitKey actor actor.internalApplicationId) start
      (admitted actor stored limiter calls .create + admitted actor stored limiter calls .stream)
      (budgetRun actor stored limiter calls).2 := by
  induction calls using List.reverseRecOn with
  | nil => exact .inl ⟨rfl, h.fresh⟩
  | append_singleton calls call ih =>
    have ih := ih ⟨h.fresh, fun c hc => h.within c (List.mem_append_left _ hc)⟩
    obtain ⟨hstart, hwindow⟩ := h.within call (by simp)
    rw [admitted_concat, admitted_concat, budgetRun_concat]
    by_cases hasks : Asks actor stored call
    · obtain ⟨hanswer, hcounts⟩ := budgetCall_of_asks hasks ih hstart hwindow
      rw [hanswer, isOk_rateAnswer]
      convert hcounts using 1
      cases call.kind <;> simp <;> split <;> omega
    · obtain ⟨hanswer, hsame⟩ := budgetCall_of_not_asks
        (budgetRun actor stored limiter calls).2 hasks
      rw [hanswer, hsame]
      simpa using ih

theorem admitted_of_independent (h : Independent actor stored limiter calls) (kind : CallKind) :
    admitted actor stored limiter calls kind =
      min (asked actor stored calls kind) (budget actor stored kind) := by
  induction calls using List.reverseRecOn with
  | nil => simp [admitted, asked, budgetRun]
  | append_singleton calls call ih =>
    obtain ⟨hcalls, hcall⟩ := atEach_concat.mp h
    rw [admitted_concat, asked_concat, ih hcalls]
    by_cases hasks : Asks actor stored call
    · have hiff := hcall hasks
      by_cases hkind : call.kind = kind
      · subst hkind
        rw [ih hcalls, ← isOk_iff] at hiff
        simp only [hasks, and_true, true_and, if_true]
        split
        · next hok =>
          have := hiff.mp hok
          omega
        · next hno =>
          have := mt hiff.mpr hno
          omega
      · simp [hkind]
    · obtain ⟨hanswer, -⟩ := budgetCall_of_not_asks
        (budgetRun actor stored limiter calls).2 hasks
      simp [hanswer, hasks]

/--
**The budgets are independent of each other** exactly when each call finds room beside the other
kind, or comes after its own budget is spent.
-/
theorem budgets_independent_iff (h : OneWindow actor limiter start calls) :
    Independent actor stored limiter calls ↔ Fits actor stored calls := by
  refine atEach_iff fun before call hpre hbefore => ?_
  have hsub := hpre.subset
  have hcounts := counts_run stored
    (⟨h.fresh, fun c hc => h.within c (hsub (List.mem_append_left _ hc))⟩ :
      OneWindow actor limiter start before)
  obtain ⟨hstart, hwindow⟩ := h.within call (hsub (by simp))
  refine imp_congr_right fun hasks => ?_
  obtain ⟨hanswer, -⟩ := budgetCall_of_asks hasks hcounts hstart hwindow
  have hadmitted := admitted_of_independent hbefore
  rw [hanswer, rateAnswer_eq_ok, decide_eq_true_iff, hadmitted, hadmitted, hadmitted]
  cases call.kind <;> simp only [CallKind.other] <;> omega

end

end Public

namespace Trial

open Public

def streamingActor : Actor where
  actorType := .consumerKey
  scopes := ["moira:responses:create", "moira:responses:stream"]
  apiKeyId := some 7
  internalApplicationId := some 1

/-- Two requests a minute, and one stream. -/
def tightBudgets : ApplicationExecutionPolicyRecord where
  rateLimitRequestsPerMinute := 2
  rateLimitStreamsPerMinute := 1

def createThenStream : List BudgetCall :=
  [{ kind := .create, now := 1 }, { kind := .stream, now := 2 }]

def streamThenCreates : List BudgetCall :=
  [{ kind := .stream, now := 1 }, { kind := .create, now := 2 }]

end Trial

namespace Public

theorem budgets_independent_iff_streamFirst :
    OneWindow Trial.streamingActor (.new 16) 1 Trial.streamThenCreates ∧
    (Independent Trial.streamingActor Trial.tightBudgets (.new 16) Trial.streamThenCreates ↔
      Fits Trial.streamingActor Trial.tightBudgets Trial.streamThenCreates) := by
  have hwindow : OneWindow Trial.streamingActor (.new 16) 1 Trial.streamThenCreates :=
    ⟨by simp [InMemoryRateLimiter.new], by decide⟩
  exact ⟨hwindow, budgets_independent_iff hwindow⟩

/-- One request, and the first stream is refused. -/
theorem stream_refused_by_request :
    OneWindow Trial.streamingActor (.new 16) 1 Trial.createThenStream ∧
    ¬Independent Trial.streamingActor Trial.tightBudgets (.new 16) Trial.createThenStream := by
  refine ⟨⟨by simp [InMemoryRateLimiter.new], by decide⟩, fun h => ?_⟩
  have hstream := h [{ kind := .create, now := 1 }] { kind := .stream, now := 2 } [] rfl (by decide +kernel)
  have hrefused : (budgetCall Trial.streamingActor Trial.tightBudgets
      (budgetRun Trial.streamingActor Trial.tightBudgets (.new 16) [{ kind := .create, now := 1 }]).2
      { kind := .stream, now := 2 }).1 = .error rateLimited := by decide +kernel
  rw [hrefused] at hstream
  have hfree : admitted Trial.streamingActor Trial.tightBudgets (.new 16)
      [{ kind := .create, now := 1 }] .stream < budget Trial.streamingActor Trial.tightBudgets .stream := by
    decide +kernel
  exact absurd (hstream.mpr hfree) (by simp)

end Public

end Moira
