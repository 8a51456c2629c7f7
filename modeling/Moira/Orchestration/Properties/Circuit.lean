import Mathlib.Tactic.Common
import Moira.Orchestration.Circuit

/-!
# Breakers stay open

- `WellTimed` — every open entry knows when it was opened; kept by every operation

**Main results**: `refused_after_failure_iff` — a failure keeps a refusal exactly when it was made
under the policy version of the refused call; `open_circuit_refuses` — a circuit that no late
success closes is open for its whole duration.
-/

namespace Moira

open Transition

variable {registry : CircuitBreakerRegistry} {key : CircuitKey} {policy : RuntimePolicy}
  {entry : CircuitEntry}

namespace CircuitBreakerRegistry

variable {other : CircuitKey} {p q : RuntimePolicy} {failureClass : ExecutionFailureClass}
  {now t : Nat}

/-! ## What an operation leaves -/

@[simp] theorem states_insert_self : (registry.insert key entry).states key = some entry :=
  Function.update_self ..

theorem states_insert_of_ne (hne : other ≠ key) :
    (registry.insert key entry).states other = registry.states other :=
  Function.update_of_ne hne ..

theorem current_of_version (hentry : registry.states key = some entry)
    (hversion : entry.policyVersion = policy.version) : registry.current key policy = entry := by
  have hor : registry.entryOr key policy = entry := by
    rw [entryOr, hentry]
    rfl
  rw [current, hor]
  simp [hversion]

theorem pastDuration_eq_true : entry.pastDuration policy now = true ↔
    ∃ opened, entry.openedAt = some opened ∧ policy.openFor ≤ now - opened := by
  unfold CircuitEntry.pastDuration
  rw [Option.any_eq_true]
  constructor
  · rintro ⟨opened, hopened, hpast⟩
    exact ⟨opened, hopened, of_decide_eq_true hpast⟩
  · rintro ⟨opened, hopened, hpast⟩
    exact ⟨opened, hopened, decide_eq_true hpast⟩

/-- The open entries that refuse a call. -/
def CircuitEntry.refuses (entry : CircuitEntry) (policy : RuntimePolicy) (now : Nat) : Prop :=
  entry.policyVersion = policy.version ∧ entry.state = .open ∧
    ∀ opened, entry.openedAt = some opened → now - opened < policy.openFor

/-- When a call is refused. -/
theorem refused_iff : registry.refused key policy now = true ↔
    ∃ entry, registry.states key = some entry ∧ CircuitEntry.refuses entry policy now := by
  constructor
  · intro hrefused
    -- a new entry and one of another version are closed
    have hopen : (registry.current key policy).state = .open := by
      cases hstate : (registry.current key policy).state <;>
        simp [refused, beforeCall, hstate] at hrefused ⊢
    cases hentry : registry.states key with
    | none => simp [current, entryOr, hentry, CircuitEntry.closed] at hopen
    | some entry =>
      have hor : registry.entryOr key policy = entry := by
        rw [entryOr, hentry]
        rfl
      have hversion : entry.policyVersion = policy.version := by
        by_contra hne
        simp [current, hor, hne, CircuitEntry.closed] at hopen
      have hcurrent := current_of_version hentry hversion
      rw [hcurrent] at hopen
      refine ⟨entry, rfl, hversion, hopen, fun opened hopened => ?_⟩
      by_contra hlate
      have hpast : entry.pastDuration policy now = true :=
        pastDuration_eq_true.mpr ⟨opened, hopened, Nat.le_of_not_lt hlate⟩
      simp [refused, beforeCall, hcurrent, hopen, hpast] at hrefused
  · rintro ⟨entry, hentry, hversion, hopen, hearly⟩
    have hcurrent := current_of_version hentry hversion
    have hpast : entry.pastDuration policy now = false := by
      rw [Bool.eq_false_iff]
      intro hpast
      obtain ⟨opened, hopened, hle⟩ := pastDuration_eq_true.mp hpast
      exact Nat.not_lt.mpr hle (hearly opened hopened)
    simp [refused, beforeCall, hcurrent, hopen, hpast]

theorem states_onFailure (registry : CircuitBreakerRegistry) (key : CircuitKey)
    (policy : RuntimePolicy) (now : Nat) (hcircuit : isCircuitFailure failureClass = true) :
    ∃ count, (registry.onFailure key policy failureClass now).states key = some
      (if (registry.entryOr key policy).state = .halfOpen ∨ policy.circuitFailureThreshold ≤ count then
        { state := .open, failureCount := count, openedAt := some now, policyVersion := policy.version }
      else
        { registry.entryOr key policy with failureCount := count, policyVersion := policy.version }) := by
  refine ⟨((registry.entryOr key policy).failureCount + 1).bmod 4294967296, ?_⟩
  unfold onFailure
  rw [if_pos hcircuit]
  simp only
  split <;> exact states_insert_self

theorem states_onFailure_of_ne (hne : other ≠ key) :
    (registry.onFailure key policy failureClass now).states other = registry.states other := by
  unfold onFailure
  split
  · simp only
    split <;> exact states_insert_of_ne hne
  · rfl

theorem states_beforeCall_of_ne (hne : other ≠ key) :
    (registry.beforeCall key policy now).2.states other = registry.states other := by
  unfold beforeCall
  simp only
  split
  · exact states_insert_of_ne hne
  · exact states_insert_of_ne hne
  · split <;> exact states_insert_of_ne hne

theorem states_beforeCall (now : Nat) (hentry : registry.states key = some entry)
    (hversion : entry.policyVersion = policy.version) :
    (registry.beforeCall key policy now).2.states key = some entry ∨
      (entry.state = .open ∧ (∃ opened, entry.openedAt = some opened ∧ policy.openFor ≤ now - opened) ∧
        (registry.beforeCall key policy now).2.states key = some { entry with state := .halfOpen }) := by
  have hcurrent := current_of_version hentry hversion
  simp only [beforeCall, hcurrent]
  split
  · exact .inl states_insert_self
  · exact .inl states_insert_self
  · next hopen =>
    split
    · next hpast => exact .inr ⟨hopen, pastDuration_eq_true.mp hpast, states_insert_self⟩
    · exact .inl states_insert_self

end CircuitBreakerRegistry

open CircuitBreakerRegistry

/-! ## Open entries know when they were opened -/

def CircuitBreakerRegistry.WellTimed (registry : CircuitBreakerRegistry) (now : Nat) : Prop :=
  ∀ key entry, registry.states key = some entry → entry.state = .open →
    ∃ opened, entry.openedAt = some opened ∧ opened ≤ now

variable {s : BreakerState}

section

variable {now : Nat}

section

variable (h : registry.WellTimed now)
include h

theorem wellTimed_insert
    (hentry : entry.state = .open → ∃ opened, entry.openedAt = some opened ∧ opened ≤ now) :
    (registry.insert key entry).WellTimed now := by
  intro other found hfound hopen
  by_cases hother : other = key
  · subst hother
    rw [states_insert_self] at hfound
    obtain rfl := Option.some.inj hfound
    exact hentry hopen
  · rw [states_insert_of_ne hother] at hfound
    exact h other found hfound hopen

theorem wellTimed_entryOr (hopen : (registry.entryOr key policy).state = .open) :
    ∃ opened, (registry.entryOr key policy).openedAt = some opened ∧ opened ≤ now := by
  cases hentry : registry.states key with
  | none => simp [entryOr, hentry, CircuitEntry.closed] at hopen
  | some entry =>
    have hor : registry.entryOr key policy = entry := by
      rw [entryOr, hentry]
      rfl
    rw [hor] at hopen ⊢
    exact h key entry hentry hopen

theorem wellTimed_beforeCall : (registry.beforeCall key policy now).2.WellTimed now := by
  have hcurrent : (registry.current key policy).state = .open →
      ∃ opened, (registry.current key policy).openedAt = some opened ∧ opened ≤ now := by
    intro hopen
    unfold current at hopen ⊢
    split at hopen
    · cases hopen
    · next hversion =>
      rw [if_neg hversion]
      exact wellTimed_entryOr h hopen
  unfold beforeCall
  simp only
  split
  · exact wellTimed_insert h hcurrent
  · exact wellTimed_insert h hcurrent
  · split
    · exact wellTimed_insert h fun hopen => nomatch hopen
    · exact wellTimed_insert h hcurrent

theorem wellTimed_onFailure {failureClass : ExecutionFailureClass} :
    (registry.onFailure key policy failureClass now).WellTimed now := by
  unfold onFailure
  split
  · simp only
    split
    · exact wellTimed_insert h fun _ => ⟨now, rfl, Nat.le_refl now⟩
    · exact wellTimed_insert h fun hopen => wellTimed_entryOr h hopen
  · exact h

theorem wellTimed_reset (scope : CircuitResetScope) :
    (registry.resetForResource scope).WellTimed now := by
  intro key entry hentry
  cases scope with
  | provider providerId =>
    simp only [resetForResource] at hentry
    split at hentry
    · exact h key entry hentry
    · cases hentry
  | model modelId =>
    simp only [resetForResource] at hentry
    split at hentry
    · exact h key entry hentry
    · cases hentry
  | unaffected => exact h key entry hentry
  | all => cases hentry

end

/-- After a step every open entry knows when it was opened. -/
theorem wellTimed_step {s' : BreakerState} {m : BreakerMove} (h : s.registry.WellTimed s.now)
    (hstep : breakerStep s m = some s') : s'.registry.WellTimed s'.now := by
  cases m with
  | beforeCall key policy =>
    cases hstep
    exact wellTimed_beforeCall h
  | onSuccess key =>
    cases hstep
    exact wellTimed_insert h fun hopen => nomatch hopen
  | onFailure key policy failureClass =>
    cases hstep
    exact wellTimed_onFailure h
  | reset scope =>
    cases hstep
    exact wellTimed_reset h scope
  | elapse nanos =>
    cases hstep
    intro key entry hentry hopen
    obtain ⟨opened, hopened, hle⟩ := h key entry hentry hopen
    exact ⟨opened, hopened, Nat.le_add_right_of_le hle⟩

theorem wellTimed_run {moves : List BreakerMove} (hrun : runFrom breakerStep {} moves = some s) :
    s.registry.WellTimed s.now :=
  runFrom_invariant (I := fun s => s.registry.WellTimed s.now) hrun (fun _ _ h => nomatch h)
    fun _ _ _ => wellTimed_step

end

/-! ## A failure under another policy version -/

/--
**In every state the breakers can be in: a refused call is still refused after a failure has been
recorded if and only if the failing call and the refused one ran under the same policy version.**
-/
theorem refused_after_failure_iff {s : BreakerState} {moves : List BreakerMove}
    (hrun : runFrom breakerStep {} moves = some s) (key : CircuitKey) (p q : RuntimePolicy)
    {failureClass : ExecutionFailureClass} (hcircuit : isCircuitFailure failureClass = true)
    (t : Nat) (hrefused : s.registry.refused key q t = true) :
    (s.registry.onFailure key p failureClass s.now).refused key q t = true ↔
      p.version = q.version := by
  obtain ⟨entry, hentry, hversion, hopen, hearly⟩ := refused_iff.mp hrefused
  obtain ⟨opened, hopened, hle⟩ := wellTimed_run hrun key entry hentry hopen
  have hor : s.registry.entryOr key p = entry := by
    rw [entryOr, hentry]
    rfl
  obtain ⟨count, hafter⟩ := states_onFailure s.registry key p s.now hcircuit
  rw [hor] at hafter
  constructor
  · intro hstill
    obtain ⟨after, hfound, hmatch, -⟩ := refused_iff.mp hstill
    rw [hafter] at hfound
    rw [← hmatch, ← Option.some.inj hfound]
    split <;> rfl
  · intro heq
    refine refused_iff.mpr ⟨_, hafter, ?_⟩
    split
    · -- opened again, now: later than before
      refine ⟨heq, rfl, ?_⟩
      rintro _ ⟨⟩
      have hbefore := hearly opened hopened
      omega
    · exact ⟨heq, hopen, hearly⟩

namespace Trial

def policyV1 : RuntimePolicy where
  version := 1
  circuitFailureThreshold := 1
  circuitOpenDurationMs := 30000

def policyV2 : RuntimePolicy :=
  { policyV1 with version := 2 }

/-- The provider and the model of the runs below. -/
def pair : CircuitKey := (7, 8)

/-- One timeout under the policy's second version opens the circuit. -/
def opened : List BreakerMove :=
  [.beforeCall pair policyV2, .onFailure pair policyV2 .providerTimeout, .elapse 1000000]

end Trial

open Trial in
/-- A call that started under the first version fails late, and the next call is let through. -/
theorem failure_opens_the_door_olderPolicy : ∃ s, runFrom breakerStep {} opened = some s ∧
    s.registry.refused pair policyV2 s.now = true ∧
    (s.registry.onFailure pair policyV1 .providerTimeout s.now).refused pair policyV2 s.now = false :=
  ⟨_, rfl, by decide +kernel, by decide +kernel⟩

open Trial in
theorem refused_after_failure_iff_samePolicy : ∃ s, runFrom breakerStep {} opened = some s ∧
    (s.registry.onFailure pair policyV2 .providerTimeout s.now).refused pair policyV2 s.now = true := by
  have hrun : runFrom breakerStep {} opened = some _ := rfl
  exact ⟨_, hrun, (refused_after_failure_iff hrun pair policyV2 policyV2 (by decide) _
    (by decide +kernel)).mpr rfl⟩

/-! ## An open circuit under one policy -/

/-- The operations on the pair are made under one policy, and none resets it. -/
def BreakerMove.Under (key : CircuitKey) (policy : RuntimePolicy) : BreakerMove → Prop
  | .beforeCall key' policy' => key' = key → policy' = policy
  | .onSuccess _ => True
  | .onFailure key' policy' _ => key' = key → policy' = policy
  | .reset scope => scope = .unaffected
  | .elapse _ => True

/-- No success is reported while the circuit is open. -/
def NoLateSuccess (key : CircuitKey) (s : BreakerState) : BreakerMove → Prop
  | .onSuccess key' => key' = key → ∀ entry, s.registry.states key = some entry → entry.state ≠ .open
  | _ => True

/-- An entry that was opened under the policy, at this time. -/
def CircuitEntry.OpenSince (entry : CircuitEntry) (policy : RuntimePolicy) (opened : Nat) : Prop :=
  entry.state = .open ∧ entry.openedAt = some opened ∧ entry.policyVersion = policy.version

section

variable {s' t : BreakerState} {m : BreakerMove}

/-- An open entry has the version of the one policy in use. -/
def OpenedUnder (key : CircuitKey) (policy : RuntimePolicy) (s : BreakerState) : Prop :=
  ∀ entry, s.registry.states key = some entry → entry.state = .open →
    entry.policyVersion = policy.version

theorem openedUnder_step (h : OpenedUnder key policy s) (hunder : m.Under key policy)
    (hstep : breakerStep s m = some s') : OpenedUnder key policy s' := by
  intro found hfound hopen
  cases m with
  | beforeCall key' policy' =>
    cases hstep
    by_cases hkey : key' = key
    · subst hkey
      obtain rfl := hunder rfl
      -- the entry a call finds has the version of its policy
      have hversion : (s.registry.current key' policy').policyVersion = policy'.version := by
        unfold current
        split
        · rfl
        · next heq => simpa using heq
      simp only [beforeCall] at hfound
      split at hfound
      · rw [states_insert_self] at hfound
        exact Option.some.inj hfound ▸ hversion
      · rw [states_insert_self] at hfound
        exact Option.some.inj hfound ▸ hversion
      · split at hfound <;> rw [states_insert_self] at hfound <;>
          exact Option.some.inj hfound ▸ hversion
    · exact h found ((states_beforeCall_of_ne (Ne.symm hkey)).symm.trans hfound) hopen
  | onSuccess key' =>
    cases hstep
    by_cases hkey : key' = key
    · subst hkey
      rw [onSuccess, states_insert_self] at hfound
      obtain rfl := Option.some.inj hfound
      cases hopen
    · exact h found ((states_insert_of_ne (Ne.symm hkey)).symm.trans hfound) hopen
  | onFailure key' policy' failureClass =>
    cases hstep
    by_cases hkey : key' = key
    · subst hkey
      obtain rfl := hunder rfl
      by_cases hcircuit : isCircuitFailure failureClass = true
      · obtain ⟨count, hafter⟩ := states_onFailure s.registry key' policy' s.now hcircuit
        rw [hafter] at hfound
        rw [← Option.some.inj hfound]
        split <;> rfl
      · have hkept : s.registry.onFailure key' policy' failureClass s.now = s.registry := by
          rw [onFailure, if_neg hcircuit]
        exact h found (by rw [← hfound, hkept]) hopen
    · exact h found ((states_onFailure_of_ne (Ne.symm hkey)).symm.trans hfound) hopen
  | reset scope =>
    obtain rfl : scope = .unaffected := hunder
    cases hstep
    exact h found hfound hopen
  | elapse nanos =>
    cases hstep
    exact h found hfound hopen

/-- What an operation under one policy does to an open entry. -/
theorem open_step (hunder : m.Under key policy) (hlate : NoLateSuccess key s m)
    (hstep : breakerStep s m = some s') {opened : Nat}
    (hentry : s.registry.states key = some entry) (hopen : entry.OpenSince policy opened)
    (hle : opened ≤ s.now) :
    (∃ entry' opened', s'.registry.states key = some entry' ∧ entry'.OpenSince policy opened' ∧
      opened ≤ opened' ∧ opened' ≤ s'.now) ∨
    (policy.openFor ≤ s.now - opened ∧
      ∃ entry', s'.registry.states key = some entry' ∧ entry'.state = .halfOpen) := by
  obtain ⟨hstate, hopened, hversion⟩ := hopen
  have hsame : s'.registry.states key = some entry → opened ≤ s'.now →
      ∃ entry' opened', s'.registry.states key = some entry' ∧ entry'.OpenSince policy opened' ∧
        opened ≤ opened' ∧ opened' ≤ s'.now := fun hkept hle' =>
    ⟨entry, opened, hkept, ⟨hstate, hopened, hversion⟩, Nat.le_refl opened, hle'⟩
  cases m with
  | beforeCall key' policy' =>
    cases hstep
    by_cases hkey : key' = key
    · subst hkey
      obtain rfl := hunder rfl
      rcases states_beforeCall s.now hentry hversion with hkept | ⟨-, ⟨at', hat, hpast⟩, hhalf⟩
      · exact .inl (hsame hkept hle)
      · obtain rfl : opened = at' := Option.some.inj (hopened.symm.trans hat)
        exact .inr ⟨hpast, _, hhalf, rfl⟩
    · exact .inl (hsame ((states_beforeCall_of_ne (Ne.symm hkey)).trans hentry) hle)
  | onSuccess key' =>
    cases hstep
    by_cases hkey : key' = key
    · exact absurd hstate (hlate hkey entry hentry)
    · exact .inl (hsame ((states_insert_of_ne (Ne.symm hkey)).trans hentry) hle)
  | onFailure key' policy' failureClass =>
    cases hstep
    by_cases hkey : key' = key
    · subst hkey
      obtain rfl := hunder rfl
      by_cases hcircuit : isCircuitFailure failureClass = true
      · have hor : s.registry.entryOr key' policy' = entry := by
          rw [entryOr, hentry]
          rfl
        obtain ⟨count, hafter⟩ := states_onFailure s.registry key' policy' s.now hcircuit
        rw [hor] at hafter
        refine .inl ⟨_, if entry.state = .halfOpen ∨ policy'.circuitFailureThreshold ≤ count then s.now
          else opened, hafter, ?_, ?_, ?_⟩
        · split
          · exact ⟨rfl, rfl, rfl⟩
          · exact ⟨hstate, hopened, rfl⟩
        · split
          · exact hle
          · exact Nat.le_refl opened
        · split
          · exact Nat.le_refl s.now
          · exact hle
      · refine .inl (hsame ?_ hle)
        show (s.registry.onFailure key' policy' failureClass s.now).states key' = some entry
        rw [onFailure, if_neg hcircuit]
        exact hentry
    · exact .inl (hsame ((states_onFailure_of_ne (Ne.symm hkey)).trans hentry) hle)
  | reset scope =>
    obtain rfl : scope = .unaffected := hunder
    cases hstep
    exact .inl (hsame hentry hle)
  | elapse nanos =>
    cases hstep
    exact .inl (hsame hentry (Nat.le_add_right_of_le hle))

/-- Open since this time or a later one, or past its duration. -/
def OpenOrPast (key : CircuitKey) (policy : RuntimePolicy) (opened : Nat) (s : BreakerState) :
    Prop :=
  (∃ entry opened', s.registry.states key = some entry ∧ entry.OpenSince policy opened' ∧
    opened ≤ opened' ∧ opened' ≤ s.now) ∨ opened + policy.openFor ≤ s.now

theorem now_le_step (hstep : breakerStep s m = some s') : s.now ≤ s'.now := by
  cases m <;> cases hstep <;> simp

theorem openOrPast_step {opened : Nat} (h : OpenOrPast key policy opened s)
    (hunder : m.Under key policy) (hlate : NoLateSuccess key s m)
    (hstep : breakerStep s m = some s') : OpenOrPast key policy opened s' := by
  rcases h with ⟨entry, opened', hentry, hopen, hle, hnow⟩ | hpast
  · rcases open_step hunder hlate hstep hentry hopen hnow with
      ⟨entry', opened'', hentry', hopen', hle', hnow'⟩ | ⟨hpast, -⟩
    · exact .inl ⟨entry', opened'', hentry', hopen', Nat.le_trans hle hle', hnow'⟩
    · have hmono := now_le_step hstep
      exact .inr (by omega)
  · exact .inr (Nat.le_trans hpast (now_le_step hstep))

/-- The moves of a run, each under the policy and none a late success. -/
def OnePolicy (key : CircuitKey) (policy : RuntimePolicy) (s : BreakerState) (m : BreakerMove) : Prop :=
  m.Under key policy ∧ NoLateSuccess key s m

end

/--
**A circuit that no late success closes is open for its whole duration**: under one policy and
without a reset, an open entry stays open or becomes half open once the duration has elapsed, and
every call made within the duration after the circuit opened is refused.
-/
theorem open_circuit_refuses (key : CircuitKey) (policy : RuntimePolicy) {s t : BreakerState}
    {before after : List BreakerMove} (hbefore : runFrom breakerStep {} before = some s)
    (hunder : ∀ m ∈ before, m.Under key policy) {entry : CircuitEntry} {opened : Nat}
    (hentry : s.registry.states key = some entry) (hopen : entry.state = .open)
    (hopened : entry.openedAt = some opened) (hafter : runFrom breakerStep s after = some t)
    (hmeets : Meets breakerStep (OnePolicy key policy) s after) :
    (∀ m t', OnePolicy key policy t m → breakerStep t m = some t' →
      ∀ e, t.registry.states key = some e → e.state = .open →
        ∃ e', t'.registry.states key = some e' ∧
          (e'.state = .open ∨
            (e'.state = .halfOpen ∧ ∃ o, e.openedAt = some o ∧ policy.openFor ≤ t.now - o))) ∧
    (t.now < opened + policy.openFor → t.registry.refused key policy t.now = true) := by
  have hstart : OpenedUnder key policy s := by
    have hmeets' : Meets breakerStep (fun _ m => m.Under key policy) {} before :=
      meets_of_forall hunder
    exact runFrom_guarded hbefore hmeets' (fun _ h => nomatch h) fun _ _ _ => openedUnder_step
  have hsince : entry.OpenSince policy opened := ⟨hopen, hopened, hstart entry hentry hopen⟩
  have htimed := wellTimed_run hbefore
  obtain ⟨opened', hopened', hle⟩ := htimed key entry hentry hopen
  obtain rfl : opened = opened' := Option.some.inj (hopened.symm.trans hopened')
  have hfinal : OpenOrPast key policy opened t :=
    runFrom_guarded hafter hmeets (.inl ⟨entry, opened, hentry, hsince, Nat.le_refl opened, hle⟩)
      fun _ _ _ h hm => openOrPast_step h hm.1 hm.2
  have hunderEnd : OpenedUnder key policy t :=
    runFrom_guarded hafter hmeets hstart fun _ _ _ h hm => openedUnder_step h hm.1
  have htimedEnd : t.registry.WellTimed t.now :=
    runFrom_invariant (I := fun s => s.registry.WellTimed s.now) hafter htimed
      fun _ _ _ => wellTimed_step
  constructor
  · intro m t' hm hstep e he heopen
    obtain ⟨o, ho, hole⟩ := htimedEnd key e he heopen
    rcases open_step hm.1 hm.2 hstep he ⟨heopen, ho, hunderEnd e he heopen⟩ hole with
      ⟨e', o', he', hopen', -⟩ | ⟨hpast, e', he', hhalf⟩
    · exact ⟨e', he', .inl hopen'.1⟩
    · exact ⟨e', he', .inr ⟨hhalf, o, ho, hpast⟩⟩
  · intro hwithin
    rcases hfinal with ⟨e, o, he, ⟨heopen, ho, hversion⟩, hole, honow⟩ | hpast
    · refine refused_iff.mpr ⟨e, he, hversion, heopen, ?_⟩
      intro o' ho'
      obtain rfl : o = o' := Option.some.inj (ho.symm.trans ho')
      omega
    · omega

namespace Trial

/-- Two calls are let in, and one of them fails: the circuit is open. -/
def openedByOne : List BreakerMove :=
  [.beforeCall pair policyV1, .beforeCall pair policyV1, .onFailure pair policyV1 .providerTimeout]

/-- The other call fails as well, a millisecond later. -/
def lateFailure : List BreakerMove :=
  [.elapse 1000000, .onFailure pair policyV1 .providerTimeout]

end Trial

open Trial in
/-- The other call succeeds, and a third one is let in within the duration. -/
theorem late_success_closes_the_circuit : ∃ s t,
    runFrom breakerStep {} openedByOne = some s ∧
    (s.registry.states pair).any (fun entry => entry.state = .open ∧ entry.openedAt = some 0) ∧
    runFrom breakerStep s [.elapse 1000000, .onSuccess pair] = some t ∧
    t.now < policyV1.openFor ∧ t.registry.refused pair policyV1 t.now = false :=
  ⟨_, _, rfl, by decide +kernel, rfl, by decide +kernel, by decide +kernel⟩

open Trial in
theorem open_circuit_refuses_lateFailure : ∃ s t,
    runFrom breakerStep {} openedByOne = some s ∧
    runFrom breakerStep s lateFailure = some t ∧
    t.registry.refused pair policyV1 t.now = true := by
  have hunder : ∀ m ∈ openedByOne, m.Under pair policyV1 := by
    simp [openedByOne, BreakerMove.Under]
  refine ⟨_, _, rfl, rfl, (@open_circuit_refuses pair policyV1 _ _ openedByOne lateFailure rfl hunder
    _ _ rfl rfl rfl rfl ?_).2 ?_⟩
  · refine ⟨⟨trivial, trivial⟩, fun _ _ => ⟨⟨fun _ => rfl, trivial⟩, fun _ _ => trivial⟩⟩
  · decide +kernel

end Moira
