import Mathlib.Tactic.Common
import Moira.Workers.Leader

/-!
# At most one leader

- **`at_most_one_leader`** — only the replica that holds the lock runs the job. Its answer is what
  its state says, unless it was called without a pool while it held the lock
-/

namespace Moira.Workers

open Transition (runFrom)
open Prog

/-- The sessions a replica has. -/
structure LeaderKnows where
  /-- Has the lock, until it ends. -/
  held : Option Nat := none
  /-- Is open, and has not shown to have the lock. -/
  opened : Option Nat := none
  /-- Has the lock, by the answer that has just come. -/
  confirmed : Option Nat := none

def LeaderKnows.next (g : LeaderKnows) : (o : LeaderOp) → o.Ans → LeaderKnows
  | .next _, _ => { g with confirmed := none }
  | .acquire, .ok session => { g with opened := some session }
  | .acquire, .error _ => g
  | .tryAdvisoryLock session _, reply =>
    match reply.result with
    | .ok true => { held := some session, opened := none, confirmed := some session }
    | _ => g
  | .ping session, alive => { g with confirmed := if alive then some session else none }
  | .advisoryUnlock session _, _ => { held := none, opened := some session, confirmed := none }
  | .close _, _ => {}

variable {job : String} {enabled : Nat → Bool} {pooled : Bool}

/-- The election of a replica, and the session it has. -/
structure Elects (job : String) (on : Bool) (election : LeaderElection) (g : LeaderKnows) : Prop where
  name : election.jobName = job
  enabled : election.state = .disabled ↔ on = false
  held : election.lock.map LeaderLock.session = g.held
  opened : g.opened = none
  lock : ∀ lock ∈ election.lock, lock.jobName = job ∧ leaderLockKey job = some lock.key
  leader : election.state = .leader → election.lock.isSome
  electing : election.lock.isSome → on = true

/-- What holds between two calls; `pooled` when no call came without a pool while the lock was held.
-/
def LeaderAt (job : String) (on pooled : Bool) : LeaderPoint → LeaderKnows → Prop
  | .idle election answer, g => Elects job on election g ∧
      (pooled = true → election.lock.isSome → election.state = .leader) ∧
      (answer = none → election.lock = none) ∧
      (answer = some true → on = true → g.confirmed.isSome ∧ g.confirmed = g.held) ∧
      (pooled = true → ∀ b, answer = some b → b = election.state.runsSingletonJob)
  | .contest election, g => Elects job on election g ∧ election.state = .follower ∧
      election.lock = none

def LeaderMay (job : String) (g : LeaderKnows) : LeaderOp → Prop
  | .next election => election.lock.map LeaderLock.session = g.held ∧ g.opened = none
  | .acquire => g.held = none ∧ g.opened = none
  | .tryAdvisoryLock session key => g.held = none ∧ g.opened = some session ∧
      leaderLockKey job = some key
  | .ping session => g.held = some session ∧ g.opened = none
  | .advisoryUnlock session key => g.held = some session ∧ g.opened = none ∧
      leaderLockKey job = some key
  | .close session => (g.held = some session ∧ g.opened = none) ∨
      (g.held = none ∧ g.opened = some session)

/-- A replica with a lock is not called without a pool. -/
def LeaderAnswers (pooled : Bool) : (o : LeaderOp) → o.Ans → Prop
  | .next election, call => pooled = true → call = .shouldRun false → election.lock = none
  | _, _ => True

def leaderContract (job : String) (pooled : Bool) : Contract leaderSig LeaderKnows where
  may := LeaderMay job
  answers _ := LeaderAnswers pooled
  next := LeaderKnows.next

/-- The sessions of the replicas, as the server has them. -/
structure LockAgrees (job : String) (w : LockServer) (γ : Nat → LeaderKnows) : Prop where
  held : ∀ replica session, (γ replica).held = some session → session < w.sessions ∧
    w.owner session = replica ∧
    (w.live session = true → ∀ key, leaderLockKey job = some key → w.holder key = some session)
  opened : ∀ replica session, (γ replica).opened = some session → session < w.sessions ∧
    w.owner session = replica
  holder : ∀ key session, w.holder key = some session → session < w.sessions ∧
    w.live session = true ∧ ((γ (w.owner session)).held = some session ∨
      (γ (w.owner session)).opened = some session)
  job : ∀ key session, w.holder key = some session → leaderLockKey job = some key

/-! ## Calls -/

variable {election : LeaderElection}

section

variable {on : Bool} {g : LeaderKnows}

theorem Elects.state (h : Elects job on election g) (hlock : election.lock = none)
    (hon : election.state ≠ .disabled) : election.state = .follower := by
  cases hstate : election.state with
  | disabled => exact absurd hstate hon
  | follower => rfl
  | leader => simpa [hlock] using h.leader hstate

theorem wp_shouldRun (h : Elects job on election g)
    (hstate : pooled = true → election.lock.isSome → election.state = .leader) (pool : Bool)
    (hpool : pooled = true → pool = false → election.lock = none) :
    (election.shouldRun pool).wp (leaderContract job pooled) g
      (fun g point => LeaderAt job on pooled point g) (fun _ _ => True) := by
  unfold LeaderElection.shouldRun
  by_cases hdisabled : election.state = .disabled
  · have hoff : on = false := h.enabled.mp hdisabled
    have hlock : election.lock = none := by
      cases hl : election.lock with
      | none => rfl
      | some lock => simpa [hoff] using h.electing (by simp [hl])
    rw [if_pos hdisabled]
    refine ⟨h, hstate, fun he => (nomatch he), fun _ hon => ?_, fun _ b hb => ?_⟩
    · simp [hoff] at hon
    · simpa [LeaderState.runsSingletonJob, hdisabled] using hb.symm
  rw [if_neg hdisabled]
  have hon : on = true := by simpa using mt h.enabled.mpr hdisabled
  by_cases hpoolless : pool = false
  · -- the state is written, the lock is not looked at
    rw [if_pos hpoolless]
    refine ⟨⟨h.name, by simp [hon], h.held, h.opened, h.lock, by simp, h.electing⟩, fun hp hl => ?_,
      fun he => (nomatch he), fun he => (nomatch he), fun hp b hb => ?_⟩
    · simp [hpool hp hpoolless] at hl
    · simpa [LeaderState.runsSingletonJob] using hb.symm
  rw [if_neg hpoolless]
  obtain ⟨name, state, lock⟩ := election
  cases lock with
  | none => exact ⟨h, h.state rfl hdisabled, rfl⟩
  | some lock =>
    have hheld : g.held = some lock.session := h.held.symm
    refine ⟨⟨hheld, h.opened⟩, fun alive _ => ?_⟩
    cases alive with
    | true =>
      have hafter : state.afterLivenessCheck true = state := by
        cases state <;> rfl
      show LeaderAt job on pooled (.idle ⟨name, state.afterLivenessCheck true, some lock⟩ (some true)) _
      rw [hafter]
      refine ⟨⟨h.name, h.enabled, h.held, h.opened, h.lock, h.leader, h.electing⟩, hstate,
        fun he => (nomatch he), fun _ _ => ⟨rfl, hheld.symm⟩, fun hp b hb => ?_⟩
      have hleader : state = .leader := hstate hp rfl
      simpa [LeaderState.runsSingletonJob, hleader] using hb.symm
    | false =>
      have hafter : state.afterLivenessCheck false = .follower := by
        cases state with
        | disabled => exact absurd rfl hdisabled
        | follower => rfl
        | leader => rfl
      refine ⟨Or.inl ⟨hheld, h.opened⟩, fun _ _ => ?_⟩
      show LeaderAt job on pooled (.contest ⟨name, state.afterLivenessCheck false, none⟩) _
      rw [hafter]
      exact ⟨⟨h.name, by simp [hon], rfl, rfl, by simp, by simp, by simp⟩, rfl, rfl⟩

theorem wp_contest (h : LeaderAt job on pooled (.contest election) g) :
    election.contest.wp (leaderContract job pooled) g
      (fun g point => LeaderAt job on pooled point g) (fun _ _ => True) := by
  obtain ⟨he, hstate, hlock⟩ := h
  obtain ⟨name, state, lock⟩ := election
  obtain rfl : state = .follower := hstate
  obtain rfl : lock = none := hlock
  have hname : name = job := he.name
  subst hname
  have hon : on = true := by
    simpa using mt he.enabled.mpr (by simp)
  have hheld : g.held = none := he.held.symm
  -- a refusal and a failure leave a follower without a session
  have hrefused : ∀ g : LeaderKnows, g.held = none → g.opened = none →
      LeaderAt name on pooled (.idle ⟨name, .follower, none⟩ (some false)) g := by
    intro g hg hopen
    refine ⟨⟨rfl, by simp [hon], hg.symm, hopen, by simp, by simp, by simp⟩, by simp, by simp, by simp,
      fun _ b hb => ?_⟩
    simpa [LeaderState.runsSingletonJob] using hb.symm
  unfold LeaderElection.contest
  refine wp_bind_mono (P := fun g result => LeaderAt name on pooled
    (result.toOption.join.elim (.idle ⟨name, .follower, none⟩ (some false))
      fun lock => .idle ⟨name, .leader, some lock⟩ (some true)) g) ?_ ?_
  · rw [wp_attempt]
    unfold LeaderLock.tryAcquire
    cases hkey : leaderLockKey name with
    | none => exact hrefused g hheld he.opened
    | some key =>
      refine ⟨⟨hheld, he.opened⟩, fun session _ => ?_⟩
      cases session with
      | error error => exact hrefused _ hheld he.opened
      | ok session =>
        refine ⟨⟨hheld, rfl, hkey⟩, fun reply _ => ?_⟩
        obtain ⟨result, processed⟩ := reply
        rcases result with error | _ | _
        · exact ⟨Or.inr ⟨hheld, rfl⟩, fun _ _ => hrefused _ rfl rfl⟩
        · exact ⟨Or.inr ⟨hheld, rfl⟩, fun _ _ => hrefused _ rfl rfl⟩
        · refine ⟨⟨rfl, by simp [hon], rfl, rfl, by simp [hkey], by simp, by simp [hon]⟩, by simp,
            by simp, fun _ _ => ⟨rfl, rfl⟩, fun _ b hb => ?_⟩
          simpa [LeaderState.runsSingletonJob] using hb.symm
  · intro g result hresult
    rcases result with error | _ | lock <;> exact hresult

theorem wp_resign (h : Elects job on election g) :
    election.resign.wp (leaderContract job pooled) g
      (fun g point => LeaderAt job on pooled point g) (fun _ _ => True) := by
  have hresigned : ∀ g : LeaderKnows, g.held = none → g.opened = none →
      LeaderAt job on pooled (.idle election.resigned none) g := by
    intro g hg hopen
    refine ⟨⟨h.name, ?_, hg.symm, hopen, by simp [LeaderElection.resigned], ?_,
      by simp [LeaderElection.resigned]⟩, by simp [LeaderElection.resigned], fun _ => rfl,
      fun he => (nomatch he), fun _ b hb => (nomatch hb)⟩
    · rw [← h.enabled]
      unfold LeaderElection.resigned
      split <;> simp_all
    · unfold LeaderElection.resigned
      split <;> simp
  unfold LeaderElection.resign
  cases hlock : election.lock with
  | none => exact hresigned g (by rw [← h.held, hlock]; rfl) h.opened
  | some lock =>
    have hheld : g.held = some lock.session := by rw [← h.held, hlock]; rfl
    refine ⟨⟨hheld, h.opened, (h.lock lock (by simp [hlock])).2⟩, fun _ _ => ?_⟩
    exact ⟨Or.inr ⟨rfl, rfl⟩, fun _ _ => hresigned _ rfl rfl⟩

theorem wp_leaderCode (point : LeaderPoint) (h : LeaderAt job on pooled point g) :
    (leaderCode point).wp (leaderContract job pooled) g
      (fun g r => ∀ point, r = some point → LeaderAt job on pooled point g) (fun _ _ => True) := by
  have hsome : ∀ {p : Prog leaderSig Empty LeaderPoint} {g : LeaderKnows},
      p.wp (leaderContract job pooled) g (fun g point => LeaderAt job on pooled point g)
        (fun _ _ => True) →
      (some <$> p).wp (leaderContract job pooled) g
        (fun g r => ∀ point, r = some point → LeaderAt job on pooled point g) (fun _ _ => True) := by
    intro p g hp
    refine wp_bind_mono hp fun g point hpoint => ?_
    rintro _ ⟨⟩
    exact hpoint
  cases point with
  | contest election => exact hsome (wp_contest h)
  | idle election answer =>
    obtain ⟨he, hstate, -⟩ := h
    refine ⟨⟨he.held, he.opened⟩, fun call hcall => ?_⟩
    have he' : Elects job on election { g with confirmed := none } :=
      ⟨he.name, he.enabled, he.held, he.opened, he.lock, he.leader, he.electing⟩
    cases call with
    | resign => exact hsome (wp_resign he')
    | shouldRun pool =>
      refine hsome (wp_shouldRun he' hstate pool fun hp hpool => ?_)
      subst hpool
      exact hcall hp rfl

end

/-! ## The lock server -/

variable {w : LockServer} {γ : Nat → LeaderKnows} {replica : Nat}

namespace LockAgrees

variable {session : Nat}

theorem ended (h : LockAgrees job w γ) (session : Nat) : LockAgrees job (w.ended session) γ where
  held other s hs := by
    obtain ⟨hlt, howner, hholder⟩ := h.held other s hs
    refine ⟨hlt, howner, fun hlive key hkey => ?_⟩
    have hne : s ≠ session := by
      rintro rfl
      simp [LockServer.ended] at hlive
    have hlive' : w.live s = true := by
      rw [← hlive]
      exact (Function.update_of_ne hne _ _).symm
    show (w.holder key).filter _ = _
    simp [hholder hlive' key hkey, hne]
  opened := h.opened
  holder key s hs := by
    obtain ⟨hs, hne⟩ := Option.filter_eq_some_iff.mp hs
    obtain ⟨hlt, hlive, hsession⟩ := h.holder key s hs
    refine ⟨hlt, ?_, hsession⟩
    rw [← hlive]
    exact Function.update_of_ne (by simpa using hne) _ _
  job key s hs := h.job key s (Option.filter_eq_some_iff.mp hs).1

theorem update {g : LeaderKnows} (h : LockAgrees job w γ)
    (hheld : ∀ session, g.held = some session → session < w.sessions ∧ w.owner session = replica ∧
      (w.live session = true → ∀ key, leaderLockKey job = some key → w.holder key = some session))
    (hopened : ∀ session, g.opened = some session → session < w.sessions ∧ w.owner session = replica)
    (hholder : ∀ key session, w.holder key = some session → w.owner session = replica →
      g.held = some session ∨ g.opened = some session) :
    LockAgrees job w (Function.update γ replica g) where
  held other s hs := by
    by_cases he : other = replica
    · subst he
      rw [Function.update_self] at hs
      exact hheld s hs
    · rw [Function.update_of_ne he] at hs
      exact h.held other s hs
  opened other s hs := by
    by_cases he : other = replica
    · subst he
      rw [Function.update_self] at hs
      exact hopened s hs
    · rw [Function.update_of_ne he] at hs
      exact h.opened other s hs
  holder key s hs := by
    obtain ⟨hlt, hlive, hsession⟩ := h.holder key s hs
    refine ⟨hlt, hlive, ?_⟩
    by_cases he : w.owner s = replica
    · rw [he, Function.update_self]
      exact hholder key s hs he
    · rwa [Function.update_of_ne he]
  job := h.job

theorem update_confirmed (h : LockAgrees job w γ) (replica : Nat) (confirmed : Option Nat) :
    LockAgrees job w (Function.update γ replica { γ replica with confirmed }) :=
  h.update (h.held replica) (h.opened replica) fun key s hs howner => by
    have := (h.holder key s hs).2.2
    rwa [howner] at this

theorem opened_session (h : LockAgrees job w γ) : LockAgrees job (w.opened replica) γ := by
  have hold : ∀ {s}, s < w.sessions → (w.opened replica).owner s = w.owner s ∧
      (w.opened replica).live s = w.live s := fun hlt =>
    ⟨Function.update_of_ne (Nat.ne_of_lt hlt) _ _, Function.update_of_ne (Nat.ne_of_lt hlt) _ _⟩
  refine ⟨fun other s hs => ?_, fun other s hs => ?_, fun key s hs => ?_, h.job⟩
  · obtain ⟨hlt, howner, hholder⟩ := h.held other s hs
    refine ⟨Nat.lt_succ_of_lt hlt, (hold hlt).1.trans howner, fun hlive => hholder ?_⟩
    rwa [(hold hlt).2] at hlive
  · obtain ⟨hlt, howner⟩ := h.opened other s hs
    exact ⟨Nat.lt_succ_of_lt hlt, (hold hlt).1.trans howner⟩
  · obtain ⟨hlt, hlive, hsession⟩ := h.holder key s hs
    refine ⟨Nat.lt_succ_of_lt hlt, (hold hlt).2.trans hlive, ?_⟩
    rwa [(hold hlt).1]

theorem locked {key : Int} (h : LockAgrees job w γ) (hopened : (γ replica).opened = some session)
    (hkey : leaderLockKey job = some key) (hfree : w.free session key = true) :
    LockAgrees job (w.locked session key) γ := by
  obtain ⟨hlt, howner⟩ := h.opened replica session hopened
  have hlive : w.live session = true := (Bool.and_eq_true_iff.mp hfree).1
  have hall : (w.holder key).all (· = session) = true := (Bool.and_eq_true_iff.mp hfree).2
  refine ⟨fun other s hs => ?_, h.opened, fun key' s hs => ?_, fun key' s hs => ?_⟩
  · obtain ⟨hlt', howner', hholder⟩ := h.held other s hs
    refine ⟨hlt', howner', fun hlive' key' hkey' => ?_⟩
    obtain rfl : key' = key := Option.some.inj (hkey'.symm.trans hkey)
    have hself : s = session := by simpa [hholder hlive' key' hkey'] using hall
    subst hself
    exact Function.update_self ..
  · by_cases he : key' = key
    · subst he
      obtain rfl : session = s := by simpa [LockServer.locked] using hs
      exact ⟨hlt, hlive, Or.inr (by rwa [show (w.locked session key').owner session = replica from howner])⟩
    · rw [show (w.locked session key).holder key' = w.holder key' from Function.update_of_ne he _ _] at hs
      exact h.holder key' s hs
  · by_cases he : key' = key
    · rwa [he]
    · rw [show (w.locked session key).holder key' = w.holder key' from Function.update_of_ne he _ _] at hs
      exact h.job key' s hs

theorem unlocked_holder (key key' : Int) : (w.unlocked session key).holder key' =
    if key' = key then (w.holder key).filter (· ≠ session) else w.holder key' :=
  Function.update_apply ..

theorem unlocked (h : LockAgrees job w γ) (key : Int) (hheld : ∀ replica, (γ replica).held ≠ some session) :
    LockAgrees job (w.unlocked session key) γ := by
  have hsub : ∀ {key' s}, (w.unlocked session key).holder key' = some s → w.holder key' = some s := by
    intro key' s hs
    rw [unlocked_holder] at hs
    split at hs
    · next he =>
      rw [he]
      exact (Option.filter_eq_some_iff.mp hs).1
    · exact hs
  refine ⟨fun other s hs => ?_, h.opened, fun key' s hs => h.holder key' s (hsub hs),
    fun key' s hs => h.job key' s (hsub hs)⟩
  obtain ⟨hlt, howner, hholder⟩ := h.held other s hs
  refine ⟨hlt, howner, fun hlive key' hkey' => ?_⟩
  have hne : s ≠ session := fun he => hheld other (he ▸ hs)
  have hs' := hholder hlive key' hkey'
  rw [unlocked_holder]
  split
  · next he =>
    rw [← he, hs']
    simp [hne]
  · exact hs'

end LockAgrees

/-! ## The outline -/

/-- With `pooled`, no call comes without a pool to a replica that has the lock. -/
def LeaderGuard (pooled : Bool) (replica : Nat) (w : LockServer) : LeaderOp → Prop
  | .next election => pooled = true → w.calls replica = some (.shouldRun false) → election.lock = none
  | _ => True

theorem leader_act {w' : LockServer} {o : LeaderOp} {x : o.Ans} (h : LockAgrees job w γ)
    (hguard : LeaderGuard pooled replica w o) (hmay : LeaderMay job (γ replica) o)
    (hgrant : w.grant replica o x = some w') :
    LeaderAnswers pooled o x ∧
      LockAgrees job w' (Function.update γ replica ((γ replica).next o x)) := by
  cases o with
  | next election =>
    obtain ⟨hcall, hw⟩ := Option.ite_none_right_eq_some.mp hgrant
    obtain rfl := Option.some.inj hw
    refine ⟨fun hp hx => hguard hp (hcall.trans (congrArg some hx)), ?_⟩
    have := h.update_confirmed replica none
    exact ⟨this.held, this.opened, this.holder, this.job⟩
  | acquire =>
    refine ⟨trivial, ?_⟩
    cases x with
    | error error =>
      obtain rfl := Option.some.inj hgrant
      rw [show (γ replica).next .acquire (.error error) = γ replica from rfl, Function.update_eq_self]
      exact h
    | ok session =>
      obtain ⟨rfl, hw⟩ := Option.ite_none_right_eq_some.mp hgrant
      obtain rfl := Option.some.inj hw
      refine h.opened_session.update ?_ ?_ ?_
      · intro s hs
        rw [show ((γ replica).next .acquire (.ok w.sessions)).held = (γ replica).held from rfl,
          hmay.1] at hs
        cases hs
      · rintro s ⟨⟩
        exact ⟨Nat.lt_succ_self _, Function.update_self ..⟩
      · intro key s hs howner
        obtain ⟨hlt, -, hsession⟩ := h.holder key s hs
        have howner' : w.owner s = replica := by
          rw [← howner]
          exact (Function.update_of_ne (Nat.ne_of_lt hlt) _ _).symm
        rw [howner', hmay.1, hmay.2] at hsession
        exact absurd hsession (by simp)
  | tryAdvisoryLock session key =>
    obtain ⟨hheld, hopened, hkey⟩ := hmay
    obtain ⟨result, processed⟩ := x
    refine ⟨trivial, ?_⟩
    -- whatever the answer says, the lock is taken or not
    have htaken : LockAgrees job (if w.free session key && processed then w.locked session key else w)
        γ := by
      split
      · next hfree => exact h.locked hopened hkey (Bool.and_eq_true_iff.mp hfree).1
      · exact h
    cases result with
    | error error =>
      obtain rfl := Option.some.inj hgrant
      rw [show (γ replica).next (.tryAdvisoryLock session key) ⟨.error error, processed⟩ = γ replica
        from rfl, Function.update_eq_self]
      exact htaken
    | ok answer =>
      obtain ⟨⟨hlive, hprocessed, hanswer⟩, hw⟩ := Option.ite_none_right_eq_some.mp hgrant
      obtain rfl := Option.some.inj hw
      cases answer with
      | false =>
        rw [show (γ replica).next (.tryAdvisoryLock session key) ⟨.ok false, processed⟩ = γ replica
          from rfl, Function.update_eq_self]
        exact htaken
      | true =>
        rw [show (w.free session key && processed) = true from hanswer.symm, if_pos rfl] at htaken ⊢
        refine htaken.update ?_ (fun s hs => (nomatch hs)) ?_
        · rintro s ⟨⟩
          obtain ⟨hlt, howner⟩ := h.opened replica session hopened
          refine ⟨hlt, howner, fun _ key' hkey' => ?_⟩
          obtain rfl : key' = key := Option.some.inj (hkey'.symm.trans hkey)
          exact Function.update_self ..
        · intro key' s hs howner
          have hsession := (htaken.holder key' s hs).2.2
          rw [howner, hheld, hopened] at hsession
          exact Or.inl (hsession.resolve_left (by simp))
  | ping session =>
    obtain ⟨hlive, hw⟩ := Option.ite_none_right_eq_some.mp hgrant
    obtain rfl := Option.some.inj hw
    exact ⟨trivial, h.update_confirmed replica _⟩
  | advisoryUnlock session key =>
    have hheld := hmay.1
    obtain ⟨hlive, hw⟩ := Option.ite_none_right_eq_some.mp hgrant
    obtain rfl := Option.some.inj hw
    obtain ⟨hlt, howner, -⟩ := h.held replica session hheld
    refine ⟨trivial, ?_⟩
    have hafter : LockAgrees job w
        (Function.update γ replica { held := none, opened := some session, confirmed := none }) := by
      refine h.update (fun s hs => (nomatch hs)) ?_ ?_
      · rintro s ⟨⟩
        exact ⟨hlt, howner⟩
      · intro key' s hs hs'
        have hsession := (h.holder key' s hs).2.2
        rw [hs', hheld, hmay.2.1] at hsession
        exact Or.inr (hsession.resolve_right (by simp))
    show LockAgrees job (if x.processed = true then w.unlocked session key else w) _
    split
    · refine hafter.unlocked key fun other hother => ?_
      by_cases he : other = replica
      · subst he
        simp at hother
      · rw [Function.update_of_ne he] at hother
        exact he ((h.held other session hother).2.1.symm.trans howner)
    · exact hafter
  | close session =>
    obtain rfl := Option.some.inj hgrant
    refine ⟨trivial, (h.ended session).update (fun s hs => (nomatch hs)) (fun s hs => (nomatch hs)) ?_⟩
    intro key s hs howner
    obtain ⟨hs', hne⟩ := Option.filter_eq_some_iff.mp hs
    have hsession := (h.holder key s hs').2.2
    rw [show w.owner s = replica from howner] at hsession
    rcases hmay with ⟨hheld, hopened⟩ | ⟨hheld, hopened⟩ <;>
    · rw [hheld, hopened] at hsession
      simp_all

/-- The calls of a replica keep to the assertions, and the lock server agrees. -/
def leaderOutline (job : String) (enabled : Nat → Bool) (pooled : Bool) : System.Outline leading where
  Ghost _ := LeaderKnows
  contract _ := leaderContract job pooled
  at_ replica point g := LeaderAt job (enabled replica) pooled point g
  shared := LockAgrees job
  guard := LeaderGuard pooled
  code_ok _ point _ h := wp_leaderCode point h
  act_ok _ _ _ _ _ _ h hguard hmay hgrant := leader_act h hguard hmay hgrant
  nature_ok w e w' γ h hnature := by
    cases e with
    | kill session =>
      obtain rfl := Option.some.inj hnature
      exact h.ended session
    | call replica call =>
      obtain ⟨-, hw⟩ := Option.ite_none_right_eq_some.mp hnature
      obtain rfl := Option.some.inj hw
      exact ⟨h.held, h.opened, h.holder, h.job⟩

theorem leaderOutline_initial :
    (leaderOutline job enabled pooled).Holds (leadingInitial job enabled) := by
  refine ⟨fun _ => {}, ⟨by simp, by simp, by simp [leadingInitial], by simp [leadingInitial]⟩,
    fun replica => ?_⟩
  rintro _ ⟨⟩
  refine ⟨⟨rfl, ?_, rfl, rfl, by simp [LeaderElection.new], ?_, by simp [LeaderElection.new]⟩,
    by simp [LeaderElection.new], fun _ => rfl, fun he => (nomatch he), fun _ b hb => (nomatch hb)⟩
  · unfold LeaderElection.new
    cases enabled replica <;> simp
  · unfold LeaderElection.new
    cases enabled replica <;> simp

/-! ## One leader -/

/-- The replica has a live session that holds the lock of the job. -/
def LockServer.Leads (w : LockServer) (job : String) (replica : Nat) : Prop :=
  ∃ key session, leaderLockKey job = some key ∧ w.holder key = some session ∧
    w.live session = true ∧ w.owner session = replica

instance instDecidableLeaderGuard (replica : Nat) (w : LockServer) :
    (o : LeaderOp) → Decidable (LeaderGuard pooled replica w o)
  | .next election => inferInstanceAs (Decidable (_ → _ → election.lock = none))
  | .acquire | .tryAdvisoryLock _ _ | .ping _ | .advisoryUnlock _ _ | .close _ => isTrue trivial

instance (s : leading.State) (move : leading.Move) :
    Decidable (System.Guarded (LeaderGuard pooled) s move) :=
  @System.instDecidableGuarded _ leading (LeaderGuard pooled) instDecidableLeaderGuard s move

variable {i : Nat}

theorem Leads.unique {j : Nat} (hi : w.Leads job i) (hj : w.Leads job j) : i = j := by
  obtain ⟨key, session, hkey, hholder, -, howner⟩ := hi
  obtain ⟨key', session', hkey', hholder', -, howner'⟩ := hj
  obtain rfl : key = key' := Option.some.inj (hkey.symm.trans hkey')
  obtain rfl : session = session' := Option.some.inj (hholder.symm.trans hholder')
  exact howner.symm.trans howner'

theorem leads_of_lock {lock : LeaderLock} (h : LockAgrees job w γ)
    (he : Elects job (enabled i) election (γ i)) (hlock : lock ∈ election.lock)
    (hlive : w.live lock.session = true) :
    w.Leads job i ∧ w.holder lock.key = some lock.session := by
  have hheld : (γ i).held = some lock.session := by
    rw [← he.held, Option.mem_def.mp hlock]
    rfl
  obtain ⟨-, howner, hholder⟩ := h.held i lock.session hheld
  have hkey := (he.lock lock hlock).2
  have hself := hholder hlive lock.key hkey
  exact ⟨⟨_, _, hkey, hself, hlive, howner⟩, hself⟩

theorem not_leads (h : LockAgrees job w γ) (hheld : (γ i).held = none)
    (hopened : (γ i).opened = none) : ¬ w.Leads job i := by
  rintro ⟨key, session, -, hholder, -, howner⟩
  have hsession := (h.holder key session hholder).2.2
  rw [howner, hheld, hopened] at hsession
  simp at hsession

theorem leads_of_confirmed {w' : LockServer} {o : LeaderOp} {x : o.Ans} (h : LockAgrees job w γ)
    (hmay : LeaderMay job (γ i) o) (hgrant : w.grant i o x = some w')
    (he : Elects job (enabled i) election ((γ i).next o x))
    (hconfirmed : ((γ i).next o x).confirmed.isSome)
    (hheld : ((γ i).next o x).confirmed = ((γ i).next o x).held) : w'.Leads job i := by
  have hguard : ∀ o, LeaderGuard false i w o := fun o => by cases o <;> simp [LeaderGuard]
  have hafter := (leader_act h (hguard o) hmay hgrant).2
  have he' : Elects job (enabled i) election (Function.update γ i ((γ i).next o x) i) := by
    rwa [Function.update_self]
  have hlock : election.lock.isSome := by
    rw [hheld, ← he.held] at hconfirmed
    simpa using hconfirmed
  obtain ⟨lock, hlock⟩ := Option.isSome_iff_exists.mp hlock
  have hsession : ((γ i).next o x).held = some lock.session := by
    rw [← he.held, hlock]
    rfl
  refine (leads_of_lock hafter he' hlock ?_).1
  cases o with
  | next => simp [LeaderKnows.next] at hconfirmed
  | acquire =>
    cases x <;> simp [LeaderKnows.next, hmay.1] at hsession
  | tryAdvisoryLock session key =>
    obtain ⟨result, processed⟩ := x
    match result with
    | .ok true =>
      obtain rfl : session = lock.session := by simpa [LeaderKnows.next] using hsession
      obtain ⟨⟨hlive, hprocessed, hanswer⟩, hw⟩ := Option.ite_none_right_eq_some.mp hgrant
      obtain rfl := Option.some.inj hw
      split <;> exact hlive
    | .ok false => simp [LeaderKnows.next, hmay.1] at hsession
    | .error _ => simp [LeaderKnows.next, hmay.1] at hsession
  | ping session =>
    obtain ⟨hlive, hw⟩ := Option.ite_none_right_eq_some.mp hgrant
    obtain rfl := Option.some.inj hw
    cases x with
    | false => simp [LeaderKnows.next] at hconfirmed
    | true =>
      obtain rfl : session = lock.session := by
        have : (γ i).held = some lock.session := hsession
        exact Option.some.inj (hmay.1.symm.trans this)
      exact hlive rfl
  | advisoryUnlock => simp [LeaderKnows.next] at hsession
  | close => simp [LeaderKnows.next] at hsession

theorem leaderCode_ne {point : LeaderPoint} :
    leaderCode point ≠ .ret (some (.idle election (some true))) := by
  cases point with
  | idle => exact fun h => (nomatch h)
  | contest e =>
    intro h
    simp only [leaderCode, LeaderElection.contest, LeaderLock.tryAcquire] at h
    cases hkey : leaderLockKey e.jobName with
    | none =>
      rw [hkey] at h
      cases h
    | some key =>
      rw [hkey] at h
      cases h

/--
**At most one leader**, in every run of the replicas that elect one.

- Two replicas never both have a live session that holds the lock, and a lock whose session is alive
  is held.
- `should_run` answers `true` to a replica that leads at that moment.
- After `resign`, and between the death of its session and the next acquisition, a replica is a
  follower that holds nothing.
- When no call without a pool comes to a replica that has a lock, every answer is what the state
  says.
-/
theorem at_most_one_leader {t : leading.State} {moves : List leading.Move}
    (hrun : runFrom leading.step (leadingInitial job enabled) moves = some t) :
    (∀ i j, t.world.Leads job i → t.world.Leads job j → i = j) ∧
    (∀ i election answer lock, t.proc i = .ret (some (.idle election answer)) → lock ∈ election.lock →
      t.world.live lock.session = true →
      t.world.Leads job i ∧ t.world.holder lock.key = some lock.session) ∧
    (∀ i move t' election, enabled i = true → leading.step t move = some t' →
      t.proc i ≠ .ret (some (.idle election (some true))) →
      t'.proc i = .ret (some (.idle election (some true))) → t'.world.Leads job i) ∧
    (∀ i election, enabled i = true → (t.proc i = .ret (some (.idle election none)) ∨
        t.proc i = .ret (some (.contest election))) →
      election.state = .follower ∧ election.lock = none ∧ ¬ t.world.Leads job i) ∧
    (Transition.Meets leading.step (System.Guarded (LeaderGuard true)) (leadingInitial job enabled)
        moves →
      ∀ i election b, t.proc i = .ret (some (.idle election (some b))) →
        b = election.state.runsSingletonJob) := by
  have hholds : (leaderOutline job enabled false).Holds t :=
    (leaderOutline job enabled false).invariant (fun _ _ o => by cases o <;> simp [leaderOutline, LeaderGuard])
      leaderOutline_initial hrun
  obtain ⟨γ, hshared, hproc⟩ := id hholds
  have hat : ∀ i point, t.proc i = .ret (some point) → LeaderAt job (enabled i) false point (γ i) := by
    intro i point hpoint
    have hpost := hproc i
    rw [hpoint] at hpost
    exact hpost point rfl
  refine ⟨fun i j => Leads.unique, ?_, ?_, ?_, ?_⟩
  · intro i election answer lock hpoint hlock hlive
    exact leads_of_lock hshared (hat i _ hpoint).1 hlock hlive
  · intro i move t' election hon hstep hbefore hafter
    rcases System.step_cases hstep with ⟨j, answer, o, k, w, rfl, hj, hgrant, rfl⟩ |
      ⟨j, point, hj, rfl⟩ | ⟨e, w, hw, rfl⟩
    · obtain rfl : i = j := by
        by_contra hne
        exact hbefore ((Function.update_of_ne hne _ _).symm.trans hafter)
      obtain ⟨γ, o', hshared, hmay, hgrant', he⟩ := (leaderOutline job enabled false).act_ret hholds
        (by simp [System.Guarded, hj, leaderOutline]; cases o <;> simp [LeaderGuard]) hstep hafter
      obtain ⟨hconfirmed, hheld⟩ := he.2.2.2.1 rfl hon
      exact leads_of_confirmed hshared hmay hgrant' he.1 hconfirmed hheld
    · by_cases hne : i = j
      · subst hne
        have hcode : leading.code i point = .ret (some (.idle election (some true))) := by
          simpa [System.State.continue] using hafter
        exact absurd hcode leaderCode_ne
      · exact absurd ((Function.update_of_ne hne _ _).symm.trans hafter) hbefore
    · exact absurd hafter hbefore
  · rintro i election hon (hpoint | hpoint)
    · obtain ⟨he, -, hnone, -⟩ := hat i _ hpoint
      have hlock := hnone rfl
      refine ⟨he.state hlock (by simpa [hon] using he.enabled.not), hlock,
        not_leads hshared ?_ he.opened⟩
      rw [← he.held, hlock]
      rfl
    · obtain ⟨he, hstate, hlock⟩ := hat i _ hpoint
      refine ⟨hstate, hlock, not_leads hshared ?_ he.opened⟩
      rw [← he.held, hlock]
      rfl
  · intro hmeets i election b hpoint
    obtain ⟨γ', -, hproc'⟩ := (leaderOutline job enabled true).guarded leaderOutline_initial hmeets hrun
    have hpost := hproc' i
    rw [hpoint] at hpost
    exact (hpost _ rfl).2.2.2.2 rfl b rfl

namespace Sample

/-- The answers that a first acquisition gets. -/
def granted : (o : LeaderOp) → ElectionCall → o.Ans
  | .next _, call => call
  | .acquire, _ => .ok 0
  | .tryAdvisoryLock _ _, _ => { result := .ok true }
  | .ping _, _ => true
  | .advisoryUnlock _ _, _ => { result := .ok () }
  | .close _, _ => ()

/-- The next call of replica 0, and its operations up to the answer. -/
def call (c : ElectionCall) (operations : Nat) : List leading.Move :=
  [.jump 0, .nature (.call 0 c)] ++ List.replicate operations (.act 0 fun o => granted o c)

/-- Replica 0 becomes the leader. -/
def elected : List leading.Move :=
  call (.shouldRun true) 1 ++ [.jump 0] ++ List.replicate 2 (.act 0 fun o => granted o .resign)

/-- The leader is asked without a pool, and then with one. -/
def askedWithoutPool : List leading.Move :=
  elected ++ call (.shouldRun false) 1 ++ call (.shouldRun true) 2

/-- The election of a replica at rest, with its last answer. -/
def atRest (t : leading.State) (replica : Nat) : Option (LeaderElection × Option Bool) :=
  match t.proc replica with
  | .ret (some (.idle election answer)) => some (election, answer)
  | _ => none

end Sample

open Sample in
theorem atRest_eq {t : leading.State} {answer : Option Bool}
    (h : atRest t replica = some (election, answer)) :
    t.proc replica = .ret (some (.idle election answer)) := by
  unfold atRest at h
  split at h
  · next e a hproc =>
    cases h
    exact hproc
  · cases h

open Sample in
/-- The only replica leads, and its answer is what its state says. -/
theorem at_most_one_leader_elected :
    ∃ t election, runFrom leading.step
        (leadingInitial retentionCleanupWorker fun _ => true) elected = some t ∧
      t.proc 0 = .ret (some (.idle election (some true))) ∧
      true = election.state.runsSingletonJob := by
  have hrest : ((runFrom leading.step
      (leadingInitial retentionCleanupWorker fun _ => true) elected).bind fun t => atRest t 0) =
      some (⟨retentionCleanupWorker, .leader, some ⟨0, retentionCleanupWorker,
        retentionCleanupLeaderLockKey⟩⟩, some true) := by decide +kernel
  obtain ⟨t, hrun, ht⟩ := Option.bind_eq_some_iff.mp hrest
  have hmeets : Transition.Meets leading.step (System.Guarded (LeaderGuard true))
      (leadingInitial retentionCleanupWorker fun _ => true) elected := by decide +kernel
  exact ⟨t, _, hrun, atRest_eq ht, (at_most_one_leader hrun).2.2.2.2 hmeets 0 _ true (atRest_eq ht)⟩

open Sample in
/-- Asked without a pool, the leader becomes a follower that keeps its lock; the next call answers
`true`. -/
theorem follower_runs_the_job :
    ∃ t election, runFrom leading.step
        (leadingInitial retentionCleanupWorker fun _ => true) askedWithoutPool = some t ∧
      t.proc 0 = .ret (some (.idle election (some true))) ∧
      ¬ true = election.state.runsSingletonJob := by
  have hrest : ((runFrom leading.step
      (leadingInitial retentionCleanupWorker fun _ => true) askedWithoutPool).bind
      fun t => atRest t 0) =
      some (⟨retentionCleanupWorker, .follower, some ⟨0, retentionCleanupWorker,
        retentionCleanupLeaderLockKey⟩⟩, some true) := by decide +kernel
  obtain ⟨t, hrun, ht⟩ := Option.bind_eq_some_iff.mp hrest
  exact ⟨t, _, hrun, atRest_eq ht, by decide⟩

end Moira.Workers
