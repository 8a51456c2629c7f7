import Mathlib.Logic.Basic
import Mathlib.Logic.Function.Basic
import Mathlib.Tactic.Common
import Moira.Lib.Program

/-!
# Concurrent processes over a shared world

`step s a` is the state after the move `a`, or `none` when the move is not possible in `s`.
`runFrom` makes the moves of a list one after another.

A `System` runs any number of interaction programs side by side. A process is a graph of control
points: the code at a point is a finite program that returns the next point, or `none` when the
process is over. Unbounded loops are jumps.

**The proof rule** is `Outline.guarded` (`Outline.invariant` without a guard): an assertion over the
world and one ghost state for each process, such that every process keeps its contract and every
answer the world grants is one that the contract expects.

What a run has done need not be visible in the world it ends in. A **history variable** is computed
from the operations of the run and their answers; no code reads it.

- `grant i w o x` — whether the world `w` can answer the operation `o` of process `i` with `x`, and
  the world afterwards. Each operation is atomic; any number of steps of other processes may lie
  between two operations of one process
- `nature` — moves of the world on its own: time passes, a client goes away
- `System.recorded` — the system with the history beside the world
- `System.history` — the history of a run
- **`runFrom_recorded`** — every run of a system is a run of the recorded one, so an outline of the
  recorded system speaks of every run and of its history
-/

namespace Transition

variable {σ α : Type} {step : σ → α → Option σ} {s t : σ} {moves : List α}

/-- Make the moves one after another. -/
def runFrom (step : σ → α → Option σ) : σ → List α → Option σ
  | s, [] => some s
  | s, a :: moves => (step s a).bind fun s' => runFrom step s' moves

/-- Every move of the list meets `G` in the state it is made in. -/
def Meets (step : σ → α → Option σ) (G : σ → α → Prop) : σ → List α → Prop
  | _, [] => True
  | s, a :: moves => G s a ∧ ∀ s', step s a = some s' → Meets step G s' moves

instance instDecidableMeets (step : σ → α → Option σ) (G : σ → α → Prop)
    [∀ s a, Decidable (G s a)] : ∀ (s : σ) (moves : List α), Decidable (Meets step G s moves)
  | _, [] => isTrue trivial
  | s, a :: moves =>
    match h : step s a with
    | none => decidable_of_iff (G s a) (by simp [Meets, h])
    | some s' =>
      have := instDecidableMeets step G s' moves
      decidable_of_iff (G s a ∧ Meets step G s' moves) (by simp [Meets, h])

theorem runFrom_nil : runFrom step s [] = some t ↔ s = t := by
  simp [runFrom]

theorem runFrom_cons {a : α} :
    runFrom step s (a :: moves) = some t ↔ ∃ s', step s a = some s' ∧ runFrom step s' moves = some t := by
  simp [runFrom, Option.bind_eq_some_iff]

theorem runFrom_append {more : List α} : runFrom step s (moves ++ more) = some t ↔
    ∃ s', runFrom step s moves = some s' ∧ runFrom step s' more = some t := by
  induction moves generalizing s with
  | nil => simp [runFrom]
  | cons a moves ih =>
    rw [List.cons_append, runFrom_cons]
    constructor
    · rintro ⟨next, hstep, hrest⟩
      obtain ⟨s', hrun, hmore⟩ := ih.mp hrest
      exact ⟨s', runFrom_cons.mpr ⟨next, hstep, hrun⟩, hmore⟩
    · rintro ⟨s', hrun, hmore⟩
      obtain ⟨next, hstep, hrest⟩ := runFrom_cons.mp hrun
      exact ⟨next, hstep, ih.mpr ⟨s', hrest, hmore⟩⟩

theorem meets_cons {G : σ → α → Prop} {a : α} {s' : σ} (h : step s a = some s') :
    Meets step G s (a :: moves) ↔ G s a ∧ Meets step G s' moves := by
  simp [Meets, h]

theorem meets_of_forall {P : α → Prop} (h : ∀ a ∈ moves, P a) :
    Meets step (fun _ a => P a) s moves := by
  induction moves generalizing s with
  | nil => trivial
  | cons a moves ih =>
    exact ⟨h a List.mem_cons_self, fun s' _ => ih fun a' ha' => h a' (List.mem_cons_of_mem _ ha')⟩

theorem Meets.mono {G G' : σ → α → Prop} (h : Meets step G s moves) (hG : ∀ s a, G s a → G' s a) :
    Meets step G' s moves := by
  induction moves generalizing s with
  | nil => trivial
  | cons a moves ih => exact ⟨hG s a h.1, fun s' hs' => ih (h.2 s' hs')⟩

/-- What every step keeps holds at the end of every run. -/
theorem runFrom_invariant {I : σ → Prop} (hrun : runFrom step s moves = some t) (hI : I s)
    (hstep : ∀ s a s', I s → step s a = some s' → I s') : I t := by
  induction moves generalizing s with
  | nil => exact runFrom_nil.mp hrun ▸ hI
  | cons a moves ih =>
    obtain ⟨s', ha, hrest⟩ := runFrom_cons.mp hrun
    exact ih hrest (hstep s a s' hI ha)

/-- What every step that meets the guard keeps holds at the end of every run whose moves all meet
it. -/
theorem runFrom_guarded {G : σ → α → Prop} {I : σ → Prop} (hrun : runFrom step s moves = some t)
    (hmeets : Meets step G s moves) (hI : I s)
    (hstep : ∀ s a s', I s → G s a → step s a = some s' → I s') : I t := by
  induction moves generalizing s with
  | nil => exact runFrom_nil.mp hrun ▸ hI
  | cons a moves ih =>
    obtain ⟨s', ha, hrest⟩ := runFrom_cons.mp hrun
    exact ih hrest (hmeets.2 s' ha) (hstep s a s' hI hmeets.1 ha)

end Transition

/-- Processes `Pid`, each with a signature and code of its own, over one world. -/
structure System (Pid : Type) where
  sig : Pid → Sig
  Point : Pid → Type
  code : (i : Pid) → Point i → Prog (sig i) Empty (Option (Point i))
  World : Type
  Event : Type
  grant : (i : Pid) → World → (o : (sig i).Op) → (sig i).Ans o → Option World
  nature : World → Event → Option World

namespace System

variable {Pid : Type} [DecidableEq Pid] (M : System Pid)

/-- The code a process has still to run. -/
abbrev Proc (i : Pid) := Prog (M.sig i) Empty (Option (M.Point i))

structure State where
  world : M.World
  proc : (i : Pid) → M.Proc i

/-- A process takes its next operation or jumps, or the world moves on its own. -/
inductive Move
  | act (i : Pid) (answer : (o : (M.sig i).Op) → (M.sig i).Ans o)
  | jump (i : Pid)
  | nature (e : M.Event)

variable {M}

def State.continue (s : M.State) (i : Pid) (world : M.World) (p : M.Proc i) : M.State where
  world := world
  proc := Function.update s.proc i p

variable (M) in
/-- One move of the system. -/
def step (s : M.State) : M.Move → Option M.State
  | .act i answer =>
    match s.proc i with
    | .op o k => (M.grant i s.world o (answer o)).map fun w => s.continue i w (k (answer o))
    | _ => none
  | .jump i =>
    match s.proc i with
    | .ret (some l) => some (s.continue i s.world (M.code i l))
    | _ => none
  | .nature e => (M.nature s.world e).map fun w => { s with world := w }

/-- What a step can be. -/
theorem step_cases {s s' : M.State} {m : M.Move} (h : M.step s m = some s') :
    (∃ i answer o k w, m = .act i answer ∧ s.proc i = .op o k ∧
      M.grant i s.world o (answer o) = some w ∧ s' = s.continue i w (k (answer o))) ∨
    (∃ i l, s.proc i = .ret (some l) ∧ s' = s.continue i s.world (M.code i l)) ∨
    (∃ e w, M.nature s.world e = some w ∧ s' = { s with world := w }) := by
  cases m with
  | act i answer =>
    simp only [step] at h
    split at h
    · next o k hproc =>
      obtain ⟨w, hw, rfl⟩ := Option.map_eq_some_iff.mp h
      exact .inl ⟨i, answer, o, k, w, rfl, hproc, hw, rfl⟩
    · cases h
  | jump i =>
    simp only [step] at h
    split at h
    · next l hproc =>
      cases h
      exact .inr (.inl ⟨i, l, hproc, rfl⟩)
    · cases h
  | nature e =>
    obtain ⟨w, hw, rfl⟩ := Option.map_eq_some_iff.mp h
    exact .inr (.inr ⟨e, w, hw, rfl⟩)

/-- Every operation of the move meets `G` in the world it is issued in. -/
def Guarded (G : (i : Pid) → M.World → (M.sig i).Op → Prop) (s : M.State) : M.Move → Prop
  | .act i _ =>
    match s.proc i with
    | .op o _ => G i s.world o
    | _ => True
  | _ => True

instance instDecidableGuarded (G : (i : Pid) → M.World → (M.sig i).Op → Prop)
    [∀ i w o, Decidable (G i w o)] : ∀ (s : M.State) (m : M.Move), Decidable (Guarded G s m)
  | s, .act i _ =>
    match h : s.proc i with
    | .op o k => decidable_of_iff (G i s.world o) (by simp [Guarded, h])
    | .ret _ => isTrue (by simp [Guarded, h])
    | .fail _ => isTrue (by simp [Guarded, h])
  | _, .jump _ => isTrue trivial
  | _, .nature _ => isTrue trivial

/-! ## The invariant rule -/

/--
A proof outline: a contract and a ghost state for each process, what holds at each control point,
and an assertion that ties the ghost states to the world. An outline with a `guard` speaks of the
runs whose operations meet it.
-/
structure Outline (M : System Pid) where
  Ghost : Pid → Type
  contract : (i : Pid) → Contract (M.sig i) (Ghost i)
  at_ : (i : Pid) → M.Point i → Ghost i → Prop
  shared : M.World → ((i : Pid) → Ghost i) → Prop
  guard : (i : Pid) → M.World → (M.sig i).Op → Prop := fun _ _ _ => True
  code_ok : ∀ i l g, at_ i l g →
    (M.code i l).wp (contract i) g (fun g' r => ∀ l', r = some l' → at_ i l' g') (fun _ _ => True)
  act_ok : ∀ i w o x w' γ, shared w γ → guard i w o → (contract i).may (γ i) o → M.grant i w o x = some w' →
    (contract i).answers (γ i) o x ∧
      shared w' (Function.update γ i ((contract i).next (γ i) o x))
  nature_ok : ∀ w e w' γ, shared w γ → M.nature w e = some w' → shared w' γ

/-- What the outline says of a state. -/
def Outline.Holds (O : Outline M) (s : M.State) : Prop :=
  ∃ γ, O.shared s.world γ ∧ ∀ i, (s.proc i).wp (O.contract i) (γ i)
    (fun g r => ∀ l, r = some l → O.at_ i l g) (fun _ _ => True)

variable (O : Outline M)

/-- A guarded step keeps the outline. -/
theorem Outline.holds_step {s s' : M.State} {m : M.Move} (h : O.Holds s)
    (hguard : Guarded O.guard s m) (hstep : M.step s m = some s') : O.Holds s' := by
  obtain ⟨γ, hshared, hproc⟩ := h
  rcases step_cases hstep with ⟨i, answer, o, k, w, rfl, hi, hgrant, rfl⟩ | ⟨i, l, hi, rfl⟩ |
    ⟨e, w, hw, rfl⟩
  · -- the process that moved continues with the next ghost state, the others are untouched
    have hpre := hproc i
    rw [hi] at hpre
    have hmet : O.guard i s.world o := by simpa [Guarded, hi] using hguard
    obtain ⟨hanswers, hshared'⟩ := O.act_ok i _ o _ w γ hshared hmet hpre.1 hgrant
    refine ⟨_, hshared', fun i' => ?_⟩
    by_cases he : i' = i
    · subst he
      simpa [State.continue] using hpre.2 _ hanswers
    · simpa [State.continue, he] using hproc i'
  · refine ⟨γ, hshared, fun i' => ?_⟩
    by_cases he : i' = i
    · subst he
      have hpost := hproc i'
      rw [hi] at hpost
      simpa [State.continue] using O.code_ok i' l (γ i') (hpost l rfl)
    · simpa [State.continue, he] using hproc i'
  · exact ⟨γ, O.nature_ok _ e w γ hshared hw, hproc⟩

theorem Outline.act_ret {s s' : M.State} {i : Pid} {answer : (o : (M.sig i).Op) → (M.sig i).Ans o}
    {l : M.Point i} (h : O.Holds s) (hguard : Guarded O.guard s (.act i answer))
    (hstep : M.step s (.act i answer) = some s') (hret : s'.proc i = .ret (some l)) :
    ∃ γ o, O.shared s.world γ ∧ (O.contract i).may (γ i) o ∧
      M.grant i s.world o (answer o) = some s'.world ∧
      O.at_ i l ((O.contract i).next (γ i) o (answer o)) := by
  obtain ⟨γ, hshared, hproc⟩ := h
  simp only [step] at hstep
  split at hstep
  · next o k hi =>
    obtain ⟨w, hgrant, rfl⟩ := Option.map_eq_some_iff.mp hstep
    have hpre := hproc i
    rw [hi] at hpre
    have hmet : O.guard i s.world o := by simpa [Guarded, hi] using hguard
    have hanswers := (O.act_ok i _ o _ w γ hshared hmet hpre.1 hgrant).1
    have hpost := hpre.2 _ hanswers
    have hk : k (answer o) = .ret (some l) := by simpa [State.continue] using hret
    rw [hk] at hpost
    exact ⟨γ, o, hshared, hpre.1, hgrant, hpost l rfl⟩
  · cases hstep

/--
**The invariant rule**: an outline that holds initially holds at the end of every run that meets its
guard.
-/
theorem Outline.guarded {s t : M.State} {moves : List M.Move} (h : O.Holds s)
    (hmeets : Transition.Meets M.step (Guarded O.guard) s moves)
    (hrun : Transition.runFrom M.step s moves = some t) : O.Holds t :=
  Transition.runFrom_guarded hrun hmeets h fun _ _ _ => O.holds_step

theorem Outline.invariant (hguard : ∀ i w o, O.guard i w o) {s t : M.State} {moves : List M.Move}
    (h : O.Holds s) (hrun : Transition.runFrom M.step s moves = some t) : O.Holds t := by
  refine Transition.runFrom_invariant hrun h fun s m s' hs => O.holds_step hs ?_
  cases m with
  | act i answer =>
    cases hproc : s.proc i <;> simp [Guarded, hproc, hguard]
  | jump i => trivial
  | nature e => trivial

variable {H : Type} (M)
  (record : (i : Pid) → M.World → (o : (M.sig i).Op) → (M.sig i).Ans o → H → H)

/-- The same processes; every operation is recorded as it is granted. -/
def recorded : System Pid where
  sig := M.sig
  Point := M.Point
  code := M.code
  World := M.World × H
  Event := M.Event
  grant i w o x := (M.grant i w.1 o x).map fun w' => (w', record i w.1 o x w.2)
  nature w e := (M.nature w.1 e).map fun w' => (w', w.2)

variable {M}

/-- The history after a move. -/
def recordMove (s : M.State) (h : H) : M.Move → H
  | .act i answer =>
    match s.proc i with
    | .op o _ => record i s.world o (answer o) h
    | _ => h
  | _ => h

/-- The history of a run. -/
def history : M.State → H → List M.Move → H
  | _, h, [] => h
  | s, h, m :: moves => ((M.step s m).map fun s' => history s' (recordMove record s h m) moves).getD h

def State.withHistory (s : M.State) (h : H) : (M.recorded record).State where
  world := (s.world, h)
  proc := s.proc

def Move.recorded : M.Move → (M.recorded record).Move
  | .act i answer => .act i answer
  | .jump i => .jump i
  | .nature e => .nature e

theorem history_cons {s s' : M.State} {m : M.Move} (hstep : M.step s m = some s') (h : H)
    (moves : List M.Move) :
    history record s h (m :: moves) = history record s' (recordMove record s h m) moves := by
  simp [history, hstep]

theorem step_recorded {s s' : M.State} {m : M.Move} (hstep : M.step s m = some s') (h : H) :
    (M.recorded record).step (s.withHistory record h) (m.recorded record) =
      some (s'.withHistory record (recordMove record s h m)) := by
  rcases m with ⟨i, answer⟩ | i | e
  · simp only [step] at hstep
    split at hstep
    · next o k hproc =>
      obtain ⟨w, hw, rfl⟩ := Option.map_eq_some_iff.mp hstep
      have hproc' : (s.withHistory record h).proc i = .op o k := hproc
      simp only [Move.recorded, step, hproc', recordMove, hproc]
      show Option.map _ (Option.map _ (M.grant i s.world o (answer o))) = _
      rw [hw]
      rfl
    · cases hstep
  · simp only [step] at hstep
    split at hstep
    · next l hproc =>
      cases hstep
      have hproc' : (s.withHistory record h).proc i = .ret (some l) := hproc
      simp only [Move.recorded, step, hproc']
      rfl
    · cases hstep
  · obtain ⟨w, hw, rfl⟩ := Option.map_eq_some_iff.mp hstep
    show Option.map _ (Option.map _ (M.nature s.world e)) = _
    rw [hw]
    rfl

/-- **Every run is a run of the recorded system.** -/
theorem runFrom_recorded {s t : M.State} {moves : List M.Move} (h : H)
    (hrun : Transition.runFrom M.step s moves = some t) :
    Transition.runFrom (M.recorded record).step (s.withHistory record h)
      (moves.map (Move.recorded record)) = some (t.withHistory record (history record s h moves)) := by
  induction moves generalizing s h with
  | nil =>
    obtain rfl := Transition.runFrom_nil.mp hrun
    rfl
  | cons m moves ih =>
    obtain ⟨s', hstep, hrest⟩ := Transition.runFrom_cons.mp hrun
    rw [List.map_cons, Transition.runFrom_cons, history_cons record hstep]
    exact ⟨_, step_recorded record hstep h, ih _ hrest⟩

end System
