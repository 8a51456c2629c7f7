import Mathlib.Logic.Basic
import Mathlib.Tactic.Basic

/-!
# Interaction programs

A program that talks to an environment it does not control: a database, a channel, a clock, a
provider. Every `await` of the modelled code is one **operation**; the environment answers it,
and the program continues with the answer.

**The rules of use**: `wp_bind` and `wp_mono` cut a program at its function calls;
`wp_after` carries a precondition along a run; `wp_allows` reads it off at the next operation.

- `Prog.After p tr q` — after the exchanges `tr`, the program `p` has become `q`.
  A run that has not finished yet is a run too, so every statement about `After` is a statement
  about every prefix of every execution
- `Prog.wp` — the weakest precondition of a program against a contract
- `Contract.keeping` — the contract of an invariant of the trace, which is the ghost state that
  needs no design: an operation may be issued when the invariant holds after it, whatever the answer
- `Lockstep R E p q` — two programs that issue the same operations, whatever they are answered; the
  results are related by `R`, the failures by `E`
- `Lockstep.bind`, `Lockstep.mapFail` — the rules for a program that is cut at a call, and for one
  whose failure is passed on
- **`Lockstep.runWith`** — in every environment the two make the same exchanges and end in related
  ways
-/

/-- The operations a program can issue, with the type of their answers. -/
structure Sig where
  Op : Type
  Ans : Op → Type

/-- Programs over the signature `S` with result `α` and failure `ε`. -/
inductive Prog (S : Sig) (ε α : Type) : Type
  | ret (a : α)
  | fail (e : ε)
  | op (o : S.Op) (k : S.Ans o → Prog S ε α)

namespace Prog

variable {S : Sig} {ε ε' α β γ : Type}

/-! ## Sequencing -/

def bind : Prog S ε α → (α → Prog S ε β) → Prog S ε β
  | .ret a, f => f a
  | .fail e, _ => .fail e
  | .op o k, f => .op o (fun x => (k x).bind f)

instance : Monad (Prog S ε) where
  pure := .ret
  bind := bind

/-- Issue one operation and return its answer. -/
def ask (o : S.Op) : Prog S ε (S.Ans o) :=
  .op o .ret

/-- `?`: return the value, or fail with the error. -/
def ofExcept : Except ε α → Prog S ε α
  | .ok a => .ret a
  | .error e => .fail e

/-- Run a program whose failure the caller inspects instead of propagating. -/
def attempt : Prog S ε α → Prog S ε' (Except ε α)
  | .ret a => .ret (.ok a)
  | .fail e => .ret (.error e)
  | .op o k => .op o (fun x => (k x).attempt)

/-- Run every operation as a program over another signature. -/
def interpret {T : Sig} (h : (o : S.Op) → Prog T ε (S.Ans o)) : Prog S ε α → Prog T ε α
  | .ret a => .ret a
  | .fail e => .fail e
  | .op o k => (h o).bind fun x => (k x).interpret h

@[simp] theorem pure_def (a : α) : (pure a : Prog S ε α) = .ret a := rfl

@[simp] theorem ret_bind (a : α) (f : α → Prog S ε β) : (.ret a : Prog S ε α) >>= f = f a := rfl

@[simp] theorem fail_bind (e : ε) (f : α → Prog S ε β) :
    (.fail e : Prog S ε α) >>= f = .fail e := rfl

@[simp] theorem op_bind (o : S.Op) (k : S.Ans o → Prog S ε α) (f : α → Prog S ε β) :
    (.op o k : Prog S ε α) >>= f = .op o (fun x => k x >>= f) := rfl
@[simp] theorem ask_bind (o : S.Op) (f : S.Ans o → Prog S ε β) :
    (ask o : Prog S ε _) >>= f = .op o f := rfl

theorem interpret_bind {T : Sig} (h : (o : S.Op) → Prog T ε (S.Ans o)) (p : Prog S ε α)
    (f : α → Prog S ε β) : (p >>= f).interpret h = p.interpret h >>= fun a => (f a).interpret h := by
  induction p with
  | ret a => rfl
  | fail e => rfl
  | op o k ih =>
    show (h o).bind (fun x => ((k x) >>= f).interpret h) = ((h o).bind _).bind _
    simp only [ih]
    generalize h o = q
    induction q with
    | ret x => rfl
    | fail e => rfl
    | op o' k' ih' => exact congrArg (Prog.op o') (funext ih')

/-! ## Runs -/

/-- One exchange: an operation and the answer the environment gave. -/
abbrev Exchange (S : Sig) := (o : S.Op) × S.Ans o

/-- After the exchanges `tr`, the program `p` has become `q`. -/
inductive After : Prog S ε α → List (Exchange S) → Prog S ε α → Prop
  | refl (p : Prog S ε α) : After p [] p
  | step {o : S.Op} {k : S.Ans o → Prog S ε α} {tr : List (Exchange S)} {q : Prog S ε α}
      (x : S.Ans o) (h : After (k x) tr q) : After (.op o k) (⟨o, x⟩ :: tr) q

/-- Run against an environment that answers from a state of its own. -/
def runWith {σ : Type} (env : σ → (o : S.Op) → S.Ans o × σ) :
    Prog S ε α → σ → List (Exchange S) × Except ε α
  | .ret a, _ => ([], .ok a)
  | .fail e, _ => ([], .error e)
  | .op o k, s =>
    let answer := env s o
    let rest := (k answer.1).runWith env answer.2
    (⟨o, answer.1⟩ :: rest.1, rest.2)

theorem after_runWith {σ : Type} (env : σ → (o : S.Op) → S.Ans o × σ) (p : Prog S ε α) (s : σ) :
    After p (p.runWith env s).1 (ofExcept (p.runWith env s).2) := by
  induction p generalizing s with
  | ret a => exact .refl _
  | fail e => exact .refl _
  | op o k ih => exact .step _ (ih _ _)

theorem after_runWith_ret {σ : Type} {env : σ → (o : S.Op) → S.Ans o × σ} {p : Prog S ε α} {s : σ}
    {a : α} (h : (p.runWith env s).2.toOption = some a) :
    After p (p.runWith env s).1 (.ret a) := by
  have hafter := after_runWith env p s
  cases hresult : (p.runWith env s).2 with
  | error e => simp [hresult, Except.toOption] at h
  | ok b =>
    obtain rfl : b = a := by simpa [hresult, Except.toOption] using h
    rwa [hresult] at hafter

theorem exists_after_runWith {σ : Type} {env : σ → (o : S.Op) → S.Ans o × σ} {p : Prog S ε α}
    {s : σ} (h : (p.runWith env s).2.isOk = true) :
    ∃ a, After p (p.runWith env s).1 (.ret a) := by
  cases hresult : (p.runWith env s).2 with
  | error e => simp [hresult, Except.isOk, Except.toBool] at h
  | ok a => exact ⟨a, after_runWith_ret (by rw [hresult]; rfl)⟩

/-! ## Programs that keep to a set of operations -/

/-- Every operation the program can issue satisfies `P`. -/
def Only (P : S.Op → Prop) : Prog S ε α → Prop
  | .ret _ => True
  | .fail _ => True
  | .op o k => P o ∧ ∀ x, (k x).Only P

@[simp] theorem only_ret (P : S.Op → Prop) (a : α) : (.ret a : Prog S ε α).Only P := trivial
@[simp] theorem only_fail (P : S.Op → Prop) (e : ε) : (.fail e : Prog S ε α).Only P := trivial

@[simp] theorem only_op {P : S.Op → Prop} {o : S.Op} {k : S.Ans o → Prog S ε α} :
    (.op o k : Prog S ε α).Only P ↔ P o ∧ ∀ x, (k x).Only P := Iff.rfl

@[simp] theorem only_ask {P : S.Op → Prop} {o : S.Op} :
    (ask o : Prog S ε _).Only P ↔ P o := by
  simp [ask]

@[simp] theorem only_ofExcept {P : S.Op → Prop} (r : Except ε α) :
    (ofExcept r : Prog S ε α).Only P := by
  cases r <;> simp [ofExcept]

theorem Only.mono {P P' : S.Op → Prop} {p : Prog S ε α} (h : p.Only P) (hP : ∀ o, P o → P' o) :
    p.Only P' := by
  induction p with
  | ret a => trivial
  | fail e => trivial
  | op o k ih => exact ⟨hP o h.1, fun x => ih x (h.2 x)⟩

theorem only_bind {P : S.Op → Prop} {p : Prog S ε α} {f : α → Prog S ε β} (hp : p.Only P)
    (hf : ∀ a, (f a).Only P) : (p >>= f).Only P := by
  induction p with
  | ret a => exact hf a
  | fail e => trivial
  | op o k ih => exact ⟨hp.1, fun x => ih x (hp.2 x)⟩

/-- Every result of the program satisfies `R`, whatever it is answered. -/
def Returns (R : α → Prop) : Prog S ε α → Prop
  | .ret a => R a
  | .fail _ => True
  | .op _ k => ∀ x, (k x).Returns R

theorem returns_true (p : Prog S ε α) : p.Returns fun _ => True := by
  induction p with
  | ret a => trivial
  | fail e => trivial
  | op o k ih => exact ih

theorem returns_bind {R : α → Prop} {R' : β → Prop} {p : Prog S ε α} {f : α → Prog S ε β}
    (hp : p.Returns R) (hf : ∀ a, R a → (f a).Returns R') : (p >>= f).Returns R' := by
  induction p with
  | ret a => exact hf a hp
  | fail e => trivial
  | op o k ih => exact fun x => ih x (hp x)

end Prog

/-! ## Contracts and weakest preconditions -/

/--
What a program and its environment owe each other, over a ghost state `γ`.

- `may g o` — the program may issue `o` in the ghost state `g`
- `answers g o x` — the environment may answer `x`
- `next g o x` — the ghost state after the exchange
-/
structure Contract (S : Sig) (γ : Type) where
  may : γ → S.Op → Prop
  answers : γ → (o : S.Op) → S.Ans o → Prop
  next : γ → (o : S.Op) → S.Ans o → γ

namespace Contract

variable {S : Sig} {γ : Type}

/-- The ghost state after a list of exchanges. -/
def track (C : Contract S γ) : γ → List (Prog.Exchange S) → γ
  | g, [] => g
  | g, ⟨o, x⟩ :: tr => C.track (C.next g o x) tr

/-- Every answer of the trace is one the environment may give. -/
def Honest (C : Contract S γ) : γ → List (Prog.Exchange S) → Prop
  | _, [] => True
  | g, ⟨o, x⟩ :: tr => C.answers g o x ∧ C.Honest (C.next g o x) tr

instance instDecidableHonest (C : Contract S γ) [∀ g o x, Decidable (C.answers g o x)] :
    ∀ (g : γ) (tr : List (Prog.Exchange S)), Decidable (C.Honest g tr)
  | _, [] => inferInstanceAs (Decidable True)
  | g, ⟨o, x⟩ :: tr =>
    have := instDecidableHonest C (C.next g o x) tr
    inferInstanceAs (Decidable (_ ∧ _))

end Contract

namespace Prog

variable {S : Sig} {ε ε' α β γ : Type} {C : Contract S γ}

/-- The weakest precondition: every operation is allowed, a result satisfies `Q`, a failure `E`. -/
def wp (C : Contract S γ) : Prog S ε α → γ → (γ → α → Prop) → (γ → ε → Prop) → Prop
  | .ret a, g, Q, _ => Q g a
  | .fail e, g, _, E => E g e
  | .op o k, g, Q, E => C.may g o ∧ ∀ x, C.answers g o x → wp C (k x) (C.next g o x) Q E

@[simp] theorem wp_ret (a : α) (g : γ) (Q : γ → α → Prop) (E : γ → ε → Prop) :
    wp C (.ret a) g Q E ↔ Q g a := Iff.rfl

@[simp] theorem wp_fail (e : ε) (g : γ) (Q : γ → α → Prop) (E : γ → ε → Prop) :
    wp C (.fail e) g Q E ↔ E g e := Iff.rfl

theorem wp_op {o : S.Op} {k : S.Ans o → Prog S ε α} {g : γ} {Q : γ → α → Prop}
    {E : γ → ε → Prop} : wp C (.op o k) g Q E ↔
      C.may g o ∧ ∀ x, C.answers g o x → wp C (k x) (C.next g o x) Q E := Iff.rfl

theorem wp_bind {p : Prog S ε α} {f : α → Prog S ε β} {g : γ} {Q : γ → β → Prop}
    {E : γ → ε → Prop} :
    wp C (p >>= f) g Q E ↔ wp C p g (fun g' a => wp C (f a) g' Q E) E := by
  induction p generalizing g with
  | ret a => exact Iff.rfl
  | fail e => exact Iff.rfl
  | op o k ih =>
    rw [op_bind, wp_op, wp_op]
    exact and_congr_right fun _ => forall₂_congr fun x _ => ih x

theorem wp_mono {p : Prog S ε α} {g : γ} {Q Q' : γ → α → Prop} {E E' : γ → ε → Prop}
    (h : wp C p g Q E) (hQ : ∀ g a, Q g a → Q' g a) (hE : ∀ g e, E g e → E' g e) :
    wp C p g Q' E' := by
  induction p generalizing g with
  | ret a => exact hQ g a h
  | fail e => exact hE g e h
  | op o k ih =>
    obtain ⟨hmay, hk⟩ := h
    exact ⟨hmay, fun x hx => ih x (hk x hx)⟩

theorem wp_bind_mono {p : Prog S ε α} {f : α → Prog S ε β} {g : γ} {P : γ → α → Prop}
    {Q : γ → β → Prop} {E : γ → ε → Prop} (hp : wp C p g P E)
    (hf : ∀ g a, P g a → wp C (f a) g Q E) : wp C (p >>= f) g Q E := by
  rw [wp_bind]
  exact wp_mono hp hf (fun _ _ he => he)

theorem wp_attempt {p : Prog S ε α} {g : γ} {Q : γ → Except ε α → Prop} {E : γ → ε' → Prop} :
    wp C (attempt p) g Q E ↔ wp C p g (fun g' a => Q g' (.ok a)) (fun g' e => Q g' (.error e)) := by
  induction p generalizing g with
  | ret a => exact Iff.rfl
  | fail e => exact Iff.rfl
  | op o k ih =>
    rw [attempt, wp_op, wp_op]
    exact and_congr_right fun _ => forall₂_congr fun x _ => ih x

theorem wp_ite {c : Prop} [Decidable c] {p q : Prog S ε α} {g : γ} {Q : γ → α → Prop} {E : γ → ε → Prop}
    (hpos : c → wp C p g Q E) (hneg : ¬c → wp C q g Q E) : wp C (if c then p else q) g Q E := by
  by_cases hc : c
  · rw [if_pos hc]
    exact hpos hc
  · rw [if_neg hc]
    exact hneg hc

theorem wp_ofExcept {result : Except ε α} {g : γ} {Q : γ → α → Prop} {E : γ → ε → Prop}
    (hok : ∀ a, result = .ok a → Q g a) (herr : ∀ e, result = .error e → E g e) :
    wp C (ofExcept result) g Q E := by
  cases result with
  | ok a => exact hok a rfl
  | error e => exact herr e rfl

theorem wp_ofExcept_bind {result : Except ε α} {f : α → Prog S ε β} {g : γ} {Q : γ → β → Prop}
    {E : γ → ε → Prop} (hok : ∀ a, result = .ok a → wp C (f a) g Q E)
    (herr : ∀ e, result = .error e → E g e) : wp C (ofExcept result >>= f) g Q E := by
  rw [wp_bind]
  exact wp_ofExcept hok herr

theorem wp_of_only {P : S.Op → Prop} {R : α → Prop} {p : Prog S ε α} {g : γ} {Q : γ → α → Prop}
    {E : γ → ε → Prop} (hp : p.Only P) (hr : p.Returns R) (hmay : ∀ o, P o → C.may g o)
    (hnext : ∀ o, P o → ∀ x, C.next g o x = g) (hQ : ∀ a, R a → Q g a) (hE : ∀ e, E g e) :
    wp C p g Q E := by
  induction p with
  | ret a => exact hQ a hr
  | fail e => exact hE e
  | op o k ih =>
    refine ⟨hmay o hp.1, fun x _ => ?_⟩
    rw [hnext o hp.1]
    exact ih x (hp.2 x) (hr x)

theorem wp_after {p q : Prog S ε α} {tr : List (Exchange S)} {g : γ} {Q : γ → α → Prop}
    {E : γ → ε → Prop} (hrun : After p tr q) (hhonest : C.Honest g tr) (h : wp C p g Q E) :
    wp C q (C.track g tr) Q E := by
  induction hrun generalizing g with
  | refl p => exact h
  | step x _ ih =>
    obtain ⟨hanswers, hrest⟩ := hhonest
    exact ih hrest (h.2 x hanswers)

/-- Run against an environment that keeps the contract and answers from the ghost state. -/
def runOn (C : Contract S γ) (answer : γ → (o : S.Op) → S.Ans o) (p : Prog S ε α) (g : γ) :
    List (Exchange S) × Except ε α :=
  p.runWith (fun g o => (answer g o, C.next g o (answer g o))) g

theorem honest_runOn {answer : γ → (o : S.Op) → S.Ans o} (p : Prog S ε α)
    (h : ∀ g o, C.answers g o (answer g o)) (g : γ) : C.Honest g (p.runOn C answer g).1 := by
  induction p generalizing g with
  | ret a => trivial
  | fail e => trivial
  | op o k ih => exact ⟨h g o, ih _ _⟩

theorem track_runOn {answer : γ → (o : S.Op) → S.Ans o} {I : γ → Prop} (p : Prog S ε α)
    (h : ∀ g o, I g → I (C.next g o (answer g o))) (g : γ) (hI : I g) :
    I (C.track g (p.runOn C answer g).1) := by
  induction p generalizing g with
  | ret a => exact hI
  | fail e => exact hI
  | op o k ih => exact ih _ _ (h g o hI)

theorem wp_invariant_of {P : Exchange S → Prop} {I : γ → Prop} {p q : Prog S ε α}
    {tr : List (Exchange S)} {g : γ} {Q : γ → α → Prop} {E : γ → ε → Prop} (hrun : After p tr q)
    (hhonest : C.Honest g tr) (hP : ∀ e ∈ tr, P e) (h : wp C p g Q E) (hI : I g)
    (hstep : ∀ g o x, I g → C.may g o → C.answers g o x → P ⟨o, x⟩ → I (C.next g o x)) :
    I (C.track g tr) := by
  induction hrun generalizing g with
  | refl p => exact hI
  | @step o k tr q x _ ih =>
    obtain ⟨hanswers, hrest⟩ := hhonest
    obtain ⟨hhead, htail⟩ := List.forall_mem_cons.mp hP
    exact ih hrest htail (h.2 x hanswers) (hstep g o x hI h.1 hanswers hhead)

/-- What every exchange keeps holds after a run. -/
theorem wp_invariant {p q : Prog S ε α} {tr : List (Exchange S)} {g : γ} {Q : γ → α → Prop}
    {E : γ → ε → Prop} {I : γ → Prop} (hrun : After p tr q) (hhonest : C.Honest g tr)
    (h : wp C p g Q E) (hI : I g)
    (hstep : ∀ g o x, I g → C.may g o → C.answers g o x → I (C.next g o x)) :
    I (C.track g tr) :=
  wp_invariant_of (P := fun _ => True) hrun hhonest (fun _ _ => trivial) h hI
    fun g o x hg hmay hanswers _ => hstep g o x hg hmay hanswers

end Prog

namespace Contract

variable {S : Sig}

/-- The contract whose ghost state is the trace, and which keeps `I` at every exchange. -/
def keeping (I : List (Prog.Exchange S) → Prop) : Contract S (List (Prog.Exchange S)) where
  may tr o := ∀ x, I (tr ++ [⟨o, x⟩])
  answers _ _ _ := True
  next tr o x := tr ++ [⟨o, x⟩]

variable {I : List (Prog.Exchange S) → Prop}

theorem track_keeping (start tr : List (Prog.Exchange S)) :
    (keeping I).track start tr = start ++ tr := by
  induction tr generalizing start with
  | nil => exact (List.append_nil start).symm
  | cons e tr ih =>
    rw [track, ih]
    exact List.append_assoc _ _ _

theorem honest_keeping (start tr : List (Prog.Exchange S)) : (keeping I).Honest start tr := by
  induction tr generalizing start with
  | nil => trivial
  | cons e tr ih => exact ⟨trivial, ih _⟩

end Contract

namespace Prog

variable {S : Sig} {ε α : Type} {I : List (Exchange S) → Prop}

/-- **The invariant holds after every run**, and what is left of the program keeps it. -/
theorem keeping_run {p q : Prog S ε α} {start tr : List (Exchange S)}
    {Q : List (Exchange S) → α → Prop} {E : List (Exchange S) → ε → Prop} (hrun : After p tr q)
    (h : wp (Contract.keeping I) p start Q E) (hI : I start) :
    I (start ++ tr) ∧ wp (Contract.keeping I) q (start ++ tr) Q E := by
  have hhonest := Contract.honest_keeping (I := I) start tr
  rw [← Contract.track_keeping (I := I)]
  exact ⟨wp_invariant hrun hhonest h hI fun tr o x _ hmay _ => hmay x, wp_after hrun hhonest h⟩

theorem wp_ask_keeping {o : S.Op} {k : S.Ans o → Prog S ε α} {tr : List (Exchange S)}
    {Q : List (Exchange S) → α → Prop} {E : List (Exchange S) → ε → Prop}
    (hI : ∀ x, I (tr ++ [⟨o, x⟩])) (hk : ∀ x, wp (Contract.keeping I) (k x) (tr ++ [⟨o, x⟩]) Q E) :
    wp (Contract.keeping I) (ask o >>= k) tr Q E :=
  ⟨hI, fun x _ => hk x⟩

variable {ε' δ α' β β' : Type}

/-- `catch` with a `throw`: the failure is passed on as another one. -/
def mapFail (h : ε → δ) : Prog S ε α → Prog S δ α
  | .ret a => .ret a
  | .fail e => .fail (h e)
  | .op o k => .op o fun x => (k x).mapFail h

theorem bind_ret (p : Prog S ε α) : (p >>= fun a => .ret a) = p := by
  induction p with
  | ret a => rfl
  | fail e => rfl
  | op o k ih => exact congrArg (Prog.op o) (funext ih)

inductive Lockstep (R : α → α' → Prop) (E : ε → ε' → Prop) : Prog S ε α → Prog S ε' α' → Prop
  | ret {a : α} {a' : α'} (h : R a a') : Lockstep R E (.ret a) (.ret a')
  | fail {e : ε} {e' : ε'} (h : E e e') : Lockstep R E (.fail e) (.fail e')
  | op {o : S.Op} {k : S.Ans o → Prog S ε α} {k' : S.Ans o → Prog S ε' α'}
      (h : ∀ x, Lockstep R E (k x) (k' x)) : Lockstep R E (.op o k) (.op o k')

/-- How two runs end. -/
def Ends (R : α → α' → Prop) (E : ε → ε' → Prop) : Except ε α → Except ε' α' → Prop
  | .ok a, .ok a' => R a a'
  | .error e, .error e' => E e e'
  | _, _ => False

namespace Lockstep

variable {R : α → α' → Prop} {E : ε → ε' → Prop} {Q : β → β' → Prop} {D : δ → ε' → Prop} {p : Prog S ε α}
  {q : Prog S ε' α'}

theorem bind {f : α → Prog S ε β} {g : α' → Prog S ε' β'} (h : Lockstep R E p q)
    (hf : ∀ a a', R a a' → Lockstep Q E (f a) (g a')) : Lockstep Q E (p >>= f) (q >>= g) := by
  induction h with
  | ret h => exact hf _ _ h
  | fail h => exact .fail h
  | op _ ih => exact .op ih

theorem mapFail {h : ε → δ} (hpq : Lockstep R E p q) (hE : ∀ e e', E e e' → D (h e) e') :
    Lockstep R D (p.mapFail h) q := by
  induction hpq with
  | ret hr => exact .ret hr
  | fail he => exact .fail (hE _ _ he)
  | op _ ih => exact .op ih

/-- **In every environment the two make the same exchanges and end in related ways.** -/
theorem runWith {σ : Type} (h : Lockstep R E p q) (env : σ → (o : S.Op) → S.Ans o × σ) (s : σ) :
    (p.runWith env s).1 = (q.runWith env s).1 ∧ Ends R E (p.runWith env s).2 (q.runWith env s).2 := by
  induction h generalizing s with
  | ret h => exact ⟨rfl, h⟩
  | fail h => exact ⟨rfl, h⟩
  | @op o k k' _ ih =>
    obtain ⟨hexchanges, hends⟩ := ih (env s o).1 (env s o).2
    exact ⟨congrArg (List.cons _) hexchanges, hends⟩

end Lockstep

end Prog
