import Mathlib.Data.List.Basic

/-!
# Computations that may fail

Rules for `Except`: what a sequence that succeeded has done, and two loops run side by side.
-/

namespace Fallible

variable {ε ε' α α' β β' : Type}

variable {x : Except ε α} {b : β}

theorem bind_eq_ok {f : α → Except ε β} : x >>= f = .ok b ↔ ∃ a, x = .ok a ∧ f a = .ok b := by
  cases x with
  | error e => simp [bind, Except.bind]
  | ok a => simp [bind, Except.bind]

theorem map_eq_ok {f : α → β} : x.map f = .ok b ↔ ∃ a, x = .ok a ∧ f a = b := by
  cases x with
  | error e => simp [Except.map]
  | ok a => simp [Except.map]

theorem ite_error_eq_ok {c : Prop} [Decidable c] {e : ε} {a : α} :
    (if c then .error e else x) = .ok a ↔ ¬c ∧ x = .ok a := by
  by_cases hc : c
  · simp [hc]
  · simp [hc]

theorem foldlM_related {R : β → β' → Prop} {g : β → α → Except ε β} {g' : β' → α' → Except ε' β'}
    {f : α → α'} (xs : List α)
    (hround : ∀ x ∈ xs, ∀ b b', R b b' → ∃ c c', g b x = .ok c ∧ g' b' (f x) = .ok c' ∧ R c c')
    {b' : β'} (h : R b b') :
    ∃ c c', xs.foldlM g b = .ok c ∧ (xs.map f).foldlM g' b' = .ok c' ∧ R c c' := by
  induction xs generalizing b b' with
  | nil => exact ⟨b, b', rfl, rfl, h⟩
  | cons x xs ih =>
    obtain ⟨c, c', hc, hc', hR⟩ := hround x List.mem_cons_self b b' h
    obtain ⟨d, d', hd, hd', hend⟩ := ih (fun y hy => hround y (List.mem_cons_of_mem _ hy)) hR
    refine ⟨d, d', ?_, ?_, hend⟩
    · rw [List.foldlM_cons, bind_eq_ok]
      exact ⟨c, hc, hd⟩
    · rw [List.map_cons, List.foldlM_cons, bind_eq_ok]
      exact ⟨c', hc', hd'⟩

end Fallible
