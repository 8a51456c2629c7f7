import Mathlib.Data.List.Sort
import Mathlib.Tactic.Common

/-!
# Capped groups

A sorted list, of each group only the first few rows, and of what is left the first few.

- **`full_or_behind`** — a row that is left out is behind a full group of its own, or behind all
  that is kept
-/

namespace Rows

variable {ρ γ : Type} [DecidableEq γ] (group : ρ → γ) (cap : Nat)

/-- Rows of a group that has `cap` rows already are dropped. -/
def retainCapped : (γ → Nat) → List ρ → List ρ
  | _, [] => []
  | counts, row :: rest =>
    if cap ≤ counts (group row) then retainCapped counts rest
    else row :: retainCapped (Function.update counts (group row) (counts (group row) + 1)) rest

variable {group cap} {counts : γ → Nat} {rows front rest : List ρ} {row : ρ}

theorem retainCapped_sublist : (retainCapped group cap counts rows).Sublist rows := by
  induction rows generalizing counts with
  | nil => exact List.Sublist.refl _
  | cons row rest ih =>
    rw [retainCapped]
    split
    · exact ih.cons row
    · exact ih.cons_cons row

theorem countP_retainCapped_le (g : γ) :
    (retainCapped group cap counts rows).countP (group · = g) ≤ cap - counts g := by
  induction rows generalizing counts with
  | nil => exact Nat.zero_le _
  | cons row rest ih =>
    rw [retainCapped]
    split
    · exact ih
    · next hroom =>
      have hrest : (retainCapped group cap (Function.update counts (group row) (counts (group row) + 1)) rest).countP
          (group · = g) ≤ _ := ih
      rw [List.countP_cons]
      by_cases hgroup : group row = g
      · subst hgroup
        rw [Function.update_self] at hrest
        simp only [decide_true, if_true]
        omega
      · rw [Function.update_of_ne (Ne.symm hgroup)] at hrest
        simpa [hgroup] using hrest

theorem cap_le_of_not_mem (h : row ∉ retainCapped group cap counts (front ++ row :: rest)) :
    cap ≤ counts (group row) + front.countP (group · = group row) := by
  induction front generalizing counts with
  | nil =>
    rw [List.nil_append, retainCapped] at h
    split at h
    · next hfull => exact Nat.le_trans hfull (Nat.le_add_right ..)
    · exact absurd List.mem_cons_self h
  | cons other front ih =>
    rw [List.cons_append, retainCapped] at h
    rw [List.countP_cons]
    split at h
    · have := ih h
      omega
    · have hrest := ih fun hmem => h (List.mem_cons_of_mem _ hmem)
      by_cases hgroup : group other = group row
      · rw [hgroup, Function.update_self] at hrest
        simp only [hgroup, decide_true, if_true]
        omega
      · rw [Function.update_of_ne (Ne.symm hgroup)] at hrest
        simpa [hgroup] using hrest

variable {lt : ρ → ρ → Prop} {limit : Nat}

theorem behind_of_not_mem_take (hsorted : rows.Pairwise lt) (hrow : row ∈ rows) (h : row ∉ rows.take limit) :
    (rows.take limit).length = limit ∧ ∀ found ∈ rows.take limit, lt found row := by
  rw [← List.take_append_drop limit rows] at hrow hsorted
  have hdrop : row ∈ rows.drop limit := (List.mem_append.mp hrow).resolve_left h
  have hpos := List.length_pos_of_mem hdrop
  rw [List.length_drop] at hpos
  refine ⟨?_, fun found hfound => (List.pairwise_append.mp hsorted).2.2 found hfound row hdrop⟩
  rw [List.length_take]
  omega

variable [DecidableRel lt]

theorem countP_front_le (hsorted : (front ++ row :: rest).Pairwise lt) (p : ρ → Bool) :
    front.countP p ≤ (front ++ row :: rest).countP fun other => p other && lt other row := by
  rw [List.countP_append]
  refine Nat.le_trans (Nat.le_of_eq ?_) (Nat.le_add_right ..)
  refine List.countP_congr fun other hother => ?_
  have hlt := (List.pairwise_append.mp hsorted).2.2 other hother row List.mem_cons_self
  simp [hlt]

/-- **A row that is left out** is behind a full group of its own, or behind as many rows as there
may be. -/
theorem full_or_behind (hsorted : rows.Pairwise lt) (hrow : row ∈ rows)
    (h : row ∉ (retainCapped group cap (fun _ => 0) rows).take limit) :
    cap ≤ rows.countP (fun other => decide (group other = group row) && lt other row) ∨
      ((retainCapped group cap (fun _ => 0) rows).take limit).length = limit ∧
        ∀ found ∈ (retainCapped group cap (fun _ => 0) rows).take limit, lt found row := by
  by_cases hkept : row ∈ retainCapped group cap (fun _ => 0) rows
  · exact Or.inr (behind_of_not_mem_take (hsorted.sublist retainCapped_sublist) hkept h)
  · obtain ⟨front, rest, rfl⟩ := List.append_of_mem hrow
    have hcap := cap_le_of_not_mem hkept
    rw [Nat.zero_add] at hcap
    exact Or.inl (Nat.le_trans hcap (countP_front_le hsorted _))

end Rows
