import Mathlib.Data.List.Basic
import Mathlib.Tactic.Common

/-!
# Texts with doubled characters
-/

namespace Separator

variable {α : Type} {c : α} {x x' r r' : List α}

/-- Where a character comes first. -/
theorem cut_first (hx : c ∉ x) (hx' : c ∉ x') (h : x ++ c :: r = x' ++ c :: r') : x = x' ∧ r = r' := by
  induction x generalizing x' with
  | nil =>
    cases x' with
    | nil => exact ⟨rfl, (List.cons.inj h).2⟩
    | cons d x' =>
      have hd := (List.cons.inj h).1
      exact absurd (hd ▸ List.mem_cons_self) hx'
  | cons d x ih =>
    cases x' with
    | nil =>
      have hd := (List.cons.inj h).1
      exact absurd (hd.symm ▸ List.mem_cons_self) hx
    | cons e x' =>
      obtain ⟨rfl, hrest⟩ := List.cons.inj h
      obtain ⟨rfl, hr⟩ := ih (fun hmem => hx (List.mem_cons_of_mem _ hmem))
        (fun hmem => hx' (List.mem_cons_of_mem _ hmem)) hrest
      exact ⟨rfl, hr⟩

/-- Where a character comes last. -/
theorem cut_last (hr : c ∉ r) (hr' : c ∉ r') (h : x ++ c :: r = x' ++ c :: r') : x = x' ∧ r = r' := by
  have hreverse : r.reverse ++ c :: x.reverse = r'.reverse ++ c :: x'.reverse := by
    have := congrArg List.reverse h
    simpa using this
  obtain ⟨hr, hx⟩ := cut_first (by simpa using hr) (by simpa using hr') hreverse
  exact ⟨List.reverse_injective hx, List.reverse_injective hr⟩

/-! ## Separators that hold the character twice -/

variable {ι : Type} (c : α) (front : ι → List α) (back : List α)

/-- `c`, a text of its own, `c` again and a fixed text. -/
def separator (i : ι) : List α :=
  c :: (front i ++ c :: back)

variable {c front back} {i j : ι} {t u t' u' : List α}

/-- The character is at the two places only, and what follows it differs. -/
structure Distinct (c : α) (front : ι → List α) (back : List α) : Prop where
  front_free : ∀ i, c ∉ front i
  back_free : c ∉ back
  start : ∀ i a, (front i).head? = some a → back.head? ≠ some a
  front_nonempty : ∀ i, front i ≠ []
  back_nonempty : back ≠ []

theorem same_place (h : Distinct c front back)
    (heq : separator c front back i ++ u = separator c front back j ++ u') :
    front i = front j ∧ u = u' := by
  unfold separator at heq
  rw [List.cons_append, List.cons_append, List.append_assoc, List.append_assoc] at heq
  obtain ⟨hfront, hrest⟩ := cut_first (h.front_free i) (h.front_free j) (List.cons.inj heq).2
  exact ⟨hfront, List.append_cancel_left hrest⟩

theorem inside_left (h : Distinct c front back) {w : List α} (hw : w ≠ [])
    (heq : separator c front back i ++ u = w ++ (separator c front back j ++ u')) :
    ∃ y, w = separator c front back i ++ y ∧ u = y ++ (separator c front back j ++ u') := by
  rcases List.append_eq_append_iff.mp heq with ⟨y, rfl, rfl⟩ | ⟨v, hsep, hv⟩
  · exact ⟨y, rfl, rfl⟩
  · cases v with
    | nil =>
      rw [List.append_nil] at hsep
      exact ⟨[], by rw [hsep, List.append_nil], by rw [hv]; rfl⟩
    | cons d v =>
      -- The other separator starts inside this one: at its second character `c`.
      obtain ⟨first, w, rfl⟩ := List.exists_cons_of_ne_nil hw
      unfold separator at hv hsep
      obtain ⟨rfl, -⟩ := List.cons.inj hv
      obtain ⟨-, -, rfl⟩ :=
        (List.append_cons_inj_of_notMem (h.front_free i) h.back_free).mp (List.cons.inj hsep).2
      obtain ⟨a, front', hfront⟩ := List.exists_cons_of_ne_nil (h.front_nonempty j)
      obtain ⟨b, back', rfl⟩ := List.exists_cons_of_ne_nil h.back_nonempty
      rw [hfront] at hv
      have hstart := h.start j a (by rw [hfront, List.head?_cons])
      have hab : a = b := (List.cons.inj (List.cons.inj hv).2).1
      exact absurd (hab ▸ rfl) hstart

/-- A separator that holds the character twice: a text that is cut at one has been cut at the same
place, or inside the left part, or inside the right part. -/
theorem cut_cases (h : Distinct c front back)
    (heq : t ++ (separator c front back i ++ u) = t' ++ (separator c front back j ++ u')) :
    (t = t' ∧ front i = front j ∧ u = u') ∨
      (∃ y, t' = t ++ (separator c front back i ++ y) ∧ u = y ++ (separator c front back j ++ u')) ∨
      ∃ y, t = t' ++ (separator c front back j ++ y) ∧ u' = y ++ (separator c front back i ++ u) := by
  rcases List.append_eq_append_iff.mp heq with ⟨w, rfl, hw⟩ | ⟨w, rfl, hw⟩
  · by_cases hempty : w = []
    · subst hempty
      exact Or.inl ⟨(List.append_nil t).symm, same_place h hw⟩
    · obtain ⟨y, rfl, hu⟩ := inside_left h hempty hw
      exact Or.inr (Or.inl ⟨y, rfl, hu⟩)
  · by_cases hempty : w = []
    · subst hempty
      obtain ⟨hfront, hu⟩ := same_place h hw
      exact Or.inl ⟨List.append_nil t', hfront.symm, hu.symm⟩
    · obtain ⟨y, rfl, hu⟩ := inside_left h hempty hw
      exact Or.inr (Or.inr ⟨y, rfl, hu⟩)

end Separator

namespace Split

variable {α : Type} [DecidableEq α] {a c d : α} {x : List α}

/-- The character in front of the first part. -/
def extend (a : α) : List (List α) → List (List α)
  | [] => [[a]]
  | part :: parts => (a :: part) :: parts

/-- The parts of a text between doubled characters, from the left. -/
def splitTwice (c : α) : List α → List (List α)
  | [] => [[]]
  | [a] => [[a]]
  | a :: b :: rest =>
    if a = c ∧ b = c then [] :: splitTwice c rest else extend a (splitTwice c (b :: rest))

/-- The parts that a doubled character ends. -/
def complete (c : α) (x : List α) : List (List α) :=
  (splitTwice c x).dropLast

/-- What is behind the last doubled character. -/
def unfinished (c : α) (x : List α) : List α :=
  (splitTwice c x).getLast?.getD []

omit [DecidableEq α] in
theorem extend_ne_nil (a : α) (parts : List (List α)) : extend a parts ≠ [] := by
  cases parts with
  | nil => exact List.cons_ne_nil _ _
  | cons part parts => exact List.cons_ne_nil _ _

theorem splitTwice_ne_nil (c : α) (x : List α) : splitTwice c x ≠ [] := by
  fun_induction splitTwice c x with
  | case1 => exact List.cons_ne_nil _ _
  | case2 a => exact List.cons_ne_nil _ _
  | case3 a b rest hab ih => exact List.cons_ne_nil _ _
  | case4 a b rest hab ih => exact extend_ne_nil _ _

theorem parts_eq (c : α) (x : List α) : splitTwice c x = complete c x ++ [unfinished c x] := by
  obtain ⟨front, last, hparts⟩ :=
      (List.eq_nil_or_concat (splitTwice c x)).resolve_left (splitTwice_ne_nil c x)
  rw [List.concat_eq_append] at hparts
  rw [complete, unfinished, hparts, List.dropLast_concat, List.getLast?_concat]
  rfl

theorem eq_of_single {part : List α} (h : splitTwice c x = [part]) : part = x := by
  fun_induction splitTwice c x generalizing part with
  | case1 => exact (List.cons.inj h).1.symm
  | case2 a => exact (List.cons.inj h).1.symm
  | case3 a b rest hab ih => exact absurd (List.cons.inj h).2 (splitTwice_ne_nil c rest)
  | case4 a b rest hab ih =>
    cases hrest : splitTwice c (b :: rest) with
    | nil => exact absurd hrest (splitTwice_ne_nil c _)
    | cons first parts =>
      rw [hrest] at h
      obtain ⟨rfl, rfl⟩ := List.cons.inj h
      rw [ih hrest]

variable {b : α} {rest : List α}

theorem complete_cut (hab : a = c ∧ b = c) :
    complete c (a :: b :: rest) = [] :: complete c rest := by
  rw [complete, splitTwice, if_pos hab, List.dropLast_cons_of_ne_nil (splitTwice_ne_nil c rest), complete]

theorem unfinished_cut (hab : a = c ∧ b = c) :
    unfinished c (a :: b :: rest) = unfinished c rest := by
  rw [unfinished, splitTwice, if_pos hab, parts_eq c rest, ← List.cons_append, List.getLast?_concat]
  rfl

theorem parts_of_not_cut (hab : ¬(a = c ∧ b = c)) :
    splitTwice c (a :: b :: rest) = [a :: b :: rest] ∨
      ∃ part parts, complete c (b :: rest) = part :: parts ∧
        complete c (a :: b :: rest) = (a :: part) :: parts ∧
        unfinished c (a :: b :: rest) = unfinished c (b :: rest) := by
  have hparts := parts_eq c (b :: rest)
  have hstep : splitTwice c (a :: b :: rest) = extend a (splitTwice c (b :: rest)) := by
    rw [splitTwice, if_neg hab]
  cases hfront : complete c (b :: rest) with
  | nil =>
    rw [hfront, List.nil_append] at hparts
    rw [hstep, hparts, eq_of_single hparts]
    exact Or.inl rfl
  | cons part parts =>
    rw [hfront] at hparts
    have hall : splitTwice c (a :: b :: rest) = ((a :: part) :: parts) ++ [unfinished c (b :: rest)] := by
      rw [hstep, hparts]
      rfl
    refine Or.inr ⟨part, parts, rfl, ?_, ?_⟩
    · rw [complete, hall, List.dropLast_concat]
    · rw [unfinished, hall, List.getLast?_concat]
      rfl

/-- **The complete parts of a text stay, and what is unfinished goes on.** -/
theorem splitTwice_append (c : α) (x y : List α) :
    splitTwice c (x ++ y) = complete c x ++ splitTwice c (unfinished c x ++ y) := by
  fun_induction splitTwice c x with
  | case1 => rfl
  | case2 a => rfl
  | case3 a b rest hab ih =>
    rw [complete_cut hab, unfinished_cut hab, List.cons_append, List.cons_append, splitTwice, if_pos hab, ih,
      List.cons_append]
  | case4 a b rest hab ih =>
    rcases parts_of_not_cut hab with hall | ⟨part, parts, hfront, hcomplete, hunfinished⟩
    · rw [complete, unfinished, hall]
      rfl
    · rw [hcomplete, hunfinished, List.cons_append, List.cons_append, splitTwice, if_neg hab,
        ← List.cons_append, ih, hfront]
      rfl

theorem complete_append (c : α) (x y : List α) :
    complete c (x ++ y) = complete c x ++ complete c (unfinished c x ++ y) := by
  rw [complete, splitTwice_append, List.dropLast_append_of_ne_nil (splitTwice_ne_nil c _)]
  rfl

theorem splitTwice_unfinished (c : α) (x : List α) : splitTwice c (unfinished c x) = [unfinished c x] := by
  have h := splitTwice_append c x []
  rw [List.append_nil, List.append_nil, parts_eq c x] at h
  exact (List.append_cancel_left h).symm

theorem complete_unfinished (c : α) (x : List α) : complete c (unfinished c x) = [] := by
  rw [complete, splitTwice_unfinished]
  rfl

theorem splitTwice_concat_of_single (h : splitTwice c x = [x]) (hd : d ≠ c) :
    splitTwice c (x ++ [d]) = [x ++ [d]] := by
  fun_induction splitTwice c x with
  | case1 => rfl
  | case2 a =>
    rw [List.singleton_append, splitTwice, if_neg (fun hab => hd hab.2), splitTwice]
    rfl
  | case3 a b rest hab ih => exact absurd (List.cons.inj h).1 (List.cons_ne_nil _ _).symm
  | case4 a b rest hab ih =>
    have hrest : splitTwice c (b :: rest) = [b :: rest] := by
      cases hparts : splitTwice c (b :: rest) with
      | nil => exact absurd hparts (splitTwice_ne_nil c _)
      | cons part parts =>
        rw [hparts] at h
        obtain ⟨hpart, rfl⟩ := List.cons.inj h
        rw [(List.cons.inj hpart).2]
    rw [List.cons_append, List.cons_append, splitTwice, if_neg hab, ← List.cons_append, ih hrest]
    rfl

theorem complete_concat (hd : d ≠ c) : complete c (x ++ [d]) = complete c x := by
  have hnone : complete c (unfinished c x ++ [d]) = [] := by
    rw [complete, splitTwice_concat_of_single (splitTwice_unfinished c x) hd]
    rfl
  rw [complete_append, hnone, List.append_nil]

theorem unfinished_concat (hd : d ≠ c) : unfinished c (x ++ [d]) = unfinished c x ++ [d] := by
  rw [unfinished, splitTwice_append, splitTwice_concat_of_single (splitTwice_unfinished c x) hd,
    List.getLast?_concat]
  rfl

theorem unfinished_suffix (c : α) (x : List α) : unfinished c x <:+ x := by
  fun_induction splitTwice c x with
  | case1 => exact List.suffix_rfl
  | case2 a => exact List.suffix_rfl
  | case3 a b rest hab ih =>
    rw [unfinished_cut hab]
    exact ih.trans ((List.suffix_cons b rest).trans (List.suffix_cons a _))
  | case4 a b rest hab ih =>
    rcases parts_of_not_cut hab with hall | ⟨part, parts, -, -, hunfinished⟩
    · rw [unfinished, hall]
      exact List.suffix_rfl
    · rw [hunfinished]
      exact ih.trans (List.suffix_cons a _)

end Split
