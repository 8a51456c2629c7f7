import Mathlib.Data.List.Basic
import Mathlib.Data.List.Nodup
import Mathlib.Data.List.Range
import Mathlib.Data.List.Sort
import Mathlib.Tactic.Common

/-!
# Tables

The rows of a table in the order they were inserted in, with a key for each row.

A table is a list of rows with a primary key. `UPDATE … SET … WHERE …` goes through the row triggers
of the table: the `BEFORE` trigger sees the old row and the row the statement sets, and returns the
row that is stored; the `AFTER` trigger announces the stored row.

- `find`, `modify` — the row of a key, and an update of it
- `Numbered` — the rows of an owner are numbered from 1 on, in the order they were inserted in;
  **`numbered_concat`**: a row with the next number keeps it
-/

namespace Rows

variable {κ ρ : Type} [DecidableEq κ] (key : ρ → κ)

/-! ## Rows by key -/

def find (rows : List ρ) (k : κ) : Option ρ :=
  rows.find? fun row => key row = k

def modify (rows : List ρ) (k : κ) (f : ρ → ρ) : List ρ :=
  rows.map fun row => if key row = k then f row else row

variable {key} {rows : List ρ} {row row' : ρ} {k : κ} {f : ρ → ρ}

theorem find_some (h : find key rows k = some row) : row ∈ rows ∧ key row = k :=
  ⟨List.mem_of_find?_eq_some h, by simpa using List.find?_some h⟩

theorem find_none (h : find key rows k = none) : ∀ row ∈ rows, key row ≠ k := by
  intro row hrow
  simpa using List.find?_eq_none.mp h row hrow

omit [DecidableEq κ] in
theorem eq_of_key (hkeys : (rows.map key).Nodup) (hrow : row ∈ rows) (hrow' : row' ∈ rows)
    (hkey : key row = key row') : row = row' :=
  List.inj_on_of_nodup_map hkeys hrow hrow' hkey

theorem find_of_mem (hkeys : (rows.map key).Nodup) (hrow : row ∈ rows) :
    find key rows (key row) = some row := by
  cases hfind : find key rows (key row) with
  | none => exact absurd rfl (find_none hfind row hrow)
  | some found =>
    obtain ⟨hmem, hkey⟩ := find_some hfind
    rw [eq_of_key hkeys hmem hrow hkey]

theorem mem_modify : row' ∈ modify key rows k f ↔
    ∃ row ∈ rows, (if key row = k then f row else row) = row' :=
  List.mem_map

theorem mem_modify_of_ne (hrow : row ∈ rows) (hkey : key row ≠ k) : row ∈ modify key rows k f :=
  mem_modify.mpr ⟨row, hrow, if_neg hkey⟩

theorem mem_modify_of_eq (hrow : row ∈ rows) (hkey : key row = k) : f row ∈ modify key rows k f :=
  mem_modify.mpr ⟨row, hrow, if_pos hkey⟩

theorem map_modify {α : Type} {column : ρ → α} (hcolumn : ∀ row, column (f row) = column row) :
    (modify key rows k f).map column = rows.map column := by
  unfold modify
  rw [List.map_map]
  refine List.map_congr_left fun row _ => ?_
  by_cases hkey : key row = k
  · rw [Function.comp, if_pos hkey, hcolumn]
  · rw [Function.comp, if_neg hkey]

theorem forall_modify {P : ρ → Prop} (h : ∀ row ∈ rows, P row)
    (hf : ∀ row ∈ rows, key row = k → P (f row)) : ∀ row ∈ modify key rows k f, P row := by
  intro row' hrow'
  obtain ⟨row, hrow, rfl⟩ := mem_modify.mp hrow'
  by_cases hkey : key row = k
  · rw [if_pos hkey]
    exact hf row hrow hkey
  · rw [if_neg hkey]
    exact h row hrow

theorem modify_of_find (hkeys : (rows.map key).Nodup) (hfind : find key rows k = some row) :
    row ∈ rows ∧ ∀ row' ∈ rows, key row' = k → row' = row := by
  obtain ⟨hmem, hkey⟩ := find_some hfind
  exact ⟨hmem, fun row' hrow' hkey' => eq_of_key hkeys hrow' hmem (hkey'.trans hkey.symm)⟩

/-! ## Numbers -/

variable (number : ρ → Nat)

/-- `coalesce(max(n), 0) + 1` over the rows of an owner. -/
def nextNumber (rows : List ρ) : Nat :=
  ((rows.map number).max?).getD 0 + 1

def Numbered (rows : List ρ) : Prop :=
  rows.map number = List.range' 1 rows.length

variable {number}

theorem max?_range' (n : Nat) : (List.range' 1 n).max?.getD 0 = n := by
  cases n with
  | zero => rfl
  | succ n =>
    have hmax : (List.range' 1 (n + 1)).max? = some (n + 1) := by
      rw [List.max?_eq_some_iff]
      constructor
      · exact List.mem_range'_1.mpr (by omega)
      · intro m hm
        have := List.mem_range'_1.mp hm
        omega
    rw [hmax]
    rfl

theorem nextNumber_of_numbered (h : Numbered number rows) : nextNumber number rows = rows.length + 1 := by
  rw [nextNumber, h, max?_range']

theorem numbered_nil : Numbered number ([] : List ρ) :=
  rfl

theorem numbered_concat (h : Numbered number rows) (hrow : number row = nextNumber number rows) :
    Numbered number (rows ++ [row]) := by
  rw [nextNumber_of_numbered h] at hrow
  unfold Numbered at h ⊢
  rw [List.map_append, h, List.length_append, List.length_singleton, List.range'_concat, List.map_singleton,
    hrow]
  congr 2
  omega

/-! ## Ordered queries -/

variable {α : Type} [LinearOrder α]

/-- The first `n` rows by `column`. -/
def top (column : ρ → α) (n : Nat) (rows : List ρ) : List ρ :=
  (rows.insertionSort fun a b => column a ≤ column b).take n

variable {column : ρ → α} {n : Nat}

theorem mem_of_mem_top (h : row ∈ top column n rows) : row ∈ rows := by
  have hmem := List.mem_of_mem_take h
  exact (List.perm_insertionSort _ rows).mem_iff.mp hmem

theorem exists_mem_top (h : row ∈ rows) :
    ∃ found, (top column (n + 1) rows).head? = some found := by
  unfold top
  cases hsorted : rows.insertionSort fun a b => column a ≤ column b with
  | nil =>
    have hmem := (List.perm_insertionSort (fun a b => column a ≤ column b) rows).mem_iff.mpr h
    rw [hsorted] at hmem
    exact absurd hmem List.not_mem_nil
  | cons found rest => exact ⟨found, rfl⟩

theorem length_top_le : (top column n rows).length ≤ rows.length := by
  unfold top
  rw [List.length_take, List.length_insertionSort]
  exact Nat.min_le_right ..

theorem mem_top_or (h : row ∈ rows) :
    row ∈ top column n rows ∨
      (top column n rows).length = n ∧ ∀ found ∈ top column n rows, column found ≤ column row := by
  have hmem : row ∈ rows.insertionSort fun a b => column a ≤ column b :=
    (List.perm_insertionSort _ rows).mem_iff.mpr h
  have hsorted : (rows.insertionSort fun a b => column a ≤ column b).Pairwise fun a b => column a ≤ column b := by
    have : Std.Total fun a b : ρ => column a ≤ column b := ⟨fun a b => le_total (column a) (column b)⟩
    have : IsTrans ρ fun a b => column a ≤ column b := ⟨fun _ _ _ => le_trans⟩
    exact List.pairwise_insertionSort _ rows
  unfold top
  rw [← List.take_append_drop n (rows.insertionSort _)] at hmem hsorted
  rcases List.mem_append.mp hmem with hmem | hmem
  · exact Or.inl hmem
  · have hpos := List.length_pos_of_mem hmem
    rw [List.length_drop] at hpos
    refine Or.inr ⟨?_, fun found hfound => (List.pairwise_append.mp hsorted).2.2 found hfound row hmem⟩
    rw [List.length_take]
    omega

theorem mem_top_of_length_lt (h : row ∈ rows) (hn : rows.length < n) : row ∈ top column n rows := by
  rcases (mem_top_or h : row ∈ top column n rows ∨ _) with htop | ⟨hlength, -⟩
  · exact htop
  · have hle : (top column n rows).length ≤ rows.length := length_top_le
    omega

end Rows

/-- A table: its primary key, and its row triggers. -/
structure Table (κ ρ ν : Type) where
  key : ρ → κ
  before : ρ → ρ → ρ := fun _ new => new
  after : ρ → List ν := fun _ => []

namespace Table

variable {κ ρ ν : Type} (T : Table κ ρ ν) {matches_ : ρ → Bool} {set : ρ → ρ} {rows : List ρ}

/-! ## Updates -/

/-- The row that is stored for an old row. -/
def stored (matches_ : ρ → Bool) (set : ρ → ρ) (row : ρ) : ρ :=
  if matches_ row then T.before row (set row) else row

/-- `update … set … where …`. -/
def updateWhere (matches_ : ρ → Bool) (set : ρ → ρ) (rows : List ρ) : List ρ :=
  rows.map (T.stored matches_ set)

/-- What the same statement announces, row by row. -/
def announced (matches_ : ρ → Bool) (set : ρ → ρ) (rows : List ρ) : List ν :=
  (rows.filter matches_).flatMap fun row => T.after (T.before row (set row))

variable {T}

/-- What an update announces. -/
theorem mem_announced {n : ν} : n ∈ T.announced matches_ set rows ↔
    ∃ row ∈ rows, matches_ row = true ∧ n ∈ T.after (T.before row (set row)) := by
  simp [announced, and_assoc]

theorem key_stored (hkey : ∀ row, T.key (T.before row (set row)) = T.key row) (row : ρ) :
    T.key (T.stored matches_ set row) = T.key row := by
  unfold stored
  split
  · exact hkey row
  · rfl

/-! ## Rows by key -/

variable [DecidableEq κ] {id : κ}

variable (T) in
def lookup (rows : List ρ) (id : κ) : Option ρ :=
  rows.find? fun row => T.key row = id

/-- The row at a key after an update. -/
theorem lookup_updateWhere (hkey : ∀ row, T.key (T.before row (set row)) = T.key row) :
    T.lookup (T.updateWhere matches_ set rows) id =
      (T.lookup rows id).map (T.stored matches_ set) := by
  unfold lookup updateWhere
  rw [List.find?_map]
  congr 2
  funext row
  simp [key_stored hkey]

theorem key_of_lookup {row : ρ} (h : T.lookup rows id = some row) : T.key row = id := by
  simpa using List.find?_some h

theorem mem_of_lookup {row : ρ} (h : T.lookup rows id = some row) : row ∈ rows :=
  List.mem_of_find?_eq_some h

end Table
