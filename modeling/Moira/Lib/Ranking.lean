import Mathlib.Data.List.Nodup
import Mathlib.Data.List.Sort
import Moira.Lib.Rows

/-!
# Sorted selections

`where column > last order by column limit n`, over rows that the column tells apart.

`order by column limit n`, then a filter, then the first few of what is left.

- **`not_nodup_selected_iff`** — the selection repeats a name exactly when two rows with the name
  are few enough rows away from the front
-/

namespace Rows

variable {ρ α : Type} [LinearOrder α] {column : ρ → α} {rows front rest : List ρ} {last : ρ}

/-- The column tells the rows apart. -/
def Distinct (column : ρ → α) (rows : List ρ) : Prop :=
  rows.Pairwise fun a b => column a ≠ column b

omit [LinearOrder α] in
theorem Distinct.filter {p : ρ → Bool} (h : Distinct column rows) : Distinct column (rows.filter p) :=
  List.Pairwise.filter p h

theorem pairwise_sorted (h : Distinct column rows) :
    (rows.insertionSort fun a b => column a ≤ column b).Pairwise fun a b => column a < column b := by
  have hle := List.pairwise_insertionSort (fun a b : ρ => column a ≤ column b) rows
  have hperm := List.perm_insertionSort (fun a b : ρ => column a ≤ column b) rows
  have hne : (rows.insertionSort fun a b => column a ≤ column b).Pairwise fun a b => column a ≠ column b :=
    (hperm.pairwise_iff fun hxy => hxy.symm).mpr h
  exact (hle.and hne).imp fun ⟨hle, hne⟩ => lt_of_le_of_ne hle hne

/-- A filtered table, sorted, is the sorted table filtered. -/
theorem insertionSort_filter (h : Distinct column rows) (p : ρ → Bool) :
    (rows.filter p).insertionSort (fun a b => column a ≤ column b) =
      (rows.insertionSort fun a b => column a ≤ column b).filter p := by
  have hperm := (List.perm_insertionSort (fun a b : ρ => column a ≤ column b) rows).filter p
  have hperm' := List.perm_insertionSort (fun a b : ρ => column a ≤ column b) (rows.filter p)
  -- two lists of the same rows, both sorted strictly
  exact (hperm'.trans hperm.symm).eq_of_pairwise
    (fun a b _ _ hab hba => absurd hba (not_lt.mpr (le_of_lt hab)))
    (pairwise_sorted h.filter) (List.Pairwise.filter p (pairwise_sorted h))

theorem filter_after (h : (front ++ last :: rest).Pairwise fun a b => column a < column b) :
    (front ++ last :: rest).filter (fun row => column last < column row) = rest := by
  obtain ⟨-, hlast, hfront⟩ := List.pairwise_append.mp h
  have hrest := (List.pairwise_cons.mp hlast).1
  rw [List.filter_append, List.filter_eq_nil_iff.mpr, List.nil_append,
    List.filter_cons_of_neg (by simp), List.filter_eq_self.mpr]
  · intro row hrow
    simpa using hrest row hrow
  · intro row hrow
    have hlt := hfront row hrow last List.mem_cons_self
    simpa using le_of_lt hlt

/-- **The rows after a row** are those that follow it in the sorted table. -/
theorem top_after (h : Distinct column rows) (n : Nat)
    (hcut : (rows.insertionSort fun a b => column a ≤ column b) = front ++ last :: rest) :
    top column n (rows.filter fun row => column last < column row) = rest.take n := by
  have hsorted := pairwise_sorted h
  rw [top, insertionSort_filter h, hcut, filter_after (hcut ▸ hsorted)]

variable {β : Type} {sorted : List ρ} {row : ρ}

/-! ## What comes before a row -/

/-- How many rows the order puts strictly before a value. -/
def before (column : ρ → α) (a : α) (rows : List ρ) : Nat :=
  rows.countP fun row => column row < a

theorem before_eq_of_sorted (hsorted : (front ++ row :: rest).Pairwise fun a b => column a ≤ column b) :
    before column (column row) (front ++ row :: rest) = before column (column row) front := by
  have hrest : ∀ other ∈ row :: rest, ¬ column other < column row := by
    intro other hother
    rcases List.mem_cons.mp hother with rfl | hother
    · exact lt_irrefl _
    · have hpair := (List.pairwise_cons.mp (List.pairwise_append.mp hsorted).2.1).1 other hother
      exact not_lt.mpr hpair
  unfold before
  rw [List.countP_append, Nat.add_eq_left, List.countP_eq_zero]
  intro other hother
  simpa using not_lt.mp (hrest other hother)

theorem before_perm {a : α} {rows' : List ρ} (h : rows.Perm rows') :
    before column a rows = before column a rows' :=
  h.countP_eq _

theorem sorted_split (hsorted : sorted.Pairwise fun a b => column a ≤ column b) (a : α) :
    sorted = sorted.filter (column · < a) ++ sorted.filter (column · = a) ++
      sorted.filter (a < column ·) := by
  induction sorted with
  | nil => rfl
  | cons row rest ih =>
    obtain ⟨hrow, hrest⟩ := List.pairwise_cons.mp hsorted
    rcases lt_trichotomy (column row) a with hlt | heq | hgt
    · rw [List.filter_cons_of_pos (by simpa using hlt), List.filter_cons_of_neg (by simpa using hlt.ne),
        List.filter_cons_of_neg (by simpa using hlt.le), List.cons_append, List.cons_append, ← ih hrest]
    · have hnone : rest.filter (column · < a) = [] := by
        rw [List.filter_eq_nil_iff]
        intro other hother
        have := hrow other hother
        simpa [← heq] using this
      have ih' := ih hrest
      rw [hnone, List.nil_append] at ih'
      rw [List.filter_cons_of_neg (by simp [heq]), List.filter_cons_of_pos (by simpa using heq),
        List.filter_cons_of_neg (by simp [heq]), hnone, List.nil_append, List.cons_append, ← ih']
    · have hge : ∀ other ∈ rest, a < column other := fun other hother =>
        lt_of_lt_of_le hgt (hrow other hother)
      have hnone : (row :: rest).filter (column · < a) = [] := by
        rw [List.filter_eq_nil_iff]
        intro other hother
        rcases List.mem_cons.mp hother with rfl | hother
        · simpa using hgt.le
        · simpa using (hge other hother).le
      have hnone' : (row :: rest).filter (column · = a) = [] := by
        rw [List.filter_eq_nil_iff]
        intro other hother
        rcases List.mem_cons.mp hother with rfl | hother
        · simpa using hgt.ne'
        · simpa using (hge other hother).ne'
      rw [hnone, hnone', List.nil_append, List.nil_append, List.filter_eq_self.mpr]
      intro other hother
      rcases List.mem_cons.mp hother with rfl | hother
      · simpa using hgt
      · simpa using hge other hother

/-! ## Names that come twice -/

variable {name : ρ → β} {pass : ρ → Bool} {limit cap : Nat}

theorem not_nodup_map_iff : ¬ (rows.map name).Nodup ↔
    ∃ front first between second rest, rows = front ++ first :: between ++ second :: rest ∧
      name first = name second := by
  constructor
  · intro h
    induction rows with
    | nil => simp at h
    | cons row rows ih =>
      rw [List.map_cons, List.nodup_cons, not_and_or, not_not] at h
      rcases h with hmem | h
      · obtain ⟨second, hsecond, hname⟩ := List.mem_map.mp hmem
        obtain ⟨between, rest, rfl⟩ := List.append_of_mem hsecond
        exact ⟨[], row, between, second, rest, rfl, hname.symm⟩
      · obtain ⟨front, first, between, second, rest, rfl, hname⟩ := ih h
        exact ⟨row :: front, first, between, second, rest, rfl, hname⟩
  · rintro ⟨front, first, between, second, rest, rfl, hname⟩ hnodup
    rw [List.append_assoc, List.map_append, List.nodup_append] at hnodup
    have hcons := hnodup.2.1
    rw [List.cons_append, List.map_cons, List.nodup_cons] at hcons
    exact hcons.1 (by simp [hname])

/-- The first `limit` rows by `column`, of these the ones that pass, and of these the first `cap`.
-/
def selected (column : ρ → α) (pass : ρ → Bool) (limit cap : Nat) (rows : List ρ) : List ρ :=
  ((top column limit rows).filter pass).take cap

/-- `second` is few enough rows behind, and `first` is one of those before it. -/
structure Reached (column : ρ → α) (pass : ρ → Bool) (limit cap : Nat) (rows : List ρ)
    (first second : ρ) : Prop where
  le : column first ≤ column second
  limit : before column (column second) rows + (if column first = column second then 1 else 0) < limit
  cap : before column (column second) (rows.filter pass) +
    (if column first = column second then 1 else 0) < cap

theorem before_le_length (first : ρ)
    (hsorted : (front ++ row :: rest).Pairwise fun a b => column a ≤ column b) (hfirst : first ∈ front) :
    before column (column row) (front ++ row :: rest) +
      (if column first = column row then 1 else 0) ≤ front.length := by
  rw [before_eq_of_sorted hsorted]
  unfold before
  rw [List.length_eq_countP_add_countP fun other => decide (column other < column row)]
  refine Nat.add_le_add_left ?_ _
  split
  · next heq =>
    refine List.countP_pos_iff.mpr ⟨first, hfirst, ?_⟩
    simp [heq]
  · exact Nat.zero_le _

theorem take_filter_take (rest : List ρ) (hlimit : front.length < limit)
    (hcap : (front.filter pass).length < cap)
    (hpass : pass row = true) : ∃ rest',
    (((front ++ row :: rest).take limit).filter pass).take cap = front.filter pass ++ row :: rest' := by
  obtain ⟨n, rfl⟩ := Nat.exists_eq_add_of_lt hlimit
  obtain ⟨m, rfl⟩ := Nat.exists_eq_add_of_lt hcap
  have hlimit' : front.length + n + 1 = front.length + (n + 1) := by omega
  have hcap' : (front.filter pass).length + m + 1 = (front.filter pass).length + (m + 1) := by omega
  rw [hlimit', List.take_length_add_append, List.take_succ_cons, List.filter_append,
    List.filter_cons_of_pos hpass, hcap', List.take_length_add_append, List.take_succ_cons]
  exact ⟨_, rfl⟩

/--
**The names of a selection are distinct** exactly when no two rows with one name, the later of which
passes, are reached. Rows at one value of the column have one name, and rows of one name pass
together.
-/
theorem not_nodup_selected_iff (hrows : rows.Nodup)
    (hname : ∀ a ∈ rows, ∀ b ∈ rows, column a = column b → name a = name b)
    (hpass : ∀ a ∈ rows, ∀ b ∈ rows, name a = name b → pass a = pass b) :
    ¬ ((selected column pass limit cap rows).map name).Nodup ↔
      ∃ first ∈ rows, ∃ second ∈ rows, first ≠ second ∧ name first = name second ∧
        pass second = true ∧ Reached column pass limit cap rows first second := by
  have hsorted := List.pairwise_insertionSort (fun a b : ρ => column a ≤ column b) rows
  have hperm := List.perm_insertionSort (fun a b : ρ => column a ≤ column b) rows
  unfold selected top
  generalize rows.insertionSort (fun a b : ρ => column a ≤ column b) = sorted at hsorted hperm ⊢
  have hmem : ∀ {a}, a ∈ sorted ↔ a ∈ rows := hperm.mem_iff
  have hnodup : sorted.Nodup := hperm.nodup_iff.mpr hrows
  rw [not_nodup_map_iff]
  constructor
  · rintro ⟨front, first, between, second, rest, htake, heq⟩
    -- cut the sorted list at the second row
    have hlength := List.length_take_le cap ((sorted.take limit).filter pass)
    have hfilter : (sorted.take limit).filter pass = (front ++ first :: between) ++
        second :: (rest ++ ((sorted.take limit).filter pass).drop cap) := by
      rw [← List.cons_append, ← List.append_assoc, ← htake, List.take_append_drop]
    rw [htake, List.length_append, List.length_cons] at hlength
    obtain ⟨left, right, hleft, hfront, hright⟩ := List.filter_eq_append_iff.mp hfilter
    obtain ⟨skipped, tail, rfl, hskipped, hsecond, -⟩ := List.filter_eq_cons_iff.mp hright
    have hcut : sorted = (left ++ skipped) ++ second :: (tail ++ sorted.drop limit) := by
      conv_lhs => rw [← List.take_append_drop limit sorted, hleft]
      simp
    have hfirst : first ∈ left ++ skipped := by
      have hin : first ∈ left.filter pass := by
        rw [hfront]
        simp
      exact List.mem_append_left _ (List.mem_filter.mp hin).1
    have hshort : (left ++ skipped).length < limit := by
      have := List.length_take_le limit sorted
      rw [hleft, ← List.append_assoc, List.length_append, List.length_cons] at this
      omega
    have hne : first ≠ second := by
      rintro rfl
      rw [hcut, List.nodup_append] at hnodup
      exact hnodup.2.2 first hfirst first List.mem_cons_self rfl
    have hle : column first ≤ column second := by
      rw [hcut, List.pairwise_append] at hsorted
      exact hsorted.2.2 first hfirst second List.mem_cons_self
    refine ⟨first, hmem.mp ?_, second, hmem.mp ?_, hne, heq, hsecond, hle, ?_, ?_⟩
    · rw [hcut]
      exact List.mem_append_left _ hfirst
    · rw [hcut]
      simp
    · rw [← before_perm hperm, hcut]
      rw [hcut] at hsorted
      exact lt_of_le_of_lt (before_le_length first hsorted hfirst) hshort
    · have hpassing : sorted.filter pass = (front ++ first :: between) ++
          second :: (tail ++ sorted.drop limit).filter pass := by
        have hnone : skipped.filter pass = [] := by
          rw [List.filter_eq_nil_iff]
          exact hskipped
        conv_lhs => rw [hcut]
        rw [List.filter_append, List.filter_append, hnone, List.append_nil, hfront,
          List.filter_cons_of_pos hsecond]
      have hsub := hsorted.filter pass
      rw [hpassing] at hsub
      rw [← before_perm (hperm.filter pass), hpassing]
      have := before_le_length first hsub (by simp)
      omega
  · rintro ⟨first, hfirst, second, hsecond, hne, heq, hpassing, hle, hlimit, hcap⟩
    have hsplit := sorted_split hsorted (column second)
    have hsecond' : second ∈ sorted.filter (column · = column second) :=
      List.mem_filter.mpr ⟨hmem.mpr hsecond, by simp⟩
    have hbefore : (sorted.filter (column · < column second)).length =
        before column (column second) rows := by
      rw [← List.countP_eq_length_filter, before, hperm.countP_eq]
    have hbefore' : ((sorted.filter (column · < column second)).filter pass).length =
        before column (column second) (rows.filter pass) := by
      rw [List.filter_filter, ← List.countP_eq_length_filter, before, List.countP_filter,
        hperm.countP_eq]
      exact List.countP_congr fun a _ => by simp [and_comm]
    have hties : ∀ tie ∈ sorted.filter (column · = column second), name tie = name second ∧
        pass tie = true := by
      intro tie htie
      obtain ⟨hin, hcolumn⟩ := List.mem_filter.mp htie
      have hsame := hname tie (hmem.mp hin) second hsecond (by simpa using hcolumn)
      exact ⟨hsame, (hpass tie (hmem.mp hin) second hsecond hsame).trans hpassing⟩
    have conclude : ∀ front row rest x, sorted = front ++ row :: rest → front.length < limit →
        (front.filter pass).length < cap → x ∈ front → name x = name second → pass x = true →
        name row = name second → pass row = true →
        ∃ front first between second rest, ((sorted.take limit).filter pass).take cap =
          front ++ first :: between ++ second :: rest ∧ name first = name second := by
      intro front row rest x hcut hl hc hx hxname hxpass hrow hrowpass
      obtain ⟨rest', htake⟩ := take_filter_take rest hl hc hrowpass
      obtain ⟨u, v, huv⟩ := List.append_of_mem (List.mem_filter.mpr ⟨hx, hxpass⟩)
      refine ⟨u, x, v, row, rest', ?_, hxname.trans hrow.symm⟩
      rw [hcut, htake, huv]
    by_cases htie : column first = column second
    · -- the first two rows at the value
      rw [if_pos htie] at hlimit hcap
      have hfirst' : first ∈ sorted.filter (column · = column second) :=
        List.mem_filter.mpr ⟨hmem.mpr hfirst, by simpa using htie⟩
      obtain ⟨a, b, more, htwo⟩ : ∃ a b more, sorted.filter (column · = column second) =
          a :: b :: more := by
        match hlist : sorted.filter (column · = column second), hfirst', hsecond' with
        | [a], hf, hs =>
          rw [List.mem_singleton] at hf hs
          exact absurd (hf.trans hs.symm) hne
        | a :: b :: more, _, _ => exact ⟨a, b, more, rfl⟩
      have ha := hties a (by rw [htwo]; simp)
      have hb := hties b (by rw [htwo]; simp)
      refine conclude (sorted.filter (column · < column second) ++ [a]) b
        (more ++ sorted.filter (column second < column ·)) a ?_ ?_ ?_ (by simp) ha.1 ha.2 hb.1 hb.2
      · conv_lhs => rw [hsplit, htwo]
        simp
      · rw [List.length_append, hbefore]
        exact hlimit
      · rw [List.filter_append, List.length_append, hbefore', List.filter_cons_of_pos ha.2]
        exact hcap
    · rw [if_neg htie] at hlimit hcap
      have hlt : column first < column second := lt_of_le_of_ne hle htie
      obtain ⟨a, more, hone⟩ : ∃ a more, sorted.filter (column · = column second) = a :: more :=
        List.exists_cons_of_ne_nil (List.ne_nil_of_mem hsecond')
      have ha := hties a (by rw [hone]; simp)
      refine conclude (sorted.filter (column · < column second)) a
        (more ++ sorted.filter (column second < column ·)) first ?_ ?_ ?_ ?_ heq
        ((hpass first hfirst second hsecond heq).trans hpassing) ha.1 ha.2
      · conv_lhs => rw [hsplit, hone]
        simp
      · rw [hbefore]
        exact hlimit
      · rw [hbefore']
        exact hcap
      · exact List.mem_filter.mpr ⟨hmem.mpr hfirst, by simpa using hlt⟩

/-! ## Rows that pass -/

theorem exists_mem_top_iff
    (hpass : ∀ a ∈ rows, ∀ b ∈ rows, column a = column b → pass a = pass b) :
    (∃ row ∈ top column limit rows, pass row = true) ↔
      ∃ row ∈ rows, pass row = true ∧ before column (column row) rows < limit := by
  have hsorted := List.pairwise_insertionSort (fun a b : ρ => column a ≤ column b) rows
  have hperm := List.perm_insertionSort (fun a b : ρ => column a ≤ column b) rows
  unfold top
  generalize rows.insertionSort (fun a b : ρ => column a ≤ column b) = sorted at hsorted hperm ⊢
  constructor
  · rintro ⟨row, hrow, hpasses⟩
    obtain ⟨front, between, htake⟩ := List.append_of_mem hrow
    have hcut : sorted = front ++ row :: (between ++ sorted.drop limit) := by
      conv_lhs => rw [← List.take_append_drop limit sorted, htake]
      simp
    have hshort : front.length < limit := by
      have hlength := List.length_take_le limit sorted
      rw [htake, List.length_append, List.length_cons] at hlength
      omega
    refine ⟨row, hperm.mem_iff.mp (List.mem_of_mem_take hrow), hpasses, ?_⟩
    rw [← before_perm hperm, hcut]
    rw [hcut] at hsorted
    rw [before_eq_of_sorted hsorted]
    exact lt_of_le_of_lt List.countP_le_length hshort
  · rintro ⟨row, hrow, hpasses, hbefore⟩
    -- the rows at the value of `row` start right behind those before it
    have hmem : row ∈ sorted.filter (column · = column row) :=
      List.mem_filter.mpr ⟨hperm.mem_iff.mpr hrow, by simp⟩
    obtain ⟨first, others, heq⟩ := List.exists_cons_of_ne_nil (List.ne_nil_of_mem hmem)
    have hfirst : first ∈ sorted.filter (column · = column row) := by
      rw [heq]
      exact List.mem_cons_self
    obtain ⟨hinside, hcolumn⟩ := List.mem_filter.mp hfirst
    have hlength : (sorted.filter (column · < column row)).length < limit := by
      rw [← List.countP_eq_length_filter]
      rwa [← before_perm hperm] at hbefore
    obtain ⟨n, hn⟩ := Nat.exists_eq_add_of_lt hlength
    refine ⟨first, ?_, ?_⟩
    · rw [sorted_split hsorted (column row), heq, List.append_assoc, List.cons_append, hn, Nat.add_assoc,
        List.take_length_add_append, List.take_succ_cons]
      exact List.mem_append_right _ List.mem_cons_self
    · rw [← hpasses]
      exact hpass first (hperm.mem_iff.mp hinside) row hrow (by simpa using hcolumn)

end Rows
