import Mathlib.Data.List.Nodup
import Mathlib.Logic.Function.Basic

/-!
# Transactions over one table

A table of rows with a primary key, and any number of transactions that lock rows and write new
versions of them. A statement sees the committed rows under the transaction's own versions
(`visible`); a row lock is held to the end of the transaction.

- `Store.lock`, `Store.write`, `Store.commit`, `Store.rollback`
- `Store.Sound` — a row version is written under the lock of its row, and by one transaction
- `Store.Unique` — what a unique index keeps, on the rows for which it has a value. A new version
  passes (`Store.clear`) when no other one that its transaction sees, and none that another
  transaction has written, has the same value
- `Store.Forward` — every new version is one that its row may become

**Main results**: `Store.unique_write` and `Store.unique_commit`, `Store.later_commit`.
-/

/-- The rows a transaction has locked, and its new row versions. -/
structure Tx (κ ρ : Type) where
  locks : List κ := []
  writes : List ρ := []

/-- The committed rows and the open transactions. -/
structure Store (Pid κ ρ : Type) where
  rows : List ρ
  tx : Pid → Tx κ ρ := fun _ => {}
  opened : List Pid := []

set_option linter.unusedSectionVars false

namespace Store

variable {Pid κ ρ β : Type} [DecidableEq Pid] [DecidableEq κ] (key : ρ → κ)

/-- The rows with some of them replaced, and the new ones after them. -/
def overlay (writes rows : List ρ) : List ρ :=
  rows.map (fun row => (writes.find? fun v => key v = key row).getD row) ++
    writes.filter fun v => key v ∉ rows.map key

/-- What a statement of the transaction sees. -/
def visible (S : Store Pid κ ρ) (i : Pid) : List ρ :=
  overlay key (S.tx i).writes S.rows

/-- The row with this key, as a statement of the transaction sees it. -/
def version (S : Store Pid κ ρ) (i : Pid) (k : κ) : Option ρ :=
  (S.visible key i).find? fun row => key row = k

/-- Another transaction holds the lock of the row. -/
def lockedByOther (S : Store Pid κ ρ) (i : Pid) (k : κ) : Bool :=
  S.opened.any fun j => j ≠ i ∧ k ∈ (S.tx j).locks

def enter (S : Store Pid κ ρ) (i : Pid) (tx : Tx κ ρ) : Store Pid κ ρ :=
  { S with
    tx := Function.update S.tx i tx
    opened := if i ∈ S.opened then S.opened else i :: S.opened }

def lock (S : Store Pid κ ρ) (i : Pid) (k : κ) : Store Pid κ ρ :=
  S.enter i { S.tx i with locks := k :: (S.tx i).locks }

def write (S : Store Pid κ ρ) (i : Pid) (v : ρ) : Store Pid κ ρ :=
  S.enter i
    { S.tx i with writes := v :: (S.tx i).writes.filter fun u => key u ≠ key v }

/-- The transaction is over, without effect. -/
def rollback (S : Store Pid κ ρ) (i : Pid) : Store Pid κ ρ :=
  { S with tx := Function.update S.tx i {}, opened := S.opened.filter (· ≠ i) }

def commit (S : Store Pid κ ρ) (i : Pid) : Store Pid κ ρ :=
  { S.rollback i with rows := S.visible key i }

/-- A new version of a row that is there, under its lock. -/
def update (S : Store Pid κ ρ) (i : Pid) (v : ρ) : Store Pid κ ρ :=
  (S.lock i (key v)).write key i v

/-- No row and no version of another transaction has the key. -/
def fresh (S : Store Pid κ ρ) (k : κ) : Bool :=
  k ∉ S.rows.map key ∧ S.opened.all fun j => k ∉ (S.tx j).writes.map key

/-- The version can be entered into the index. -/
def clear [DecidableEq β] (idx : ρ → Option β) (S : Store Pid κ ρ) (i : Pid) (v : ρ) : Bool :=
  idx v = none ∨
    ((S.visible key i).all (fun u => key u = key v ∨ idx u ≠ idx v) ∧
      S.opened.all fun j => j = i ∨ (S.tx j).writes.all fun u => idx u ≠ idx v)

/-! ## What a transaction sees -/

variable {rows : List ρ} {u : ρ}

section

variable {key}

theorem map_key_overlay {writes : List ρ} :
    (overlay key writes rows).map key =
      rows.map key ++ (writes.filter fun v => key v ∉ rows.map key).map key := by
  rw [overlay, List.map_append, List.map_map]
  congr 1
  apply List.map_congr_left
  intro row _
  cases hfound : writes.find? fun v => key v = key row with
  | none => simp [hfound]
  | some v =>
    have hkey : key v = key row := by simpa using List.find?_some hfound
    simp [hfound, hkey]

theorem mem_overlay {writes : List ρ} (hdistinct : (writes.map key).Nodup) :
    u ∈ overlay key writes rows ↔ u ∈ writes ∨ (u ∈ rows ∧ key u ∉ writes.map key) := by
  have hfind : ∀ v ∈ writes, writes.find? (fun u => key u = key v) = some v := by
    intro v hv
    cases hfound : writes.find? fun u => key u = key v with
    | none => simpa using List.find?_eq_none.mp hfound v hv
    | some u =>
      have hkey : key u = key v := by simpa using List.find?_some hfound
      exact congrArg some
        (List.inj_on_of_nodup_map hdistinct (List.mem_of_find?_eq_some hfound) hv hkey)
  rw [overlay, List.mem_append, List.mem_map, List.mem_filter]
  constructor
  · rintro (⟨row, hrow, rfl⟩ | ⟨hu, -⟩)
    · cases hfound : writes.find? fun v => key v = key row with
      | none =>
        right
        refine ⟨hrow, fun hmem => ?_⟩
        obtain ⟨v, hv, hkey⟩ := List.mem_map.mp hmem
        simpa [hkey] using List.find?_eq_none.mp hfound v hv
      | some v =>
        left
        exact List.mem_of_find?_eq_some hfound
    · exact .inl hu
  · rintro (hu | ⟨hu, hnot⟩)
    · by_cases hmem : key u ∈ rows.map key
      · obtain ⟨row, hrow, hkey⟩ := List.mem_map.mp hmem
        refine .inl ⟨row, hrow, ?_⟩
        rw [hkey, hfind u hu]
        rfl
      · exact .inr ⟨hu, by simpa using hmem⟩
    · refine .inl ⟨u, hu, ?_⟩
      have hnone : writes.find? (fun v => key v = key u) = none := by
        rw [List.find?_eq_none]
        intro v hv heq
        exact hnot (List.mem_map.mpr ⟨v, hv, by simpa using heq⟩)
      rw [hnone]
      rfl

end

/-! ## Soundness -/

/-- Every row version is written under the lock of its row, and by one transaction. -/
structure Sound (S : Store Pid κ ρ) : Prop where
  keys : (S.rows.map key).Nodup
  support : ∀ j, j ∉ S.opened → S.tx j = {}
  exclusive : ∀ j l k, k ∈ (S.tx j).locks → k ∈ (S.tx l).locks → j = l
  locked : ∀ j, ∀ v ∈ (S.tx j).writes, key v ∈ S.rows.map key → key v ∈ (S.tx j).locks
  distinct : ∀ j, ((S.tx j).writes.map key).Nodup
  disjoint : ∀ j l, j ≠ l → ∀ v ∈ (S.tx j).writes, ∀ u ∈ (S.tx l).writes, key v ≠ key u

variable {v r : ρ} {k : κ}

variable {S : Store Pid κ ρ}

variable {i j l : Pid}

section Sound

variable {key}

theorem Sound.mem_visible (h : S.Sound key) :
    u ∈ S.visible key i ↔
      u ∈ (S.tx i).writes ∨ (u ∈ S.rows ∧ key u ∉ (S.tx i).writes.map key) :=
  mem_overlay (h.distinct i)

theorem Sound.nodup_visible (h : S.Sound key) (i : Pid) : ((S.visible key i).map key).Nodup := by
  rw [visible, map_key_overlay, List.nodup_append]
  refine ⟨h.keys, (h.distinct i).sublist (List.filter_sublist.map key), ?_⟩
  rintro a ha b hb rfl
  obtain ⟨v, hv, rfl⟩ := List.mem_map.mp hb
  have hnot : key v ∉ S.rows.map key := by simpa using (List.mem_filter.mp hv).2
  exact hnot ha

theorem Sound.eq_of_visible (h : S.Sound key) (hu : u ∈ S.visible key i)
    (hv : v ∈ S.visible key i) (hkey : key u = key v) : u = v :=
  List.inj_on_of_nodup_map (h.nodup_visible i) hu hv hkey

theorem Sound.version_eq_some (h : S.Sound key) :
    S.version key i k = some u ↔ u ∈ S.visible key i ∧ key u = k := by
  constructor
  · intro hfound
    exact ⟨List.mem_of_find?_eq_some hfound, by simpa using List.find?_some hfound⟩
  · rintro ⟨hu, rfl⟩
    cases hfound : S.version key i (key u) with
    | none => simpa using List.find?_eq_none.mp hfound u hu
    | some v =>
      have hkey : key v = key u := by simpa using List.find?_some hfound
      exact congrArg some (h.eq_of_visible (List.mem_of_find?_eq_some hfound) hu hkey)

theorem Sound.not_locked (h : S.Sound key) (hfree : S.lockedByOther i k = false) (hne : j ≠ i) :
    k ∉ (S.tx j).locks := by
  intro hmem
  by_cases hopen : j ∈ S.opened
  · have hany := List.any_eq_false.mp hfree j hopen
    simp [hne, hmem] at hany
  · rw [h.support j hopen] at hmem
    cases hmem

variable {tx : Tx κ ρ}

theorem tx_enter_self : (S.enter i tx).tx i = tx :=
  Function.update_self ..

theorem tx_enter_of_ne (hne : j ≠ i) : (S.enter i tx).tx j = S.tx j :=
  Function.update_of_ne hne ..

theorem mem_opened_enter : j ∈ (S.enter i tx).opened ↔ j = i ∨ j ∈ S.opened := by
  unfold enter
  by_cases hi : i ∈ S.opened
  · simp only [hi, if_true]
    constructor
    · exact .inr
    · rintro (rfl | hj)
      · exact hi
      · exact hj
  · simp only [hi, if_false, List.mem_cons]

theorem sound_enter (h : S.Sound key)
    (hexclusive : ∀ l, l ≠ i → ∀ k ∈ tx.locks, k ∉ (S.tx l).locks)
    (hlocked : ∀ v ∈ tx.writes, key v ∈ S.rows.map key → key v ∈ tx.locks)
    (hdistinct : (tx.writes.map key).Nodup)
    (hdisjoint : ∀ l, l ≠ i → ∀ v ∈ tx.writes, ∀ u ∈ (S.tx l).writes, key v ≠ key u) :
    (S.enter i tx).Sound key where
  keys := h.keys
  support j hj := by
    rw [mem_opened_enter, not_or] at hj
    rw [tx_enter_of_ne hj.1]
    exact h.support j hj.2
  exclusive j l k hj hl := by
    by_cases hji : j = i <;> by_cases hli : l = i
    · rw [hji, hli]
    · subst hji
      rw [tx_enter_self] at hj
      rw [tx_enter_of_ne hli] at hl
      exact absurd hl (hexclusive l hli k hj)
    · subst hli
      rw [tx_enter_of_ne hji] at hj
      rw [tx_enter_self] at hl
      exact absurd hj (hexclusive j hji k hl)
    · rw [tx_enter_of_ne hji] at hj
      rw [tx_enter_of_ne hli] at hl
      exact h.exclusive j l k hj hl
  locked j v hv hrow := by
    by_cases hji : j = i
    · subst hji
      rw [tx_enter_self] at hv ⊢
      exact hlocked v hv hrow
    · rw [tx_enter_of_ne hji] at hv ⊢
      exact h.locked j v hv hrow
  distinct j := by
    by_cases hji : j = i
    · subst hji
      rwa [tx_enter_self]
    · rw [tx_enter_of_ne hji]
      exact h.distinct j
  disjoint j l hne v hv u hu := by
    by_cases hji : j = i <;> by_cases hli : l = i
    · exact absurd (hji.trans hli.symm) hne
    · subst hji
      rw [tx_enter_self] at hv
      rw [tx_enter_of_ne hli] at hu
      exact hdisjoint l hli v hv u hu
    · subst hli
      rw [tx_enter_of_ne hji] at hv
      rw [tx_enter_self] at hu
      exact (hdisjoint j hji u hu v hv).symm
    · rw [tx_enter_of_ne hji] at hv
      rw [tx_enter_of_ne hli] at hu
      exact h.disjoint j l hne v hv u hu

theorem sound_lock (h : S.Sound key) (hfree : S.lockedByOther i k = false) :
    (S.lock i k).Sound key := by
  apply sound_enter h
  · intro l hl k' hk' hmem
    rcases List.mem_cons.mp hk' with rfl | hk'
    · exact h.not_locked hfree hl hmem
    · exact hl (h.exclusive l i k' hmem hk')
  · exact fun v hv hrow => List.mem_cons_of_mem _ (h.locked i v hv hrow)
  · exact h.distinct i
  · exact fun l hl v hv u hu => h.disjoint i l (Ne.symm hl) v hv u hu

theorem mem_writes_write :
    u ∈ ((S.write key i v).tx i).writes ↔ u = v ∨ (u ∈ (S.tx i).writes ∧ key u ≠ key v) := by
  rw [write, tx_enter_self, List.mem_cons, List.mem_filter]
  simp

theorem tx_write_of_ne (hne : j ≠ i) : (S.write key i v).tx j = S.tx j :=
  tx_enter_of_ne hne

theorem sound_write (h : S.Sound key) (hlock : key v ∈ S.rows.map key → key v ∈ (S.tx i).locks)
    (hothers : ∀ l, l ≠ i → ∀ u ∈ (S.tx l).writes, key u ≠ key v) :
    (S.write key i v).Sound key := by
  apply sound_enter h
  · exact fun l hl k hk hmem => hl (h.exclusive l i k hmem hk)
  · intro u hu hrow
    rcases List.mem_cons.mp hu with rfl | hu
    · exact hlock hrow
    · exact h.locked i u (List.mem_filter.mp hu).1 hrow
  · rw [List.map_cons, List.nodup_cons]
    refine ⟨fun hmem => ?_, (h.distinct i).sublist (List.filter_sublist.map key)⟩
    obtain ⟨u, hu, hkey⟩ := List.mem_map.mp hmem
    simpa [hkey] using (List.mem_filter.mp hu).2
  · intro l hl u hu w hw
    rcases List.mem_cons.mp hu with rfl | hu
    · exact (hothers l hl w hw).symm
    · exact h.disjoint i l (Ne.symm hl) u (List.mem_filter.mp hu).1 w hw

theorem tx_rollback_of_ne (hne : j ≠ i) : (S.rollback i).tx j = S.tx j :=
  Function.update_of_ne hne ..

theorem tx_rollback_self : (S.rollback i).tx i = {} :=
  Function.update_self ..

theorem tx_rollback_cases : (S.rollback i).tx j = {} ∨ (j ≠ i ∧ (S.rollback i).tx j = S.tx j) := by
  by_cases hji : j = i
  · subst hji
    exact .inl tx_rollback_self
  · exact .inr ⟨hji, tx_rollback_of_ne hji⟩

theorem sound_rollback (h : S.Sound key) : (S.rollback i).Sound key where
  keys := h.keys
  support j hj := by
    rcases tx_rollback_cases (S := S) (i := i) (j := j) with heq | ⟨hji, heq⟩
    · exact heq
    · rw [heq]
      refine h.support j fun hmem => hj (List.mem_filter.mpr ⟨hmem, ?_⟩)
      simpa using hji
  exclusive j l k hj hl := by
    rcases tx_rollback_cases (S := S) (i := i) (j := j) with heq | ⟨-, heq⟩
    · rw [heq] at hj
      cases hj
    rcases tx_rollback_cases (S := S) (i := i) (j := l) with heq' | ⟨-, heq'⟩
    · rw [heq'] at hl
      cases hl
    rw [heq] at hj
    rw [heq'] at hl
    exact h.exclusive j l k hj hl
  locked j v hv hrow := by
    rcases tx_rollback_cases (S := S) (i := i) (j := j) with heq | ⟨-, heq⟩
    · rw [heq] at hv
      cases hv
    · rw [heq] at hv ⊢
      exact h.locked j v hv hrow
  distinct j := by
    rcases tx_rollback_cases (S := S) (i := i) (j := j) with heq | ⟨-, heq⟩
    · rw [heq]
      exact List.nodup_nil
    · rw [heq]
      exact h.distinct j
  disjoint j l hne v hv u hu := by
    rcases tx_rollback_cases (S := S) (i := i) (j := j) with heq | ⟨-, heq⟩
    · rw [heq] at hv
      cases hv
    rcases tx_rollback_cases (S := S) (i := i) (j := l) with heq' | ⟨-, heq'⟩
    · rw [heq'] at hu
      cases hu
    rw [heq] at hv
    rw [heq'] at hu
    exact h.disjoint j l hne v hv u hu

theorem sound_commit (h : S.Sound key) : (S.commit key i).Sound key := by
  have hrollback := sound_rollback (i := i) h
  refine { hrollback with keys := h.nodup_visible i, locked := ?_ }
  intro j v hv hrow
  have hv' : v ∈ ((S.rollback i).tx j).writes := hv
  rcases tx_rollback_cases (S := S) (i := i) (j := j) with heq | ⟨hji, heq⟩
  · rw [heq] at hv'
    cases hv'
  -- the key was there before: no other transaction has inserted it
  apply hrollback.locked j v hv'
  rw [heq] at hv'
  obtain ⟨u, hu, hkey⟩ := List.mem_map.mp hrow
  rcases h.mem_visible.mp hu with hu | ⟨hu, -⟩
  · exact absurd hkey.symm (h.disjoint j i hji v hv' u hu)
  · exact List.mem_map.mpr ⟨u, hu, hkey⟩

theorem Sound.not_written_of_free (h : S.Sound key) (hr : r ∈ S.visible key i)
    (hfree : S.lockedByOther i (key r) = false) (hne : l ≠ i) :
    ∀ u ∈ (S.tx l).writes, key u ≠ key r := by
  intro u hu hkey
  rcases h.mem_visible.mp hr with hr | ⟨hr, -⟩
  · exact h.disjoint l i hne u hu r hr hkey
  · have hrow : key u ∈ S.rows.map key := hkey ▸ List.mem_map_of_mem hr
    exact h.not_locked hfree hne (hkey ▸ h.locked l u hu hrow)

theorem sound_update (h : S.Sound key) (hr : S.version key i (key v) = some r)
    (hfree : S.lockedByOther i (key v) = false) : (S.update key i v).Sound key := by
  obtain ⟨hseen, hkey⟩ := h.version_eq_some.mp hr
  apply sound_write (sound_lock h hfree)
  · intro _
    rw [lock, tx_enter_self]
    exact List.mem_cons_self
  · intro l hl u hu
    rw [lock, tx_enter_of_ne hl] at hu
    rw [← hkey]
    exact h.not_written_of_free hseen (hkey ▸ hfree) hl u hu

theorem Sound.not_written_of_fresh (h : S.Sound key) (hfresh : S.fresh key k = true) :
    ∀ u ∈ (S.tx l).writes, key u ≠ k := by
  intro u hu hkey
  have hall : ∀ j ∈ S.opened, k ∉ (S.tx j).writes.map key := by
    simpa [fresh] using (of_decide_eq_true hfresh).2
  by_cases hopen : l ∈ S.opened
  · exact hall l hopen (List.mem_map.mpr ⟨u, hu, hkey⟩)
  · rw [h.support l hopen] at hu
    cases hu

theorem not_mem_rows_of_fresh (hfresh : S.fresh key k = true) : k ∉ S.rows.map key :=
  (of_decide_eq_true hfresh).1

theorem sound_insert (h : S.Sound key) (hfresh : S.fresh key (key v) = true) :
    (S.write key i v).Sound key :=
  sound_write h (fun hrow => absurd hrow (not_mem_rows_of_fresh hfresh))
    (fun _ _ => h.not_written_of_fresh hfresh)

/-! ### What the statements of a transaction leave as it is -/

@[simp] theorem rows_lock : (S.lock i k).rows = S.rows := rfl

@[simp] theorem rows_write : (S.write key i v).rows = S.rows := rfl

@[simp] theorem rows_update : (S.update key i v).rows = S.rows := rfl

@[simp] theorem rows_rollback : (S.rollback i).rows = S.rows := rfl

@[simp] theorem rows_commit : (S.commit key i).rows = S.visible key i := rfl

theorem writes_lock : ((S.lock i k).tx j).writes = (S.tx j).writes := by
  by_cases hji : j = i
  · subst hji
    rw [lock, tx_enter_self]
  · rw [lock, tx_enter_of_ne hji]

@[simp] theorem visible_lock : (S.lock i k).visible key j = S.visible key j := by
  rw [visible, writes_lock]
  rfl

theorem visible_write_of_ne (hne : j ≠ i) : (S.write key i v).visible key j = S.visible key j := by
  rw [visible, tx_write_of_ne hne]
  rfl

theorem visible_rollback_of_ne (hne : j ≠ i) : (S.rollback i).visible key j = S.visible key j := by
  rw [visible, tx_rollback_of_ne hne]
  rfl

theorem overlay_nil (rows : List ρ) : overlay key [] rows = rows := by
  simp [overlay]

theorem visible_of_no_writes (hnone : (S.tx i).writes = []) : S.visible key i = S.rows := by
  rw [visible, hnone, overlay_nil]

theorem mem_visible_write (h : S.Sound key) :
    u ∈ (S.write key i v).visible key i ↔ u = v ∨ (u ∈ S.visible key i ∧ key u ≠ key v) := by
  have hdistinct : (((S.write key i v).tx i).writes.map key).Nodup := by
    rw [write, tx_enter_self, List.map_cons, List.nodup_cons]
    refine ⟨fun hmem => ?_, (h.distinct i).sublist (List.filter_sublist.map key)⟩
    obtain ⟨u, hu, hkey⟩ := List.mem_map.mp hmem
    simpa [hkey] using (List.mem_filter.mp hu).2
  rw [visible, mem_overlay hdistinct, mem_writes_write, h.mem_visible]
  have hkeys : key u ∉ ((S.write key i v).tx i).writes.map key ↔
      key u ≠ key v ∧ key u ∉ (S.tx i).writes.map key := by
    simp only [List.mem_map, mem_writes_write]
    constructor
    · intro hnot
      refine ⟨fun heq => hnot ⟨v, .inl rfl, heq.symm⟩, ?_⟩
      rintro ⟨w, hw, hkey⟩
      by_cases hwv : key w = key v
      · exact hnot ⟨v, .inl rfl, hwv.symm.trans hkey⟩
      · exact hnot ⟨w, .inr ⟨hw, hwv⟩, hkey⟩
    · rintro ⟨hne, hnot⟩ ⟨w, rfl | ⟨hw, -⟩, hkey⟩
      · exact hne hkey.symm
      · exact hnot ⟨w, hw, hkey⟩
  rw [hkeys]
  show _ ∨ u ∈ S.rows ∧ _ ↔ _
  tauto

end Sound

/-! ## Unique indexes -/

/-- At most one row has each value of the index. -/
def UniqueOn (idx : ρ → Option β) (rows : List ρ) : Prop :=
  ∀ u ∈ rows, ∀ v ∈ rows, idx u ≠ none → idx u = idx v → u = v

/-- The index is unique in what is committed, in what every transaction sees, and across the
versions of two transactions. -/
structure Unique (idx : ρ → Option β) (S : Store Pid κ ρ) : Prop where
  committed : UniqueOn idx S.rows
  seen : ∀ i, UniqueOn idx (S.visible key i)
  written : ∀ i j, i ≠ j → ∀ u ∈ (S.tx i).writes, ∀ v ∈ (S.tx j).writes, idx u ≠ none →
    idx u ≠ idx v

section Unique

variable {key} [DecidableEq β] {idx : ρ → Option β}

theorem unique_of_closed (h : UniqueOn idx S.rows) (hnone : ∀ i, (S.tx i).writes = []) :
    S.Unique key idx where
  committed := h
  seen i := by rwa [visible_of_no_writes (hnone i)]
  written i j _ u hu := by
    rw [hnone i] at hu
    cases hu

theorem unique_lock (h : S.Unique key idx) : (S.lock i k).Unique key idx where
  committed := h.committed
  seen j := by
    rw [visible_lock]
    exact h.seen j
  written j l hne u hu v hv := by
    rw [writes_lock] at hu hv
    exact h.written j l hne u hu v hv

theorem ne_of_clear (hs : S.Sound key) (hclear : S.clear key idx i v = true) (hv : idx v ≠ none)
    (hne : l ≠ i) : ∀ u ∈ (S.tx l).writes, idx u ≠ idx v := by
  intro u hu
  by_cases hopen : l ∈ S.opened
  · have hall := (of_decide_eq_true hclear).resolve_left hv
    have hl : l = i ∨ ∀ u ∈ (S.tx l).writes, idx u ≠ idx v := by
      simpa using List.all_eq_true.mp hall.2 l hopen
    exact hl.resolve_left hne u hu
  · rw [hs.support l hopen] at hu
    cases hu

theorem seen_ne_of_clear (hclear : S.clear key idx i v = true) (hv : idx v ≠ none)
    (hu : u ∈ S.visible key i) (hne : key u ≠ key v) : idx u ≠ idx v := by
  have hall := (of_decide_eq_true hclear).resolve_left hv
  have hu' : key u = key v ∨ idx u ≠ idx v := by
    simpa using List.all_eq_true.mp hall.1 u hu
  exact hu'.resolve_left hne

/-- **A version that passes keeps the index unique.** -/
theorem unique_write (hs : S.Sound key) (h : S.Unique key idx)
    (hclear : S.clear key idx i v = true) : (S.write key i v).Unique key idx where
  committed := h.committed
  seen j := by
    by_cases hji : j = i
    · subst hji
      intro a ha b hb hsome heq
      rcases (mem_visible_write hs).mp ha with rfl | ⟨ha', hak⟩ <;>
        rcases (mem_visible_write hs).mp hb with rfl | ⟨hb', hbk⟩
      · rfl
      · exact absurd heq.symm (seen_ne_of_clear hclear hsome hb' hbk)
      · exact absurd heq (seen_ne_of_clear hclear (heq ▸ hsome) ha' hak)
      · exact h.seen j a ha' b hb' hsome heq
    · rw [visible_write_of_ne hji]
      exact h.seen j
  written j l hne u hu w hw hsome heq := by
    by_cases hji : j = i
    · subst hji
      rw [tx_write_of_ne (Ne.symm hne)] at hw
      rcases mem_writes_write.mp hu with rfl | ⟨hu, -⟩
      · exact ne_of_clear hs hclear hsome (Ne.symm hne) w hw heq.symm
      · exact h.written j l hne u hu w hw hsome heq
    · rw [tx_write_of_ne hji] at hu
      by_cases hli : l = i
      · subst hli
        rcases mem_writes_write.mp hw with rfl | ⟨hw, -⟩
        · exact ne_of_clear hs hclear (heq ▸ hsome) hji u hu heq
        · exact h.written j l hne u hu w hw hsome heq
      · rw [tx_write_of_ne hli] at hw
        exact h.written j l hne u hu w hw hsome heq

theorem unique_update (hs : S.Sound key) (h : S.Unique key idx)
    (hfree : S.lockedByOther i (key v) = false) (hclear : S.clear key idx i v = true) :
    (S.update key i v).Unique key idx := by
  apply unique_write (sound_lock hs hfree) (unique_lock h)
  rw [clear, decide_eq_true_eq] at hclear ⊢
  refine hclear.imp_right fun hall => ⟨by rw [visible_lock]; exact hall.1, ?_⟩
  rw [List.all_eq_true]
  intro l hl
  rw [writes_lock, decide_eq_true_eq]
  rcases mem_opened_enter.mp hl with rfl | hl
  · exact .inl rfl
  · simpa using List.all_eq_true.mp hall.2 l hl

theorem unique_rollback (h : S.Unique key idx) : (S.rollback i).Unique key idx where
  committed := h.committed
  seen j := by
    by_cases hji : j = i
    · subst hji
      rw [visible_of_no_writes (by rw [tx_rollback_self])]
      exact h.committed
    · rw [visible_rollback_of_ne hji]
      exact h.seen j
  written j l hne u hu v hv := by
    rcases tx_rollback_cases (S := S) (i := i) (j := j) with heq | ⟨-, heq⟩
    · rw [heq] at hu
      cases hu
    rcases tx_rollback_cases (S := S) (i := i) (j := l) with heq' | ⟨-, heq'⟩
    · rw [heq'] at hv
      cases hv
    rw [heq] at hu
    rw [heq'] at hv
    exact h.written j l hne u hu v hv

theorem mem_visible_commit (hs : S.Sound key) (hne : j ≠ i) :
    u ∈ (S.commit key i).visible key j ↔
      u ∈ (S.tx j).writes ∨ (u ∈ S.visible key i ∧ key u ∉ (S.tx j).writes.map key) := by
  have htx : (S.commit key i).tx j = S.tx j := tx_rollback_of_ne hne
  rw [(sound_commit hs).mem_visible, htx]
  rfl

/-- **A commit keeps the index unique.** -/
theorem unique_commit (hs : S.Sound key) (h : S.Unique key idx) : (S.commit key i).Unique key idx where
  committed := h.seen i
  seen j := by
    by_cases hji : j = i
    · subst hji
      rw [visible_of_no_writes (by rw [commit]; exact congrArg Tx.writes tx_rollback_self)]
      exact h.seen j
    -- a version of `j` against a row that `i` committed: written by `i`, or seen by `j` before
    have hmixed : ∀ a ∈ (S.tx j).writes, ∀ b ∈ S.visible key i, key b ∉ (S.tx j).writes.map key →
        idx a ≠ none → idx a ≠ idx b := by
      intro a ha b hb hbk hsome heq
      rcases hs.mem_visible.mp hb with hb | ⟨hb, -⟩
      · exact h.written j i hji a ha b hb hsome heq
      · have hseen := h.seen j a (hs.mem_visible.mpr (.inl ha)) b (hs.mem_visible.mpr (.inr ⟨hb, hbk⟩))
          hsome heq
        exact hbk (hseen ▸ List.mem_map_of_mem ha)
    intro a ha b hb hsome heq
    rcases (mem_visible_commit hs hji).mp ha with ha | ⟨ha, hak⟩ <;>
      rcases (mem_visible_commit hs hji).mp hb with hb | ⟨hb, hbk⟩
    · exact h.seen j a (hs.mem_visible.mpr (.inl ha)) b (hs.mem_visible.mpr (.inl hb)) hsome heq
    · exact absurd heq (hmixed a ha b hb hbk hsome)
    · exact absurd heq.symm (hmixed b hb a ha hak (heq ▸ hsome))
    · exact h.seen i a ha b hb hsome heq
  written := (unique_rollback (i := i) h).written

end Unique

/-! ## What rows become -/

/-- Every new version of a row is one the row may become. -/
def Forward (R : ρ → ρ → Prop) (S : Store Pid κ ρ) : Prop :=
  ∀ j, ∀ v ∈ (S.tx j).writes, ∀ r ∈ S.rows, key v = key r → R r v

/-- Every row is still there, as it was or as what it may become. -/
def Later (R : ρ → ρ → Prop) (rows rows' : List ρ) : Prop :=
  ∀ r ∈ rows, ∃ r' ∈ rows', key r' = key r ∧ R r r'

section Forward

variable {key} {R : ρ → ρ → Prop}

theorem later_refl (hrefl : ∀ r, R r r) (rows : List ρ) : Later key R rows rows :=
  fun r hr => ⟨r, hr, rfl, hrefl r⟩

theorem Later.trans (htrans : ∀ a b c, R a b → R b c → R a c) {rows' rows'' : List ρ}
    (h : Later key R rows rows') (h' : Later key R rows' rows'') : Later key R rows rows'' := by
  intro r hr
  obtain ⟨r', hr', hkey, hR⟩ := h r hr
  obtain ⟨r'', hr'', hkey', hR'⟩ := h' r' hr'
  exact ⟨r'', hr'', hkey'.trans hkey, htrans _ _ _ hR hR'⟩

theorem forward_lock (h : S.Forward key R) : (S.lock i k).Forward key R := by
  intro j v hv
  rw [writes_lock] at hv
  exact h j v hv

theorem forward_write (h : S.Forward key R) (hv : ∀ r ∈ S.rows, key v = key r → R r v) :
    (S.write key i v).Forward key R := by
  intro j u hu
  by_cases hji : j = i
  · subst hji
    rcases mem_writes_write.mp hu with rfl | ⟨hu, -⟩
    · exact hv
    · exact h j u hu
  · rw [tx_write_of_ne hji] at hu
    exact h j u hu

theorem forward_update (hs : S.Sound key) (h : S.Forward key R) (hrefl : ∀ r, R r r)
    (htrans : ∀ a b c, R a b → R b c → R a c) (hr : S.version key i (key v) = some r) (hR : R r v) :
    (S.update key i v).Forward key R := by
  apply forward_write (forward_lock h)
  intro row hrow hkey
  obtain ⟨hseen, hkey'⟩ := hs.version_eq_some.mp hr
  refine htrans _ _ _ ?_ hR
  rcases hs.mem_visible.mp hseen with hseen | ⟨hseen, -⟩
  · exact h i r hseen row hrow (hkey'.trans hkey)
  · rw [List.inj_on_of_nodup_map hs.keys hrow hseen (hkey.symm.trans hkey'.symm)]
    exact hrefl r

theorem forward_rollback (h : S.Forward key R) : (S.rollback i).Forward key R := by
  intro j v hv
  rcases tx_rollback_cases (S := S) (i := i) (j := j) with heq | ⟨-, heq⟩
  · rw [heq] at hv
    cases hv
  · rw [heq] at hv
    exact h j v hv

theorem forward_commit (hs : S.Sound key) (h : S.Forward key R) : (S.commit key i).Forward key R := by
  intro j v hv r hr hkey
  have hv' : v ∈ ((S.rollback i).tx j).writes := hv
  rcases tx_rollback_cases (S := S) (i := i) (j := j) with heq | ⟨hji, heq⟩
  · rw [heq] at hv'
    cases hv'
  rw [heq] at hv'
  rcases hs.mem_visible.mp hr with hr | ⟨hr, -⟩
  · exact absurd hkey (hs.disjoint j i hji v hv' r hr)
  · exact h j v hv' r hr hkey

/-- **A commit makes of every row what it may become.** -/
theorem later_commit (hs : S.Sound key) (h : S.Forward key R) (hrefl : ∀ r, R r r) :
    Later key R S.rows (S.commit key i).rows := by
  intro r hr
  by_cases hwritten : key r ∈ (S.tx i).writes.map key
  · obtain ⟨v, hv, hkey⟩ := List.mem_map.mp hwritten
    exact ⟨v, hs.mem_visible.mpr (.inl hv), hkey, h i v hv r hr hkey⟩
  · exact ⟨r, hs.mem_visible.mpr (.inr ⟨hr, hwritten⟩), rfl, hrefl r⟩

end Forward

end Store
