import Moira.Lib.Store

/-!
# Statements that write several rows

A statement replaces rows that its transaction sees, or adds new ones.

- `Store.put` — one row version; `Store.ready` says when it need not wait
- `Store.putAll` — the versions of a statement one after another, each of which has to pass the
  indexes of the table
- `Store.Everywhere` — with one writer at a time, what every transaction sees is committed as it is
  seen
-/

set_option linter.unusedSectionVars false

namespace Store

variable {Pid κ ρ β : Type} [DecidableEq Pid] [DecidableEq κ] (key : ρ → κ)

/-- The row is there and nobody else has it locked, or nobody else has one with its key. -/
def ready (S : Store Pid κ ρ) (i : Pid) (v : ρ) : Bool :=
  if key v ∈ (S.visible key i).map key then !S.lockedByOther i (key v) else S.fresh key (key v)

def put (S : Store Pid κ ρ) (i : Pid) (v : ρ) : Store Pid κ ρ :=
  if key v ∈ (S.visible key i).map key then S.update key i v else S.write key i v

/-- Another row that the transaction sees has the value of the index. -/
def taken [DecidableEq β] (idx : ρ → Option β) (S : Store Pid κ ρ) (i : Pid) (v : ρ) : Bool :=
  (idx v).isSome && (S.visible key i).any fun u => key u ≠ key v && idx u = idx v

/-- Write the versions one after another; `none` when one of them has to wait or is refused. -/
def putAll (pass : Store Pid κ ρ → Pid → ρ → Bool) (i : Pid) :
    Store Pid κ ρ → List ρ → Option (Store Pid κ ρ)
  | S, [] => some S
  | S, v :: vs => if S.ready key i v && pass S i v then putAll pass i (S.put key i v) vs else none

variable {S S' : Store Pid κ ρ}

variable {i j : Pid} {v : ρ}

section

variable {key} {l : Pid} {u : ρ}

theorem exists_version (hs : S.Sound key) (hseen : key v ∈ (S.visible key i).map key) :
    ∃ r, S.version key i (key v) = some r := by
  obtain ⟨r, hr, hkey⟩ := List.mem_map.mp hseen
  exact ⟨r, hs.version_eq_some.mpr ⟨hr, hkey⟩⟩

theorem lockedByOther_of_ready (h : S.ready key i v = true)
    (hseen : key v ∈ (S.visible key i).map key) : S.lockedByOther i (key v) = false := by
  simpa [ready, hseen] using h

theorem fresh_of_ready (h : S.ready key i v = true)
    (hseen : key v ∉ (S.visible key i).map key) : S.fresh key (key v) = true := by
  simpa [ready, hseen] using h

theorem writes_put : ((S.put key i v).tx j).writes = ((S.write key i v).tx j).writes := by
  unfold put
  split
  · by_cases hji : j = i
    · subst hji
      simp only [update, write, tx_enter_self, writes_lock]
    · rw [update, tx_write_of_ne hji, tx_write_of_ne hji, writes_lock]
  · rfl

@[simp] theorem rows_put : (S.put key i v).rows = S.rows := by
  unfold put
  split <;> rfl

theorem visible_put : (S.put key i v).visible key j = (S.write key i v).visible key j := by
  rw [visible, visible, writes_put, rows_put]
  rfl

theorem tx_put_of_ne (hne : j ≠ i) : (S.put key i v).tx j = S.tx j := by
  unfold put
  split
  · rw [update, tx_write_of_ne hne, lock, tx_enter_of_ne hne]
  · rw [tx_write_of_ne hne]

theorem sound_put (hs : S.Sound key) (hready : S.ready key i v = true) :
    (S.put key i v).Sound key := by
  unfold put
  split
  · next hseen =>
    obtain ⟨r, hr⟩ := exists_version hs hseen
    exact sound_update hs hr (lockedByOther_of_ready hready hseen)
  · next hseen => exact sound_insert hs (fresh_of_ready hready hseen)

theorem mem_visible_put (hs : S.Sound key) :
    u ∈ (S.put key i v).visible key i ↔ u = v ∨ (u ∈ S.visible key i ∧ key u ≠ key v) := by
  rw [visible_put]
  exact mem_visible_write hs

theorem mem_writes_put :
    u ∈ ((S.put key i v).tx i).writes ↔ u = v ∨ (u ∈ (S.tx i).writes ∧ key u ≠ key v) := by
  rw [writes_put]
  exact mem_writes_write

theorem unique_put [DecidableEq β] {idx : ρ → Option β} (hs : S.Sound key) (h : S.Unique key idx)
    (hready : S.ready key i v = true) (hclear : S.clear key idx i v = true) :
    (S.put key i v).Unique key idx := by
  unfold put
  split
  · next hseen => exact unique_update hs h (lockedByOther_of_ready hready hseen) hclear
  · exact unique_write hs h hclear

theorem forward_put {R : ρ → ρ → Prop} (hs : S.Sound key) (h : S.Forward key R)
    (hrefl : ∀ r, R r r) (htrans : ∀ a b c, R a b → R b c → R a c)
    (hready : S.ready key i v = true) (hR : ∀ r ∈ S.visible key i, key r = key v → R r v) :
    (S.put key i v).Forward key R := by
  unfold put
  split
  · next hseen =>
    obtain ⟨r, hr⟩ := exists_version hs hseen
    obtain ⟨hmem, hkey⟩ := hs.version_eq_some.mp hr
    exact forward_update hs h hrefl htrans hr (hR r hmem hkey)
  · next hseen =>
    apply forward_write h
    intro r hr hkey
    exact absurd (hkey ▸ List.mem_map_of_mem hr)
      (not_mem_rows_of_fresh (fresh_of_ready hready hseen))

end

variable {pass : Store Pid κ ρ → Pid → ρ → Bool}

section putAll

variable {key} {vs : List ρ}

theorem putAll_cons (h : putAll key pass i S (v :: vs) = some S') :
    S.ready key i v = true ∧ pass S i v = true ∧
      putAll key pass i (S.put key i v) vs = some S' := by
  simp only [putAll] at h
  split at h
  · next hpass =>
    rw [Bool.and_eq_true] at hpass
    exact ⟨hpass.1, hpass.2, h⟩
  · cases h

/-- **What every version that passes keeps, the statement keeps.** -/
theorem putAll_invariant {I : Store Pid κ ρ → Prop} (h : putAll key pass i S vs = some S') (hI : I S)
    (hput : ∀ S v, v ∈ vs → I S → S.ready key i v = true → pass S i v = true → I (S.put key i v)) :
    I S' := by
  induction vs generalizing S with
  | nil => exact Option.some.inj h ▸ hI
  | cons v vs ih =>
    obtain ⟨hready, hpass, hrest⟩ := putAll_cons h
    exact ih hrest (hput S v List.mem_cons_self hI hready hpass)
      fun S u hu => hput S u (List.mem_cons_of_mem _ hu)

theorem sound_putAll (hs : S.Sound key) (h : putAll key pass i S vs = some S') : S'.Sound key :=
  putAll_invariant h hs fun _ _ _ hs hready _ => sound_put hs hready

theorem rows_putAll (h : putAll key pass i S vs = some S') : S'.rows = S.rows :=
  putAll_invariant (I := fun S' => S'.rows = S.rows) h rfl
    fun _ _ _ hI _ _ => by rw [rows_put, hI]

theorem tx_putAll_of_ne (h : putAll key pass i S vs = some S') (hne : j ≠ i) : S'.tx j = S.tx j :=
  putAll_invariant (I := fun S' => S'.tx j = S.tx j) h rfl
    fun _ _ _ hI _ _ => by rw [tx_put_of_ne hne, hI]

theorem visible_putAll_of_ne (h : putAll key pass i S vs = some S') (hne : j ≠ i) :
    S'.visible key j = S.visible key j := by
  rw [visible, visible, tx_putAll_of_ne h hne, rows_putAll h]

theorem unique_putAll [DecidableEq β] {idx : ρ → Option β} (hs : S.Sound key)
    (hunique : S.Unique key idx) (h : putAll key pass i S vs = some S')
    (hclear : ∀ S v, pass S i v = true → S.clear key idx i v = true) : S'.Unique key idx := by
  have hboth : S'.Sound key ∧ S'.Unique key idx :=
    putAll_invariant (I := fun S => S.Sound key ∧ S.Unique key idx) h ⟨hs, hunique⟩
      fun S v _ hI hready hpass =>
        ⟨sound_put hI.1 hready, unique_put hI.1 hI.2 hready (hclear S v hpass)⟩
  exact hboth.2

theorem mem_visible_putAll (hs : S.Sound key) (hdistinct : (vs.map key).Nodup)
    (h : putAll key pass i S vs = some S') {u : ρ} :
    u ∈ S'.visible key i ↔ u ∈ vs ∨ (u ∈ S.visible key i ∧ key u ∉ vs.map key) := by
  induction vs generalizing S with
  | nil =>
    obtain rfl : S = S' := Option.some.inj h
    simp
  | cons v vs ih =>
    obtain ⟨hready, hpass, hrest⟩ := putAll_cons h
    rw [List.map_cons, List.nodup_cons] at hdistinct
    rw [ih (sound_put hs hready) hdistinct.2 hrest, mem_visible_put hs, List.map_cons]
    constructor
    · rintro (hu | ⟨rfl | ⟨hu, hne⟩, hnot⟩)
      · exact .inl (List.mem_cons_of_mem _ hu)
      · exact .inl List.mem_cons_self
      · exact .inr ⟨hu, by simp only [List.mem_cons, not_or]; exact ⟨hne, hnot⟩⟩
    · rintro (hu | ⟨hu, hnot⟩)
      · rcases List.mem_cons.mp hu with rfl | hu
        · exact .inr ⟨.inl rfl, hdistinct.1⟩
        · exact .inl hu
      · simp only [List.mem_cons, not_or] at hnot
        exact .inr ⟨.inr ⟨hu, hnot.1⟩, hnot.2⟩

theorem mem_writes_putAll (h : putAll key pass i S vs = some S') {u : ρ}
    (hu : u ∈ (S'.tx i).writes) : u ∈ vs ∨ u ∈ (S.tx i).writes := by
  have hall : ∀ u ∈ (S'.tx i).writes, u ∈ vs ∨ u ∈ (S.tx i).writes := by
    refine putAll_invariant (I := fun S' => ∀ u ∈ (S'.tx i).writes, u ∈ vs ∨ u ∈ (S.tx i).writes) h
      (fun u hu => .inr hu) fun S v hv hI _ _ u hu => ?_
    rcases mem_writes_put.mp hu with rfl | ⟨hu, -⟩
    · exact .inl hv
    · exact hI u hu
  exact hall u hu

theorem writes_putAll_singleton (h : putAll key pass i S [v] = some S')
    (hnone : (S.tx i).writes = []) : (S'.tx i).writes = [v] := by
  obtain ⟨-, -, hrest⟩ := putAll_cons h
  obtain rfl : S.put key i v = S' := Option.some.inj hrest
  rw [writes_put, write, tx_enter_self, hnone]
  rfl

theorem forward_putAll {R : ρ → ρ → Prop} (hs : S.Sound key) (hforward : S.Forward key R)
    (hrefl : ∀ r, R r r) (htrans : ∀ a b c, R a b → R b c → R a c) (hdistinct : (vs.map key).Nodup)
    (h : putAll key pass i S vs = some S')
    (hR : ∀ v ∈ vs, ∀ r ∈ S.visible key i, key r = key v → R r v) : S'.Forward key R := by
  induction vs generalizing S with
  | nil => exact Option.some.inj h ▸ hforward
  | cons v vs ih =>
    obtain ⟨hready, hpass, hrest⟩ := putAll_cons h
    rw [List.map_cons, List.nodup_cons] at hdistinct
    refine ih (sound_put hs hready)
      (forward_put hs hforward hrefl htrans hready (hR v List.mem_cons_self)) hdistinct.2 hrest ?_
    intro u hu r hr hkey
    rcases (mem_visible_put hs).mp hr with rfl | ⟨hr, -⟩
    · exact absurd (hkey ▸ List.mem_map_of_mem hu) hdistinct.1
    · exact hR u (List.mem_cons_of_mem _ hu) r hr hkey

end putAll

section

variable {key}

theorem mem_commit_of_written (hs : S.Sound key) (hne : j ≠ i) {r : ρ} (hv : v ∈ (S.tx j).writes)
    (hr : r ∈ S.rows) (hkey : key r = key v) : r ∈ (S.commit key i).rows := by
  refine hs.mem_visible.mpr (.inr ⟨hr, fun hmem => ?_⟩)
  obtain ⟨u, hu, hkey'⟩ := List.mem_map.mp hmem
  exact hs.disjoint i j (Ne.symm hne) u hu v hv (hkey'.trans hkey)

end

/-! ## One writer at a time -/

/-- At most one transaction has written. -/
def OneWriter (S : Store Pid κ ρ) : Prop :=
  ∀ i j, (S.tx i).writes ≠ [] → (S.tx j).writes ≠ [] → i = j

/-- What is committed, and what every transaction sees, satisfies `P`. -/
structure Everywhere (P : List ρ → Prop) (S : Store Pid κ ρ) : Prop where
  committed : P S.rows
  seen : ∀ i, P (S.visible key i)

section Everywhere

variable {key} {P : List ρ → Prop} {vs : List ρ}

theorem everywhere_of_closed (h : P S.rows) (hnone : ∀ i, (S.tx i).writes = []) :
    S.Everywhere key P where
  committed := h
  seen i := by rwa [visible_of_no_writes (hnone i)]

theorem everywhere_rollback (h : S.Everywhere key P) : (S.rollback i).Everywhere key P where
  committed := h.committed
  seen j := by
    by_cases hji : j = i
    · subst hji
      rw [visible_of_no_writes (by rw [tx_rollback_self])]
      exact h.committed
    · rw [visible_rollback_of_ne hji]
      exact h.seen j

theorem everywhere_commit (hone : S.OneWriter) (h : S.Everywhere key P) :
    (S.commit key i).Everywhere key P where
  committed := h.seen i
  seen j := by
    by_cases hnone : (((S.commit key i).tx j).writes) = []
    · rw [visible_of_no_writes hnone]
      exact h.seen i
    · have hji : j ≠ i := by
        rintro rfl
        exact hnone (congrArg Tx.writes tx_rollback_self)
      have htx : (S.commit key i).tx j = S.tx j := tx_rollback_of_ne hji
      have hi : (S.tx i).writes = [] := by
        by_contra hwrites
        rw [htx] at hnone
        exact hji (hone j i hnone hwrites)
      rw [visible, htx, rows_commit, visible_of_no_writes hi]
      exact h.seen j

theorem everywhere_putAll (h : S.Everywhere key P) (hput : putAll key pass i S vs = some S')
    (hP : P (S'.visible key i)) : S'.Everywhere key P where
  committed := by
    rw [rows_putAll hput]
    exact h.committed
  seen j := by
    by_cases hji : j = i
    · rwa [hji]
    · rw [visible_putAll_of_ne hput hji]
      exact h.seen j

end Everywhere

end Store
