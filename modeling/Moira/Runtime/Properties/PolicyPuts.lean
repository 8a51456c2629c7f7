import Mathlib.Tactic.Common
import Moira.Runtime.PolicyPuts

/-!
# What `If-Match` guards

**`puts_with_one_version`**
-/

namespace Moira

open Prog System Transition

/-! ## What one call does -/

/-- What a call knows of itself. -/
structure PutGhost where
  read : Option Int := none
  updated : Bool := false
  wrote : Bool := false

def PutGhost.next (g : PutGhost) : (o : PutOp) → o.Ans → PutGhost
  | .get, .ok shown => { g with read := some shown.version }
  | .upsert _, written => { g with wrote := g.wrote || written.committed }
  | .selectVersionForUpdate, .ok version => { g with read := some version }
  | .update _ _, .ok (some _) => { g with updated := true }
  | .commit, ended => { g with wrote := g.wrote || ended.committed }
  | _, _ => g

/-- The table is one whose rows are locked. -/
def PutCall.locks (call : PutCall) : Prop :=
  call.table = .applicationExecutionPolicies

def PutMay (call : PutCall) (g : PutGhost) : PutOp → Prop
  | .get => ¬call.locks ∧ g = {}
  | .upsert _ => ¬call.locks ∧ g.wrote = false ∧ ∃ v, g.read = some v ∧ call.expectedVersion = some v
  | .insertDefault | .selectVersionForUpdate => call.locks ∧ g = {}
  | .update _ currentVersion => call.locks ∧ g = { read := some currentVersion } ∧
      ∀ e, call.expectedVersion = some e → e = currentVersion
  | .commit => call.locks ∧ g.updated = true ∧ g.wrote = false
  | _ => True

/-- A row that cannot be read is not reported as one that is missing. -/
def PutAnswers : (o : PutOp) → o.Ans → Prop
  | .get, .error err => err = .sqlx
  | _, _ => True

/-- A call writes only after it has read the version it was sent. -/
def putContract (call : PutCall) : Contract putSig PutGhost where
  may := PutMay call
  answers _ := PutAnswers
  next := PutGhost.next

variable {o : PutOp}

section

variable {call : PutCall} {g : PutGhost} {ε α β : Type}

abbrev Puts (call : PutCall) (p : Prog putSig ε α) (g : PutGhost) (Q : PutGhost → α → Prop) : Prop :=
  p.wp (putContract call) g Q (fun _ _ => True)

theorem puts_ofExcept {result : Except ε α} {f : α → Prog putSig ε β} {Q : PutGhost → β → Prop}
    (hf : ∀ a, result = .ok a → Puts call (f a) g Q) : Puts call (ofExcept result >>= f) g Q :=
  wp_ofExcept_bind hf fun _ _ => trivial

theorem puts_statement {h : o.Ans = Except AppError α} {f : α → Prog putSig AppError β}
    {Q : PutGhost → β → Prop} (hmay : PutMay call g o)
    (hf : ∀ (x : o.Ans) (a : α), h ▸ x = Except.ok a → Puts call (f a) (g.next o x) Q) :
    Puts call (putStatement o h >>= f) g Q := by
  refine ⟨hmay, fun x _ => ?_⟩
  exact puts_ofExcept fun a ha => hf x a ha

theorem checkVersion_eq_ok {expected : Option Int} {found : Except AppError StoredPolicy}
    (h : checkVersion expected found = .ok ()) (hanswer : PutAnswers .get found) :
    ∃ existing, found = .ok existing ∧ expected = some existing.version := by
  cases found with
  | error err =>
    obtain rfl : err = .sqlx := hanswer
    cases h
  | ok existing =>
    cases expected with
    | none => cases h
    | some e =>
      simp only [checkVersion] at h
      split at h
      · next hversion => exact ⟨existing, rfl, congrArg some hversion.symm⟩
      · cases h

theorem puts_underCheck (validate : PutRequest → Except AppError Unit) (scope : String)
    (h : ¬call.locks) : Puts call (putUnderCheck validate scope call) {} fun _ _ => True := by
  unfold putUnderCheck
  refine puts_ofExcept fun _ _ => ?_
  refine puts_statement trivial fun _ replay _ => ?_
  cases replay with
  | some record => trivial
  | none =>
    refine puts_ofExcept fun _ _ => ?_
    refine ⟨⟨h, rfl⟩, fun found hanswer => ?_⟩
    refine puts_ofExcept fun _ hcheck => ?_
    -- the row that was read has the version of the request
    obtain ⟨existing, rfl, hexpected⟩ := checkVersion_eq_ok hcheck hanswer
    refine ⟨⟨h, rfl, existing.version, rfl, hexpected⟩, fun written _ => ?_⟩
    refine puts_ofExcept fun record _ => ?_
    exact puts_statement trivial fun _ _ _ => trivial

theorem puts_lockedUpdate (h : call.locks) :
    Puts call (lockedUpdate call) {} fun g' _ => g'.updated = true ∧ g'.wrote = false := by
  unfold lockedUpdate
  refine puts_statement ⟨h, rfl⟩ fun inserted _ _ => ?_
  have hnext : PutGhost.next {} .insertDefault inserted = {} := by cases inserted <;> rfl
  rw [hnext]
  refine puts_statement ⟨h, rfl⟩ fun found version hfound => ?_
  obtain rfl : found = .ok version := hfound
  split
  · trivial
  · next hversion =>
    have hexpected : ∀ e, call.expectedVersion = some e → e = version := by
      intro e he
      simpa [he] using hversion
    refine puts_statement ⟨h, rfl, hexpected⟩ fun stored record hstored => ?_
    obtain rfl : stored = .ok record := hstored
    cases record with
    | none => trivial
    | some record => exact ⟨rfl, rfl⟩

theorem puts_underLock (validate : PutRequest → Except AppError Unit) (scope : String)
    (h : call.locks) : Puts call (putUnderLock validate scope call) {} fun _ _ => True := by
  unfold putUnderLock
  refine puts_ofExcept fun _ _ => ?_
  refine puts_ofExcept fun _ _ => ?_
  refine puts_statement trivial fun begun _ _ => ?_
  have hnext : PutGhost.next {} .begin begun = {} := by cases begun <;> rfl
  rw [hnext]
  refine wp_bind_mono (P := fun g' result => ∀ record, result = .ok record →
    g'.updated = true ∧ g'.wrote = false) (wp_attempt.mpr ?_) fun g' result hg => ?_
  · refine wp_mono (puts_lockedUpdate h) (fun g' _ hg _ _ => hg) fun _ _ _ _ hrecord => ?_
    cases hrecord
  · cases result with
    | error err => exact ⟨trivial, fun _ _ => trivial⟩
    | ok record =>
      refine ⟨⟨h, hg record rfl⟩, fun ended _ => ?_⟩
      refine puts_ofExcept fun _ _ => ?_
      exact puts_statement trivial fun _ _ _ => trivial

/-- **Every call** keeps its contract. -/
theorem puts_code (encodedBytes : Json → Nat) :
    Puts call (call.code encodedBytes) {} fun _ next => next = none := by
  unfold PutCall.code
  refine wp_bind_mono (P := fun _ _ => True) (wp_attempt.mpr ?_) fun _ _ _ =>
    ⟨trivial, fun _ _ => rfl⟩
  cases htable : call.table with
  | providerRuntimePolicies => exact puts_underCheck _ _ (by simp [PutCall.locks, htable])
  | applicationRoutingDefaults => exact puts_underCheck _ _ (by simp [PutCall.locks, htable])
  | applicationExecutionPolicies => exact puts_underLock _ _ htable

end

/-! ## What a statement does -/

def PutNote.ghost (note : PutNote) : PutGhost where
  read := note.read.map Prod.fst
  updated := note.updated
  wrote := note.wrote

variable {i : Nat}

variable {calls : Nat → PutCall} {w' : PutWorld}

variable {id : Nat} {w : PutWorld}

section

variable {x : o.Ans}

@[simp] theorem PutWorld.notes_note (w : PutWorld) (id : Nat) (note : PutNote) (i : Nat) :
    (w.note id note).notes i = if i = id then note else w.notes i := by
  by_cases h : i = id <;> simp [PutWorld.note, h]

@[simp] theorem PutWorld.cells_note (w : PutWorld) (id : Nat) (note : PutNote) :
    (w.note id note).cells = w.cells := rfl

@[simp] theorem PutWorld.notes_setCell (w : PutWorld) (id : Nat) (cell : PolicyCell) :
    (w.setCell calls id cell).notes = w.notes := rfl

/-- The row a call is about. -/
def keyOf (calls : Nat → PutCall) (id : Nat) : PolicyTable × Uuid :=
  ((calls id).table, (calls id).owner)

/-- What a statement does to the rows and to what is noted. -/
inductive PutEffect (calls : Nat → PutCall) (id : Nat) (w : PutWorld) : PutOp → PutWorld → Prop
  | skip {o : PutOp} : PutEffect calls id w o w
  | get : PutEffect calls id w .get
      (w.note id { w.notes id with
        read := some (((calls id).table.shown (w.cell calls id).row).version, (w.cell calls id).row.isSome) })
  | upsert (request : PutRequest) : PutEffect calls id w (.upsert request)
      ((w.setCell calls id { w.cell calls id with
        row := some ((calls id).table.upserted (w.cell calls id).row request) }).note id
          { w.notes id with wrote := true })
  | insertDefault (hrow : (w.cell calls id).row = none) (hlock : (w.cell calls id).lockable id = true) :
      PutEffect calls id w .insertDefault
        (w.setCell calls id { w.cell calls id with
          holder := some id, pending := some ((calls id).table.inserted []) })
  | select (row : StoredPolicy) (hvisible : (w.cell calls id).visible = some row)
      (hlock : (w.cell calls id).lockable id = true) : PutEffect calls id w .selectVersionForUpdate
        ((w.setCell calls id { w.cell calls id with holder := some id }).note id
          { w.notes id with read := some (row.version, (w.cell calls id).row.isSome) })
  | update (request : PutRequest) (row : StoredPolicy) (hvisible : (w.cell calls id).visible = some row)
      (hholder : (w.cell calls id).holder = some id) : PutEffect calls id w (.update request row.version)
        ((w.setCell calls id { w.cell calls id with pending := some (row.updated request) }).note id
          { w.notes id with updated := true })
  | commit (hholder : (w.cell calls id).holder = some id) : PutEffect calls id w .commit
      ((w.setCell calls id (w.cell calls id).committed).note id { w.notes id with wrote := true })
  | rollBack {o : PutOp} (hholder : (w.cell calls id).holder = some id) :
      PutEffect calls id w o (w.setCell calls id (w.cell calls id).rolledBack)
  | respond (result : Except AppError StoredPolicy) : PutEffect calls id w (.respond result)
      (w.note id { w.notes id with answer := some result })

/-- **Every answer** that the tables can give has one of these effects. -/
theorem effect_of_grantPut (h : grantPut calls id w o x = some w') :
    PutEffect calls id w o w' ∧ (w'.notes id).ghost = (w.notes id).ghost.next o x := by
  cases o with
  | idempotencyReplay => cases h; exact ⟨.skip, rfl⟩
  | recordIdempotency record => cases h; exact ⟨.skip, rfl⟩
  | begin => cases h; exact ⟨.skip, rfl⟩
  | audit => cases h; exact ⟨.skip, rfl⟩
  | respond result => cases h; exact ⟨.respond result, by simp [PutNote.ghost, PutGhost.next]⟩
  | get =>
    cases x with
    | error err =>
      simp only [grantPut] at h
      split at h
      · cases h; exact ⟨.skip, rfl⟩
      · cases h
    | ok shown =>
      simp only [grantPut] at h
      split at h
      · next hshown =>
        cases h
        subst hshown
        exact ⟨.get, by simp [PutNote.ghost, PutGhost.next]⟩
      · cases h
  | upsert request =>
    obtain ⟨result, committed⟩ := x
    simp only [grantPut] at h
    split at h
    · split at h
      · cases h; exact ⟨.upsert request, by simp [PutNote.ghost, PutGhost.next]⟩
      · cases h
    · cases h
    · cases h; exact ⟨.upsert request, by simp [PutNote.ghost, PutGhost.next]⟩
    · cases h; exact ⟨.skip, by simp [PutNote.ghost, PutGhost.next]⟩
  | insertDefault =>
    cases x with
    | error err => cases h; exact ⟨.skip, rfl⟩
    | ok u =>
      simp only [grantPut] at h
      split at h
      · cases h; exact ⟨.skip, rfl⟩
      · next hrow =>
        split at h
        · next hlock =>
          cases h
          exact ⟨.insertDefault (by simpa using hrow) hlock, rfl⟩
        · cases h
  | selectVersionForUpdate =>
    cases x with
    | error err => cases h; exact ⟨.skip, rfl⟩
    | ok version =>
      simp only [grantPut] at h
      split at h
      · next row hvisible =>
        split at h
        · next hlock =>
          obtain ⟨hlock, rfl⟩ := hlock
          cases h
          exact ⟨.select row hvisible hlock, by simp [PutNote.ghost, PutGhost.next]⟩
        · cases h
      · cases h
  | update request currentVersion =>
    cases x with
    | error err => cases h; exact ⟨.skip, rfl⟩
    | ok updated =>
      simp only [grantPut] at h
      split at h
      · next row hvisible =>
        split at h
        · next hholder =>
          split at h
          · next hversion =>
            subst hversion
            split at h
            · next hupdated => subst hupdated; cases h; exact ⟨.update request row hvisible
                hholder, by simp [PutNote.ghost, PutGhost.next]⟩
            · cases h
          · split at h
            · next hupdated => subst hupdated; cases h; exact ⟨.skip, rfl⟩
            · cases h
        · cases h
      · cases h
  | commit =>
    obtain ⟨result, committed⟩ := x
    simp only [grantPut] at h
    split at h
    · split at h
      · next hholder => cases h; exact ⟨.commit hholder, by simp [PutNote.ghost, PutGhost.next]⟩
      · cases h
    · split at h
      · next hholder => cases h; exact ⟨.commit hholder, by simp [PutNote.ghost, PutGhost.next]⟩
      · cases h
    · cases h
    · split at h
      · next hholder => cases h; exact ⟨.rollBack hholder, by simp [PutNote.ghost, PutGhost.next]⟩
      · cases h; exact ⟨.skip, by simp [PutNote.ghost, PutGhost.next]⟩
  | rollback =>
    simp only [grantPut] at h
    split at h
    · next hholder => cases h; exact ⟨.rollBack hholder, by simp [PutNote.ghost, PutGhost.next]⟩
    · cases h; exact ⟨.skip, rfl⟩

theorem PutWorld.cells_setCell (w : PutWorld) (id : Nat) (cell : PolicyCell) (key : PolicyTable × Uuid) :
    (w.setCell calls id cell).cells key = if key = keyOf calls id then cell else w.cells key := by
  by_cases h : key = keyOf calls id
  · subst h
    simp [PutWorld.setCell, keyOf]
  · rw [if_neg h]
    simp only [PutWorld.setCell]
    exact Function.update_of_ne h ..

theorem PutEffect.notes_of_ne (h : PutEffect calls id w o w') (hi : i ≠ id) :
    w'.notes i = w.notes i := by
  cases h <;> simp [hi]

end

/-! ## The versions of the rows -/

namespace PolicyCell

/-- There is a row, and it has this version or a later one. -/
def AtLeast (cell : PolicyCell) (v : Int) : Prop :=
  ∃ row, cell.row = some row ∧ v ≤ row.version

end PolicyCell

/-- What the calls have read and written, and the versions of the rows. -/
structure PutInv (calls : Nat → PutCall) (w : PutWorld) : Prop where
  holder : ∀ key i, (w.cells key).holder = some i → key = keyOf calls i ∧ (calls i).locks
  free : ∀ key, (w.cells key).holder = none → (w.cells key).pending = none
  seen : ∀ i v, (w.notes i).read = some (v, true) → (w.cells (keyOf calls i)).AtLeast v
  wrote : ∀ i, (w.notes i).wrote = true → ∀ v b, (w.notes i).read = some (v, b) →
    b = true ∨ (calls i).locks → (w.cells (keyOf calls i)).AtLeast (v + 1)
  expects : ∀ i, (w.notes i).updated = true ∨ (w.notes i).wrote = true →
    ∃ v b, (w.notes i).read = some (v, b) ∧ ∀ e, (calls i).expectedVersion = some e → e = v
  unlocked : ∀ i, ¬(calls i).locks → (w.notes i).wrote = true →
    (calls i).expectedVersion = (w.notes i).read.map Prod.fst
  locked : ∀ i v b, (calls i).locks → (w.notes i).read = some (v, b) →
    (w.cells (keyOf calls i)).holder = some i →
    ∀ row, (w.cells (keyOf calls i)).row = some row → row.version = v
  pending : ∀ i, (w.notes i).updated = true → (w.cells (keyOf calls i)).holder = some i →
    ∃ row v b, (w.cells (keyOf calls i)).pending = some row ∧ (w.notes i).read = some (v, b) ∧
      row.version = v + 1
  fresh : ∀ i, (w.notes i).updated = false → (w.cells (keyOf calls i)).holder = some i →
    ∀ row, (w.cells (keyOf calls i)).pending = some row → (w.cells (keyOf calls i)).row = none
  one : ∀ i j e, (w.notes i).wrote = true → (w.notes j).wrote = true → (calls i).locks →
    keyOf calls i = keyOf calls j → (calls i).expectedVersion = some e →
    (calls j).expectedVersion = some e → i = j

variable {v : Int} {j : Nat}

section

variable {key : PolicyTable × Uuid}

theorem PutEffect.cells_of_ne (h : PutEffect calls id w o w') (hkey : key ≠ keyOf calls id) :
    w'.cells key = w.cells key := by
  cases h <;> simp [PutWorld.cells_setCell, hkey]

theorem PutInv.grows (h : PutInv calls w) (hmay : PutMay (calls id) (w.notes id).ghost o)
    (heffect : PutEffect calls id w o w') (hv : (w.cells key).AtLeast v) :
    (w'.cells key).AtLeast v := by
  obtain ⟨row, hrow, hle⟩ := hv
  by_cases hkey : key = keyOf calls id
  · subst hkey
    have hcell : w.cells (keyOf calls id) = w.cell calls id := rfl
    cases heffect with
    | upsert request =>
      refine ⟨row.updated request, ?_, ?_⟩
      · simp only [PutWorld.cells_note, PutWorld.cells_setCell, if_true]
        rw [← hcell, hrow]
        rfl
      · simp only [StoredPolicy.updated]
        omega
    | insertDefault hnone =>
      rw [hcell, hnone] at hrow
      cases hrow
    | commit hholder =>
      obtain ⟨hlocks, hupdated, -⟩ := hmay
      obtain ⟨p, u, b, hp, hread, hversion⟩ := h.pending id hupdated hholder
      have hold := h.locked id u b hlocks hread hholder row hrow
      refine ⟨p, ?_, by omega⟩
      simp only [PutWorld.cells_note, PutWorld.cells_setCell, if_true]
      rw [← hcell, PolicyCell.committed, PolicyCell.visible, hp]
      rfl
    | skip => exact ⟨row, hrow, hle⟩
    | get => exact ⟨row, hrow, hle⟩
    | respond result => exact ⟨row, hrow, hle⟩
    | select _ _ _ =>
      refine ⟨row, ?_, hle⟩
      simp only [PutWorld.cells_note, PutWorld.cells_setCell, if_true]
      exact hrow
    | update _ _ _ _ =>
      refine ⟨row, ?_, hle⟩
      simp only [PutWorld.cells_note, PutWorld.cells_setCell, if_true]
      exact hrow
    | rollBack _ =>
      refine ⟨row, ?_, hle⟩
      simp only [PutWorld.cells_setCell, if_true]
      exact hrow
  · rw [heffect.cells_of_ne hkey]
    exact ⟨row, hrow, hle⟩

theorem PutWorld.cell_eq (calls : Nat → PutCall) (w : PutWorld) (id : Nat) :
    w.cell calls id = w.cells (keyOf calls id) := rfl

theorem locks_of_keyOf (h : keyOf calls i = keyOf calls j) (hlocks : (calls i).locks) :
    (calls j).locks := by
  have htable : (calls i).table = (calls j).table := (Prod.mk.inj h).1
  exact htable.symm.trans hlocks

variable {row : StoredPolicy}

theorem PutInv.visible_eq (h : PutInv calls w) (hghost : (w.notes id).updated = false)
    (hlock : (w.cells (keyOf calls id)).lockable id = true)
    (hrow : (w.cells (keyOf calls id)).row = some row) :
    (w.cells (keyOf calls id)).visible = some row := by
  have hpending : (w.cells (keyOf calls id)).pending = none := by
    cases hholder : (w.cells (keyOf calls id)).holder with
    | none => exact h.free _ hholder
    | some i =>
      obtain rfl : i = id := by simpa [PolicyCell.lockable, hholder] using hlock
      by_contra hsome
      obtain ⟨p, hp⟩ := Option.ne_none_iff_exists'.mp hsome
      rw [h.fresh i hghost hholder p hp] at hrow
      cases hrow
  rw [PolicyCell.visible, hpending, hrow]
  rfl

theorem PutInv.commit_alone (h : PutInv calls w) (hlocks : (calls id).locks)
    (hupdated : (w.notes id).updated = true)
    (hholder : (w.cells (keyOf calls id)).holder = some id) {e : Int}
    (hwrote : (w.notes j).wrote = true) (hkey : keyOf calls id = keyOf calls j)
    (hi : (calls id).expectedVersion = some e) (hj : (calls j).expectedVersion = some e) :
    False := by
  obtain ⟨u, b, hread, hu⟩ := h.expects id (.inl hupdated)
  obtain ⟨v, b', hread', hv⟩ := h.expects j (.inr hwrote)
  have hlater := h.wrote j hwrote v b' hread' (.inr (locks_of_keyOf hkey hlocks))
  rw [← hkey] at hlater
  obtain ⟨row, hrow, hle⟩ := hlater
  have hversion := h.locked id u b hlocks hread hholder row hrow
  have := hu e hi
  have := hv e hj
  omega

theorem PutNote.untouched {note : PutNote} (h : note.ghost = {}) :
    note.read = none ∧ note.updated = false ∧ note.wrote = false := by
  have hread := congrArg PutGhost.read h
  exact ⟨by simpa [PutNote.ghost] using hread, congrArg PutGhost.updated h, congrArg PutGhost.wrote h⟩

theorem PutNote.read_of_ghost {note : PutNote} (h : note.ghost.read = some v) :
    ∃ b, note.read = some (v, b) := by
  obtain ⟨⟨u, b⟩, hread, rfl⟩ := Option.map_eq_some_iff.mp h
  exact ⟨b, hread⟩

/-! ### One part of the invariant after another -/

section

variable (h : PutInv calls w) (hmay : PutMay (calls id) (w.notes id).ghost o)
  (heffect : PutEffect calls id w o w')

include h hmay heffect

theorem holder_of_effect (hholder : (w'.cells key).holder = some i) :
    key = keyOf calls i ∧ (calls i).locks := by
  by_cases hkey : key = keyOf calls id
  · subst hkey
    have hold := h.holder (keyOf calls id) i
    cases heffect with
    | skip => exact hold hholder
    | get => exact hold hholder
    | respond result => exact hold hholder
    | upsert request =>
      simp only [PutWorld.cells_note, PutWorld.cells_setCell, if_true] at hholder
      exact hold hholder
    | insertDefault _ _ =>
      simp only [PutWorld.cells_setCell, if_true, Option.some.injEq] at hholder
      exact ⟨by rw [hholder], hholder ▸ hmay.1⟩
    | select _ _ _ =>
      simp only [PutWorld.cells_note, PutWorld.cells_setCell, if_true, Option.some.injEq] at hholder
      exact ⟨by rw [hholder], hholder ▸ hmay.1⟩
    | update _ _ _ _ =>
      simp only [PutWorld.cells_note, PutWorld.cells_setCell, if_true] at hholder
      exact hold hholder
    | commit _ => simp [PutWorld.cells_setCell, PolicyCell.committed] at hholder
    | rollBack _ => simp [PutWorld.cells_setCell, PolicyCell.rolledBack] at hholder
  · rw [heffect.cells_of_ne hkey] at hholder
    exact h.holder key i hholder

theorem free_of_effect (hholder : (w'.cells key).holder = none) :
    (w'.cells key).pending = none := by
  by_cases hkey : key = keyOf calls id
  · subst hkey
    have hold := h.free (keyOf calls id)
    cases heffect with
    | skip => exact hold hholder
    | get => exact hold hholder
    | respond result => exact hold hholder
    | upsert request =>
      simp only [PutWorld.cells_note, PutWorld.cells_setCell, if_true] at hholder ⊢
      exact hold hholder
    | insertDefault _ _ => simp [PutWorld.cells_setCell] at hholder
    | select _ _ _ => simp [PutWorld.cells_setCell] at hholder
    | update _ _ _ hheld =>
      simp only [PutWorld.cells_note, PutWorld.cells_setCell, if_true] at hholder
      rw [hheld] at hholder
      cases hholder
    | commit _ => simp [PutWorld.cells_setCell, PolicyCell.committed]
    | rollBack _ => simp [PutWorld.cells_setCell, PolicyCell.rolledBack]
  · rw [heffect.cells_of_ne hkey] at hholder ⊢
    exact h.free key hholder

theorem seen_of_effect (hread : (w'.notes i).read = some (v, true)) :
    (w'.cells (keyOf calls i)).AtLeast v := by
  refine h.grows hmay heffect ?_
  by_cases hi : i = id
  · subst hi
    have hold := h.seen i v
    cases heffect with
    | skip => exact hold hread
    | get =>
      -- the row that is shown is the row there is
      simp only [PutWorld.notes_note, if_true, Option.some.injEq, Prod.mk.injEq] at hread
      obtain ⟨hversion, hsome⟩ := hread
      obtain ⟨row, hrow⟩ := Option.isSome_iff_exists.mp hsome
      rw [hrow] at hversion
      exact ⟨row, hrow, hversion.ge⟩
    | select found hvisible hlock =>
      simp only [PutWorld.notes_note, if_true, Option.some.injEq, Prod.mk.injEq] at hread
      obtain ⟨hversion, hsome⟩ := hread
      obtain ⟨row, hrow⟩ := Option.isSome_iff_exists.mp hsome
      have hsame := h.visible_eq (PutNote.untouched hmay.2).2.1 hlock hrow
      rw [PutWorld.cell_eq, hsame] at hvisible
      exact ⟨row, hrow, by rw [Option.some.inj hvisible, hversion]⟩
    | upsert request =>
      simp only [PutWorld.notes_note, if_true] at hread
      exact hold hread
    | insertDefault _ _ => exact hold hread
    | update _ _ _ _ =>
      simp only [PutWorld.notes_note, if_true] at hread
      exact hold hread
    | commit _ =>
      simp only [PutWorld.notes_note, if_true] at hread
      exact hold hread
    | rollBack _ => exact hold hread
    | respond result =>
      simp only [PutWorld.notes_note, if_true] at hread
      exact hold hread
  · rw [heffect.notes_of_ne hi] at hread
    exact h.seen i v hread

theorem wrote_of_effect (hwrote : (w'.notes i).wrote = true) {b : Bool}
    (hread : (w'.notes i).read = some (v, b)) (hb : b = true ∨ (calls i).locks) :
    (w'.cells (keyOf calls i)).AtLeast (v + 1) := by
  by_cases hi : i = id
  · subst hi
    have hkept : (w.notes i).wrote = true → (w.notes i).read = some (v, b) →
        (w'.cells (keyOf calls i)).AtLeast (v + 1) := fun hw hr =>
      h.grows hmay heffect (h.wrote i hw v b hr hb)
    cases heffect with
    | skip => exact hkept hwrote hread
    | get =>
      simp only [PutWorld.notes_note, if_true] at hwrote
      rw [(PutNote.untouched hmay.2).2.2] at hwrote
      cases hwrote
    | select _ _ _ =>
      simp only [PutWorld.notes_note, if_true] at hwrote
      rw [(PutNote.untouched hmay.2).2.2] at hwrote
      cases hwrote
    | update _ _ _ _ =>
      simp only [PutWorld.notes_note, if_true] at hwrote
      have hno : (w.notes i).wrote = false := congrArg PutGhost.wrote hmay.2.1
      rw [hno] at hwrote
      cases hwrote
    | upsert request =>
      simp only [PutWorld.notes_note, if_true] at hread
      have hsome : b = true := hb.resolve_right hmay.1
      subst hsome
      obtain ⟨row, hrow, hle⟩ := h.seen i v hread
      refine ⟨row.updated request, ?_, by simpa [StoredPolicy.updated] using hle⟩
      simp only [PutWorld.cells_note, PutWorld.cells_setCell, if_true]
      rw [PutWorld.cell_eq, hrow]
      rfl
    | commit hholder =>
      simp only [PutWorld.notes_note, if_true] at hread
      obtain ⟨p, u, b', hp, hread', hversion⟩ := h.pending i hmay.2.1 hholder
      rw [hread] at hread'
      cases hread'
      refine ⟨p, ?_, hversion.ge⟩
      simp only [PutWorld.cells_note, PutWorld.cells_setCell, if_true]
      rw [PutWorld.cell_eq, PolicyCell.committed, PolicyCell.visible, hp]
      rfl
    | insertDefault _ _ => exact hkept hwrote hread
    | rollBack _ => exact hkept hwrote hread
    | respond result =>
      simp only [PutWorld.notes_note, if_true] at hwrote hread
      exact hkept hwrote hread
  · rw [heffect.notes_of_ne hi] at hwrote hread
    exact h.grows hmay heffect (h.wrote i hwrote v b hread hb)

theorem expects_of_effect (hdone : (w'.notes i).updated = true ∨ (w'.notes i).wrote = true) :
    ∃ v b, (w'.notes i).read = some (v, b) ∧ ∀ e, (calls i).expectedVersion = some e → e = v := by
  by_cases hi : i = id
  · subst hi
    have hold := h.expects i
    cases heffect with
    | skip => exact hold hdone
    | get =>
      obtain ⟨-, hupdated, hwrote⟩ := PutNote.untouched hmay.2
      simp [hupdated, hwrote] at hdone
    | select _ _ _ =>
      obtain ⟨-, hupdated, hwrote⟩ := PutNote.untouched hmay.2
      simp [hupdated, hwrote] at hdone
    | upsert request =>
      obtain ⟨-, -, v, hread, hexpected⟩ := hmay
      obtain ⟨b, hread⟩ := PutNote.read_of_ghost hread
      refine ⟨v, b, by simpa using hread, fun e he => ?_⟩
      rw [hexpected] at he
      exact (Option.some.inj he).symm
    | update request row _ _ =>
      obtain ⟨-, hghost, hexpected⟩ := hmay
      have hseen : (w.notes i).ghost.read = some row.version := by rw [hghost]
      obtain ⟨b, hread⟩ := PutNote.read_of_ghost hseen
      exact ⟨row.version, b, by simpa using hread, hexpected⟩
    | commit _ =>
      simp only [PutWorld.notes_note, if_true]
      exact hold (.inl hmay.2.1)
    | insertDefault _ _ => exact hold hdone
    | rollBack _ => exact hold hdone
    | respond result =>
      simp only [PutWorld.notes_note, if_true] at hdone ⊢
      exact hold hdone
  · rw [heffect.notes_of_ne hi] at hdone ⊢
    exact h.expects i hdone

theorem unlocked_of_effect (hlocks : ¬(calls i).locks) (hwrote : (w'.notes i).wrote = true) :
    (calls i).expectedVersion = (w'.notes i).read.map Prod.fst := by
  by_cases hi : i = id
  · subst hi
    have hold := h.unlocked i hlocks
    cases heffect with
    | skip => exact hold hwrote
    | get =>
      simp only [PutWorld.notes_note, if_true] at hwrote
      rw [(PutNote.untouched hmay.2).2.2] at hwrote
      cases hwrote
    | upsert request =>
      obtain ⟨-, -, v, hread, hexpected⟩ := hmay
      simp only [PutWorld.notes_note, if_true]
      exact hexpected.trans hread.symm
    | select _ _ _ => exact absurd hmay.1 hlocks
    | update _ _ _ _ => exact absurd hmay.1 hlocks
    | commit _ => exact absurd hmay.1 hlocks
    | insertDefault _ _ => exact hold hwrote
    | rollBack _ => exact hold hwrote
    | respond result =>
      simp only [PutWorld.notes_note, if_true] at hwrote ⊢
      exact hold hwrote
  · rw [heffect.notes_of_ne hi] at hwrote ⊢
    exact h.unlocked i hlocks hwrote

theorem locked_of_effect {b : Bool} (hlocks : (calls i).locks)
    (hread : (w'.notes i).read = some (v, b))
    (hholder : (w'.cells (keyOf calls i)).holder = some i)
    (hrow : (w'.cells (keyOf calls i)).row = some row) : row.version = v := by
  have hold := h.locked i v b hlocks
  by_cases hkey : keyOf calls i = keyOf calls id
  · have hid : (calls id).locks := locks_of_keyOf hkey hlocks
    cases heffect with
    | skip => exact hold hread hholder row hrow
    | get => exact absurd hid hmay.1
    | upsert request => exact absurd hid hmay.1
    | insertDefault hnone _ =>
      simp only [PutWorld.cells_setCell, hkey, if_true] at hrow
      rw [hnone] at hrow
      cases hrow
    | select found hvisible hlock =>
      simp only [PutWorld.cells_note, PutWorld.cells_setCell, hkey, if_true, Option.some.injEq]
        at hholder hrow
      subst hholder
      simp only [PutWorld.notes_note, if_true, Option.some.injEq, Prod.mk.injEq] at hread
      have hsame := h.visible_eq (PutNote.untouched hmay.2).2.1 hlock hrow
      rw [PutWorld.cell_eq, hsame] at hvisible
      rw [Option.some.inj hvisible]
      exact hread.1
    | update request found hvisible hheld =>
      simp only [PutWorld.cells_note, PutWorld.cells_setCell, hkey, if_true] at hholder hrow
      rw [hheld] at hholder
      cases hholder
      simp only [PutWorld.notes_note, if_true] at hread
      exact hold hread hheld row hrow
    | commit _ =>
      simp [PutWorld.cells_setCell, hkey, PolicyCell.committed] at hholder
    | rollBack _ =>
      simp [PutWorld.cells_setCell, hkey, PolicyCell.rolledBack] at hholder
    | respond result =>
      by_cases hi : i = id
      · subst hi
        simp only [PutWorld.notes_note, if_true] at hread
        exact hold hread hholder row hrow
      · simp only [PutWorld.notes_note, if_neg hi] at hread
        exact hold hread hholder row hrow
  · have hi : i ≠ id := fun heq => hkey (by rw [heq])
    rw [heffect.notes_of_ne hi] at hread
    rw [heffect.cells_of_ne hkey] at hholder hrow
    exact hold hread hholder row hrow

theorem kept_of_effect (hi : i ≠ id) (hholder : (w'.cells (keyOf calls i)).holder = some i) :
    (w.cells (keyOf calls i)).holder = some i ∧
    (w'.cells (keyOf calls i)).pending = (w.cells (keyOf calls i)).pending ∧
    ((w.cells (keyOf calls i)).row = none → (w'.cells (keyOf calls i)).row = none) := by
  by_cases hkey : keyOf calls i = keyOf calls id
  · cases heffect with
    | skip => exact ⟨hholder, rfl, fun hnone => hnone⟩
    | get => exact ⟨hholder, rfl, fun hnone => hnone⟩
    | respond result => exact ⟨hholder, rfl, fun hnone => hnone⟩
    | upsert request =>
      simp only [PutWorld.cells_note, PutWorld.cells_setCell, hkey, if_true] at hholder
      have hlocks := (h.holder (keyOf calls id) i hholder).2
      exact absurd (locks_of_keyOf hkey hlocks) hmay.1
    | insertDefault _ _ =>
      simp only [PutWorld.cells_setCell, hkey, if_true, Option.some.injEq] at hholder
      exact absurd hholder.symm hi
    | select _ _ _ =>
      simp only [PutWorld.cells_note, PutWorld.cells_setCell, hkey, if_true, Option.some.injEq]
        at hholder
      exact absurd hholder.symm hi
    | update _ _ _ hheld =>
      simp only [PutWorld.cells_note, PutWorld.cells_setCell, hkey, if_true] at hholder
      rw [hheld] at hholder
      exact absurd (Option.some.inj hholder).symm hi
    | commit _ => simp [PutWorld.cells_setCell, hkey, PolicyCell.committed] at hholder
    | rollBack _ => simp [PutWorld.cells_setCell, hkey, PolicyCell.rolledBack] at hholder
  · rw [heffect.cells_of_ne hkey] at hholder ⊢
    exact ⟨hholder, rfl, fun hnone => hnone⟩

theorem pending_of_effect (hupdated : (w'.notes i).updated = true)
    (hholder : (w'.cells (keyOf calls i)).holder = some i) :
    ∃ row v b, (w'.cells (keyOf calls i)).pending = some row ∧ (w'.notes i).read = some (v, b) ∧
      row.version = v + 1 := by
  by_cases hi : i = id
  · subst hi
    have hold := h.pending i
    cases heffect with
    | skip => exact hold hupdated hholder
    | get =>
      simp only [PutWorld.notes_note, if_true] at hupdated
      rw [(PutNote.untouched hmay.2).2.1] at hupdated
      cases hupdated
    | upsert request => exact absurd (holder_of_effect h hmay (.upsert request) hholder).2 hmay.1
    | insertDefault _ _ =>
      have hno := (PutNote.untouched hmay.2).2.1
      rw [PutWorld.notes_setCell, hno] at hupdated
      cases hupdated
    | select _ _ _ =>
      simp only [PutWorld.notes_note, if_true] at hupdated
      rw [(PutNote.untouched hmay.2).2.1] at hupdated
      cases hupdated
    | update request row _ _ =>
      obtain ⟨-, hghost, -⟩ := hmay
      have hseen : (w.notes i).ghost.read = some row.version := by rw [hghost]
      obtain ⟨b, hread⟩ := PutNote.read_of_ghost hseen
      exact ⟨row.updated request, row.version, b, by simp [PutWorld.cells_setCell], by simpa using hread,
        rfl⟩
    | commit _ => simp [PutWorld.cells_setCell, PolicyCell.committed] at hholder
    | rollBack _ => simp [PutWorld.cells_setCell, PolicyCell.rolledBack] at hholder
    | respond result =>
      simp only [PutWorld.notes_note, if_true] at hupdated ⊢
      exact hold hupdated hholder
  · obtain ⟨hheld, hpending, -⟩ := kept_of_effect h hmay heffect hi hholder
    rw [heffect.notes_of_ne hi] at hupdated ⊢
    rw [hpending]
    exact h.pending i hupdated hheld

theorem fresh_of_effect (hupdated : (w'.notes i).updated = false)
    (hholder : (w'.cells (keyOf calls i)).holder = some i)
    (hpending : (w'.cells (keyOf calls i)).pending = some row) :
    (w'.cells (keyOf calls i)).row = none := by
  by_cases hi : i = id
  · subst hi
    have hold := h.fresh i
    cases heffect with
    | skip => exact hold hupdated hholder row hpending
    | get => exact absurd (h.holder _ i hholder).2 hmay.1
    | upsert request => exact absurd (holder_of_effect h hmay (.upsert request) hholder).2 hmay.1
    | insertDefault hnone _ => simpa [PutWorld.cells_setCell] using hnone
    | select found hvisible hlock =>
      simp only [PutWorld.cells_note, PutWorld.cells_setCell, if_true] at hpending ⊢
      by_contra hsome
      obtain ⟨r, hr⟩ := Option.ne_none_iff_exists'.mp hsome
      have hno := (PutNote.untouched hmay.2).2.1
      cases hheld : (w.cells (keyOf calls i)).holder with
      | none =>
        rw [PutWorld.cell_eq, h.free _ hheld] at hpending
        cases hpending
      | some j =>
        obtain rfl : j = i := by
          simpa [PolicyCell.lockable, PutWorld.cell_eq, hheld] using hlock
        exact hsome (hold hno hheld row hpending)
    | update _ _ _ _ => simp at hupdated
    | commit _ => simp [PutWorld.cells_setCell, PolicyCell.committed] at hholder
    | rollBack _ => simp [PutWorld.cells_setCell, PolicyCell.rolledBack] at hholder
    | respond result =>
      simp only [PutWorld.notes_note, if_true] at hupdated
      exact hold hupdated hholder row hpending
  · obtain ⟨hheld, hsame, hnone⟩ := kept_of_effect h hmay heffect hi hholder
    rw [heffect.notes_of_ne hi] at hupdated
    rw [hsame] at hpending
    exact hnone (h.fresh i hupdated hheld row hpending)

omit h in
theorem wrote_cases (hwrote : (w'.notes i).wrote = true) :
    (w.notes i).wrote = true ∨ (i = id ∧ (¬(calls id).locks ∨
      ((w.notes id).updated = true ∧ (w.cells (keyOf calls id)).holder = some id))) := by
  by_cases hi : i = id
  · subst hi
    cases heffect with
    | upsert request => exact .inr ⟨rfl, .inl hmay.1⟩
    | commit hholder => exact .inr ⟨rfl, .inr ⟨hmay.2.1, hholder⟩⟩
    | skip => exact .inl hwrote
    | insertDefault _ _ => exact .inl hwrote
    | rollBack _ => exact .inl hwrote
    | get => exact .inl (by simpa using hwrote)
    | select _ _ _ => exact .inl (by simpa using hwrote)
    | update _ _ _ _ => exact .inl (by simpa using hwrote)
    | respond result => exact .inl (by simpa using hwrote)
  · rw [heffect.notes_of_ne hi] at hwrote
    exact .inl hwrote

theorem one_of_effect {e : Int} (hi : (w'.notes i).wrote = true) (hj : (w'.notes j).wrote = true)
    (hlocks : (calls i).locks) (hkey : keyOf calls i = keyOf calls j)
    (hei : (calls i).expectedVersion = some e) (hej : (calls j).expectedVersion = some e) :
    i = j := by
  rcases wrote_cases hmay heffect hi with hold | ⟨rfl, hnew⟩
  · rcases wrote_cases hmay heffect hj with hold' | ⟨rfl, hnew⟩
    · exact h.one i j e hold hold' hlocks hkey hei hej
    · obtain ⟨hupdated, hholder⟩ := hnew.resolve_left (absurd (locks_of_keyOf hkey hlocks))
      exact (h.commit_alone (locks_of_keyOf hkey hlocks) hupdated hholder hold hkey.symm hej hei).elim
  · obtain ⟨hupdated, hholder⟩ := hnew.resolve_left (absurd hlocks)
    rcases wrote_cases hmay heffect hj with hold | ⟨rfl, -⟩
    · exact (h.commit_alone hlocks hupdated hholder hold hkey hei hej).elim
    · rfl

/-- **A statement** keeps the invariant. -/
theorem PutInv.effect : PutInv calls w' where
  holder _ _ hholder := holder_of_effect h hmay heffect hholder
  free _ hholder := free_of_effect h hmay heffect hholder
  seen _ _ hread := seen_of_effect h hmay heffect hread
  wrote _ hwrote _ _ hread hb := wrote_of_effect h hmay heffect hwrote hread hb
  expects _ hdone := expects_of_effect h hmay heffect hdone
  unlocked _ hlocks hwrote := unlocked_of_effect h hmay heffect hlocks hwrote
  locked _ _ _ hlocks hread hholder _ hrow := locked_of_effect h hmay heffect hlocks hread hholder hrow
  pending _ hupdated hholder := pending_of_effect h hmay heffect hupdated hholder
  fresh _ hupdated hholder _ hpending := fresh_of_effect h hmay heffect hupdated hholder hpending
  one _ _ _ hi hj hlocks hkey hei hej := one_of_effect h hmay heffect hi hj hlocks hkey hei hej

end

end

/-! ## Runs -/

section

variable {encodedBytes : Json → Nat} {rows : PolicyTable × Uuid → Option StoredPolicy}

def putOutline (encodedBytes : Json → Nat) (calls : Nat → PutCall) :
    Outline (putTraffic encodedBytes calls) where
  Ghost _ := PutGhost
  contract i := putContract (calls i)
  at_ _ _ _ := False
  shared w γ := ∀ i, (w.notes i).ghost = γ i
  code_ok _ _ _ h := h.elim
  act_ok := by
    intro i w o x w' γ hshared _ _ hgrant
    obtain ⟨heffect, hghost⟩ := effect_of_grantPut hgrant
    refine ⟨?_, fun j => ?_⟩
    · cases o with
      | get =>
        cases x with
        | ok shown => trivial
        | error err =>
          by_contra hne
          have hnone : grantPut calls i w .get (.error err) = none := if_neg hne
          rw [show grantPut calls i w .get (.error err) = some w' from hgrant] at hnone
          cases hnone
      | _ => trivial
    · by_cases hj : j = i
      · subst hj
        simpa [putContract, ← hshared j] using hghost
      · rw [heffect.notes_of_ne hj, Function.update_of_ne hj]
        exact hshared j
  nature_ok := by
    intro w i w' γ hshared hnature j
    simp only [putTraffic, loseConnection] at hnature
    split at hnature
    · cases hnature
      exact hshared j
    · cases hnature

variable {s : (putTraffic encodedBytes calls).State}

/-- **A move** is a statement of a call that keeps its contract, or a connection that is lost. -/
theorem put_step {s' : (putTraffic encodedBytes calls).State}
    {m : (putTraffic encodedBytes calls).Move}
    (houtline : (putOutline encodedBytes calls).Holds s)
    (hstep : (putTraffic encodedBytes calls).step s m = some s') :
    ∃ id o, PutMay (calls id) (s.world.notes id).ghost o ∧ PutEffect calls id s.world o s'.world := by
  obtain ⟨γ, hshared, hwp⟩ := houtline
  rcases step_cases hstep with ⟨i, answer, o, k, w, rfl, hproc, hgrant, rfl⟩ | ⟨i, l, hproc, rfl⟩ |
    ⟨e, w, hnature, rfl⟩
  · have hpre := hwp i
    rw [hproc] at hpre
    refine ⟨i, o, ?_, (effect_of_grantPut hgrant).1⟩
    rw [hshared i]
    exact hpre.1
  · have hret := hwp i
    rw [hproc] at hret
    exact (hret l rfl).elim
  · refine ⟨e, .rollback, trivial, ?_⟩
    simp only [putTraffic, loseConnection] at hnature
    split at hnature
    · next hholder =>
      cases hnature
      exact .rollBack hholder
    · cases hnature

theorem putInv_atStart : PutInv calls (putsAtStart encodedBytes calls rows).world where
  holder _ _ hholder := nomatch hholder
  free _ _ := rfl
  seen _ _ hread := nomatch hread
  wrote _ hwrote := nomatch hwrote
  expects _ hdone := by simp [putsAtStart] at hdone
  unlocked _ _ hwrote := nomatch hwrote
  locked _ _ _ _ hread := nomatch hread
  pending _ hupdated := nomatch hupdated
  fresh _ _ hholder := nomatch hholder
  one _ _ _ hi := nomatch hi

def PutsHold (s : (putTraffic encodedBytes calls).State) : Prop :=
  (putOutline encodedBytes calls).Holds s ∧ PutInv calls s.world

/-- Every step keeps what is said of the puts. -/
theorem putsHold_step {s' : (putTraffic encodedBytes calls).State}
    {m : (putTraffic encodedBytes calls).Move} (h : PutsHold s)
    (hstep : (putTraffic encodedBytes calls).step s m = some s') : PutsHold s' := by
  obtain ⟨id, o, hmay, heffect⟩ := put_step h.1 hstep
  refine ⟨(putOutline encodedBytes calls).holds_step h.1 ?_ hstep, h.2.effect hmay heffect⟩
  cases m with
  | act i answer => cases hi : s.proc i <;> simp [Guarded, hi, putOutline]
  | jump i => trivial
  | nature e => trivial

theorem putsHold_run {moves : List (putTraffic encodedBytes calls).Move}
    (hrun : runFrom (putTraffic encodedBytes calls).step (putsAtStart encodedBytes calls rows) moves =
      some s) : PutsHold s := by
  refine runFrom_invariant hrun ⟨⟨fun _ => {}, fun _ => rfl, fun i => ?_⟩, putInv_atStart⟩
    fun _ _ _ => putsHold_step
  refine wp_mono (puts_code encodedBytes) (fun _ next hnext l hl => ?_) fun _ _ h => h
  rw [hnext] at hl
  cases hl

/-- What a call has read that begins to read after a write. -/
structure ReadsLate (calls : Nat → PutCall) (j : Nat) (v : Int) (w : PutWorld) : Prop where
  row : (w.cells (keyOf calls j)).AtLeast (v + 1)
  read : ∀ u b, (w.notes j).read = some (u, b) → v < u

theorem readsLate_effect (h : PutInv calls w) (hmay : PutMay (calls id) (w.notes id).ghost o)
    (heffect : PutEffect calls id w o w') (hlocks : ¬(calls j).locks)
    (hlate : ReadsLate calls j v w) : ReadsLate calls j v w' := by
  refine ⟨h.grows hmay heffect hlate.row, fun u b hread => ?_⟩
  have hold := hlate.read u b
  by_cases hj : j = id
  · subst hj
    cases heffect with
    | get =>
      obtain ⟨row, hrow, hle⟩ := hlate.row
      simp only [PutWorld.notes_note, if_true, Option.some.injEq, Prod.mk.injEq] at hread
      rw [PutWorld.cell_eq, hrow] at hread
      have hversion : row.version = u := hread.1
      omega
    | select _ _ _ => exact absurd hmay.1 hlocks
    | skip => exact hold hread
    | insertDefault _ _ => exact hold hread
    | rollBack _ => exact hold hread
    | upsert request => exact hold (by simpa using hread)
    | update _ _ _ _ => exact hold (by simpa using hread)
    | commit _ => exact hold (by simpa using hread)
    | respond result => exact hold (by simpa using hread)
  · rw [heffect.notes_of_ne hj] at hread
    exact hold hread

/--
A call of one of the two checked tables that reads only after another has written an existing row
does not write under the version of that other call.
-/
def RefusedAfterWrite (encodedBytes : Json → Nat) (calls : Nat → PutCall)
    (rows : PolicyTable × Uuid → Option StoredPolicy) : Prop :=
  ∀ first second s t i j v,
    runFrom (putTraffic encodedBytes calls).step (putsAtStart encodedBytes calls rows) first = some s →
    runFrom (putTraffic encodedBytes calls).step s second = some t →
    ¬(calls i).locks → keyOf calls i = keyOf calls j →
    (calls i).expectedVersion = (calls j).expectedVersion →
    (s.world.notes i).wrote = true → (s.world.notes i).read = some (v, true) →
    (s.world.notes j).read = none → (t.world.notes j).wrote = false

/-- Of the calls that lock the row, at most one writes under one version. -/
def OneWriter (encodedBytes : Json → Nat) (calls : Nat → PutCall)
    (rows : PolicyTable × Uuid → Option StoredPolicy) : Prop :=
  ∀ moves s i j e,
    runFrom (putTraffic encodedBytes calls).step (putsAtStart encodedBytes calls rows) moves = some s →
    (calls i).locks → keyOf calls i = keyOf calls j → (calls i).expectedVersion = some e →
    (calls j).expectedVersion = some e → (s.world.notes i).wrote = true →
    (s.world.notes j).wrote = true → i = j

/-- **What `If-Match` guards**, over every run of any number of calls. -/
theorem puts_with_one_version (encodedBytes : Json → Nat) (calls : Nat → PutCall)
    (rows : PolicyTable × Uuid → Option StoredPolicy) :
    RefusedAfterWrite encodedBytes calls rows ∧ OneWriter encodedBytes calls rows := by
  refine ⟨?_, fun moves s i j e hrun hlocks hkey hi hj hwi hwj => ?_⟩
  · intro first second s t i j v hfirst hsecond hlocks hkey hexpected hwrote hread hunread
    have hs := putsHold_run hfirst
    have hlocks' : ¬(calls j).locks := fun hj => hlocks (locks_of_keyOf hkey.symm hj)
    have hstart : ReadsLate calls j v s.world := by
      refine ⟨hkey ▸ hs.2.wrote i hwrote v true hread (.inl rfl), fun u b hu => ?_⟩
      rw [hunread] at hu
      cases hu
    obtain ⟨ht, hlate⟩ := runFrom_invariant (I := fun t => PutsHold t ∧ ReadsLate calls j v t.world)
      hsecond ⟨hs, hstart⟩ fun s m s' hboth hstep => by
        obtain ⟨id, o, hmay, heffect⟩ := put_step hboth.1.1 hstep
        exact ⟨putsHold_step hboth.1 hstep, readsLate_effect hboth.1.2 hmay heffect hlocks' hboth.2⟩
    by_contra hwrites
    have hwrites : (t.world.notes j).wrote = true := by simpa using hwrites
    -- it has read its own version, which is the one the other call was sent
    have hown := ht.2.unlocked j hlocks' hwrites
    have hother := hs.2.unlocked i hlocks hwrote
    rw [hread] at hother
    rw [← hexpected, hother] at hown
    obtain ⟨⟨u, b⟩, hu, huv⟩ := Option.map_eq_some_iff.mp hown.symm
    have hlt := hlate.read u b hu
    simp only at huv
    omega
  · exact (putsHold_run hrun).2.one i j e hwi hwj hlocks hkey hi hj

end

namespace Trial

def policyWriter : Actor where
  actorType := .systemKey
  scopes := ["moira:runtime-policies:write"]

/-- Two administrators who have both read version 3 of the policy of provider 5. -/
def bothAtThree : Nat → PutCall := fun i =>
  { table := .providerRuntimePolicies
    owner := 5
    actor := policyWriter
    expectedVersion := some 3
    request := [("retry_limit", .num i)] }

def thirdVersion : PolicyTable × Uuid → Option StoredPolicy := fun _ =>
  some { columns := PolicyTable.providerRuntimePolicies.defaults, version := 3 }

def storedAs (retries version : Int) : StoredPolicy where
  columns := coalesce [("retry_limit", .num retries)] PolicyTable.providerRuntimePolicies.defaults
  version := version

/-- A statement that is answered, and what the table shows or stores. -/
def putAnswers (row : StoredPolicy) : (o : PutOp) → o.Ans
  | .idempotencyReplay => .ok none
  | .get => .ok row
  | .upsert _ => { result := .ok row, committed := true }
  | .recordIdempotency _ => .ok ()
  | .begin => .ok ()
  | .insertDefault => .ok ()
  | .selectVersionForUpdate => .ok row.version
  | .update _ _ => .ok (some row)
  | .commit => { result := .ok (), committed := true }
  | .rollback => ()
  | .audit => .ok ()
  | .respond _ => ()

/-- Both look at the row, and then both write it. -/
def lookThenWrite : List (putTraffic (fun _ => 0) bothAtThree).Move :=
  let shown := putAnswers (PolicyTable.providerRuntimePolicies.shown (thirdVersion (.providerRuntimePolicies, 5)))
  [.act 0 shown, .act 0 shown, .act 1 shown, .act 1 shown,
    .act 0 (putAnswers (storedAs 0 4)), .act 0 shown, .act 0 shown,
    .act 1 (putAnswers (storedAs 1 5)), .act 1 shown, .act 1 shown]

/-- The call has written and was answered with the row it wrote. -/
def succeeded (note : PutNote) : Bool :=
  note.wrote && note.answer.any Except.isOk

end Trial

/-- The update of one of the two is lost, and both were told that they had made it. -/
theorem both_puts_succeed : ∃ s,
    runFrom (putTraffic (fun _ => 0) Trial.bothAtThree).step
      (putsAtStart (fun _ => 0) Trial.bothAtThree Trial.thirdVersion) Trial.lookThenWrite = some s ∧
    Trial.succeeded (s.world.notes 0) = true ∧ Trial.succeeded (s.world.notes 1) = true := by
  have hrun : ((runFrom (putTraffic (fun _ => 0) Trial.bothAtThree).step
      (putsAtStart (fun _ => 0) Trial.bothAtThree Trial.thirdVersion) Trial.lookThenWrite).any fun s =>
        Trial.succeeded (s.world.notes 0) && Trial.succeeded (s.world.notes 1)) = true := by
    decide +kernel
  obtain ⟨s, hs, hboth⟩ := (Option.any_eq_true _ _).mp hrun
  obtain ⟨hfirst, hsecond⟩ := Bool.and_eq_true_iff.mp hboth
  exact ⟨s, hs, hfirst, hsecond⟩

end Moira
