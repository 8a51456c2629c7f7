import Mathlib.Tactic.Common
import Moira.Infra.PolicyRow

/-!
# Policy rows are provisioned once

Two rounds are enough: an insert that finds the key taken has waited for whoever took it, so the
next `select` sees the committed row.

- **`policy_row_provisioned_once`**
-/

namespace Moira

variable {table : String} {applicationId : Uuid} {defaults : Json}
variable {s s' t : PolicyWorld} {move : PolicyMove} {moves : List PolicyMove} {call : Nat}

/-! ## Where a call is -/

/-- What a statement's answer makes of a call that goes on with `next` when there is no row. -/
def orElse (next : PolicyCall) : Except AppError (Option PolicyRow) → PolicyCall
  | .error error => .fail error
  | .ok (some row) => .ret row
  | .ok none => next

/-- A call whose `select` of the first round found nothing. -/
def insertNext (table : String) : PolicyCall :=
  .op (.insert .doNothing) (orElse (policyRounds table 2))

theorem fetchOptional_bind (statement : PolicyStatement) (next : PolicyCall) :
    (do match ← fetchOptional statement with
        | some row => return row
        | none => next) = .op statement (orElse next) := by
  refine congrArg (Prog.op (S := PolicySql) statement) (funext fun result => ?_)
  match result with
  | .error _ => rfl
  | .ok (some _) => rfl
  | .ok none => rfl

theorem policyRounds_succ (table : String) (rounds : Nat) : policyRounds table (rounds + 1) =
    .op .select (orElse (.op (.insert .doNothing) (orElse (policyRounds table rounds)))) := by
  rw [policyRounds, ← fetchOptional_bind (.insert .doNothing)]
  exact fetchOptional_bind .select _

theorem getOrCreatePolicyRow_eq (table : String) :
    getOrCreatePolicyRow table = .op .select (orElse (insertNext table)) :=
  policyRounds_succ table 2

/-- Where a call is, and how many statements it can still run. -/
inductive CallAt
  | reading
  | inserting
  /-- Its insert has the key. -/
  | inFlight
  /-- Its insert found the key taken. -/
  | again
  | returned (row : PolicyRow)
  /-- A statement of its own was lost. -/
  | failed

namespace CallAt

/-- The statements that the call can still run. -/
def left : CallAt → Nat
  | reading => 3
  | inserting => 2
  | inFlight | again => 1
  | returned _ | failed => 0

def program (table : String) : CallAt → PolicyCall
  | reading => getOrCreatePolicyRow table
  | inserting | inFlight => insertNext table
  | again => policyRounds table 2
  | returned row => .ret row
  | failed => .fail .sqlx

def isInFlight : CallAt → Bool
  | inFlight => true
  | _ => false

/-- The call has met the row. -/
def hasRow : CallAt → Bool
  | again | returned _ => true
  | _ => false

def isFailed : CallAt → Bool
  | failed => true
  | _ => false

end CallAt

/-- The call is at `place`. -/
structure PolicyWorld.At (table : String) (s : PolicyWorld) (call : Nat) (place : CallAt) : Prop where
  program : s.calls call = place.program table
  inFlight : s.inserting = some (.call call) ↔ place.isInFlight
  committed : place.hasRow → s.row.isSome

/-- The move takes a statement of the call down with it. -/
def PolicyWorld.Breaks (s : PolicyWorld) (call : Nat) : PolicyMove → Prop
  | .lose lost => lost = call
  | .commit _ delivered => s.inserting = some (.call call) ∧ delivered = false
  | .rollBack => s.inserting = some (.call call)
  | _ => False

/-- An insert commits. -/
def PolicyMove.isCommit : PolicyMove → Bool
  | .commit .. => true
  | _ => false

def PolicyMove.isPut : PolicyMove → Bool
  | .put .. => true
  | _ => false

/-- An insert in flight has the key because there is no row. -/
def PolicyWorld.KeyFree (s : PolicyWorld) : Prop :=
  s.inserting.isSome → s.row = none

/-! ## Answers -/

namespace PolicyWorld

variable {statement : PolicyStatement} {k : Except AppError (Option PolicyRow) → PolicyCall}
  {result : Except AppError (Option PolicyRow)} {place : CallAt}

theorem answer_eq (h : s.calls call = .op statement k) :
    s.answer call result = s.resume call (k result) := by
  unfold answer
  rw [h]

@[simp] theorem answer_row : (s.answer call result).row = s.row := by
  unfold answer
  split <;> rfl

@[simp] theorem answer_inserting : (s.answer call result).inserting = s.inserting := by
  unfold answer
  split <;> rfl

theorem answer_other {other : Nat} (h : other ≠ call) :
    (s.answer call result).calls other = s.calls other := by
  unfold answer
  split
  · exact Function.update_of_ne h _ _
  · rfl

theorem answer_self (h : s.calls call = .op statement k) :
    (s.answer call result).calls call = k result := by
  rw [answer_eq h]
  exact Function.update_self ..

end PolicyWorld

/-! ## One move -/

/-- The insert in flight is over; a call learns the result, a `PUT` is of no interest here. -/
def PolicyWorld.settle (s : PolicyWorld) (result : Except AppError (Option PolicyRow)) :
    Inserter → PolicyWorld
  | .call call => { s.answer call result with inserting := none }
  | .put _ => { s with inserting := none }

/-- What the moves can be. -/
inductive PolicyEffect (s : PolicyWorld) : PolicyMove → PolicyWorld → Prop
  | read {call k} (h : s.calls call = .op .select k) :
      PolicyEffect s (.run call) (s.answer call (.ok s.row))
  | taken {call onConflict k} (h : s.calls call = .op (.insert onConflict) k) (hrow : s.row.isSome) :
      PolicyEffect s (.run call)
        (s.answer call (if onConflict = .doNothing then .ok none else .error .sqlx))
  | began {call onConflict k} (h : s.calls call = .op (.insert onConflict) k) (hrow : s.row = none)
      (hfree : s.inserting = none) :
      PolicyEffect s (.run call) { s with inserting := some (.call call) }
  | lost {call statement k} (h : s.calls call = .op statement k)
      (hfree : s.inserting ≠ some (.call call)) :
      PolicyEffect s (.lose call) (s.answer call (.error .sqlx))
  | updated {row columns now} (hrow : s.row = some row) :
      PolicyEffect s (.put columns now) { s with row := some (row.updated columns now) }
  | putBegan {columns now} (hrow : s.row = none) (hfree : s.inserting = none) :
      PolicyEffect s (.put columns now) { s with inserting := some (.put columns) }
  | committed {inserter row now delivered} (h : s.inserting = some inserter) :
      PolicyEffect s (.commit now delivered)
        { s.settle (if delivered then .ok (some row) else .error .sqlx) inserter with row := some row }
  | rolledBack {inserter} (h : s.inserting = some inserter) :
      PolicyEffect s .rollBack (s.settle (.error .sqlx) inserter)

theorem policyStep_effect (hstep : policyStep applicationId defaults s move = some s') :
    PolicyEffect s move s' := by
  cases move with
  | run call =>
    simp only [policyStep] at hstep
    split at hstep
    · next statement k hcall =>
      cases statement with
      | select =>
        obtain rfl := Option.some.inj hstep
        exact .read hcall
      | insert onConflict =>
        simp only [PolicyWorld.statement] at hstep
        split at hstep
        · next row hrow =>
          cases onConflict <;>
          · obtain rfl := Option.some.inj hstep
            exact .taken hcall (by simp [hrow])
        · cases hstep
        · next hrow hfree =>
          obtain rfl := Option.some.inj hstep
          exact .began hcall hrow hfree
    · cases hstep
  | lose call =>
    simp only [policyStep] at hstep
    split at hstep
    · next statement k hcall =>
      split at hstep
      · cases hstep
      · next hfree =>
        obtain rfl := Option.some.inj hstep
        exact .lost hcall hfree
    · cases hstep
  | put columns now =>
    simp only [policyStep] at hstep
    split at hstep
    · next row hrow =>
      obtain rfl := Option.some.inj hstep
      exact .updated hrow
    · next hrow hfree =>
      obtain rfl := Option.some.inj hstep
      exact .putBegan hrow hfree
    · cases hstep
  | commit now delivered =>
    simp only [policyStep] at hstep
    split at hstep
    · next call h =>
      obtain rfl := Option.some.inj hstep
      exact .committed h
    · next columns h =>
      obtain rfl := Option.some.inj hstep
      exact .committed h
    · cases hstep
  | rollBack =>
    simp only [policyStep] at hstep
    split at hstep
    · next call h =>
      obtain rfl := Option.some.inj hstep
      exact .rolledBack h
    · next columns h =>
      obtain rfl := Option.some.inj hstep
      exact .rolledBack h
    · cases hstep

theorem PolicyWorld.settle_row {result : Except AppError (Option PolicyRow)} {inserter : Inserter} :
    (s.settle result inserter).row = s.row := by
  cases inserter <;> simp [settle]

theorem PolicyWorld.settle_inserting {result : Except AppError (Option PolicyRow)}
    {inserter : Inserter} : (s.settle result inserter).inserting = none := by
  cases inserter <;> rfl

theorem committed_step (hstep : policyStep applicationId defaults s move = some s') :
    s'.row.isSome = (s.row.isSome || move.isCommit) := by
  cases policyStep_effect hstep with
  | read h | taken h hrow | lost h hfree => simp [PolicyMove.isCommit]
  | began h hrow hfree | putBegan hrow hfree => simp [PolicyMove.isCommit]
  | updated hrow => simp [hrow]
  | committed h => simp [PolicyMove.isCommit]
  | rolledBack h => simp [PolicyWorld.settle_row, PolicyMove.isCommit]

theorem keyFree_step (hkey : s.KeyFree)
    (hstep : policyStep applicationId defaults s move = some s') : s'.KeyFree := by
  cases policyStep_effect hstep with
  | read h | taken h hrow | lost h hfree => simpa [PolicyWorld.KeyFree] using hkey
  | began h hrow hfree | putBegan hrow hfree => exact fun _ => hrow
  | updated hrow =>
    intro hinserting
    exact absurd (hkey hinserting) (by simp [hrow])
  | committed h => simp [PolicyWorld.KeyFree, PolicyWorld.settle_inserting]
  | rolledBack h => simp [PolicyWorld.KeyFree, PolicyWorld.settle_inserting]

/-- Nothing but a put changes the row. -/
theorem row_step {row : PolicyRow} (hkey : s.KeyFree) (hrow : s.row = some row)
    (hstep : policyStep applicationId defaults s move = some s') (hput : move.isPut = false) :
    s'.row = some row := by
  cases policyStep_effect hstep with
  | read h | taken h _ | lost h hfree => simpa using hrow
  | began h hnone _ => simp [hrow] at hnone
  | updated _ | putBegan _ _ => simp [PolicyMove.isPut] at hput
  | committed h => simp [hkey (by simp [h])] at hrow
  | rolledBack h => rwa [PolicyWorld.settle_row]

/-! ## What a move makes of a call -/

namespace PolicyWorld.At

variable {place : CallAt} {k : Except AppError (Option PolicyRow) → PolicyCall}

section

variable (h : s.At table call place)
include h

theorem of_same (hcall : s'.calls call = s.calls call)
    (hinserting : s'.inserting = some (.call call) ↔ s.inserting = some (.call call))
    (hrow : s.row.isSome → s'.row.isSome) : s'.At table call place where
  program := hcall.trans h.program
  inFlight := hinserting.trans h.inFlight
  committed met := hrow (h.committed met)

theorem answered {statement : PolicyStatement} {result : Except AppError (Option PolicyRow)}
    {place' : CallAt} (hcall : s.calls call = .op statement k)
    (hflight : place.isInFlight = place'.isInFlight) (hplace : k result = place'.program table)
    (hrow : place'.hasRow → s.row.isSome) : (s.answer call result).At table call place' where
  program := (answer_self hcall).trans hplace
  inFlight := by rw [answer_inserting, h.inFlight, hflight]
  committed met := by simpa using hrow met

theorem asks {statement : PolicyStatement} (hcall : s.calls call = .op statement k) :
    ∃ statement' k', k = orElse (.op statement' k') := by
  have hprogram := h.program.symm.trans hcall
  cases place with
  | reading =>
    rw [CallAt.program, getOrCreatePolicyRow_eq] at hprogram
    cases hprogram
    exact ⟨_, _, rfl⟩
  | inserting | inFlight =>
    cases hprogram
    exact ⟨_, _, congrArg orElse (policyRounds_succ table 1)⟩
  | again =>
    rw [CallAt.program, policyRounds_succ] at hprogram
    cases hprogram
    exact ⟨_, _, rfl⟩
  | returned | failed => cases hprogram

theorem read (hcall : s.calls call = .op .select k) :
    ∃ place', (s.answer call (.ok s.row)).At table call place' ∧ place'.left < place.left ∧
      place'.isFailed = false := by
  have hprogram := h.program.symm.trans hcall
  cases place with
  | reading =>
    rw [CallAt.program, getOrCreatePolicyRow_eq] at hprogram
    cases hprogram
    cases hrow : s.row with
    | none => exact ⟨.inserting, h.answered hcall rfl rfl fun he => (nomatch he), by decide, rfl⟩
    | some row =>
      exact ⟨.returned row, h.answered hcall rfl rfl fun _ => by simp [hrow], by simp [CallAt.left], rfl⟩
  | again =>
    -- the row that was in the way of its insert is committed, and this statement sees it
    rw [CallAt.program, policyRounds_succ] at hprogram
    cases hprogram
    obtain ⟨row, hrow⟩ := Option.isSome_iff_exists.mp (h.committed rfl)
    rw [hrow]
    exact ⟨.returned row, h.answered hcall rfl rfl fun _ => by simp [hrow], by simp [CallAt.left], rfl⟩
  | inserting | inFlight | returned | failed => cases hprogram

theorem taken {onConflict : OnConflict} (hkey : s.KeyFree)
    (hcall : s.calls call = .op (.insert onConflict) k) (hrow : s.row.isSome) :
    ∃ place', (s.answer call (if onConflict = .doNothing then .ok none else .error .sqlx)).At table
      call place' ∧ place'.left < place.left ∧ place'.isFailed = false := by
  have hprogram := h.program.symm.trans hcall
  cases place with
  | inserting =>
    cases hprogram
    exact ⟨.again, h.answered hcall rfl rfl fun _ => hrow, by decide, rfl⟩
  | inFlight =>
    have hnone := hkey (by simp [h.inFlight.mpr rfl])
    simp [hnone] at hrow
  | reading =>
    rw [CallAt.program, getOrCreatePolicyRow_eq] at hprogram
    cases hprogram
  | again =>
    rw [CallAt.program, policyRounds_succ] at hprogram
    cases hprogram
  | returned | failed => cases hprogram

theorem began {onConflict : OnConflict} (hcall : s.calls call = .op (.insert onConflict) k)
    (hfree : s.inserting = none) :
    ∃ place', { s with inserting := some (.call call) }.At table call place' ∧
      place'.left < place.left ∧ place'.isFailed = false := by
  have hprogram := h.program.symm.trans hcall
  cases place with
  | inserting =>
    exact ⟨.inFlight, ⟨h.program, by simp [CallAt.isInFlight], fun he => (nomatch he)⟩, by decide, rfl⟩
  | inFlight =>
    have hinserting := h.inFlight.mpr rfl
    simp [hfree] at hinserting
  | reading =>
    rw [CallAt.program, getOrCreatePolicyRow_eq] at hprogram
    cases hprogram
  | again =>
    rw [CallAt.program, policyRounds_succ] at hprogram
    cases hprogram
  | returned | failed => cases hprogram

theorem lost {statement : PolicyStatement} (hcall : s.calls call = .op statement k)
    (hfree : s.inserting ≠ some (.call call)) :
    (s.answer call (.error .sqlx)).At table call .failed := by
  have hflight : place.isInFlight = false := by simpa using mt h.inFlight.mpr hfree
  obtain ⟨_, _, rfl⟩ := h.asks hcall
  exact h.answered hcall hflight rfl fun he => (nomatch he)

end

theorem settled (result : Except AppError (Option PolicyRow)) (row : Option PolicyRow)
    (place' : CallAt) (h : s.At table call place) (hinserting : s.inserting = some (.call call))
    (hplace : orElse (policyRounds table 2) result = place'.program table)
    (hover : place'.left = 0) (hrow : place'.hasRow → row.isSome) :
    { s.settle result (.call call) with row := row }.At table call place' ∧
      place'.left < place.left := by
  have hin : place = .inFlight := by
    have hflight := h.inFlight.mp hinserting
    cases place <;> first | rfl | cases hflight
  subst hin
  refine ⟨⟨?_, ?_, ?_⟩, by rw [hover]; decide⟩
  · exact (answer_self h.program).trans hplace
  · cases place' <;> simp_all [settle, CallAt.isInFlight, CallAt.left]
  · exact hrow

end PolicyWorld.At

theorem settle_call {result : Except AppError (Option PolicyRow)} {inserter : Inserter}
    (h : inserter ≠ .call call) : (s.settle result inserter).calls call = s.calls call := by
  cases inserter with
  | call other => exact PolicyWorld.answer_other fun he => h (congrArg Inserter.call he.symm)
  | put columns => rfl

/-- What one move makes of where a call is. -/
theorem callAt_step {place : CallAt} (h : s.At table call place) (hkey : s.KeyFree)
    (hstep : policyStep applicationId defaults s move = some s') :
    ∃ place', s'.At table call place' ∧ [move].count (.run call) + place'.left ≤ place.left ∧
      (place'.isFailed → place.isFailed ∨ s.Breaks call move) := by
  have hrow : s.row.isSome → s'.row.isSome := fun hrow => by simp [committed_step hstep, hrow]
  have own : ∀ place', s'.At table call place' → place'.left < place.left →
      (place'.isFailed → place.isFailed ∨ s.Breaks call move) →
      ∃ place', s'.At table call place' ∧ [move].count (.run call) + place'.left ≤ place.left ∧
        (place'.isFailed → place.isFailed ∨ s.Breaks call move) := by
    intro place' hat hlt hfailed
    have hcount : [move].count (.run call) ≤ 1 := List.count_le_length
    exact ⟨place', hat, by omega, hfailed⟩
  have others : move ≠ .run call → s'.calls call = s.calls call →
      (s'.inserting = some (.call call) ↔ s.inserting = some (.call call)) →
      ∃ place', s'.At table call place' ∧ [move].count (.run call) + place'.left ≤ place.left ∧
        (place'.isFailed → place.isFailed ∨ s.Breaks call move) := by
    intro hne hcall hinserting
    exact ⟨place, h.of_same hcall hinserting hrow, by simp [hne], Or.inl⟩
  cases policyStep_effect hstep with
  | @read moved k hcall =>
    by_cases he : moved = call
    · subst he
      obtain ⟨place', hat, hlt, hfailed⟩ := h.read hcall
      exact own place' hat hlt (by simp [hfailed])
    · exact others (by simp [he]) (PolicyWorld.answer_other (Ne.symm he)) (by simp)
  | @taken moved onConflict k hcall htaken =>
    by_cases he : moved = call
    · subst he
      obtain ⟨place', hat, hlt, hfailed⟩ := h.taken hkey hcall htaken
      exact own place' hat hlt (by simp [hfailed])
    · exact others (by simp [he]) (PolicyWorld.answer_other (Ne.symm he)) (by simp)
  | @began moved onConflict k hcall _ hfree =>
    by_cases he : moved = call
    · subst he
      obtain ⟨place', hat, hlt, hfailed⟩ := h.began hcall hfree
      exact own place' hat hlt (by simp [hfailed])
    · exact others (by simp [he]) rfl (by simp [hfree, he])
  | @lost moved statement k hcall hfree =>
    by_cases he : moved = call
    · subst he
      exact ⟨_, h.lost hcall hfree, by simp [CallAt.left], fun _ => Or.inr rfl⟩
    · exact others (by simp) (PolicyWorld.answer_other (Ne.symm he)) (by simp)
  | updated _ => exact others (by simp) rfl Iff.rfl
  | putBegan _ hfree => exact others (by simp) rfl (by simp [hfree])
  | @committed inserter row now delivered hinserting =>
    by_cases he : inserter = .call call
    · subst he
      cases delivered with
      | true =>
        obtain ⟨hat, hlt⟩ := h.settled (.ok (some row)) (some row) (.returned row) hinserting rfl rfl
          fun _ => rfl
        exact own _ hat hlt (by simp [CallAt.isFailed])
      | false =>
        obtain ⟨hat, hlt⟩ := h.settled (.error .sqlx) (some row) .failed hinserting rfl rfl
          fun he => (nomatch he)
        exact own _ hat hlt fun _ => Or.inr ⟨hinserting, rfl⟩
    · exact others (by simp) (settle_call he)
        (by simp [PolicyWorld.settle_inserting, hinserting, he])
  | @rolledBack inserter hinserting =>
    by_cases he : inserter = .call call
    · subst he
      obtain ⟨hat, hlt⟩ := h.settled (.error .sqlx) s.row .failed hinserting rfl rfl
        fun he => (nomatch he)
      exact own _ (by simpa [PolicyWorld.settle] using hat) hlt fun _ => Or.inr hinserting
    · exact others (by simp) (settle_call he)
        (by simp [PolicyWorld.settle_inserting, hinserting, he])

theorem returned_step {place : CallAt} {row : PolicyRow} (h : s.At table call place)
    (hstep : policyStep applicationId defaults s move = some s')
    (hbefore : s.calls call ≠ .ret row) (hafter : s'.calls call = .ret row) : s'.row = some row := by
  cases policyStep_effect hstep with
  | @read moved k hcall =>
    obtain rfl : moved = call := by
      by_contra he
      exact hbefore ((PolicyWorld.answer_other (Ne.symm he)).symm.trans hafter)
    obtain ⟨_, _, rfl⟩ := h.asks hcall
    rw [PolicyWorld.answer_self hcall] at hafter
    rw [PolicyWorld.answer_row]
    cases hrow : s.row with
    | none => simp [hrow, orElse] at hafter
    | some found => simpa [hrow, orElse] using hafter
  | @taken moved onConflict k hcall _ =>
    obtain rfl : moved = call := by
      by_contra he
      exact hbefore ((PolicyWorld.answer_other (Ne.symm he)).symm.trans hafter)
    obtain ⟨_, _, rfl⟩ := h.asks hcall
    rw [PolicyWorld.answer_self hcall] at hafter
    cases onConflict <;> simp [orElse] at hafter
  | @lost moved statement k hcall _ =>
    obtain rfl : moved = call := by
      by_contra he
      exact hbefore ((PolicyWorld.answer_other (Ne.symm he)).symm.trans hafter)
    obtain ⟨_, _, rfl⟩ := h.asks hcall
    rw [PolicyWorld.answer_self hcall] at hafter
    simp [orElse] at hafter
  | began | updated _ | putBegan _ _ => exact absurd hafter hbefore
  | @committed inserter found now delivered hinserting =>
    obtain rfl : inserter = .call call := by
      by_contra he
      exact hbefore ((settle_call he).symm.trans hafter)
    obtain ⟨hat, _⟩ := h.settled (if delivered then .ok (some found) else .error .sqlx) (some found)
      (if delivered then .returned found else .failed) hinserting
      (by cases delivered <;> rfl) (by cases delivered <;> rfl) (fun _ => rfl)
    have hprogram := hafter.symm.trans hat.program
    cases delivered with
    | true => simpa [CallAt.program] using hprogram.symm
    | false => simp [CallAt.program] at hprogram
  | @rolledBack inserter hinserting =>
    obtain rfl : inserter = .call call := by
      by_contra he
      exact hbefore ((settle_call he).symm.trans hafter)
    obtain ⟨hat, _⟩ := h.settled (.error .sqlx) s.row .failed hinserting rfl rfl
        fun he => (nomatch he)
    cases hafter.symm.trans hat.program

/-! ## Runs -/

section

variable (hrun : Transition.runFrom (policyStep applicationId defaults) s moves = some t)
include hrun

theorem callAt_run {place : CallAt} (h : s.At table call place) (hkey : s.KeyFree) :
    ∃ place', t.At table call place' ∧ moves.count (.run call) + place'.left ≤ place.left ∧
      (Transition.Meets (policyStep applicationId defaults) (fun s move => ¬ s.Breaks call move) s
        moves → place'.isFailed → place.isFailed) := by
  induction moves generalizing s place with
  | nil =>
    obtain rfl := Transition.runFrom_nil.mp hrun
    exact ⟨place, h, by simp, fun _ => id⟩
  | cons move moves ih =>
    obtain ⟨s', hstep, hrest⟩ := Transition.runFrom_cons.mp hrun
    obtain ⟨middle, hmiddle, hcount, hfailed⟩ := callAt_step h hkey hstep
    obtain ⟨place', hat, hcount', hfailed'⟩ := ih hrest hmiddle (keyFree_step hkey hstep)
    refine ⟨place', hat, ?_, fun hmeets hlost => ?_⟩
    · rw [← List.singleton_append, List.count_append]
      omega
    · obtain ⟨hunbroken, hmeets'⟩ := (Transition.meets_cons hstep).mp hmeets
      exact (hfailed (hfailed' hmeets' hlost)).resolve_right hunbroken

theorem keyFree_run (hkey : s.KeyFree) : t.KeyFree :=
  Transition.runFrom_invariant hrun hkey fun _ _ _ => keyFree_step

theorem commits_run (hkey : s.KeyFree) :
    moves.countP PolicyMove.isCommit + (if s.row.isSome then 1 else 0) =
      if t.row.isSome then 1 else 0 := by
  induction moves generalizing s with
  | nil =>
    obtain rfl := Transition.runFrom_nil.mp hrun
    simp
  | cons move moves ih =>
    obtain ⟨s', hstep, hrest⟩ := Transition.runFrom_cons.mp hrun
    rw [← ih hrest (keyFree_step hkey hstep), committed_step hstep, List.countP_cons]
    cases hcommit : move.isCommit with
    | false => simp
    | true =>
      have hnone : s.row = none := by
        cases policyStep_effect hstep with
        | committed hinserting => exact hkey (by simp [hinserting])
        | _ => simp [PolicyMove.isCommit] at hcommit
      simp [hnone]

end

theorem policyStep_live {k : Except AppError (Option PolicyRow) → PolicyCall}
    {statement : PolicyStatement} (hcall : s.calls call = .op statement k) (now : Nat) :
    (policyStep applicationId defaults s (.run call)).isSome ∨
      (policyStep applicationId defaults s (.commit now true)).isSome ∧
      (policyStep applicationId defaults s .rollBack).isSome := by
  cases hinserting : s.inserting with
  | none =>
    left
    simp only [policyStep, hcall]
    cases statement with
    | select => rfl
    | insert onConflict =>
      simp only [PolicyWorld.statement, hinserting]
      cases s.row with
      | none => rfl
      | some row => cases onConflict <;> rfl
  | some inserter =>
    right
    cases inserter <;> simp [policyStep, hinserting]

/--
**Policy rows are provisioned once.** After any moves of any number of calls and administrators,

- a call fails only when a statement of its own was lost, never with a duplicate key, and never
  after its last round; it runs at most three statements and is never stuck;
- what a call returns is the row that is committed at that moment;
- no insert commits when the row was there before, and one when a call has returned;
- nothing but a put changes the row.
-/
theorem policy_row_provisioned_once (row : Option PolicyRow)
    (hrun : Transition.runFrom (policyStep applicationId defaults) (policyInitial table row) moves =
      some t) :
    (∀ call,
      (∀ error, t.calls call = .fail error → error = .sqlx ∧
        ¬ Transition.Meets (policyStep applicationId defaults) (fun s move => ¬ s.Breaks call move)
          (policyInitial table row) moves) ∧
      moves.count (.run call) ≤ 3 ∧
      (∀ statement k now, t.calls call = .op statement k →
        (policyStep applicationId defaults t (.run call)).isSome ∨
          (policyStep applicationId defaults t (.commit now true)).isSome ∧
          (policyStep applicationId defaults t .rollBack).isSome) ∧
      ∀ move t' result, policyStep applicationId defaults t move = some t' →
        t.calls call ≠ .ret result → t'.calls call = .ret result → t'.row = some result) ∧
    (row.isSome → moves.countP PolicyMove.isCommit = 0) ∧
    (row = none → (∃ call result, t.calls call = .ret result) →
      moves.countP PolicyMove.isCommit = 1) ∧
    ∀ move t' committed, policyStep applicationId defaults t move = some t' → move.isPut = false →
      t.row = some committed → t'.row = some committed := by
  have hkey : (policyInitial table row).KeyFree := fun hinserting => (nomatch hinserting)
  have hinitial : ∀ call, (policyInitial table row).At table call .reading := fun call =>
    ⟨rfl, by simp [policyInitial, CallAt.isInFlight], fun he => (nomatch he)⟩
  have hcommits := commits_run hrun hkey
  refine ⟨fun call => ?_, fun hrow => ?_, fun hrow ⟨call, result, hcall⟩ => ?_, ?_⟩
  · obtain ⟨place, hat, hcount, hfailed⟩ := callAt_run hrun (hinitial call) hkey
    refine ⟨fun error hcall => ?_, Nat.le_of_add_right_le hcount,
      fun statement k now hcall => policyStep_live hcall now,
      fun move t' result hstep => returned_step hat hstep⟩
    have hprogram := hat.program.symm.trans hcall
    cases place with
    | failed =>
      cases hprogram
      exact ⟨rfl, fun hmeets => (nomatch hfailed hmeets rfl)⟩
    | reading =>
      rw [CallAt.program, getOrCreatePolicyRow_eq] at hprogram
      cases hprogram
    | again =>
      rw [CallAt.program, policyRounds_succ] at hprogram
      cases hprogram
    | inserting | inFlight | returned => cases hprogram
  · simp [policyInitial, hrow] at hcommits
    split at hcommits <;> omega
  · -- a call that has returned has met the row
    obtain ⟨place, hat, -, -⟩ := callAt_run hrun (hinitial call) hkey
    have hprogram := hat.program.symm.trans hcall
    have hmet : place.hasRow := by
      cases place with
      | returned => rfl
      | reading =>
        rw [CallAt.program, getOrCreatePolicyRow_eq] at hprogram
        cases hprogram
      | again => rfl
      | inserting | inFlight | failed => cases hprogram
    simpa [policyInitial, hrow, hat.committed hmet] using hcommits
  · intro move t' committed hstep hput hrow
    exact row_step (keyFree_run hrun hkey) hrow hstep hput

/-- Three calls race: the first takes the key and rolls back, the second inserts, the third reads.
-/
def racingCalls : List PolicyMove :=
  [.run 0, .run 1, .run 2, .run 0, .rollBack, .run 1, .commit 5 true, .run 2, .run 2]

/-- What a call has returned. -/
def PolicyWorld.result (s : PolicyWorld) (call : Nat) : Option PolicyRow :=
  match s.calls call with
  | .ret row => some row
  | _ => none

theorem PolicyWorld.result_eq_some {row : PolicyRow} :
    s.result call = some row ↔ s.calls call = .ret row := by
  unfold result
  split <;> simp_all

theorem policy_row_provisioned_once_racingCalls :
    ∃ t, Transition.runFrom (policyStep 7 (.obj [])) (policyInitial "policies" none) racingCalls =
        some t ∧
      t.result 2 = some (insertedRow 7 (.obj []) 5) ∧ racingCalls.countP PolicyMove.isCommit = 1 := by
  have hresult : ((Transition.runFrom (policyStep 7 (.obj [])) (policyInitial "policies" none)
      racingCalls).bind fun t => t.result 2) = some (insertedRow 7 (.obj []) 5) := by decide
  obtain ⟨t, hrun, hcall⟩ := Option.bind_eq_some_iff.mp hresult
  have hreturned := PolicyWorld.result_eq_some.mp hcall
  exact ⟨t, hrun, hcall, (policy_row_provisioned_once none hrun).2.2.1 rfl ⟨2, _, hreturned⟩⟩

end Moira
