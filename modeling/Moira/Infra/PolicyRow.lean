import Mathlib.Logic.Function.Basic
import Moira.Domain.AppError
import Moira.Domain.Failure
import Moira.Lib.System

/-!
# Policy rows

The row of one application in one of the policy tables. `get_or_create_policy_row` reads it and
inserts the default one when there is none; any number of these calls run side by side, with
administrators who put a policy.
-/

namespace Moira

structure PolicyRow where
  applicationId : Uuid
  version : Nat
  updatedAt : Nat
  /-- The settings of the policy. -/
  columns : Json
  deriving DecidableEq

/-! ## The call -/

/-- What an `insert` does when the key is there already. -/
inductive OnConflict
  | doNothing
  /-- No `on conflict` clause: `duplicate key value violates unique constraint`. -/
  | duplicateKey
  deriving DecidableEq

inductive PolicyStatement
  | select
  | insert (onConflict : OnConflict)

abbrev PolicySql : Sig where
  Op := PolicyStatement
  Ans _ := Except AppError (Option PolicyRow)

abbrev PolicyCall := Prog PolicySql AppError PolicyRow

/-- `ATTEMPTS` -/
def attempts : Nat := 3

/-- `fetch_optional`, with `?`. -/
def fetchOptional (statement : PolicyStatement) : Prog PolicySql AppError (Option PolicyRow) := do
  let result ← Prog.ask statement
  Prog.ofExcept result

/-- What is left of the loop with `rounds` rounds to go. -/
def policyRounds (table : String) : Nat → PolicyCall
  | 0 => .fail (.internal (table ++
      " policy row for this application could not be read or created after " ++
      toString attempts ++ " attempts"))
  | rounds + 1 => do
    match ← fetchOptional .select with
    | some row => return row
    | none =>
      match ← fetchOptional (.insert .doNothing) with
      | some row => return row
      | none => policyRounds table rounds

/-- `get_or_create_policy_row` -/
def getOrCreatePolicyRow (table : String) : PolicyCall :=
  policyRounds table attempts

/-! ## The table -/

/-- Whose insert is in flight: a call's, or the upsert of a `PUT`, with the settings it writes. -/
inductive Inserter
  | call (id : Nat)
  | put (columns : Json)
  deriving DecidableEq

structure PolicyWorld where
  /-- What is committed. -/
  row : Option PolicyRow := none
  /-- The insert that has the key and has neither committed nor rolled back. -/
  inserting : Option Inserter := none
  calls : Nat → PolicyCall

inductive PolicyMove
  /-- The next statement of a call runs. -/
  | run (call : Nat)
  /-- A statement of a call fails before it took effect: its connection is lost. -/
  | lose (call : Nat)
  /-- An administrator puts the policy. -/
  | put (columns : Json) (now : Nat)
  /-- The insert in flight commits; the call it is of learns of it, or loses its connection. -/
  | commit (now : Nat) (delivered : Bool)
  | rollBack
  deriving DecidableEq

namespace PolicyWorld

variable (s : PolicyWorld)

/-- A call goes on. -/
def resume (call : Nat) (rest : PolicyCall) : PolicyWorld :=
  { s with calls := Function.update s.calls call rest }

/-- The statement in flight of a call is answered. -/
def answer (call : Nat) (result : Except AppError (Option PolicyRow)) : PolicyWorld :=
  match s.calls call with
  | .op _ k => s.resume call (k result)
  | _ => s

/-- One statement of a call; `none` while it waits for the insert in flight. -/
def statement (call : Nat) : PolicyStatement → Option PolicyWorld
  | .select => some (s.answer call (.ok s.row))
  | .insert onConflict =>
    match s.row, s.inserting with
    | some _, _ =>
      match onConflict with
      | .doNothing => some (s.answer call (.ok none))
      | .duplicateKey => some (s.answer call (.error .sqlx))
    | none, some _ => none
    | none, none => some { s with inserting := some (.call call) }

end PolicyWorld

/-- The row an insert of `application_id` alone leaves: the defaults of the table. -/
def insertedRow (applicationId : Uuid) (columns : Json) (now : Nat) : PolicyRow :=
  { applicationId, version := 1, updatedAt := now, columns }

/-- An `UPDATE` of the row, and what the `bump_version` trigger makes of it. -/
def PolicyRow.updated (row : PolicyRow) (columns : Json) (now : Nat) : PolicyRow :=
  { row with columns, version := row.version + 1, updatedAt := now }

/-- One move around the row of an application, in a table with these defaults. -/
def policyStep (applicationId : Uuid) (defaults : Json) (s : PolicyWorld) :
    PolicyMove → Option PolicyWorld
  | .run call =>
    match s.calls call with
    | .op statement _ => s.statement call statement
    | _ => none
  | .lose call =>
    match s.calls call with
    | .op _ _ =>
      -- an insert that has the key is over when it rolls back
      if s.inserting = some (.call call) then none else some (s.answer call (.error .sqlx))
    | _ => none
  | .put columns now =>
    match s.row, s.inserting with
    | some row, _ => some { s with row := some (row.updated columns now) }
    | none, none => some { s with inserting := some (.put columns) }
    | none, some _ => none
  | .commit now delivered =>
    match s.inserting with
    | some (.call call) =>
      let row := insertedRow applicationId defaults now
      let result := if delivered then .ok (some row) else .error .sqlx
      some { s.answer call result with row := some row, inserting := none }
    | some (.put columns) =>
      some { s with row := some (insertedRow applicationId columns now), inserting := none }
    | none => none
  | .rollBack =>
    match s.inserting with
    | some (.call call) => some { s.answer call (.error .sqlx) with inserting := none }
    | some (.put _) => some { s with inserting := none }
    | none => none

/-- Every call is about to begin. -/
def policyInitial (table : String) (row : Option PolicyRow) : PolicyWorld where
  row := row
  calls _ := getOrCreatePolicyRow table

end Moira
