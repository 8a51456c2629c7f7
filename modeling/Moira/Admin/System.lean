import Moira.Lib.System
import Moira.Admin.Command

/-!
# Admin commands side by side

Any number of calls of `AdminCommandRunner::execute`, each in a transaction of its own at read
committed, with the ledger and the advisory locks between them.

- what a transaction has deleted, inserted and mutated is its own until it commits
- an insert waits while another open transaction has a row at its position, and is refused when a
  committed one is there
- advisory transaction locks go with the transaction, however it ends
- time passes, retention deletes rows that have expired, a connection breaks at any point

The world keeps what each call has done and was answered (`AdminCall`), and every commit.
-/

namespace Moira.Admin

variable {T : Type}

/-- What a call has been answered, and what its transaction holds. -/
structure AdminCall (T : Type) where
  locked : Bool := false
  /-- The positions that were looked up and held nothing. -/
  clear : List Position := []
  found : Option IdempotencyRecord := none
  inserted : Option IdempotencyRecord := none
  mutation : Option (Except AppError (AdminCommandMutation T)) := none
  /-- The transaction holds effects of the mutation. -/
  mutated : Bool := false
  /-- The unique index refused the claim. -/
  refused : Bool := false
  /-- A statement reported an error, or the wait for the lock was given up. -/
  failed : Bool := false
  /-- What was committed: the row, and whether the transaction held effects of the mutation. -/
  committed : Option (Option IdempotencyRecord × Bool) := none
  reply : Option (Except AppError (AdminCommandOutcome T)) := none

def isError {α : Type} : Except AppError α → Bool
  | .ok _ => false
  | .error _ => true

/-- The row with its answer. -/
def answeredRow (status : Int) (body : Json) (resourceId : Option String)
    (row : IdempotencyRecord) : IdempotencyRecord :=
  { row with responseStatus := some status, responseBody := some body, resourceId }

namespace AdminCall

def stepFailed : (o : AdminOp T) → o.Ans → Bool
  | .begin, result => isError result
  | .tryLock _, result => isError result
  | .pastDeadline, past => past
  | .sweepExpired _, result => isError result
  | .load _, result => isError result
  | .insertClaim _, answer => isError answer.result
  | .savepoint, result => isError result
  | .releaseSavepoint, result => isError result
  | .rollbackSavepoint, result => isError result
  | .finalize .., result => isError result
  | .commit, committed => isError committed.result
  | .rollback, result => isError result
  | .utcNow, _ | .sleep, _ | .mutate, _ | .drop, _ | .reply _, _ => false

/-- What one answer adds. -/
def record (call : AdminCall T) : (o : AdminOp T) → o.Ans → AdminCall T
  | .tryLock _, .ok true => { call with locked := true }
  | .load p, .ok none => { call with clear := p :: call.clear }
  | .load _, .ok (some row) => { call with found := some row }
  | .insertClaim row, .inserted => { call with inserted := some row }
  | .insertClaim _, .duplicate => { call with refused := true, failed := true }
  | .mutate, result => { call with mutation := some result, mutated := true }
  | .rollbackSavepoint, .ok _ => { call with mutated := false }
  | .finalize status body resourceId, .ok _ =>
    { call with inserted := call.inserted.map (answeredRow status body resourceId) }
  | .commit, ⟨.ok _, _⟩ => { call with committed := some (call.inserted, call.mutated) }
  | .reply result, _ => { call with reply := some result }
  | o, x => { call with failed := call.failed || stepFailed o x }

end AdminCall

/-- A transaction that committed. -/
structure Commit where
  call : Nat
  row : Option IdempotencyRecord
  mutated : Bool
  committedAt : Nat

structure World (T : Type) where
  ledger : Ledger
  now : Nat := 0
  /-- The calls whose transaction is open. -/
  opened : Nat → Bool := fun _ => false
  startedAt : Nat → Nat := fun _ => 0
  /-- The rows that the open transaction of a call has deleted. -/
  deleted : Nat → List IdempotencyRecord := fun _ => []
  /-- The open transaction that has inserted a row at a position. -/
  pending : Position → Option Nat := fun _ => none
  locks : Int → Option Nat := fun _ => none
  calls : Nat → AdminCall T := fun _ => {}
  /-- Newest first. -/
  commits : List Commit := []

namespace World

variable (w : World T) (i : Nat)

/-- The ledger as the transaction of a call sees it. -/
def visible (p : Position) : Option IdempotencyRecord :=
  match (w.calls i).inserted.filter (·.position = p) with
  | some row => some row
  | none => (w.ledger p).filter (· ∉ w.deleted i)

/-- The transaction is over, and its locks with it. -/
def close : World T :=
  { w with
    opened := Function.update w.opened i false
    pending := fun p => (w.pending p).filter (· ≠ i)
    locks := fun key => (w.locks key).filter (· ≠ i) }

/-- The ledger without what a transaction has deleted, and with what it has inserted. -/
def committedLedger : Ledger := fun p => w.visible i p

def commit : World T :=
  { w.close i with
    ledger := w.committedLedger i
    commits :=
      { call := i, row := (w.calls i).inserted, mutated := (w.calls i).mutated
        committedAt := w.now } :: w.commits }

/-- The rows a sweep reaches: they had expired when the transaction began. -/
def sweepExpired (positions : List Position) : World T :=
  { w with
    deleted := Function.update w.deleted i (w.deleted i ++
      (positions.filterMap w.ledger).filter fun row => row.expiresAt ≤ w.startedAt i) }

/-- What the database answers, and what a statement does. A statement that fails does nothing. -/
def respond : (o : AdminOp T) → o.Ans → Option (World T)
  | .begin, .ok _ =>
    some { w with
      opened := Function.update w.opened i true
      startedAt := Function.update w.startedAt i w.now
      deleted := Function.update w.deleted i [] }
  | .utcNow, now => if now = w.now then some w else none
  | .tryLock key, .ok acquired =>
    if w.opened i = true ∧ acquired = (w.locks key).all (· = i) then
      some (if acquired then { w with locks := Function.update w.locks key (some i) } else w)
    else none
  | .sweepExpired positions, .ok _ => if w.opened i then some (w.sweepExpired i positions) else none
  | .load p, .ok row => if w.opened i = true ∧ row = w.visible i p then some w else none
  | .insertClaim row, .inserted =>
    if w.opened i = true ∧ w.visible i row.position = none ∧ w.pending row.position = none then
      some { w with pending := Function.update w.pending row.position (some i) }
    else none
  | .insertClaim row, .duplicate =>
    if w.opened i = true ∧ w.visible i row.position ≠ none then some w else none
  | .savepoint, .ok _ => if w.opened i then some w else none
  | .releaseSavepoint, .ok _ => if w.opened i then some w else none
  | .rollbackSavepoint, .ok _ => if w.opened i then some w else none
  | .mutate, .ok _ => if w.opened i then some w else none
  | .finalize .., .ok _ =>
    if w.opened i = true ∧ (w.calls i).inserted.any (fun row =>
        row.responseStatus.isNone && row.responseBody.isNone) then some w
    else none
  | .commit, ⟨.ok _, committed⟩ =>
    if w.opened i = true ∧ committed = true then some (w.commit i) else none
  | .commit, ⟨.error _, committed⟩ =>
    if committed then (if w.opened i then some (w.commit i) else none) else some (w.close i)
  | .rollback, _ => some (w.close i)
  | .drop, _ => some (w.close i)
  | _, _ => some w

/-- The call writes down what it was answered. -/
def see (o : AdminOp T) (x : o.Ans) : World T :=
  { w with calls := Function.update w.calls i ((w.calls i).record o x) }

end World

def grant (i : Nat) (w : World T) (o : AdminOp T) (x : o.Ans) : Option (World T) :=
  (w.respond i o x).map fun w' => w'.see i o x

variable (runner : AdminCommandRunner T) (specs : Nat → AdminCommandSpec)

inductive WorldEvent
  | wait (seconds : Nat)
  | sweep (p : Position)
  | disconnect (i : Nat)

def nature (w : World T) : WorldEvent → Option (World T)
  | .wait seconds => some { w with now := w.now + seconds }
  | .sweep p => some { w with ledger := w.ledger.sweep w.now p }
  | .disconnect i => some (w.close i)

def commands : System Nat where
  sig _ := adminSig T
  Point _ := AdminPoint
  code i := code runner (specs i)
  World := World T
  Event := WorldEvent
  grant := grant
  nature := nature

/-- No call has made a step yet. -/
def commandsInitial (ledger : Ledger) : (commands runner specs).State where
  world := { ledger }
  proc i := code runner (specs i) .start

end Moira.Admin
