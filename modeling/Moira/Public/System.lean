import Moira.Lib.System
import Moira.Public.CreateResponse

/-!
# Calls and their logs

What an observer of the operations writes down about one call of `create_response`: the ledger as
the call's own statements change it, the row it claimed, the outcome of its execution, and whether
one of its steps went wrong. The ledger's clock stands still during the call.

Any number of calls of `create_response` on one ledger, their statements in any order. Time passes
between any two of them, and retention deletes a row at any time after it has expired. A write that
reports an error may have been committed all the same; every service other than the ledger answers
anything.

The world keeps a history: which row each call has found or claimed (`CallSeen`), every claim insert
that succeeded and every execution that was dispatched.

- `broken` — after the claim, a step failed before the finishing write was committed
- `erred` — the caller saw an error of a step, or was not admitted
-/

namespace Moira.Public

structure CallLog where
  ledger : Ledger
  now : Nat
  claimed : Option IdempotencyRecord := none
  outcome : Option ExecutionOutcome := none
  broken : Bool := false
  erred : Bool := false

/-- Before the first step of a call. -/
def CallLog.start (ledger : Ledger) (now : Nat) : CallLog :=
  { ledger, now }

def isError {α : Type} : Except AppError α → Bool
  | .ok _ => false
  | .error _ => true

/-- Whether the caller saw an error of the step, or was refused by it. -/
def stepErred : (o : ResponseOp) → o.Ans → Bool
  | .now, _ => false
  | .executionPolicy _, .ok policy => !policy.responsesEnabled
  | .executionPolicy _, .error _ => true
  | .finishIdempotency .., written => isError written.result
  | .claimInsert _, written => isError written.result
  | .authorize, answer => isError answer
  | .checkRateLimit _, answer => isError answer
  | .prepareExecution, answer => isError answer
  | .getIdempotencyRecord .., answer => isError answer
  | .newConversationService, answer => isError answer
  | .prepareResponseConversation, answer => isError answer
  | .insertResponseStarted _, answer => isError answer
  | .audit _, answer => isError answer
  | .newExecutionService, answer => isError answer
  | .execute, answer => isError answer
  | .completeResponse _, answer => isError answer
  | .recordAssistant .., answer => isError answer
  | .failResponse _, answer => isError answer

/-- Whether the step leaves the claim unfinished: it failed, or the finishing write was lost. -/
def stepBroke : (o : ResponseOp) → o.Ans → Bool
  | .finishIdempotency .., written => !written.committed
  | o, answer => stepErred o answer

/-- The statements on the ledger. -/
def ledgerAfter (l : Ledger) : (o : ResponseOp) → o.Ans → Ledger
  | .claimInsert record, written =>
    if written.committed then (l.insert record).2 else l
  | .finishIdempotency p status body resourceId, written =>
    if written.committed then l.finish p status body resourceId else l
  | _, _ => l

def claimAfter (claimed : Option IdempotencyRecord) : (o : ResponseOp) → o.Ans →
    Option IdempotencyRecord
  | .claimInsert record, ⟨.ok true, _⟩ => some record
  | _, _ => claimed

def outcomeAfter (outcome : Option ExecutionOutcome) : (o : ResponseOp) → o.Ans →
    Option ExecutionOutcome
  | .execute, .ok outcome => some outcome
  | _, _ => outcome

/-- What one exchange adds to the log. -/
def CallLog.record (c : CallLog) (o : ResponseOp) (x : o.Ans) : CallLog where
  ledger := ledgerAfter c.ledger o x
  now := c.now
  claimed := claimAfter c.claimed o x
  outcome := outcomeAfter c.outcome o x
  broken := c.broken || (c.claimed.isSome && stepBroke o x)
  erred := c.erred || stepErred o x

/-- What the ledger may answer; a write that is acknowledged was committed. -/
def callAnswers (c : CallLog) : (o : ResponseOp) → o.Ans → Prop
  | .now, now => now = c.now
  | .getIdempotencyRecord _ p, .ok row => row = c.ledger.get c.now p
  | .claimInsert record, ⟨.ok inserted, committed⟩ =>
    inserted = (c.ledger.insert record).1 ∧ committed = true
  | .finishIdempotency .., ⟨.ok _, committed⟩ => committed = true
  | _, _ => True

def callContract : Contract responseSig CallLog where
  may _ _ := True
  answers := callAnswers
  next := CallLog.record

/-- The log of a list of exchanges. -/
def logOf (ledger : Ledger) (now : Nat) (tr : List (Prog.Exchange responseSig)) : CallLog :=
  callContract.track (CallLog.start ledger now) tr

/-- The exchanges are those of a call on this ledger. -/
def HonestCall (ledger : Ledger) (now : Nat) (tr : List (Prog.Exchange responseSig)) : Prop :=
  callContract.Honest (CallLog.start ledger now) tr

/-- What a call has seen of the ledger, and whether it has dispatched its execution. -/
structure CallSeen where
  /-- The row that the probes or the conflict read came to. -/
  found : Option IdempotencyRecord := none
  claimed : Option IdempotencyRecord := none
  dispatched : Bool := false

def CallSeen.record (seen : CallSeen) : (o : ResponseOp) → o.Ans → CallSeen
  | .getIdempotencyRecord .probe _, .ok (some row) => { seen with found := some row }
  | .getIdempotencyRecord .conflict _, .ok (some row) => { seen with found := some row }
  | .claimInsert record, ⟨.ok true, _⟩ => { seen with claimed := some record }
  | .execute, _ => { seen with dispatched := true }
  | _, _ => seen

/-- A claim insert that succeeded. -/
structure LedgerClaim where
  call : Nat
  position : Position
  claimedAt : Nat
  expiresAt : Nat
  deriving DecidableEq

structure Dispatched where
  call : Nat
  dispatchedAt : Nat
  deriving DecidableEq

structure World where
  ledger : Ledger
  now : Nat := 0
  calls : Nat → CallSeen := fun _ => {}
  /-- Newest first. -/
  claims : List LedgerClaim := []
  dispatches : List Dispatched := []

namespace World

def see (w : World) (i : Nat) (o : ResponseOp) (x : o.Ans) : World :=
  { w with calls := Function.update w.calls i ((w.calls i).record o x) }

def insert (w : World) (i : Nat) (record : IdempotencyRecord) : Written Bool → Option World
  | ⟨.ok true, true⟩ =>
    if (w.ledger.insert record).1 then
      let claim : LedgerClaim :=
        { call := i, position := record.position, claimedAt := w.now, expiresAt := record.expiresAt }
      some { w with ledger := (w.ledger.insert record).2, claims := claim :: w.claims }
    else none
  | ⟨.ok false, true⟩ => if (w.ledger.insert record).1 then none else some w
  | ⟨.ok _, false⟩ => none
  | ⟨.error _, committed⟩ =>
    some { w with ledger := if committed then (w.ledger.insert record).2 else w.ledger }

def finish (w : World) (p : Position) (status : Int) (body : Json) (resourceId : Option String) :
    Written Unit → Option World
  | ⟨.ok _, false⟩ => none
  | ⟨_, committed⟩ =>
    some { w with ledger := if committed then w.ledger.finish p status body resourceId else w.ledger }

def dispatch (w : World) (i : Nat) : World :=
  { w with dispatches := { call := i, dispatchedAt := w.now } :: w.dispatches }

/-- What the ledger answers, and what a statement does to it. -/
def answer (w : World) (i : Nat) : (o : ResponseOp) → o.Ans → Option World
  | .now, time => if time = w.now then some w else none
  | .getIdempotencyRecord _ p, .ok row => if row = w.ledger.get w.now p then some w else none
  | .claimInsert record, written => w.insert i record written
  | .finishIdempotency p status body resourceId, written =>
    w.finish p status body resourceId written
  | .execute, _ => some (w.dispatch i)
  | _, _ => some w

def grant (i : Nat) (w : World) (o : ResponseOp) (x : o.Ans) : Option World :=
  (w.answer i o x).map fun w' => w'.see i o x

end World

inductive WorldEvent
  | wait (seconds : Nat)
  | sweep (p : Position)

def nature (w : World) : WorldEvent → Option World
  | .wait seconds => some { w with now := w.now + seconds }
  | .sweep p => some { w with ledger := w.ledger.sweep w.now p }

variable (hasher : IdempotencyHasher) (codec : ResponseCodec) (inputs : Nat → CallInput)

/-- The code of a call, whose answer the caller takes away. -/
def callCode (i : Nat) : Prog responseSig Empty (Option Unit) := do
  let _ ← (createResponse hasher codec (inputs i)).attempt
  pure none

def calls : System Nat where
  sig _ := responseSig
  Point _ := Unit
  code i _ := callCode hasher codec inputs i
  World := World
  Event := WorldEvent
  grant := World.grant
  nature := nature

/-- No call has made a step yet. -/
def callsInitial (ledger : Ledger) : (calls hasher codec inputs).State where
  world := { ledger }
  proc := callCode hasher codec inputs

end Moira.Public
