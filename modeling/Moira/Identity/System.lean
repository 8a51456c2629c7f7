import Moira.Admin.System
import Moira.Identity.Services

/-!
# Identity calls side by side

Any number of identity calls over one database at read committed, each with its own transaction and
with the idempotency ledger of `Admin.System` between them.

- `Database` — the tables with the row versions of the open transactions, and the ownership lock. A
  statement waits for the locks it needs: it is granted only when it has them
- `Seen` — what a call has read and done so far
- `World.commits` — every commit, with the tables it was made on
- time passes, a connection breaks, a request is cancelled, at any point
-/

namespace Moira.Identity

open Admin (AdminOp AdminCommandRunner AdminCommandOutcome)

/-! ## The database -/

structure Database where
  grants : GrantStore
  invites : InviteStore
  providers : ProviderStore
  issuers : IssuerStore
  setup : SetupState
  /-- The transaction that has updated `setup_state`, with its version of the row. -/
  setupWrite : Option (Nat × SetupState) := none
  /-- Who holds the ownership lock. -/
  ownership : Option Nat := none

namespace Database

def ofTables (t : Tables) : Database where
  grants := { rows := t.grants }
  invites := { rows := t.invites }
  providers := { rows := t.providers }
  issuers := { rows := t.issuers }
  setup := t.setup

variable (db : Database) (i : Nat)

/-- What is committed. -/
def tables : Tables where
  grants := db.grants.rows
  setup := db.setup
  invites := db.invites.rows
  issuers := db.issuers.rows
  providers := db.providers.rows

def visibleSetup : SetupState :=
  ((db.setupWrite.filter (·.1 = i)).map (·.2)).getD db.setup

def commit : Database where
  grants := db.grants.commit (·.id) i
  invites := db.invites.commit (·.id) i
  providers := db.providers.commit (·.id) i
  issuers := db.issuers.commit (·.id) i
  setup := db.visibleSetup i
  setupWrite := db.setupWrite.filter (·.1 ≠ i)
  ownership := db.ownership.filter (· ≠ i)

/-- The transaction, or its savepoint, is rolled back: its locks go with it. -/
def rollback : Database where
  grants := db.grants.rollback i
  invites := db.invites.rollback i
  providers := db.providers.rollback i
  issuers := db.issuers.rollback i
  setup := db.setup
  setupWrite := db.setupWrite.filter (·.1 ≠ i)
  ownership := db.ownership.filter (· ≠ i)

/-- The call holds the ownership lock, or can take it. -/
def mayOwn : Bool :=
  db.ownership.all (· = i)

end Database

section Tables

variable {ρ : Type} [DecidableEq ρ] (key : ρ → Uuid) (pass : Store Nat Uuid ρ → Nat → ρ → Bool)
  (S : Store Nat Uuid ρ) (i : Nat)

/-- The statement returns the row, and its versions are written. -/
def writeTable (change : Except AppError (Change ρ)) (row : ρ) : Option (Store Nat Uuid ρ) :=
  match change with
  | .ok change => if change.result = row then Store.putAll key pass i S change.rows else none
  | .error _ => none

/-- The statement is refused by the code, or by an index. -/
def refuses (violation : ρ → Option AppError) (change : Except AppError (Change ρ))
    (err : AppError) : Bool :=
  match change with
  | .ok change => change.rows.any fun v => violation v = some err
  | .error refusal => refusal = err

end Tables

namespace Database

variable (db : Database) (i : Nat) (clock now : Nat)

/-- What a statement does. A database error does nothing. -/
def statement : (s : Statement) → Except AppError s.Result → Option Database
  | .grant s, .ok row =>
    if db.mayOwn i then
      (writeTable (·.id) passesGrantIndexes db.grants i
        (s.change (db.grants.visible (·.id) i) now) row).map fun grants =>
          { db with grants, ownership := some i }
    else none
  | .grant s, .error err =>
    if err = .sqlx then some db
    else if db.mayOwn i && refuses (grantViolation db.grants i)
        (s.change (db.grants.visible (·.id) i) now) err then
      some { db with ownership := some i }
    else none
  | .markSetupClaimed id, .ok _ =>
    if (db.visibleSetup i).claimed then some db
    else if db.setupWrite.all (·.1 = i) then
      some { db with setupWrite := some (i, markSetupClaimed (db.visibleSetup i) id now) }
    else none
  | .markSetupClaimed _, .error err => if err = .sqlx then some db else none
  | .invite s, .ok row =>
    (writeTable (·.id) passesInviteIndexes db.invites i
      (s.change (db.invites.visible (·.id) i) clock now) row).map fun invites => { db with invites }
  | .invite s, .error err =>
    if err = .sqlx || refuses (fun _ => none) (s.change (db.invites.visible (·.id) i) clock now) err then
      some db
    else none
  | .provider s, .ok row =>
    (writeTable (·.id) passesProviderIndexes db.providers i
      (s.change (db.providers.visible (·.id) i) now) row).map fun providers =>
        { db with providers }
  | .provider s, .error err =>
    if err = .sqlx || refuses (providerViolation db.providers i)
        (s.change (db.providers.visible (·.id) i) now) err then some db
    else none
  | .issuer s, .ok row =>
    (writeTable (·.id) passesIssuerIndexes db.issuers i
      (s.change (db.issuers.visible (·.id) i) now) row).map fun issuers => { db with issuers }
  | .issuer s, .error err =>
    if err = .sqlx || refuses (issuerViolation db.issuers i)
        (s.change (db.issuers.visible (·.id) i) now) err then some db
    else none

end Database

/-! ## What a call has seen -/

structure Seen where
  /-- The identity whose active primary grant the call has read. -/
  owner : Option (String × String) := none
  /-- The trusted issuer that the call has found active. -/
  resolved : Option Uuid := none
  /-- The trusted issuer that the call has found without active grants. -/
  counted : Option Uuid := none
  invite : Option AdminInviteRow := none
  /-- The policies of the providers that are bound to an issuer. -/
  bound : Option (Uuid × List GoverningAuthPolicy) := none
  /-- The policies of the unbound providers that carry an issuer's string. -/
  unbound : Option (String × List GoverningAuthPolicy) := none
  /-- The transaction has done something that it would commit. -/
  wrote : Bool := false
  /-- The grant that the transaction has inserted. -/
  granted : Option Uuid := none
  /-- The invite that the transaction has consumed, and the grant it was consumed for. -/
  consumed : Option (Uuid × Uuid) := none
  /-- A commit of what the call has done was acknowledged. -/
  committed : Bool := false
  /-- The outcome of a commit was not reported. -/
  unsure : Bool := false
  answered : Option (Except AppError (AdminCommandOutcome Response)) := none

namespace Seen

def recordFetch (seen : Seen) : (q : Query) → q.Row → Seen
  | .findActiveGrant issuer subject, grant =>
    if grant.any (·.isPrimary) then { seen with owner := some (issuer, subject) } else seen
  | .resolveActiveIssuer _, some id => { seen with resolved := some id }
  | .policiesBoundTo id, policies => { seen with bound := some (id, policies) }
  | .unboundPolicies issuer, policies => { seen with unbound := some (issuer, policies) }
  | .findInviteByPrefix _, invite => { seen with invite }
  | .countActiveGrantsForTrustedIssuer id, count =>
    if count = 0 then { seen with counted := some id } else seen
  | _, _ => seen

def recordStatement (seen : Seen) : (s : Statement) → s.Result → Seen
  | .grant (.insertGrant _), grant => { seen with wrote := true, granted := some grant.id }
  | .invite (.consumeInvite id _ _ adminIdentityId), _ =>
    { seen with wrote := true, consumed := some (id, adminIdentityId) }
  | _, _ => { seen with wrote := true }

/-- What one answer adds. -/
def record (seen : Seen) : (o : IdentityOp) → o.Ans → Seen
  | .fetch q, .ok row => seen.recordFetch q row
  | .statement s, .ok row => seen.recordStatement s row
  | .command .rollbackSavepoint, .ok _ =>
    { seen with wrote := false, granted := none, consumed := none }
  | .command .commit, answer =>
    { seen with
      wrote := false
      committed := seen.committed || (seen.wrote && answer.result.isOk)
      unsure := seen.unsure || !answer.result.isOk }
  | .command (.reply result), _ => { seen with answered := some result }
  | _, _ => seen

end Seen

/-! ## The world -/

/-- A transaction that committed, with the tables it was made on. -/
structure Commit where
  call : Nat
  before : Tables
  /-- What the call had seen. -/
  seen : Seen
  /-- When the transaction was begun. -/
  startedAt : Nat
  grants : List AdminIdentityGrant
  invites : List AdminInviteRow
  providers : List AuthProviderRow
  issuers : List TrustedJwtIssuerRow
  committedAt : Nat
  /-- The call was told so. -/
  acknowledged : Bool

structure World where
  commands : Admin.World Response
  db : Database
  seen : Nat → Seen := fun _ => {}
  /-- The calls that have been answered something. -/
  started : List Nat := []
  /-- The calls whose request was cancelled. -/
  gone : Nat → Bool := fun _ => false
  /-- Newest first. -/
  commits : List Commit := []

instance instDecidableEqRow : (q : Query) → DecidableEq q.Row
  | .findActiveGrant .. => inferInstanceAs (DecidableEq (Option AdminIdentityGrant))
  | .resolveActiveIssuer _ => inferInstanceAs (DecidableEq (Option Uuid))
  | .policiesBoundTo _ => inferInstanceAs (DecidableEq (List GoverningAuthPolicy))
  | .unboundPolicies _ => inferInstanceAs (DecidableEq (List GoverningAuthPolicy))
  | .findInviteByPrefix _ => inferInstanceAs (DecidableEq (Option AdminInviteRow))
  | .countActiveGrantsForTrustedIssuer _ => inferInstanceAs (DecidableEq Nat)
  | .getProvider _ => inferInstanceAs (DecidableEq (Option AuthProviderRow))
  | .trustedIssuerScopesClaim _ => inferInstanceAs (DecidableEq (Option (Option String)))
  | .trustedIssuerIdsForIssuer .. => inferInstanceAs (DecidableEq (List Uuid))
  | .enabledProvidersOnTrustedIssuer .. => inferInstanceAs (DecidableEq (List Uuid))

/-- A failed statement of the runner is a database error. -/
def isSqlx {α : Type} : Except AppError α → Bool
  | .ok _ => true
  | .error err => err = .sqlx

def failsWithSqlx : (o : AdminOp Response) → o.Ans → Bool
  | .begin, result => isSqlx result
  | .tryLock _, result => isSqlx result
  | .sweepExpired _, result => isSqlx result
  | .load _, result => isSqlx result
  | .insertClaim _, .failed err => err = .sqlx
  | .savepoint, result => isSqlx result
  | .releaseSavepoint, result => isSqlx result
  | .rollbackSavepoint, result => isSqlx result
  | .finalize .., result => isSqlx result
  | .commit, answer => isSqlx answer.result
  | .rollback, result => isSqlx result
  | _, _ => true

namespace World

variable (w : World) (i : Nat)

def commitOf (acknowledged : Bool) : Commit where
  call := i
  before := w.db.tables
  seen := w.seen i
  startedAt := w.commands.startedAt i
  grants := (w.db.grants.tx i).writes
  invites := (w.db.invites.tx i).writes
  providers := (w.db.providers.tx i).writes
  issuers := (w.db.issuers.tx i).writes
  committedAt := w.commands.now
  acknowledged := acknowledged

/-- What the end of a transaction or of its savepoint does to the tables. -/
def settle : (o : AdminOp Response) → o.Ans → World
  | .commit, answer =>
    if answer.committed then
      { w with db := w.db.commit i, commits := w.commitOf i answer.result.isOk :: w.commits }
    else { w with db := w.db.rollback i }
  | .rollbackSavepoint, .ok _ => { w with db := w.db.rollback i }
  | .rollback, _ => { w with db := w.db.rollback i }
  | .drop, _ => { w with db := w.db.rollback i }
  | _, _ => w

def respond : (o : IdentityOp) → o.Ans → Option World
  | .command o, answer =>
    if failsWithSqlx o answer then
      (Admin.grant i w.commands o answer).map fun commands => { w.settle i o answer with commands }
    else none
  | .fetch q, .ok row => if row = q.answer w.db.tables then some w else none
  | .fetch _, .error err => if err = .sqlx then some w else none
  | .statement s, answer =>
    if w.commands.opened i then
      (w.db.statement i w.commands.now (w.commands.startedAt i) s answer).map fun db => { w with db }
    else
      match answer with
      | .ok _ => none
      | .error err => if err = .sqlx then some w else none
  | .insertAudit _, answer => if isSqlx answer then some w else none
  | .rejectDeniedJwksUrl _, _ | .verify .., _ | .generate, _ | .newId, _ => some w

/-- The call writes down what it was answered. -/
def see (o : IdentityOp) (x : o.Ans) : World :=
  { w with
    seen := Function.update w.seen i ((w.seen i).record o x)
    started := if i ∈ w.started then w.started else i :: w.started }

end World

def grant (i : Nat) (w : World) (o : IdentityOp) (x : o.Ans) : Option World :=
  if w.gone i then none else (w.respond i o x).map fun w' => w'.see i o x

inductive WorldEvent
  | wait (seconds : Nat)
  /-- Retention deletes a row of the ledger that has expired. -/
  | sweep (p : Position)
  | disconnect (i : Nat)
  | cancel (i : Nat)

def nature (w : World) : WorldEvent → Option World
  | .wait seconds => some { w with commands := { w.commands with now := w.commands.now + seconds } }
  | .sweep p => some { w with
      commands := { w.commands with ledger := w.commands.ledger.sweep w.commands.now p } }
  | .disconnect i => some { w with commands := w.commands.close i, db := w.db.rollback i }
  | .cancel i => some { w with
      commands := w.commands.close i, db := w.db.rollback i
      gone := Function.update w.gone i true }

variable (lib : Libraries) (runner : AdminCommandRunner Response) (requests : Nat → Request)

def identity : System Nat where
  sig _ := identitySig
  Point _ := Point
  code i := code lib runner (requests i)
  World := World
  Event := WorldEvent
  grant := grant
  nature := nature

/-- No call has made a step yet. -/
def identityInitial (ledger : Ledger) (t : Tables) : (identity lib runner requests).State where
  world := { commands := { ledger }, db := .ofTables t }
  proc i := code lib runner (requests i) .start

end Moira.Identity
