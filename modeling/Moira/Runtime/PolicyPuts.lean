import Moira.Lib.System
import Moira.Security.Authz

/-!
# Putting a policy under `If-Match`

Three tables with one row for each owner, and the calls that write them.
-/

namespace Moira

open Prog

inductive PolicyTable
  | providerRuntimePolicies
  | applicationRoutingDefaults
  | applicationExecutionPolicies
  deriving DecidableEq

/-- The fields of a request, by the column each of them sets. -/
abbrev PutRequest := List (String × Json)

/-- The columns with their defaults, which the rows inserted by a `PUT` without them have too. -/
def PolicyTable.defaults : PolicyTable → List (String × Json)
  | providerRuntimePolicies =>
    [("connect_timeout_ms", .num 5000), ("request_timeout_ms", .num 120000),
      ("stream_idle_timeout_ms", .num 30000), ("max_concurrent_requests", .num 100),
      ("max_concurrent_streams", .num 50), ("retry_limit", .num 2),
      ("retry_base_delay_ms", .num 100), ("retry_max_delay_ms", .num 2000),
      ("circuit_failure_threshold", .num 5), ("circuit_open_duration_ms", .num 30000),
      ("status", .str "active")]
  | applicationRoutingDefaults =>
    [("default_priority", .num 100), ("complexity_weight_profile", .obj [])]
  | applicationExecutionPolicies =>
    [("responses_enabled", .bool true), ("streaming_enabled", .bool true),
      ("tools_enabled", .bool false), ("vision_enabled", .bool true),
      ("structured_output_enabled", .bool true), ("caller_system_instructions_allowed", .bool false),
      ("model_overrides_allowed", .bool false), ("route_overrides_allowed", .bool false),
      ("provider_overrides_allowed", .bool false), ("credential_overrides_allowed", .bool false),
      ("timeout_overrides_allowed", .bool false), ("persistence_mode", .str "metadata_only"),
      ("response_retention_seconds", .num 2592000), ("maximum_request_bytes", .num 1048576),
      ("maximum_input_items", .num 128), ("maximum_output_tokens", .num 8192),
      ("maximum_timeout_ms", .num 600000), ("rate_limit_requests_per_minute", .num 120),
      ("rate_limit_streams_per_minute", .num 60), ("metadata", .obj [])]

structure StoredPolicy where
  columns : List (String × Json)
  version : Int
  deriving DecidableEq

/-- `coalesce($n, column)`, column by column. -/
def coalesce (request : PutRequest) (columns : List (String × Json)) : List (String × Json) :=
  columns.map fun column => (column.1, (request.lookup column.1).getD column.2)

/-- The row an `INSERT` leaves. -/
def PolicyTable.inserted (table : PolicyTable) (request : PutRequest) : StoredPolicy where
  columns := coalesce request table.defaults
  version := 1

/-- The row an `UPDATE` leaves, with what `moira_bump_resource_version` makes of it. -/
def StoredPolicy.updated (row : StoredPolicy) (request : PutRequest) : StoredPolicy where
  columns := coalesce request row.columns
  version := row.version + 1

/-- `insert … on conflict … do update` -/
def PolicyTable.upserted (table : PolicyTable) (row : Option StoredPolicy) (request : PutRequest) :
    StoredPolicy :=
  match row with
  | some row => row.updated request
  | none => table.inserted request

/-- What a `GET` answers: the row, or the defaults in its place. -/
def PolicyTable.shown (table : PolicyTable) (row : Option StoredPolicy) : StoredPolicy :=
  row.getD { columns := table.defaults, version := 1 }

/-! ## Checks -/

def versionConflict : AppError :=
  .conflict "resource_version_conflict" "resource version does not match If-Match"

/-- Whether a field is given with a number below `bound`. -/
def givenBelow (bound : Int) (request : PutRequest) (field : String) : Bool :=
  match request.lookup field with
  | some (.num n) => n < bound
  | _ => false

def validateRuntimePolicy (request : PutRequest) : Except AppError Unit :=
  if ["connect_timeout_ms", "request_timeout_ms", "stream_idle_timeout_ms", "max_concurrent_requests",
      "max_concurrent_streams", "circuit_failure_threshold", "circuit_open_duration_ms"].any
        (givenBelow 1 request) then
    .error (.badRequest "runtime policy positive fields must be greater than zero")
  else if ["retry_limit", "retry_base_delay_ms", "retry_max_delay_ms"].any (givenBelow 0 request) then
    .error (.badRequest "runtime policy retry fields must be non-negative")
  else .ok ()

/-- `encodedBytes` is the length of what `serde_json` writes. -/
def validateRoutingDefaults (encodedBytes : Json → Nat) (request : PutRequest) : Except AppError Unit :=
  if givenBelow 0 request "default_priority" then
    .error (.badRequest "default_priority must be non-negative")
  else
    match request.lookup "complexity_weight_profile" with
    | some profile =>
      if 16 * 1024 < encodedBytes profile then .error (.badRequest "metadata must be at most 16KiB")
      else .ok ()
    | none => .ok ()

def validatePolicyRequest (request : PutRequest) : Except AppError Unit :=
  if givenBelow 0 request "response_retention_seconds" ||
      ["maximum_request_bytes", "maximum_input_items", "maximum_output_tokens", "maximum_timeout_ms",
        "rate_limit_requests_per_minute", "rate_limit_streams_per_minute"].any
          (givenBelow 1 request) then
    .error (.badRequest "execution policy numeric limits must be positive")
  else .ok ()

/-! ## Calls -/

structure PutCall where
  table : PolicyTable
  owner : Uuid
  actor : Actor
  /-- `If-Match` -/
  expectedVersion : Option Int
  request : PutRequest

inductive PutOp
  | idempotencyReplay
  | get
  | upsert (request : PutRequest)
  | recordIdempotency (record : StoredPolicy)
  | begin
  | insertDefault
  | selectVersionForUpdate
  | update (request : PutRequest) (currentVersion : Int)
  | commit
  /-- The transaction is dropped. -/
  | rollback
  | audit
  /-- The caller is answered. -/
  | respond (result : Except AppError StoredPolicy)

/-- The answer to a transaction's end: a commit can take effect although its answer is lost. -/
structure Committed (α : Type) where
  result : Except AppError α
  committed : Bool

abbrev PutOp.Ans : PutOp → Type
  | idempotencyReplay => Except AppError (Option StoredPolicy)
  | get => Except AppError StoredPolicy
  | upsert _ => Committed StoredPolicy
  | recordIdempotency _ => Except AppError Unit
  | begin => Except AppError Unit
  | insertDefault => Except AppError Unit
  | selectVersionForUpdate => Except AppError Int
  | update _ _ => Except AppError (Option StoredPolicy)
  | commit => Committed Unit
  | rollback => Unit
  | audit => Except AppError Unit
  | respond _ => Unit

abbrev putSig : Sig where
  Op := PutOp
  Ans := PutOp.Ans

/-- A statement, with `?`. -/
def putStatement (o : PutOp) {α : Type} (h : o.Ans = Except AppError α) : Prog putSig AppError α := do
  ofExcept (h ▸ (← ask (S := putSig) o))

/-- The comparison with the row that was read. -/
def checkVersion (expectedVersion : Option Int) : Except AppError StoredPolicy → Except AppError Unit
  | .ok existing =>
    match expectedVersion with
    | some expected => if existing.version = expected then .ok () else .error versionConflict
    | none => .error (.badRequest "If-Match header is required")
  | .error (.notFound _) => .ok ()
  | .error err => .error err

section

variable (validate : PutRequest → Except AppError Unit) (scope : String) (call : PutCall)

/-- `put_provider_runtime_policy`, and `put_application_routing_defaults`, which mirrors it. -/
def putUnderCheck : Prog putSig AppError StoredPolicy := do
  ofExcept (call.actor.require scope)
  match ← putStatement .idempotencyReplay rfl with
  | some replay => return replay
  | none => do
    ofExcept (validate call.request)
    let existing ← ask (S := putSig) .get
    ofExcept (checkVersion call.expectedVersion existing)
    let written ← ask (S := putSig) (.upsert call.request)
    let record ← ofExcept written.result
    putStatement (.recordIdempotency record) rfl
    return record

/-- The transaction of `put_application_execution_policy`, up to its commit. -/
def lockedUpdate : Prog putSig AppError StoredPolicy := do
  putStatement .insertDefault rfl
  let currentVersion ← putStatement .selectVersionForUpdate rfl
  if call.expectedVersion.any (· ≠ currentVersion) then .fail versionConflict
  else
    match ← putStatement (.update call.request currentVersion) rfl with
    | some record => return record
    | none => .fail versionConflict

/-- `put_application_execution_policy` -/
def putUnderLock : Prog putSig AppError StoredPolicy := do
  ofExcept (call.actor.require scope)
  ofExcept (validate call.request)
  putStatement .begin rfl
  match ← attempt (lockedUpdate call) with
  | .error err => do
    ask (S := putSig) .rollback
    .fail err
  | .ok record => do
    let ended ← ask (S := putSig) .commit
    ofExcept ended.result
    putStatement .audit rfl
    return record

end

def PutCall.code (encodedBytes : Json → Nat) (call : PutCall) : Prog putSig Empty (Option Unit) := do
  let result ← attempt <|
    match call.table with
    | .providerRuntimePolicies => putUnderCheck validateRuntimePolicy "moira:runtime-policies:write" call
    | .applicationRoutingDefaults =>
      putUnderCheck (validateRoutingDefaults encodedBytes) "moira:routing-defaults:write" call
    | .applicationExecutionPolicies =>
      putUnderLock validatePolicyRequest "moira:execution-policies:write" call
  ask (S := putSig) (.respond result)
  return none

/-! ## The tables -/

/-- The row of one owner in one table. -/
structure PolicyCell where
  row : Option StoredPolicy := none
  /-- The call whose transaction has the row locked. -/
  holder : Option Nat := none
  /-- What that transaction has written, before its commit. -/
  pending : Option StoredPolicy := none

/-- What an observer writes down of a call. -/
structure PutNote where
  /-- The version it has read, and whether there was a row. -/
  read : Option (Int × Bool) := none
  /-- Its transaction has updated the row. -/
  updated : Bool := false
  wrote : Bool := false
  answer : Option (Except AppError StoredPolicy) := none

structure PutWorld where
  cells : PolicyTable × Uuid → PolicyCell := fun _ => {}
  notes : Nat → PutNote := fun _ => {}

namespace PolicyCell

variable (cell : PolicyCell)

/-- What the transaction that has the row locked sees. -/
def visible : Option StoredPolicy :=
  cell.pending.or cell.row

/-- A call can take the lock, or has it. -/
def lockable (id : Nat) : Bool :=
  cell.holder.all (· = id)

def committed : PolicyCell :=
  { row := cell.visible }

def rolledBack : PolicyCell :=
  { row := cell.row }

end PolicyCell

section

variable (calls : Nat → PutCall) (id : Nat) (w : PutWorld)

def PutWorld.cell : PolicyCell :=
  w.cells ((calls id).table, (calls id).owner)

def PutWorld.setCell (cell : PolicyCell) : PutWorld :=
  { w with cells := Function.update w.cells ((calls id).table, (calls id).owner) cell }

def PutWorld.note (note : PutNote) : PutWorld :=
  { w with notes := Function.update w.notes id note }

/-- The answers a statement can get, and the tables after it. A statement that fails has no effect.
-/
def grantPut : (o : PutOp) → o.Ans → Option PutWorld
  | .get, .ok shown =>
    let cell := w.cell calls id
    if shown = (calls id).table.shown cell.row then
      some (w.note id { w.notes id with read := some (shown.version, cell.row.isSome) })
    else none
  | .get, .error err => if err = .sqlx then some w else none
  | .upsert request, written =>
    let cell := w.cell calls id
    let row := (calls id).table.upserted cell.row request
    let after :=
      (w.setCell calls id { cell with row := some row }).note id { w.notes id with wrote := true }
    match written.result, written.committed with
    | .ok record, true => if record = row then some after else none
    | .ok _, false => none
    | .error _, true => some after
    | .error _, false => some w
  | .insertDefault, .ok _ =>
    let cell := w.cell calls id
    if cell.row.isSome then some w
    else if cell.lockable id then
      some (w.setCell calls id
        { cell with holder := some id, pending := some ((calls id).table.inserted []) })
    else none
  | .selectVersionForUpdate, .ok version =>
    let cell := w.cell calls id
    match cell.visible with
    | some row =>
      if cell.lockable id ∧ row.version = version then
        some ((w.setCell calls id { cell with holder := some id }).note id
          { w.notes id with read := some (version, cell.row.isSome) })
      else none
    | none => none
  | .update request currentVersion, .ok updated =>
    let cell := w.cell calls id
    match cell.visible with
    | some row =>
      if cell.holder = some id then
        if row.version = currentVersion then
          if updated = some (row.updated request) then
            some ((w.setCell calls id { cell with pending := some (row.updated request) }).note id
              { w.notes id with updated := true })
          else none
        else if updated = none then some w else none
      else none
    | none => none
  | .commit, ended =>
    let cell := w.cell calls id
    match ended.result, ended.committed with
    | .ok _, true | .error _, true =>
      if cell.holder = some id then
        some ((w.setCell calls id cell.committed).note id { w.notes id with wrote := true })
      else none
    | .ok _, false => none
    | .error _, false =>
      if cell.holder = some id then some (w.setCell calls id cell.rolledBack) else some w
  | .rollback, _ =>
    let cell := w.cell calls id
    if cell.holder = some id then some (w.setCell calls id cell.rolledBack) else some w
  | .respond result, _ => some (w.note id { w.notes id with answer := some result })
  | _, _ => some w

/-- The connection of a transaction is lost. -/
def loseConnection : Option PutWorld :=
  let cell := w.cell calls id
  if cell.holder = some id then some (w.setCell calls id cell.rolledBack) else none

end

/-- The calls, all of them before their first line. -/
def putTraffic (encodedBytes : Json → Nat) (calls : Nat → PutCall) : System Nat where
  sig _ := putSig
  Point _ := Unit
  code i _ := (calls i).code encodedBytes
  World := PutWorld
  Event := Nat
  grant := fun i w o x => grantPut calls i w o x
  nature := fun w i => loseConnection calls i w

def putsAtStart (encodedBytes : Json → Nat) (calls : Nat → PutCall)
    (rows : PolicyTable × Uuid → Option StoredPolicy) : (putTraffic encodedBytes calls).State where
  world := { cells := fun key => { row := rows key } }
  proc i := (calls i).code encodedBytes

end Moira
