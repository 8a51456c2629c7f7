import Moira.Lib.Program
import Moira.Idempotency.Ledger

/-!
# Admin commands

`AdminCommandRunner::execute`: one transaction that takes the advisory lock of the idempotency key,
looks for a record, runs the mutation under a savepoint and stores what a replay is answered with.

The answer a command returns is of any type `T`; `serde` reads it back from a stored body.
-/

namespace Moira.Admin

/-! ## Commands -/

structure AdminCommandIdempotency where
  key : String
  actorIdentity : String

structure AdminCommandSpec where
  operation : String
  path : Json
  request : Json
  expectedVersion : Option Int := none
  idempotency : Option AdminCommandIdempotency := none

structure AdminCommandMutation (T : Type) where
  clientResponse : T
  replayResponse : Json
  status : UInt16
  resourceId : Option String

structure AdminCommandOutcome (T : Type) where
  response : T
  status : UInt16
  resourceId : Option String
  replayed : Bool
  deriving DecidableEq

/-- The runner, with what it takes from libraries: `serde` and the key of the advisory lock. -/
structure AdminCommandRunner (T : Type) where
  hasher : IdempotencyHasher
  acceptLegacyHashes : Bool
  /-- `serde_json::to_vec` of a canonical value. -/
  render : Json → String
  /-- `serde_json::from_value` at the type of the answer. -/
  decode : Json → Except String T
  /-- The first eight bytes of the SHA-256 digest. -/
  advisoryLockKey : Position → Int

variable {T : Type} (runner : AdminCommandRunner T) (spec : AdminCommandSpec)

/-! ### The envelope -/

/-- Insert a field before the first one with a greater key. -/
def insertField (field : String × Json) : List (String × Json) → List (String × Json)
  | [] => [field]
  | next :: rest =>
    if field.1 < next.1 then field :: next :: rest else next :: insertField field rest

mutual

/-- `canonicalize`: objects with their keys in order, at every level. -/
def canonicalize : Json → Json
  | .obj fields => .obj (canonicalizeFields fields)
  | .arr items => .arr (canonicalizeItems items)
  | scalar => scalar

def canonicalizeItems : List Json → List Json
  | [] => []
  | item :: rest => canonicalize item :: canonicalizeItems rest

def canonicalizeFields : List (String × Json) → List (String × Json)
  | [] => []
  | (key, value) :: rest => insertField (key, canonicalize value) (canonicalizeFields rest)

end

def adminCommandVersion : Int := 1

def envelope : Json :=
  .obj [("version", .num adminCommandVersion), ("operation", .str spec.operation),
    ("path", spec.path), ("request", spec.request),
    ("expected_version", (spec.expectedVersion.map Json.num).getD .null)]

def envelopeBytes : String :=
  runner.render (canonicalize (envelope spec))

/-! ### Stored answers -/

structure StoredAdminError where
  code : String
  messageKey : String
  message : String
  messageArgs : Json
  details : Option Json

inductive StoredAdminReplay
  | success (body : Json)
  | failure (error : StoredAdminError)

def StoredAdminReplay.toJson : StoredAdminReplay → Json
  | .success body => .obj [("kind", .str "success"), ("body", body)]
  | .failure error =>
    .obj [("kind", .str "failure"),
      ("error", .obj [("code", .str error.code), ("message_key", .str error.messageKey),
        ("message", .str error.message), ("message_args", error.messageArgs),
        ("details", error.details.getD .null)])]

/-- An optional field: `null` is read as absent. -/
def optional : Option Json → Option Json
  | some .null => none
  | value => value

def StoredAdminError.fromJson (json : Json) : Option StoredAdminError := do
  let code ← (json.get "code").bind Json.asStr
  let messageKey ← (json.get "message_key").bind Json.asStr
  let message ← (json.get "message").bind Json.asStr
  let messageArgs ← json.get "message_args"
  pure { code, messageKey, message, messageArgs, details := optional (json.get "details") }

def StoredAdminReplay.fromJson (json : Json) : Option StoredAdminReplay :=
  match (json.get "kind").bind Json.asStr with
  | some "success" => (json.get "body").map .success
  | some "failure" => ((json.get "error").bind StoredAdminError.fromJson).map .failure
  | _ => none

/-- What is stored for a mutation: status, body and resource. -/
def stored : Except AppError (AdminCommandMutation T) → Int × Json × Option String
  | .ok result =>
    (result.status.toNat, (StoredAdminReplay.success result.replayResponse).toJson,
      result.resourceId)
  | .error error =>
    let response := error.errorResponse ""
    (error.status, (StoredAdminReplay.failure
      { code := response.code, messageKey := response.messageKey, message := response.message
        messageArgs := response.messageArgs, details := response.details }).toJson, none)

/-- `u16::try_from` of a stored status. -/
def statusOf (status : Int) : Option UInt16 :=
  if 0 ≤ status ∧ status < 65536 then some (UInt16.ofNat status.toNat) else none

/-- `http_status`. -/
def httpStatus (status : UInt16) : Except AppError Nat :=
  if 100 ≤ status.toNat ∧ status.toNat < 1000 then .ok status.toNat
  else .error (.internal ("invalid idempotent response status " ++ toString status.toNat))

def decoded (context : String) (record : IdempotencyRecord) (status : UInt16) (body : Json) :
    Except AppError (AdminCommandOutcome T) :=
  match runner.decode body with
  | .ok response => .ok { response, status, resourceId := record.resourceId, replayed := true }
  | .error err => .error (.internal (context ++ err))

/-- `replay_record`. -/
def replayRecord (record : IdempotencyRecord) : Except AppError (AdminCommandOutcome T) :=
  match record.responseStatus.bind statusOf, record.responseBody with
  | none, _ => .error (.internal "idempotent response is missing its status")
  | _, none => .error (.internal "idempotent response is missing its body")
  | some status, some body =>
    match StoredAdminReplay.fromJson body with
    | some (.success body) =>
      decoded runner "decode idempotent success response: " record status body
    | some (.failure error) =>
      match httpStatus status with
      | .error err => .error err
      | .ok status =>
        .error (.replayed
          { status, code := error.code, messageKey := error.messageKey, message := error.message
            messageArgs := error.messageArgs, details := error.details })
    | none => decoded runner "decode legacy idempotent response: " record status body

def idempotencyConflict : AppError :=
  .conflict "idempotency_conflict" "same Idempotency-Key was used with a different request"

def idempotencyInProgress : AppError :=
  .conflict "idempotency_in_progress"
    "another request with this Idempotency-Key is still in progress"

/-- `verify_stored_request_hash`. -/
def storedHashMatches (bytes hash : String) : Bool :=
  (runner.acceptLegacyHashes || hash.toList.contains ':') && runner.hasher.verify bytes hash

/-- What a call makes of a record it has found, short of committing. -/
def recordVerdict (record : IdempotencyRecord) : Except AppError Unit :=
  if !storedHashMatches runner (envelopeBytes runner spec) record.requestHash then
    .error idempotencyConflict
  else if record.responseStatus.isNone || record.responseBody.isNone then
    .error idempotencyInProgress
  else .ok ()

/-! ## The claim -/

structure AdminIdempotencyClaim where
  keyHash : String
  legacyKeyHash : Option String
  actorFingerprint : String
  legacyActorFingerprint : Option String
  operation : String
  requestHash : String
  expiresAt : Nat

/-- `IDEMPOTENCY_RETENTION_HOURS`, in seconds. -/
def retentionSeconds : Nat :=
  24 * 60 * 60

def claimOf (idempotency : AdminCommandIdempotency) (now : Nat) : AdminIdempotencyClaim where
  keyHash := runner.hasher.hash idempotency.key
  legacyKeyHash :=
    if runner.acceptLegacyHashes then some (runner.hasher.legacyHash idempotency.key) else none
  actorFingerprint := runner.hasher.hash idempotency.actorIdentity
  legacyActorFingerprint := some (runner.hasher.legacyHash idempotency.actorIdentity)
  operation := spec.operation
  requestHash := runner.hasher.hash (envelopeBytes runner spec)
  expiresAt := now + retentionSeconds

namespace AdminIdempotencyClaim

variable (claim : AdminIdempotencyClaim)

/-- Where the claim is written. -/
def position : Position where
  keyHash := claim.keyHash
  actorFingerprint := claim.actorFingerprint
  operation := claim.operation

/-- Every spelling of that position, the current one first. -/
def positions : List Position :=
  (claim.actorFingerprint :: claim.legacyActorFingerprint.toList).flatMap fun actorFingerprint =>
    (claim.keyHash :: claim.legacyKeyHash.toList).map fun keyHash =>
      { keyHash, actorFingerprint, operation := claim.operation }

def record : IdempotencyRecord where
  position := claim.position
  requestHash := claim.requestHash
  expiresAt := claim.expiresAt

end AdminIdempotencyClaim

/-! ## Operations -/

/-- The answer of the claim insert: the unique index can refuse it. -/
inductive Inserted
  | inserted
  | duplicate
  | failed (err : AppError)

def Inserted.result : Inserted → Except AppError Unit
  | inserted => .ok ()
  | duplicate => .error .sqlx
  | failed err => .error err

/-- The answer of a commit: what the caller sees, and whether it was committed. -/
structure Committed where
  result : Except AppError Unit
  committed : Bool

inductive AdminOp (T : Type)
  | begin
  | utcNow
  | tryLock (key : Int)
  /-- `Instant::now() >= deadline`. -/
  | pastDeadline
  | sleep
  | sweepExpired (positions : List Position)
  | load (p : Position)
  | insertClaim (record : IdempotencyRecord)
  | savepoint
  | releaseSavepoint
  | rollbackSavepoint
  | mutate
  | finalize (status : Int) (body : Json) (resourceId : Option String)
  | commit
  | rollback
  /-- The transaction goes out of scope. -/
  | drop
  | reply (result : Except AppError (AdminCommandOutcome T))

abbrev AdminOp.Ans : AdminOp T → Type
  | begin => Except AppError Unit
  | utcNow => Nat
  | tryLock _ => Except AppError Bool
  | pastDeadline => Bool
  | sleep => Unit
  | sweepExpired _ => Except AppError Unit
  | load _ => Except AppError (Option IdempotencyRecord)
  | insertClaim _ => Inserted
  | savepoint => Except AppError Unit
  | releaseSavepoint => Except AppError Unit
  | rollbackSavepoint => Except AppError Unit
  | mutate => Except AppError (AdminCommandMutation T)
  | finalize .. => Except AppError Unit
  | commit => Committed
  | rollback => Except AppError Unit
  | drop => Unit
  | reply _ => Unit

abbrev adminSig (T : Type) : Sig where
  Op := AdminOp T
  Ans := AdminOp.Ans

abbrev Command (T α : Type) := Prog (adminSig T) AppError α

namespace Command

abbrev ask (o : AdminOp T) : Command T o.Ans :=
  Prog.ask (S := adminSig T) o

abbrev orFail {α : Type} (result : Except AppError α) : Command T α :=
  Prog.ofExcept result

end Command

open Command

/-! ## The program -/

/-- The first of the positions that holds a record. -/
def loadFirst : List Position → Command T (Option IdempotencyRecord)
  | [] => pure none
  | p :: rest => do
    match ← orFail (← ask (.load p)) with
    | some record => pure (some record)
    | none => loadFirst rest

/-- `claim_idempotency` after the lock: the record that was found, or `none` with a claim. -/
def claimIdempotency (claim : AdminIdempotencyClaim) : Command T (Option IdempotencyRecord) := do
  orFail (← ask (.sweepExpired claim.positions))
  match ← loadFirst claim.positions with
  | some record => pure (some record)
  | none => do
    orFail (← ask (.insertClaim claim.record)).result
    pure none

/-- `finalize_idempotency` for what a mutation came to. -/
def finalize (result : Except AppError (AdminCommandMutation T)) : Command T Unit := do
  orFail (← ask (.finalize (stored result).1 (stored result).2.1 (stored result).2.2))

/-- The mutation under its savepoint, and what becomes of the transaction. -/
def runMutation (claimed : Bool) : Command T (AdminCommandOutcome T) := do
  orFail (← ask .savepoint)
  match ← ask .mutate with
  | .ok result => do
    orFail (← ask .releaseSavepoint)
    if claimed then finalize (.ok result)
    orFail (← ask .commit).result
    pure { response := result.clientResponse, status := result.status
           resourceId := result.resourceId, replayed := false }
  | .error error =>
    if claimed && error.isCacheableAdminFailure then do
      orFail (← ask .rollbackSavepoint)
      finalize (.error error)
      orFail (← ask .commit).result
      .fail error
    else do
      orFail (← ask .rollback)
      .fail error

/-- With the lock: replay what is stored, or run the mutation. -/
def withLock (claim : AdminIdempotencyClaim) : Command T (AdminCommandOutcome T) := do
  match ← claimIdempotency claim with
  | some record => do
    orFail (recordVerdict runner spec record)
    orFail (← ask .commit).result
    orFail (replayRecord runner record)
  | none => runMutation true

/-- Where a call stands between two jumps. -/
inductive AdminPoint
  | start
  | tryLock (claim : AdminIdempotencyClaim)

/-- A segment of the code ends the call or jumps. -/
inductive Next (T : Type)
  | done (outcome : AdminCommandOutcome T)
  | jump (point : AdminPoint)

def execute : AdminPoint → Command T (Next T)
  | .start => do
    orFail (← ask .begin)
    match spec.idempotency with
    | none => do
      let outcome ← runMutation false
      pure (.done outcome)
    | some idempotency => do
      let now ← ask .utcNow
      pure (.jump (.tryLock (claimOf runner spec idempotency now)))
  | .tryLock claim => do
    if ← orFail (← ask (.tryLock (runner.advisoryLockKey claim.position))) then do
      let outcome ← withLock runner spec claim
      pure (.done outcome)
    else if ← ask .pastDeadline then .fail idempotencyInProgress
    else do
      ask .sleep
      pure (.jump (.tryLock claim))

/-- The end of a call: the transaction is dropped, and the caller is answered. -/
def answer (result : Except AppError (AdminCommandOutcome T)) :
    Prog (adminSig T) Empty (Option AdminPoint) := do
  Prog.ask (S := adminSig T) .drop
  Prog.ask (S := adminSig T) (.reply result)
  pure none

/-- The code of a call. -/
def code (point : AdminPoint) : Prog (adminSig T) Empty (Option AdminPoint) := do
  match ← (execute runner spec point).attempt with
  | .ok (.jump point) => pure (some point)
  | .ok (.done outcome) => answer (.ok outcome)
  | .error err => answer (.error err)

end Moira.Admin
