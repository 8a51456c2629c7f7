import Mathlib.Logic.Basic

/-!
# JSON values and errors

The values request bodies, stored bodies and event payloads carry. Equality is decidable, so a
run on concrete bodies can be evaluated.

`AppError`, the HTTP status and code each variant answers with, and the body a client receives.
-/

namespace Moira

inductive Json
  | null
  | bool (b : Bool)
  | num (n : Int)
  | str (s : String)
  | arr (items : List Json)
  | obj (fields : List (String × Json))

namespace Json

/-- `Value::get` on an object: the value under a key. -/
def get (key : String) : Json → Option Json
  | .obj fields => (fields.find? (fun field => field.1 = key)).map (·.2)
  | _ => none

def asStr : Json → Option String
  | .str s => some s
  | _ => none

/-! ## Decidable equality -/

mutual

def beq : Json → Json → Bool
  | .null, .null => true
  | .bool a, .bool b => a == b
  | .num a, .num b => a == b
  | .str a, .str b => a == b
  | .arr a, .arr b => beqItems a b
  | .obj a, .obj b => beqFields a b
  | _, _ => false

def beqItems : List Json → List Json → Bool
  | [], [] => true
  | a :: as, b :: bs => beq a b && beqItems as bs
  | _, _ => false

def beqFields : List (String × Json) → List (String × Json) → Bool
  | [], [] => true
  | (k, a) :: as, (l, b) :: bs => k == l && beq a b && beqFields as bs
  | _, _ => false

end

mutual

theorem beq_iff : ∀ a b : Json, beq a b = true ↔ a = b
  | .arr a, .arr b => by rw [beq, beqItems_iff a b, Json.arr.injEq]
  | .obj a, .obj b => by rw [beq, beqFields_iff a b, Json.obj.injEq]
  | .null, b => by cases b <;> simp [beq]
  | .bool a, b => by cases b <;> simp [beq]
  | .num a, b => by cases b <;> simp [beq]
  | .str a, b => by cases b <;> simp [beq]
  | .arr a, .null | .arr a, .bool _ | .arr a, .num _ | .arr a, .str _ | .arr a, .obj _ => by
    simp [beq]
  | .obj a, .null | .obj a, .bool _ | .obj a, .num _ | .obj a, .str _ | .obj a, .arr _ => by
    simp [beq]

theorem beqItems_iff : ∀ a b : List Json, beqItems a b = true ↔ a = b
  | [], [] => by simp [beqItems]
  | a :: as, b :: bs => by simp [beqItems, beq_iff a b, beqItems_iff as bs]
  | [], _ :: _ | _ :: _, [] => by simp [beqItems]

theorem beqFields_iff : ∀ a b : List (String × Json), beqFields a b = true ↔ a = b
  | [], [] => by simp [beqFields]
  | (k, a) :: as, (l, b) :: bs => by
    simp [beqFields, beq_iff a b, beqFields_iff as bs]
  | [], _ :: _ | _ :: _, [] => by simp [beqFields]

end

instance : DecidableEq Json := fun a b => decidable_of_iff _ (beq_iff a b)

end Json

/-- A failure stored by an admin command, given back on a replay. -/
structure ReplayedError where
  status : Nat
  code : String
  messageKey : String
  message : String
  messageArgs : Json
  details : Option Json
  deriving DecidableEq

inductive AppError
  | badRequest (message : String)
  | api (status : Nat) (code : String) (message : String) (details : Option Json)
  | replayed (replay : ReplayedError)
  | unauthorized (message : String)
  | forbidden (message : String)
  | notFound (message : String)
  | databaseUnavailable
  | upstream (message : String)
  | config (message : String)
  | sqlx
  | reqwest
  | redis
  | internal (message : String)
  deriving DecidableEq

namespace AppError

def coded (status : Nat) (code message : String) : AppError :=
  .api status code message none

def conflict (code message : String) : AppError :=
  coded 409 code message

def status : AppError → Nat
  | badRequest _ | config _ => 400
  | api status _ _ _ => status
  | replayed replay => replay.status
  | unauthorized _ => 401
  | forbidden _ => 403
  | notFound _ => 404
  | databaseUnavailable => 503
  | upstream _ => 502
  | sqlx | reqwest | redis | internal _ => 500

def code : AppError → String
  | badRequest _ => "bad_request"
  | api _ code _ _ => code
  | replayed replay => replay.code
  | unauthorized _ => "unauthorized"
  | forbidden _ => "forbidden"
  | notFound _ => "not_found"
  | databaseUnavailable => "database_unavailable"
  | upstream _ => "upstream_error"
  | config _ => "configuration_error"
  | sqlx => "database_error"
  | reqwest => "http_client_error"
  | redis => "redis_error"
  | internal _ => "internal_error"

def englishMessage : AppError → String
  | badRequest message | unauthorized message | forbidden message | notFound message
  | upstream message | config message | internal message => message
  | api _ _ message _ => message
  | replayed replay => replay.message
  | databaseUnavailable => "database is not configured"
  | sqlx => "database error"
  | reqwest => "http client error"
  | redis => "redis error"

/-- `Display`, as `err.to_string()` renders it. -/
def display : AppError → String
  | badRequest message => "bad request: " ++ message
  | api _ code message _ => code ++ ": " ++ message
  | replayed replay => replay.code ++ ": " ++ replay.message
  | unauthorized message => "unauthorized: " ++ message
  | forbidden message => "forbidden: " ++ message
  | notFound message => "not found: " ++ message
  | databaseUnavailable => "database is not configured"
  | upstream message => "upstream provider failed: " ++ message
  | config message => "configuration error: " ++ message
  | sqlx => "database error"
  | reqwest => "http client error"
  | redis => "redis error"
  | internal message => "internal error: " ++ message

/-- Whether the failure of an admin command is stored for its replays. -/
def isCacheableAdminFailure (error : AppError) : Bool :=
  [400, 404, 409, 422].contains error.status &&
    match error with
    | sqlx | reqwest | redis | internal _ | unauthorized _ | forbidden _ => false
    | _ => true

end AppError

/-- The error object of a response body. -/
structure ErrorDetail where
  code : String
  messageKey : String
  message : String
  messageArgs : Json
  requestId : String
  details : Option Json

/-- The body an error is rendered as, for the request it answers. -/
def AppError.errorResponse (error : AppError) (requestId : String) : ErrorDetail :=
  match error with
  | .replayed replay =>
    { code := replay.code, messageKey := replay.messageKey, message := replay.message
      messageArgs := replay.messageArgs, requestId, details := replay.details }
  | .api _ code message details =>
    { code, messageKey := "moira.error." ++ code, message, messageArgs := .obj [], requestId
      details }
  | error =>
    { code := error.code, messageKey := "moira.error." ++ error.code
      message := error.englishMessage, messageArgs := .obj [], requestId, details := none }

end Moira
