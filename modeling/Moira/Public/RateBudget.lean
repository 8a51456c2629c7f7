import Moira.Orchestration.RateLimit
import Moira.Security.Authz

/-!
# The budgets of requests and of streams

`create_response` and `stream_response`, from their first line to the rate limit.
-/

namespace Moira.Public

/-- `public_access`, of which only the application is used here. -/
def publicAccess (actor : Actor) (privileged : Bool) : Except AppError (Option Uuid) :=
  let applicationId := actor.internalApplicationId
  if (actor.actorType = .consumerKey ∨ actor.actorType = .trustedJwt) ∧ !privileged ∧
      applicationId.isNone then
    .error (.forbidden "application-bound caller identity is required for public access")
  else .ok applicationId

/-- The columns of the execution policy that are read before the rate limit. -/
structure ApplicationExecutionPolicyRecord where
  responsesEnabled : Bool := true
  streamingEnabled : Bool := true
  rateLimitRequestsPerMinute : Int32 := 120
  rateLimitStreamsPerMinute : Int32 := 60

/-- `execution_policy`: the row of the application, or the defaults for a caller without one. -/
def executionPolicy (stored : ApplicationExecutionPolicyRecord) :
    Option Uuid → ApplicationExecutionPolicyRecord
  | some _ => stored
  | none => {}

/-! ## The rate limit -/

/-- `Duration::from_secs(60)`, in nanoseconds. -/
def rateWindow : Nat :=
  60000000000

def principal (actor : Actor) : String :=
  (((actor.apiKeyId.or actor.trustedJwtIssuerId).map toString).or actor.subject).getD "anonymous"

def rateLimitKey (actor : Actor) (applicationId : Option Uuid) : String :=
  "public:" ++ (applicationId.map toString).getD "global" ++ ":" ++ principal actor

/-- `limit.max(1) as u32` -/
def limitOf (limit : Int32) : UInt32 :=
  (max limit 1).toUInt32

/-- One limiter, and a key made of the application and of the principal. -/
def checkRateLimit (limiter : InMemoryRateLimiter) (actor : Actor) (applicationId : Option Uuid)
    (limit : Int32) (now : Nat) : Except AppError Unit × InMemoryRateLimiter :=
  limiter.check (rateLimitKey actor applicationId) (limitOf limit) rateWindow now

/-! ## The calls -/

inductive CallKind
  | create
  | stream
  deriving DecidableEq

structure BudgetCall where
  kind : CallKind
  idempotencyKey : Option String := none
  now : Nat

section

variable (actor : Actor) (stored : ApplicationExecutionPolicyRecord)

/-- `create_response`, before its rate limit: the application, and the limit it passes. -/
def createResponseLimit : Except AppError (Option Uuid × Int32) := do
  actor.require "moira:responses:create"
  let applicationId ← publicAccess actor false
  let policy := executionPolicy stored applicationId
  if !policy.responsesEnabled then
    .error (.coded 403 "responses_disabled" "responses are disabled for this application")
  else .ok (applicationId, policy.rateLimitRequestsPerMinute)

/-- `stream_response`, before its rate limit. -/
def streamResponseLimit (idempotencyKey : Option String) : Except AppError (Option Uuid × Int32) := do
  if idempotencyKey.isSome then
    .error (.coded 422 "idempotency_not_supported_for_stream"
      "Idempotency-Key is not supported for response streams")
  else do
    actor.require "moira:responses:stream"
    let applicationId ← publicAccess actor false
    let policy := executionPolicy stored applicationId
    if !policy.streamingEnabled then
      .error (.coded 403 "streaming_not_supported" "streaming is disabled for this application")
    else .ok (applicationId, policy.rateLimitStreamsPerMinute)

/-- What is asked before the rate limit, and the limit of the policy. -/
def limitFor (call : BudgetCall) : Except AppError (Option Uuid × Int32) :=
  match call.kind with
  | .create => createResponseLimit actor stored
  | .stream => streamResponseLimit actor stored call.idempotencyKey

/-- A call, to the end of its rate limit. -/
def budgetCall (limiter : InMemoryRateLimiter) (call : BudgetCall) :
    Except AppError Unit × InMemoryRateLimiter :=
  match limitFor actor stored call with
  | .error err => (.error err, limiter)
  | .ok (applicationId, limit) => checkRateLimit limiter actor applicationId limit call.now

/-- Calls one after another, each with its answer, and the limiter after them. -/
def budgetRun (limiter : InMemoryRateLimiter) :
    List BudgetCall → List (BudgetCall × Except AppError Unit) × InMemoryRateLimiter
  | [] => ([], limiter)
  | call :: calls =>
    let (answer, limiter) := budgetCall actor stored limiter call
    let (answers, limiter) := budgetRun limiter calls
    ((call, answer) :: answers, limiter)

end

end Moira.Public
