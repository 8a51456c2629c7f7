import Moira.Idempotency.Ledger
import Moira.Runtime.PolicyPuts

/-!
# Creating routes, routing policies and agent profiles

The three creates of the runtime administration, which look for the key in the ledger, insert the
row and record the answer in statements of their own.

- `idempotencyReplay`, `recordIdempotency` — the two ends of a call with an `Idempotency-Key`
- `createRouteDefinition`, `createRoutingPolicy`, `createAgentProfile`
-/

namespace Moira

open Prog

/-! ## Requests -/

inductive RouteSelectionStrategy
  | explicit
  | rules
  | default
  deriving DecidableEq

structure RouteDefinitionCreateRequest where
  routeKey : String
  displayName : String
  description : Option String := none
  selectionStrategy : RouteSelectionStrategy := .default
  agentProfileId : Option Uuid := none
  metadata : Json := .null
  deriving DecidableEq

/-- A number of a request is finite, so the rationals hold it. -/
structure RoutingPolicyCreateRequest where
  applicationId : Option Uuid := none
  externalTenantId : Option String := none
  routeId : Uuid
  providerId : Uuid
  providerModelId : Uuid
  priority : Int := 100
  weight : Int := 1
  costWeight : Rat := 0
  latencyWeight : Rat := 0
  qualityWeight : Rat := 0
  privacyClass : Option String := none
  requiredCapabilities : List String := []
  maximumCostPerRequest : Option Rat := none
  maximumInputTokens : Option Int := none
  maximumOutputTokens : Option Int := none
  timeoutMs : Option Int := none
  retryPolicy : Json := .null
  metadata : Json := .null
  deriving DecidableEq

structure AgentProfileCreateRequest where
  profileKey : String
  displayName : String
  preamble : Option String := none
  temperature : Option Rat := none
  maxTokens : Option Int := none
  toolPolicy : Json := .null
  contextPolicy : Json := .null
  memoryPolicy : Json := .null
  metadata : Json := .null
  deriving DecidableEq

inductive CreateRequest
  | route (request : RouteDefinitionCreateRequest)
  | routingPolicy (request : RoutingPolicyCreateRequest)
  | agentProfile (request : AgentProfileCreateRequest)
  deriving DecidableEq

inductive RuntimeTable
  | routeDefinitions
  | routingPolicies
  | agentProfiles
  deriving DecidableEq

namespace CreateRequest

def table : CreateRequest → RuntimeTable
  | route _ => .routeDefinitions
  | routingPolicy _ => .routingPolicies
  | agentProfile _ => .agentProfiles

/-- The column of the partial unique index, which `routing_policies` does not have. -/
def uniqueKey : CreateRequest → Option String
  | route request => some request.routeKey
  | routingPolicy _ => none
  | agentProfile request => some request.profileKey

def operation : CreateRequest → String
  | route _ => "route.create"
  | routingPolicy _ => "routing_policy.create"
  | agentProfile _ => "agent_profile.create"

end CreateRequest

/-! ## Checks -/

def validateKey (label value : String) : Except AppError Unit :=
  if value.isEmpty || 128 < value.utf8ByteSize then
    .error (.badRequest (label ++ " must be 1-128 characters"))
  else if value.toList.head?.any (fun c => !c.isAlphanum) ||
      value.toList.getLast?.any (fun c => !c.isAlphanum) then
    .error (.badRequest (label ++ " must start and end with an alphanumeric character"))
  else if value.toList.any fun c => !(c.isLower || c.isDigit || c = '_' || c = '-') then
    .error (.badRequest
      (label ++ " may contain only lowercase ASCII letters, digits, hyphen, or underscore"))
  else .ok ()

def validateDisplayName (value : String) : Except AppError Unit :=
  if (trim value).isEmpty || 200 < value.utf8ByteSize then
    .error (.badRequest "display_name must be 1-200 characters")
  else .ok ()

/-- `encodedBytes` is the length of what `serde_json` writes. -/
def validateMetadata (encodedBytes : Json → Nat) (value : Json) : Except AppError Unit :=
  if 16 * 1024 < encodedBytes value then .error (.badRequest "metadata must be at most 16KiB")
  else .ok ()

def validateRoutingPolicy (encodedBytes : Json → Nat) (request : RoutingPolicyCreateRequest) :
    Except AppError Unit :=
  if request.priority < 0 ∨ request.weight < 0 then
    .error (.badRequest "routing policy priority and weight must be non-negative")
  else if request.weight = 0 then
    .error (.badRequest
      "routing policy weight zero disables weighted selection; use disable instead")
  else if request.requiredCapabilities.any fun value =>
      (trim value).isEmpty || 64 < value.utf8ByteSize then
    .error (.badRequest "required_capabilities contains an invalid value")
  else do
    validateMetadata encodedBytes request.retryPolicy
    validateMetadata encodedBytes request.metadata

def validateAgentProfile (encodedBytes : Json → Nat) (request : AgentProfileCreateRequest) :
    Except AppError Unit :=
  if request.temperature.any fun value => !(0 ≤ value && value ≤ 2) then
    .error (.badRequest "temperature must be between 0 and 2")
  else if request.maxTokens.any fun value => value ≤ 0 then
    .error (.badRequest "max_tokens must be positive")
  else do
    validateMetadata encodedBytes request.toolPolicy
    validateMetadata encodedBytes request.contextPolicy
    validateMetadata encodedBytes request.memoryPolicy
    validateMetadata encodedBytes request.metadata

/-! ## Calls -/

/-- A row as it is answered; its other columns are the defaults of the insert. -/
structure RuntimeRecord where
  id : Uuid
  request : CreateRequest
  createdAt : Nat
  deriving DecidableEq

structure CreateCall where
  actor : Actor
  idempotencyKey : Option String
  request : CreateRequest

/-- The service, with what it takes from `serde`. -/
structure RuntimeAdminService where
  hasher : IdempotencyHasher
  render : Renderer
  normalizedRequestBytes : CreateRequest → String
  toValue : RuntimeRecord → Json
  fromValue : RuntimeTable → Json → Except String RuntimeRecord
  encodedBytes : Json → Nat

inductive CreateOp
  | getIdempotencyRecord (position : Position)
  | providerModelBelongsToProvider (providerId providerModelId : Uuid)
  | newId
  | insert (id : Uuid) (request : CreateRequest)
  | invalidateRuntime (id : Uuid)
  | now
  | putIdempotencyRecord (record : IdempotencyRecord)
  /-- The caller is answered. -/
  | respond (result : Except AppError RuntimeRecord)

abbrev CreateOp.Ans : CreateOp → Type
  | getIdempotencyRecord _ => Except AppError (Option IdempotencyRecord)
  | providerModelBelongsToProvider _ _ => Except AppError Bool
  | newId => Uuid
  | insert _ _ => Committed RuntimeRecord
  | invalidateRuntime _ => Unit
  | now => Nat
  | putIdempotencyRecord _ => Committed Unit
  | respond _ => Unit

abbrev createSig : Sig where
  Op := CreateOp
  Ans := CreateOp.Ans

def idempotencyConflict : AppError :=
  .conflict "idempotency_conflict" "same Idempotency-Key was used with a different request"

/-- The sweep over the spellings, which ends at the first row. -/
def findRecord : List Position → Prog createSig AppError (Option IdempotencyRecord)
  | [] => return none
  | position :: rest => do
    match ← ask (S := createSig) (.getIdempotencyRecord position) with
    | .error err => .fail err
    | .ok (some record) => return some record
    | .ok none => findRecord rest

section

variable (service : RuntimeAdminService) (call : CreateCall)

def idempotencyReplay : Prog createSig AppError (Option RuntimeRecord) :=
  match call.idempotencyKey with
  | none => return none
  | some key => do
    match ← findRecord
        (service.hasher.runtimePositions service.render call.actor key call.request.operation) with
    | none => return none
    | some record =>
      if !service.hasher.verify (service.normalizedRequestBytes call.request) record.requestHash then
        .fail idempotencyConflict
      else
        match record.responseBody with
        | none => return none
        | some body =>
          match service.fromValue call.request.table body with
          | .ok replay => return some replay
          | .error err => .fail (.internal ("decode idempotent response: " ++ err))

/-- The row that `record_idempotency` writes. -/
def idempotencyRecord (key : String) (response : RuntimeRecord) (now : Nat) : IdempotencyRecord where
  position := service.hasher.writtenPosition service.render call.actor key call.request.operation
  requestHash := service.hasher.hash (service.normalizedRequestBytes call.request)
  responseStatus := some 200
  responseBody := some (service.toValue response)
  resourceId := ((service.toValue response).get "id").bind Json.asStr
  expiresAt := now + 24 * 60 * 60

def recordIdempotency (response : RuntimeRecord) : Prog createSig AppError Unit :=
  match call.idempotencyKey with
  | none => return ()
  | some key => do
    let now ← ask (S := createSig) .now
    let written ← ask (S := createSig)
      (.putIdempotencyRecord (idempotencyRecord service call key response now))
    ofExcept written.result

/-- What the three creates have in common; `check` is what they check of the request. -/
def createRecord (requiredScope : String) (check : Prog createSig AppError Unit) :
    Prog createSig AppError RuntimeRecord := do
  ofExcept (call.actor.require requiredScope)
  match ← idempotencyReplay service call with
  | some replay => return replay
  | none => do
    check
    let id ← ask (S := createSig) .newId
    let written ← ask (S := createSig) (.insert id call.request)
    let record ← ofExcept written.result
    ask (S := createSig) (.invalidateRuntime record.id)
    recordIdempotency service call record
    return record

def createRouteDefinition (request : RouteDefinitionCreateRequest) :
    Prog createSig AppError RuntimeRecord :=
  createRecord service call "moira:routes:write" do
    ofExcept (validateKey "route_key" request.routeKey)
    ofExcept (validateDisplayName request.displayName)
    ofExcept (validateMetadata service.encodedBytes request.metadata)

def ensureProviderModelBelongsToProvider (providerId providerModelId : Uuid) :
    Prog createSig AppError Unit := do
  match ← ask (S := createSig) (.providerModelBelongsToProvider providerId providerModelId) with
  | .error err => .fail err
  | .ok true => return ()
  | .ok false =>
    .fail (.coded 422 "routing_policy_provider_model_mismatch"
      "provider_model_id must belong to provider_id")

def createRoutingPolicy (request : RoutingPolicyCreateRequest) :
    Prog createSig AppError RuntimeRecord :=
  createRecord service call "moira:routing-policies:write" do
    ofExcept (validateRoutingPolicy service.encodedBytes request)
    ensureProviderModelBelongsToProvider request.providerId request.providerModelId

def createAgentProfile (request : AgentProfileCreateRequest) :
    Prog createSig AppError RuntimeRecord :=
  createRecord service call "moira:agent-profiles:write" do
    ofExcept (validateKey "profile_key" request.profileKey)
    ofExcept (validateDisplayName request.displayName)
    ofExcept (validateAgentProfile service.encodedBytes request)

def CreateCall.code : Prog createSig Empty (Option Unit) := do
  let result ← attempt <|
    match call.request with
    | .route request => createRouteDefinition service call request
    | .routingPolicy request => createRoutingPolicy service call request
    | .agentProfile request => createAgentProfile service call request
  ask (S := createSig) (.respond result)
  return none

/-- Where the call has its row in the ledger, when it has a key. -/
def CreateCall.position : Option Position :=
  call.idempotencyKey.map fun key =>
    service.hasher.writtenPosition service.render call.actor key call.request.operation

end

/-! ## The tables -/

/-- `insert … on conflict … do update`: of a row that is there, only the answer changes. -/
def Ledger.put (l : Ledger) (record : IdempotencyRecord) : Ledger :=
  Function.update l record.position (some
    (match l record.position with
    | none => record
    | some row =>
      { row with responseStatus := record.responseStatus, responseBody := record.responseBody
                 resourceId := record.resourceId }))

structure RuntimeRow where
  record : RuntimeRecord
  deleted : Bool := false

structure CreateWorld where
  now : Nat
  ledger : Ledger
  rows : List RuntimeRow
  /-- The calls that have looked into the ledger. -/
  asked : List Nat := []
  /-- The calls whose process is gone. -/
  lost : List Nat := []
  /-- The rows that have been created, each with its call. -/
  created : List (Nat × Uuid) := []

namespace CreateWorld

variable (w : CreateWorld)

/-- The primary key and the unique index let the row in. -/
def admitsRow (id : Uuid) (request : CreateRequest) : Bool :=
  w.rows.all fun row => row.record.id ≠ id &&
    (row.deleted || request.uniqueKey = none || row.record.request.table ≠ request.table ||
      row.record.request.uniqueKey ≠ request.uniqueKey)

def insertRow (call : Nat) (id : Uuid) (request : CreateRequest) : CreateWorld :=
  { w with rows := w.rows ++ [{ record := { id, request, createdAt := w.now } }]
           created := (call, id) :: w.created }

/-- The ledger can answer for what is at the position. -/
def Recorded (p : Position) : Prop :=
  ∃ row, w.ledger.get w.now p = some row ∧ row.responseBody.isSome = true

end CreateWorld

/-- The answers a statement can get, and the world after it. A statement that fails has no effect.
-/
def grantStatement (i : Nat) (w : CreateWorld) : (o : CreateOp) → o.Ans → Option CreateWorld
  | .getIdempotencyRecord position, .ok found =>
    if found = w.ledger.get w.now position then some { w with asked := i :: w.asked } else none
  | .getIdempotencyRecord _, .error _ => some { w with asked := i :: w.asked }
  | .insert id request, written =>
    match written.result, written.committed with
    | .ok record, true =>
      if w.admitsRow id request ∧ record = { id, request, createdAt := w.now } then
        some (w.insertRow i id request)
      else none
    | .ok _, false => none
    | .error _, true => if w.admitsRow id request then some (w.insertRow i id request) else none
    | .error _, false => some w
  | .now, time => if time = w.now then some w else none
  | .putIdempotencyRecord record, written =>
    match written.result, written.committed with
    | .ok _, true | .error _, true => some { w with ledger := w.ledger.put record }
    | .ok _, false => none
    | .error _, false => some w
  | .providerModelBelongsToProvider _ _, _ | .newId, _ | .invalidateRuntime _, _ | .respond _, _ =>
    some w

def grantCreate (i : Nat) (w : CreateWorld) (o : CreateOp) (x : o.Ans) : Option CreateWorld :=
  if i ∈ w.lost then none else grantStatement i w o x

inductive CreateEvent
  | elapse (seconds : Nat)
  | crash (call : Nat)
  /-- Retention reaches a position. -/
  | sweep (position : Position)
  | softDelete (id : Uuid)

def createNature (w : CreateWorld) : CreateEvent → Option CreateWorld
  | .elapse seconds => some { w with now := w.now + seconds }
  | .crash call => some { w with lost := call :: w.lost }
  | .sweep position => some { w with ledger := w.ledger.sweep w.now position }
  | .softDelete id =>
    some { w with rows := w.rows.map fun row => if row.record.id = id then { row with deleted := true } else row }

/-- The calls, all of them before their first line. -/
def createTraffic (service : RuntimeAdminService) (calls : Nat → CreateCall) : System Nat where
  sig _ := createSig
  Point _ := Unit
  code i _ := (calls i).code service
  World := CreateWorld
  Event := CreateEvent
  grant := fun i w o x => grantCreate i w o x
  nature := createNature

def createsAtStart (service : RuntimeAdminService) (calls : Nat → CreateCall) (now : Nat)
    (ledger : Ledger) (rows : List RuntimeRow) : (createTraffic service calls).State where
  world := { now, ledger, rows }
  proc i := (calls i).code service

/-! ## Overlaps -/

/-- The program can still come to its insert. -/
inductive StillInserts {ε α : Type} : Prog createSig ε α → Prop
  | insert {id : Uuid} {request : CreateRequest} {k : Committed RuntimeRecord → Prog createSig ε α} :
      StillInserts (Prog.op (S := createSig) (.insert id request) k)
  | later {o : CreateOp} {k : o.Ans → Prog createSig ε α} (x : o.Ans) (hrest : StillInserts (k x)) :
      StillInserts (Prog.op (S := createSig) o k)

section

variable {service : RuntimeAdminService} {calls : Nat → CreateCall}

/-- The call has looked into the ledger, its process is there, and it can still insert. -/
structure Underway (s : (createTraffic service calls).State) (i : Nat) : Prop where
  asked : i ∈ s.world.asked
  running : i ∉ s.world.lost
  inserts : StillInserts (s.proc i)

/--
A call first looks into the ledger while no other call of its key is under way, and while the ledger
can answer for the key if a row has been created for it.
-/
def AsksAlone (s : (createTraffic service calls).State) : (createTraffic service calls).Move → Prop
  | .act i _ =>
    match s.proc i with
    | .op (.getIdempotencyRecord position) _ => i ∉ s.world.asked → ∀ j, j ≠ i →
        (calls j).position service = (calls i).position service →
          ¬Underway s j ∧ (∀ id, (j, id) ∈ s.world.created → s.world.Recorded position)
    | _ => True
  | _ => True

/-- The rows that have been created for one key, actor and operation. -/
def CreateWorld.createdAt (service : RuntimeAdminService) (calls : Nat → CreateCall) (w : CreateWorld)
    (p : Position) : List (Nat × Uuid) :=
  w.created.filter fun c => (calls c.1).position service = some p

end

end Moira
