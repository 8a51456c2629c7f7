import Moira.Lib.Program
import Moira.Runner.State

/-!
# The runner service

Create a runner, look at it, feed it the pasted code, take its token once, delete it, and reap what
has expired. Every `await` on the engine, every access to the memory of the process and the clock is
one operation.
-/

namespace Moira.Runner

/-! ## Errors -/

inductive EngineError
  | unavailable (reason : String)
  | notFound
  | conflict
  | failed (reason : String)

inductive ServiceError
  | notFound
  | wrongState (current : RunnerState)
  | tokenAlreadyRetrieved
  | invalid (reason : String)
  | dockerUnavailable (reason : String)
  | failed (reason : String)
  deriving DecidableEq

/-- `From<EngineError>` -/
def ServiceError.ofEngine : EngineError → ServiceError
  | .unavailable reason => .dockerUnavailable reason
  | .notFound => .notFound
  | .conflict => .failed "container name already in use"
  | .failed reason => .failed reason

/-! ## Operations -/

structure ContainerSpec where
  name : String
  image : String
  command : List String
  labels : List (String × String)
  memoryBytes : Int
  nanoCpus : Int
  pidsLimit : Int

/-- What the engine answers to a change. It may have made the change and answer an error. -/
structure EngineReply where
  result : Except EngineError Unit
  effective : Bool

inductive RunnerResponse
  | view (view : RunnerView)
  | token (token : MintedToken)
  | deleted
  | reaped (count : Nat)

inductive RunnerOp
  /-- The call begins. -/
  | begin
  | lockGate
  | unlockGate
  | listRunners
  | transcript (container : ContainerId)
  /-- The first half of `write_stdin`: the connection is open. -/
  | attach (container : ContainerId)
  /-- The second half, which a task of its own carries on. -/
  | writeStdin (container : ContainerId) (bytes : String)
  | rename (container : ContainerId) (newName : String)
  | remove (container : ContainerId)
  | create (spec : ContainerSpec)
  | start (container : ContainerId)
  | containsExchanging (id : Uuid)
  | insertExchanging (id : Uuid)
  | removeExchanging (id : Uuid)
  | utcNow
  /-- `Uuid::now_v7` -/
  | newId
  | answer (result : Except ServiceError RunnerResponse)

abbrev RunnerOp.Ans : RunnerOp → Type
  | listRunners => Except EngineError (List ContainerRecord)
  | transcript _ => Except EngineError TtyTranscript
  | attach _ => Except EngineError Unit
  | writeStdin .. | rename .. | remove _ | start _ => EngineReply
  | create _ => ContainerId × EngineReply
  | containsExchanging _ => Bool
  | utcNow => Nat
  | newId => Uuid
  | begin | lockGate | unlockGate | insertExchanging _ | removeExchanging _ | answer _ => Unit

abbrev runnerSig : Sig where
  Op := RunnerOp
  Ans := RunnerOp.Ans

/-! ## Calls -/

abbrev Service (α : Type) := Prog runnerSig ServiceError α

def Service.ask (o : RunnerOp) : Service o.Ans :=
  Prog.ask (S := runnerSig) o

def Service.orFail {α : Type} (result : Except ServiceError α) : Service α :=
  Prog.ofExcept result

/-- `?` on an answer of the engine. -/
def Service.engine {α : Type} : Except EngineError α → Service α
  | .ok a => .ret a
  | .error err => .fail (.ofEngine err)

open Service

def maxAuthorizationCodeBytes : Nat := 4096

def maxLabelLength : Nat := 64

/-- The longest `chrono::Duration`. -/
def maxDurationSeconds : Nat := 9223372036854775

def isLabelStart (c : Char) : Bool :=
  c.isLower || c.isDigit

def validateLabel (label : String) : Except ServiceError Unit :=
  if label.isEmpty then .error (.invalid "label must not be empty")
  else if maxLabelLength < label.utf8ByteSize then
    .error (.invalid ("label must be at most " ++ toString maxLabelLength ++ " characters"))
  else if !label.toList.all fun c => isLabelStart c || c = '-' then
    .error (.invalid "label must match [a-z0-9-]")
  else if !label.toList.head?.any isLabelStart then
    .error (.invalid "label must start with a lowercase letter or a digit")
  else .ok ()

def validateAuthorizationCode (code : String) : Except ServiceError Unit :=
  if code.isEmpty then .error (.invalid "code must not be empty")
  else if maxAuthorizationCodeBytes < code.utf8ByteSize then
    .error (.invalid ("code must be at most " ++ toString maxAuthorizationCodeBytes ++ " bytes"))
  else if code.toList.any isControl then .error (.invalid "code must not contain control characters")
  else .ok ()

variable (lib : Libraries) (config : RunnerConfig)

def resolveTtl (ttlSeconds : Option Nat) : Except ServiceError Nat :=
  match ttlSeconds with
  | some 0 => .error (.invalid "ttl_seconds must be greater than zero")
  | _ =>
    let ttl := ttlSeconds.getD config.defaultTtl
    if config.maxTtl < ttl then
      .error (.invalid ("ttl_seconds must not exceed " ++ toString config.maxTtl))
    else .ok ttl

/-- `chrono::Duration::from_std` -/
def durationFromStd (ttl : Nat) : Except ServiceError Nat :=
  if maxDurationSeconds < ttl then
    .error (.invalid ("ttl_seconds is out of range: " ++
      "Source duration value is out of range for the target type"))
  else .ok ttl

def list : Service (List RunnerIdentity) := do
  let records ← engine (← ask .listRunners)
  pure (records.filterMap (RunnerIdentity.fromRecord lib))

def find (id : Uuid) : Service RunnerIdentity := do
  match (← list lib).find? fun identity => identity.id = id with
  | some identity => pure identity
  | none => orFail (.error .notFound)

/-- What the engine says about a runner, read anew on every call. -/
def viewOf (identity : RunnerIdentity) : Service RunnerView := do
  let transcript ← engine (← ask (.transcript identity.containerId))
  let codeSubmitted ← ask (.containsExchanging identity.id)
  let now ← ask .utcNow
  let (state, authorizationUrl, errorCode) := deriveState lib identity transcript config now codeSubmitted
  pure
    { id := identity.id, containerId := identity.containerId, containerName := identity.containerName
      state, authorizationUrl, expiresAt := identity.expiresAt, errorCode
      tokenConsumed := identity.consumed }

/-- `write_stdin` of the engine. -/
def writeStdin (container : ContainerId) (bytes : String) : Service Unit := do
  engine (← ask (.attach container))
  engine (← ask (.writeStdin container bytes)).result

def create (label : String) (ttlSeconds : Option Nat) : Service RunnerView := do
  orFail (validateLabel label)
  let ttl ← orFail (resolveTtl config ttlSeconds)
  let id ← ask .newId
  let now : Nat ← ask .utcNow
  let expiresAt := now + (← orFail (durationFromStd ttl))
  let name := containerName lib label id
  let (containerId, created) ← ask (.create
    { name, image := config.image, command := config.command, labels := runnerLabels lib id expiresAt
      memoryBytes := config.memoryBytes, nanoCpus := config.nanoCpus, pidsLimit := config.pidsLimit })
  engine created.result
  match (← ask (.start containerId)).result with
  | .error err =>
    -- a container that was not started is removed at once; whether that works is only logged
    let _ ← ask (.remove containerId)
    engine (.error err)
  | .ok _ =>
    pure
      { id, containerId, containerName := name, state := .provisioning, authorizationUrl := none
        expiresAt, errorCode := none, tokenConsumed := false }

def view (id : Uuid) : Service RunnerView := do
  viewOf lib config (← find lib id)

/-- Checks the state, writes the code to the container's stdin, and remembers it after that. -/
def submitCode (id : Uuid) (code : String) : Service RunnerView := do
  orFail (validateAuthorizationCode code)
  let identity ← find lib id
  let view ← viewOf lib config identity
  if view.state ≠ .awaitingAuthorization then orFail (.error (.wrongState view.state))
  else
    writeStdin identity.containerId (code ++ "\r")
    ask (.insertExchanging id)
    pure { view with state := .exchanging }

/-- `take_token` under its gate. -/
def takeTokenGated (id : Uuid) : Service MintedToken := do
  let identity ← find lib id
  if identity.consumed then orFail (.error .tokenAlreadyRetrieved)
  else
    let view ← viewOf lib config identity
    if view.state ≠ .ready then orFail (.error (.wrongState view.state))
    else
      let transcript ← engine (← ask (.transcript identity.containerId))
      match extractToken transcript config.tokenPrefix with
      | none => orFail (.error (.failed "the runner reported ready but produced no token"))
      | some token =>
        engine (← ask (.rename identity.containerId (consumedName identity.containerName))).result
        ask (.removeExchanging id)
        pure token

/-- The gate is released when the call returns. -/
def takeToken (id : Uuid) : Service MintedToken := do
  ask .lockGate
  let taken ← (takeTokenGated lib config id).attempt
  ask .unlockGate
  orFail taken

def delete (id : Uuid) : Service Unit := do
  match ← (find lib id).attempt with
  | .ok identity =>
    engine (← ask (.remove identity.containerId)).result
    ask (.removeExchanging id)
  | .error .notFound => pure ()
  | .error other => orFail (.error other)

/-- One expired runner after another; what cannot be removed is left for the next sweep. -/
def reapEach (now : Nat) : List RunnerIdentity → Nat → Service Nat
  | [], reaped => pure reaped
  | identity :: rest, reaped =>
    if now < identity.expiresAt then reapEach now rest reaped
    else do
      match (← ask (.remove identity.containerId)).result with
      | .ok _ =>
        ask (.removeExchanging identity.id)
        reapEach now rest (reaped + 1)
      | .error _ => reapEach now rest reaped

def reap (now : Nat) : Service Nat := do
  reapEach now (← list lib) 0

inductive Call
  | create (label : String) (ttlSeconds : Option Nat)
  | view (id : Uuid)
  | submitCode (id : Uuid) (code : String)
  | takeToken (id : Uuid)
  | delete (id : Uuid)
  | reap (now : Nat)

def run : Call → Service RunnerResponse
  | .create label ttlSeconds => do pure (.view (← create lib config label ttlSeconds))
  | .view id => do pure (.view (← view lib config id))
  | .submitCode id code => do pure (.view (← submitCode lib config id code))
  | .takeToken id => do pure (.token (← takeToken lib config id))
  | .delete id => do
    delete lib id
    pure .deleted
  | .reap now => do pure (.reaped (← reap lib now))

/-- A call from its beginning to its answer. -/
def code (call : Call) : Unit → Prog runnerSig Empty (Option Unit) := fun _ => do
  Prog.ask (S := runnerSig) .begin
  let result ← (run lib config call).attempt
  Prog.ask (S := runnerSig) (.answer result)
  pure none

end Moira.Runner
