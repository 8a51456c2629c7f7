import Mathlib.Algebra.GroupWithZero.Nat
import Moira.Keyring.DataKeys
import Moira.Lib.System

/-!
# Refreshing the keyring

One process: the background tick and any number of `cipher_for` calls over one installed snapshot.
Metrics and the counters that only tests read are left out.
-/

namespace Moira.Keyring

/-- "No on-demand refresh has happened yet": `u64::MAX`. -/
def never : Nat := 2 ^ 64 - 1

inductive RefreshOp
  | snapshot
  | acquire
  /-- The permit is dropped. -/
  | release
  /-- `origin.elapsed()`, in nanoseconds. -/
  | elapsed
  | lastOnDemandMs
  | setLastOnDemandMs (ms : Nat)
  | fetchAddGeneration
  | fetchRows
  | assemble (rows : List KeyringRow) (generation : Nat)
  | install (snapshot : KeyringSnapshot)

def refreshSig : Sig where
  Op := RefreshOp
  Ans
    | .snapshot => KeyringSnapshot
    | .acquire | .release | .setLastOnDemandMs _ | .install _ => Unit
    | .elapsed | .lastOnDemandMs | .fetchAddGeneration => Nat
    | .fetchRows => Except KeyringError (List KeyringRow)
    | .assemble .. => Except KeyringError KeyringSnapshot

/-- Reload from the database and swap the snapshot in. -/
def refresh : Prog refreshSig KeyringError KeyringSnapshot := do
  let previous : Nat ← Prog.ask (S := refreshSig) .fetchAddGeneration
  let generation := previous + 1
  let fetched ← Prog.ask (S := refreshSig) .fetchRows
  let rows ← Prog.ofExcept fetched
  let assembled ← Prog.ask (S := refreshSig) (.assemble rows generation)
  let snapshot ← Prog.ofExcept assembled
  let _ ← Prog.ask (S := refreshSig) (.install snapshot)
  pure snapshot

/-- One refresh, with the failure absorbed. -/
def refreshOrServeOn : Prog refreshSig Empty KeyringSnapshot := do
  match ← refresh.attempt with
  | .ok snapshot => pure snapshot
  | .error _ => Prog.ask (S := refreshSig) .snapshot

/-- What the background tick runs. -/
def refreshGated : Prog refreshSig Empty KeyringSnapshot := do
  let _ ← Prog.ask (S := refreshSig) .acquire
  let snapshot ← refreshOrServeOn
  let _ ← Prog.ask (S := refreshSig) .release
  pure snapshot

/-- `Duration::as_millis` of a duration in nanoseconds, as a `u64`. -/
def asMillis (elapsed : Nat) : Nat := min (elapsed / 1000000) (2 ^ 64 - 1)

/-- `min_refresh`, in milliseconds. -/
def minRefreshMs (minRefreshSeconds : Nat) : Nat := max minRefreshSeconds 1 * 1000

/-- The single-flight body. -/
def refreshForMiss (minRefreshSeconds observedGeneration : Nat) :
    Prog refreshSig Empty KeyringSnapshot := do
  let _ ← Prog.ask (S := refreshSig) .acquire
  let current : KeyringSnapshot ← Prog.ask (S := refreshSig) .snapshot
  if current.generation ≠ observedGeneration then
    let _ ← Prog.ask (S := refreshSig) .release
    pure current
  else
    let elapsed : Nat ← Prog.ask (S := refreshSig) .elapsed
    let nowMs := asMillis elapsed
    let last : Nat ← Prog.ask (S := refreshSig) .lastOnDemandMs
    if last ≠ never ∧ nowMs - last < minRefreshMs minRefreshSeconds then
      let _ ← Prog.ask (S := refreshSig) .release
      pure current
    else
      let _ ← Prog.ask (S := refreshSig) (.setLastOnDemandMs nowMs)
      let snapshot ← refreshOrServeOn
      let _ ← Prog.ask (S := refreshSig) .release
      pure snapshot

/-- What `cipher_for` answered, with the snapshots it looked at first and last. -/
structure CipherAnswer where
  observed : KeyringSnapshot
  served : KeyringSnapshot
  result : Except KeyringError ContentCipher

/-- Resolve the cipher an envelope's header names. -/
def keyringCipherFor (minRefreshSeconds : Nat) (dataKeyId : RawUuid) :
    Prog refreshSig Empty CipherAnswer := do
  let snapshot : KeyringSnapshot ← Prog.ask (S := refreshSig) .snapshot
  match snapshot.resolve dataKeyId with
  | some resolved => pure { observed := snapshot, served := snapshot, result := resolved }
  | none =>
    let refreshed ← refreshForMiss minRefreshSeconds snapshot.generation
    pure
      { observed := snapshot
        served := refreshed
        result := (refreshed.resolve dataKeyId).getD (.error (.unknownDataKey dataKeyId)) }

/-! ## The process -/

inductive RefreshParty
  | ticker
  | caller (n : Nat)
  deriving DecidableEq

/-- A load that a miss started: the reading of the clock it stored, and the time of its start. -/
structure OnDemandLoad where
  caller : Nat
  reading : Nat
  startedAt : Nat
  deriving DecidableEq

/-- A refresh that is over: the installed snapshot at its start and at its end. -/
structure RefreshRecord where
  before : KeyringSnapshot
  after : KeyringSnapshot
  succeeded : Bool

/-- The state of a `ContentKeyring`, with a record of its loads that no code reads. -/
structure RefreshWorld where
  snapshot : KeyringSnapshot
  generation : Nat := 0
  lastOnDemandMs : Nat := never
  permit : Option RefreshParty := none
  /-- Nanoseconds since `origin`. -/
  elapsed : Nat := 0
  dropped : List Nat := []
  /-- Every snapshot ever installed, the newest first. -/
  installed : List KeyringSnapshot := [snapshot]
  /-- The snapshot that was installed when the refresh in progress started. -/
  refreshing : Option KeyringSnapshot := none
  refreshes : List RefreshRecord := []
  loads : List OnDemandLoad := []

namespace RefreshWorld

def startRefresh (w : RefreshWorld) (i : RefreshParty) : RefreshWorld :=
  { w with
    generation := w.generation + 1
    refreshing := some w.snapshot
    loads :=
      match i with
      | .ticker => w.loads
      | .caller n =>
        { caller := n, reading := w.lastOnDemandMs, startedAt := w.elapsed } :: w.loads }

/-- The refresh in progress is over. -/
def endRefresh (w : RefreshWorld) (succeeded : Bool) : RefreshWorld :=
  { w with
    refreshing := none
    refreshes :=
      match w.refreshing with
      | some before => { before, after := w.snapshot, succeeded } :: w.refreshes
      | none => w.refreshes }

def install (w : RefreshWorld) (snapshot : KeyringSnapshot) : RefreshWorld :=
  { w with snapshot, installed := snapshot :: w.installed }

/-- A request goes away: its load is given up and its permit comes back. -/
def drop (w : RefreshWorld) (n : Nat) : RefreshWorld :=
  if w.permit = some (.caller n) then
    { w.endRefresh false with permit := none, dropped := n :: w.dropped }
  else { w with dropped := n :: w.dropped }

end RefreshWorld

section

variable (A : Aead) (keyCheckValue : DataKey → FixedBytes 8) (custody : EnvironmentMasterKeyCustody)

/-- The answer is the value that is read. -/
def whenEq {α : Type} [DecidableEq α] (answer value : α) (w : RefreshWorld) : Option RefreshWorld :=
  if answer = value then some w else none

/-- The rows are those of any time; a load of them may fail. -/
def grantRefresh (i : RefreshParty) (w : RefreshWorld) :
    (o : RefreshOp) → refreshSig.Ans o → Option RefreshWorld
  | .snapshot, x => whenEq (α := KeyringSnapshot) x w.snapshot w
  | .acquire, _ => if w.permit = none then some { w with permit := some i } else none
  | .release, _ => some { w with permit := none }
  | .elapsed, x => whenEq (α := Nat) x w.elapsed w
  | .lastOnDemandMs, x => whenEq (α := Nat) x w.lastOnDemandMs w
  | .setLastOnDemandMs ms, _ => some { w with lastOnDemandMs := ms }
  | .fetchAddGeneration, x => whenEq (α := Nat) x w.generation (w.startRefresh i)
  | .fetchRows, x =>
    match x with
    | .ok _ => some w
    | .error _ => some (w.endRefresh false)
  | .assemble rows generation, x =>
    match x with
    | .ok snapshot =>
      if (assemble A keyCheckValue custody rows generation).toOption = some snapshot then some w
      else none
    | .error _ => some (w.endRefresh false)
  | .install snapshot, _ => some ((w.install snapshot).endRefresh true)

inductive RefreshEvent
  | tick (nanos : Nat)
  | drop (n : Nat)

inductive CallerPoint
  | start
  | answered (answer : CipherAnswer)

/-- The background tick and any number of calls of `cipher_for`; the `n`th asks for `ids n`. -/
def refreshSystem (minRefreshSeconds : Nat) (ids : Nat → RawUuid) : System RefreshParty where
  sig _ := refreshSig
  Point
    | .ticker => Unit
    | .caller _ => CallerPoint
  code
    | .ticker => fun _ => do
      let _ ← refreshGated
      pure (some ())
    | .caller n => fun
      | .start => do
        let answer ← keyringCipherFor minRefreshSeconds (ids n)
        pure (some (.answered answer))
      | .answered _ => pure none
  World := RefreshWorld
  Event := RefreshEvent
  grant
    | .ticker => grantRefresh A keyCheckValue custody .ticker
    | .caller n => fun w o x =>
      if n ∈ w.dropped then none else grantRefresh A keyCheckValue custody (.caller n) w o x
  nature w
    | .tick nanos =>
      -- the clock of a process does not reach the sentinel, 584 million years away
      if (w.elapsed + nanos) / 1000000 < never then some { w with elapsed := w.elapsed + nanos }
      else none
    | .drop n => some (w.drop n)

/-- Just after boot. -/
def refreshInitial (minRefreshSeconds : Nat) (ids : Nat → RawUuid) (boot : KeyringSnapshot) :
    (refreshSystem A keyCheckValue custody minRefreshSeconds ids).State where
  world := { snapshot := boot }
  proc
    | .ticker => .ret (some ())
    | .caller _ => .ret (some CallerPoint.start)

end

end Moira.Keyring
