import Moira.Keyring.ContentAccess
import Moira.Keyring.Rewrap
import Moira.Lib.System

/-!
# Moving rows to another data key

`reseal` under live traffic: passes over the five sealed columns, each a bounded batch of rows that
still name the old key. A row is opened, sealed again under the new key, and swapped in only if the
column still holds the bytes that were read.

- `ContentTables.selectSealedBatch`, `ContentTables.swap` — the two statements of a pass
- `resealPass`, `resealCode` — the loop
-/

namespace Moira.Keyring

open Bytes

/-! ## The statements -/

/-- A row as the batch select returns it. -/
structure SealedValue where
  identity : ContentIdentity
  envelope : Bytes
  deriving DecidableEq

def SealedValue.key (value : SealedValue) : AadProfile × RawUuid :=
  (value.identity.profile, value.identity.rowId)

/-- The row's value, when it names this key. -/
def SealedRow.sealedUnder (dataKeyId : RawUuid) (row : SealedRow) : Option SealedValue :=
  match row.envelope with
  | some envelope =>
    if contentEnvelopeDataKeyId envelope = some dataKeyId then
      some { identity := row.identity, envelope }
    else none
  | none => none

namespace ContentTables

/-- Change sealed columns, and nothing else. -/
def mapEnvelopes (tables : ContentTables) (f : SealedRow → Option Bytes) : ContentTables where
  rows := tables.rows.map fun row => { row with envelope := f row }
  key_unique := by
    rw [List.map_map]
    exact tables.key_unique

/-- The values of a column that name a key, by row id. -/
def sealedValues (tables : ContentTables) (profile : AadProfile) (dataKeyId : RawUuid) :
    List SealedValue :=
  ((tables.column profile).insertionSort fun a b =>
    ofBe a.identity.rowId.bytes ≤ ofBe b.identity.rowId.bytes).filterMap
      (SealedRow.sealedUnder dataKeyId)

/-- `select_sealed_batch`. -/
def selectSealedBatch (tables : ContentTables) (profile : AadProfile) (dataKeyId : RawUuid)
    (batch : Nat) : List SealedValue :=
  (tables.sealedValues profile dataKeyId).take batch

/-- Whether the `where` clause of a swap matches: the row, with the bytes that were read. -/
def matchesValue (value : SealedValue) (row : SealedRow) : Bool :=
  row.key = value.key ∧ row.envelope = some value.envelope

/-- The compare-and-swap. -/
def swap (tables : ContentTables) (value : SealedValue) (resealed : Bytes) : ContentTables :=
  tables.mapEnvelopes fun row => if matchesValue value row then some resealed else row.envelope

/-- `rows_affected` of a swap. -/
def swapCount (tables : ContentTables) (value : SealedValue) : Nat :=
  tables.rows.countP (matchesValue value)

/-- A writer's update of one row. -/
def replace (tables : ContentTables) (key : AadProfile × RawUuid) (envelope : Bytes) :
    ContentTables :=
  tables.mapEnvelopes fun row => if row.key = key then some envelope else row.envelope

end ContentTables

/-! ## The program -/

inductive ResealOp
  | keyRow (id : RawUuid)
  | selectSealedBatch (profile : AadProfile) (dataKeyId : RawUuid) (batch : Nat)
  | drawNonce
  | swap (value : SealedValue) (resealed : Bytes)

/-- A statement that failed is answered `none`. -/
def resealSig : Sig where
  Op := ResealOp
  Ans
    | .keyRow _ => Option (Option KeyringRow)
    | .selectSealedBatch .. => Option (List SealedValue)
    | .drawNonce => FixedBytes 12
    | .swap .. => Option Nat

structure ResealOptions where
  batch : Nat := 500
  maxBatches : Option Nat := none

structure ResealReport where
  resealed : Nat := 0
  skipped : Nat := 0
  batches : Nat := 0
  deriving DecidableEq

/-- The report so far, and how many rows this pass has moved. -/
structure ResealPass where
  report : ResealReport
  movedThisPass : Nat

section

variable (A : Aead) (keyCheckValue : DataKey → FixedBytes 8) (custody : EnvironmentMasterKeyCustody)

/-- `?` on a database error. -/
def orDatabase {α : Type} : Option α → Prog resealSig KeyringAdminError α
  | some a => .ret a
  | none => .fail .database

/-- What `cipher_for` makes of the row it read: the state is checked, the purpose is not. -/
def cipherOfRow (id : RawUuid) : Option KeyringRow → Except KeyringAdminError ContentCipher
  | none => .error (.unknownKey id)
  | some row =>
    if ¬row.state.isUnwrappedAtLoad then .error (.notResealable id row.state.asStr)
    else
      match unwrapRow A keyCheckValue custody row with
      | .error error => .error (.keyring error)
      | .ok dataKey => .ok { dataKeyId := row.id, key := dataKey }

def cipherFor (id : RawUuid) : Prog resealSig KeyringAdminError ContentCipher := do
  let answer ← Prog.ask (S := resealSig) (.keyRow id)
  let found ← orDatabase answer
  Prog.ofExcept (cipherOfRow A keyCheckValue custody id found)

/-- `map_err` of an open or a seal of a row. -/
def orUnreadable {α : Type} (value : SealedValue) :
    Except ContentEnvelopeError α → Prog resealSig KeyringAdminError α
  | .ok a => .ret a
  | .error source =>
    .fail (.unreadableEnvelope value.identity.profile.table value.identity.profile.column
      value.identity.rowId source)

/-- The body of the inner loop. -/
def resealRow (source destination : ContentCipher) (pass : ResealPass) (value : SealedValue) :
    Prog resealSig KeyringAdminError ResealPass := do
  let plaintext ← orUnreadable value (source.open A value.envelope value.identity)
  let nonce ← Prog.ask (S := resealSig) .drawNonce
  let resealed ← orUnreadable value (destination.sealWithNonce A value.identity plaintext nonce)
  let answer ← Prog.ask (S := resealSig) (.swap value resealed)
  let updated ← orDatabase answer
  if updated = 0 then
    pure { pass with report := { pass.report with skipped := pass.report.skipped + 1 } }
  else
    pure
      { report := { pass.report with resealed := pass.report.resealed + 1 }
        movedThisPass := pass.movedThisPass + 1 }

/-- The rows of one batch. -/
def resealRows (source destination : ContentCipher) :
    List SealedValue → ResealPass → Prog resealSig KeyringAdminError ResealPass
  | [], pass => pure pass
  | value :: values, pass => do
    let pass ← resealRow A source destination pass value
    resealRows source destination values pass

/-- One pass: a batch for each column. -/
def resealColumns (source destination : ContentCipher) (fromKey : RawUuid) (batch : Nat) :
    List AadProfile → ResealPass → Prog resealSig KeyringAdminError ResealPass
  | [], pass => pure pass
  | profile :: profiles, pass => do
    let answer ← Prog.ask (S := resealSig) (.selectSealedBatch profile fromKey batch)
    let values ← orDatabase answer
    let pass ← resealRows A source destination values pass
    resealColumns source destination fromKey batch profiles pass

/-- Where `reseal` is: about to start, before a pass, or back with its result. -/
inductive ResealPoint
  | start
  | pass (source destination : ContentCipher) (report : ResealReport)
  | returned (result : Except KeyringAdminError ResealReport)

/-- What follows a pass. -/
def afterPass (options : ResealOptions) (source destination : ContentCipher) (pass : ResealPass) :
    ResealPoint :=
  let report := { pass.report with batches := pass.report.batches + 1 }
  if pass.movedThisPass = 0 then .returned (.ok report)
  else if options.maxBatches.any (· ≤ report.batches) then .returned (.ok report)
  else .pass source destination report

/-- `reseal`, up to its next pass. -/
def resealStart (fromKey toKey : RawUuid) : Prog resealSig KeyringAdminError ResealPoint :=
  if fromKey = toKey then .fail (.resealSourceIsTarget fromKey)
  else do
    let source ← cipherFor A keyCheckValue custody fromKey
    let destination ← cipherFor A keyCheckValue custody toKey
    pure (.pass source destination {})

def resealPass (fromKey : RawUuid) (options : ResealOptions) (source destination : ContentCipher)
    (report : ResealReport) : Prog resealSig KeyringAdminError ResealPoint := do
  let pass ← resealColumns A source destination fromKey (max options.batch 1) AadProfile.all
    { report, movedThisPass := 0 }
  pure (afterPass options source destination pass)

/-- An error that leaves the loop is the result. -/
def orReturned (p : Prog resealSig KeyringAdminError ResealPoint) :
    Prog resealSig Empty (Option ResealPoint) := do
  match ← p.attempt with
  | .ok point => pure (some point)
  | .error error => pure (some (.returned (.error error)))

def resealCode (fromKey toKey : RawUuid) (options : ResealOptions) :
    ResealPoint → Prog resealSig Empty (Option ResealPoint)
  | .start => orReturned (resealStart A keyCheckValue custody fromKey toKey)
  | .pass source destination report =>
    orReturned (resealPass A fromKey options source destination report)
  | .returned _ => pure none

end

/-! ## The system -/

/-- A writer's new value for a row, under another key. -/
structure ForeignWrite (fromKey : RawUuid) where
  key : AadProfile × RawUuid
  envelope : Bytes
  other_key : contentEnvelopeDataKeyId envelope ≠ some fromKey

inductive ResealParty
  | reseal
  | writer (n : Nat)
  deriving DecidableEq

/-- What the last select of `reseal` returned: the rows it has still to swap, whether the limit cut
the select off, and whether one of its rows has been swapped. -/
structure Batch where
  pending : List SealedValue
  cutOff : Bool
  swapped : Bool

structure ResealWorld where
  tables : ContentTables
  batch : Option Batch := none
  /-- The writers' values, the newest first. -/
  written : List ((AadProfile × RawUuid) × Bytes) := []

section

variable (A : Aead) (keyCheckValue : DataKey → FixedBytes 8) (custody : EnvironmentMasterKeyCustody)
  (keys : KeyTable) (fromKey toKey : RawUuid) (options : ResealOptions)
  (writes : Nat → ForeignWrite fromKey)

/-- A statement of `reseal` takes effect at once, or fails and does nothing. -/
def grantReseal (w : ResealWorld) : (o : ResealOp) → resealSig.Ans o → Option ResealWorld
  | .keyRow id, answer =>
    match answer with
    | none => some w
    | some found => if found = keys.rows.find? (fun row => row.id = id) then some w else none
  | .selectSealedBatch profile dataKeyId batch, answer =>
    match answer with
    | none => some w
    | some values =>
      if values = w.tables.selectSealedBatch profile dataKeyId batch then
        some
          { w with
            batch := some
              { pending := values
                cutOff := batch < (w.tables.sealedValues profile dataKeyId).length
                swapped := false } }
      else none
  | .drawNonce, _ => some w
  | .swap value resealed, answer =>
    match answer with
    | none => some w
    | some updated =>
      if updated = w.tables.swapCount value then
        some
          { w with
            tables := w.tables.swap value resealed
            batch := w.batch.map fun batch =>
              { batch with
                pending := batch.pending.tail
                swapped := batch.swapped || updated ≠ 0 } }
      else none

/-- A writer makes one update. -/
def writerSig : Sig where
  Op := ForeignWrite fromKey
  Ans _ := Unit

def grantWriter (w : ResealWorld) (write : ForeignWrite fromKey) : ResealWorld :=
  { w with
    tables := w.tables.replace write.key write.envelope
    written := (write.key, write.envelope) :: w.written }

/-- One `reseal` and any number of writers. -/
def resealSystem : System ResealParty where
  sig
    | .reseal => resealSig
    | .writer _ => writerSig fromKey
  Point
    | .reseal => ResealPoint
    | .writer _ => Unit
  code
    | .reseal => resealCode A keyCheckValue custody fromKey toKey options
    | .writer n => fun _ => .op (writes n) fun _ => .ret none
  World := ResealWorld
  Event := Empty
  grant
    | .reseal => grantReseal keys
    | .writer _ => fun w write _ => some (grantWriter fromKey w write)
  nature _ e := nomatch e

/-- Before anything has happened. -/
def resealInitial (tables : ContentTables) :
    (resealSystem A keyCheckValue custody keys fromKey toKey options writes).State where
  world := { tables }
  proc
    | .reseal => .ret (some ResealPoint.start)
    | .writer _ => .ret (some ())

end

end Moira.Keyring
