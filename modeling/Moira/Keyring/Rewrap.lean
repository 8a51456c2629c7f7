import Mathlib.Data.List.Nodup
import Moira.Keyring.DataKeys

/-!
# Moving the keyring to another master key

`rewrap_with` as one transaction: every loadable row is unwrapped, checked, and wrapped again under
the target. A refusal on any row undoes the whole.
-/

namespace Moira.Keyring

/-- The refusals of the operator's verbs. -/
inductive KeyringAdminError
  | database
  | custody (error : KeyCustodyError)
  | keyring (error : KeyringError)
  | unreadableRow (dataKeyId : RawUuid) (backend declared used : String)
  | unknownKey (id : RawUuid)
  | notPending (id : RawUuid) (state : String)
  | stillReferenced (id : RawUuid) (total : Nat) (detail : String)
  | stillActive (id : RawUuid) (purpose : String)
  | abandonNotConfirmed (id : RawUuid)
  | abandonReasonMissing (id : RawUuid)
  | notAbandonable (id : RawUuid) (state : String)
  | sourceMasterKeyNotHeld (dataKeyId : RawUuid) (masterKeyId backend : String)
      (configured : List String)
  | targetMasterKeyNotHeld (masterKeyId backend : String) (configured : List String)
  | notResealable (id : RawUuid) (state : String)
  | resealSourceIsTarget (id : RawUuid)
  | unreadableEnvelope (table column : String) (rowId : RawUuid) (source : ContentEnvelopeError)

/-! ## The update of a row -/

/-- The columns a wrap is stored in. -/
def KeyringRow.withWrap (row : KeyringRow) (wrapped : WrappedKey) (backend : String) : KeyringRow :=
  { row with
    masterKeyId := wrapped.masterKeyId
    custodyBackend := backend
    wrapAlgorithm := wrapped.wrapAlgorithm
    wrapNonce := wrapped.nonce
    wrappedKey := wrapped.wrapped }

/-- Change rows without touching what the indexes are on. -/
def KeyTable.mapRows (table : KeyTable) (f : KeyringRow → KeyringRow)
    (hid : ∀ row, (f row).id = row.id) (hversion : ∀ row, (f row).keyVersion = row.keyVersion)
    (hpurpose : ∀ row, (f row).purpose = row.purpose) (hstate : ∀ row, (f row).state = row.state) :
    KeyTable where
  rows := table.rows.map f
  id_unique := by
    rw [List.map_map, show KeyringRow.id ∘ f = KeyringRow.id from funext hid]
    exact table.id_unique
  version_unique := by
    rw [List.map_map, show KeyringRow.keyVersion ∘ f = KeyringRow.keyVersion from funext hversion]
    exact table.version_unique
  single_active := by
    rw [List.pairwise_map]
    simpa only [hpurpose, hstate] using table.single_active

/-- Store a wrap in the row with this id. -/
def KeyringRow.setWrap (id : RawUuid) (wrapped : WrappedKey) (backend : String) (row : KeyringRow) :
    KeyringRow :=
  if row.id = id then row.withWrap wrapped backend else row

/-- `update content_data_keys set master_key_id = … where id = …` -/
def KeyTable.setWrap (table : KeyTable) (id : RawUuid) (wrapped : WrappedKey) (backend : String) :
    KeyTable :=
  table.mapRows (KeyringRow.setWrap id wrapped backend)
    (fun _ => by unfold KeyringRow.setWrap; split <;> rfl)
    (fun _ => by unfold KeyringRow.setWrap; split <;> rfl)
    (fun _ => by unfold KeyringRow.setWrap; split <;> rfl)
    (fun _ => by unfold KeyringRow.setWrap; split <;> rfl)

/-! ## The transaction -/

section

variable (A : Aead) (keyCheckValue : DataKey → FixedBytes 8)
  (custody target : EnvironmentMasterKeyCustody) (targetMasterKeyId : String)
  (nonce : RawUuid → FixedBytes 12)

/-- The first loop: which rows to rewrap, refusing before a single write. -/
def rowsToRewrap : List KeyringRow → Except KeyringAdminError (List KeyringRow)
  | [] => .ok []
  | row :: rows =>
    if ¬row.state.isUnwrappedAtLoad then rowsToRewrap rows
    else if ¬custody.canUnwrap row.masterKeyId then
      .error (.sourceMasterKeyNotHeld row.id row.masterKeyId custody.backendName
        custody.masterKeyIds)
    else do
      let rest ← rowsToRewrap rows
      .ok (row :: rest)

/-- Unwrap, check and wrap one row's data key under the target. -/
def rewrapKey (row : KeyringRow) : Except KeyringAdminError WrappedKey :=
  match unwrapRow A keyCheckValue custody row with
  | .error error => .error (.keyring error)
  | .ok dataKey =>
    let algorithm := target.wrapAlgorithm
    let aad := utf8 (wrappedDataKeyAad row.id targetMasterKeyId algorithm)
    match target.wrapUnder A targetMasterKeyId dataKey aad (nonce row.id) with
    | .error error => .error (.custody error)
    | .ok wrapped =>
      if wrapped.masterKeyId ≠ targetMasterKeyId then
        .error (.targetMasterKeyNotHeld targetMasterKeyId target.backendName target.masterKeyIds)
      else if wrapped.wrapAlgorithm ≠ algorithm then
        .error (.unreadableRow row.id target.backendName algorithm wrapped.wrapAlgorithm)
      else .ok wrapped

/-- The second loop: the rows one after another, each written inside the transaction. -/
def rewrapRows : List KeyringRow → KeyTable → Except KeyringAdminError KeyTable
  | [], table => .ok table
  | row :: rows, table => do
    let wrapped ← rewrapKey A keyCheckValue custody target targetMasterKeyId nonce row
    rewrapRows rows (table.setWrap row.id wrapped target.backendName)

structure RewrapReport where
  targetMasterKeyId : String
  targetBackend : String
  rewrapped : List RawUuid
  leftAlone : List (RawUuid × String)
  deriving DecidableEq

/-- Every row by version, as the transaction locks them. -/
def rowsForUpdate (table : KeyTable) : List KeyringRow :=
  table.rows.insertionSort fun a b => a.keyVersion ≤ b.keyVersion

/-- The body of the transaction: the report, and the table it would commit. -/
def rewrapTransaction (table : KeyTable) : Except KeyringAdminError (RewrapReport × KeyTable) :=
  if ¬target.canUnwrap targetMasterKeyId then
    .error (.targetMasterKeyNotHeld targetMasterKeyId target.backendName target.masterKeyIds)
  else do
    let rows := rowsForUpdate table
    let toRewrap ← rowsToRewrap custody rows
    let table' ← rewrapRows A keyCheckValue custody target targetMasterKeyId nonce toRewrap table
    .ok
      ({ targetMasterKeyId
         targetBackend := target.backendName
         rewrapped := toRewrap.map KeyringRow.id
         leftAlone := (rows.filter fun row => ¬row.state.isUnwrappedAtLoad).map
          fun row => (row.id, row.state.asStr) }, table')

/-- `rewrap_with`: an error rolls the transaction back. -/
def rewrapWith (table : KeyTable) : Except KeyringAdminError RewrapReport × KeyTable :=
  match rewrapTransaction A keyCheckValue custody target targetMasterKeyId nonce table with
  | .error error => (.error error, table)
  | .ok (report, table') => (.ok report, table')

end

end Moira.Keyring
