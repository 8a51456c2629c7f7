import Mathlib.Data.List.Sort
import Moira.Keyring.Envelope

/-!
# Data keys

The environment backend: master keys by id, and a data key wrapped under one of them. The wrap is
authenticated with the id of the data key, the id of the master key and the name of the algorithm.

The rows of `content_data_keys` and the snapshot an instance makes of them.

- `EnvironmentMasterKeyCustody.wrapUnder`, `EnvironmentMasterKeyCustody.unwrap`
- `DataKeyPurpose`, `DataKeyState` — what a key is for, and where it is in its life
-/

namespace Moira.Keyring

open Bytes

def wrapAlgorithmAes256Gcm : String := "AES-256-GCM"

def custodyBackendEnvironment : String := "environment"

def wrapNonceLength : Nat := 12

/-- `as_bytes` of a text. -/
def utf8 (text : String) : Bytes :=
  text.toUTF8.data.toList

structure WrappedKey where
  masterKeyId : String
  wrapAlgorithm : String
  nonce : Bytes
  wrapped : Bytes

inductive KeyCustodyError
  | unknownMasterKey (masterKeyId : String)
  | unavailable (backend : String)
  | unwrapFailed

/-- The authenticated data, rebuilt from columns by every reader. -/
def wrappedDataKeyAad (dataKeyId : RawUuid) (masterKeyId wrapAlgorithm : String) : String :=
  "moira/data-key/v1;data_key_id=" ++ dataKeyId.text ++ ";master_key_id=" ++ masterKeyId ++
    ";wrap_algorithm=" ++ wrapAlgorithm

/-- The master keys of this process, by id, and the one new data keys are wrapped under. -/
structure EnvironmentMasterKeyCustody where
  keys : List (String × DataKey)
  activeMasterKeyId : String
  active_held : (keys.lookup activeMasterKeyId).isSome

namespace EnvironmentMasterKeyCustody

variable (A : Aead) (custody : EnvironmentMasterKeyCustody)

/-- A custody that holds one master key. -/
def only (masterKeyId : String) (key : DataKey) : EnvironmentMasterKeyCustody where
  keys := [(masterKeyId, key)]
  activeMasterKeyId := masterKeyId
  active_held := by simp

def backendName (_ : EnvironmentMasterKeyCustody) : String :=
  custodyBackendEnvironment

def wrapAlgorithm (_ : EnvironmentMasterKeyCustody) : String :=
  wrapAlgorithmAes256Gcm

def canUnwrap (masterKeyId : String) : Bool :=
  (custody.keys.lookup masterKeyId).isSome

def masterKeyIds : List String :=
  (custody.keys.map Prod.fst).mergeSort

def cipher (masterKeyId : String) : Except KeyCustodyError DataKey :=
  match custody.keys.lookup masterKeyId with
  | some key => .ok key
  | none => .error (.unknownMasterKey masterKeyId)

/-- `wrap_under`, with the nonce it draws. -/
def wrapUnder (masterKeyId : String) (dek : DataKey) (aad : Bytes) (nonce : FixedBytes 12) :
    Except KeyCustodyError WrappedKey := do
  let cipher ← custody.cipher masterKeyId
  .ok
    { masterKeyId
      wrapAlgorithm := wrapAlgorithmAes256Gcm
      nonce := nonce.bytes
      wrapped := A.encrypt cipher nonce aad dek.bytes }

/-- `unwrap`: the stored id selects the key, never the active one. -/
def unwrap (wrapped : WrappedKey) (aad : Bytes) : Except KeyCustodyError DataKey := do
  let cipher ← custody.cipher wrapped.masterKeyId
  if wrapped.wrapAlgorithm ≠ wrapAlgorithmAes256Gcm then .error .unwrapFailed
  else if hnonce : wrapped.nonce.length = wrapNonceLength then
    match A.decrypt cipher ⟨wrapped.nonce, hnonce⟩ aad wrapped.wrapped with
    | none => .error .unwrapFailed
    | some plaintext =>
      if hlen : plaintext.length = 32 then .ok ⟨plaintext, hlen⟩ else .error .unwrapFailed
  else .error .unwrapFailed

end EnvironmentMasterKeyCustody

/-! ## Data keys -/

inductive DataKeyPurpose
  | content
  | memoryDedupe
  deriving DecidableEq

def DataKeyPurpose.asStr : DataKeyPurpose → String
  | content => "content"
  | memoryDedupe => "memory_dedupe"

inductive DataKeyState
  | pending
  | active
  | retiring
  | retired
  | abandoned
  deriving DecidableEq

namespace DataKeyState

def asStr : DataKeyState → String
  | pending => "pending"
  | active => "active"
  | retiring => "retiring"
  | retired => "retired"
  | abandoned => "abandoned"

/-- Whether a snapshot load unwraps this key. -/
def isUnwrappedAtLoad : DataKeyState → Bool
  | pending | active | retiring => true
  | retired | abandoned => false

/-- Whether the snapshot carries an entry for this key at all. -/
def isCarriedInSnapshot : DataKeyState → Bool
  | retired => false
  | _ => true

/-- Whether new content may be sealed under this key. -/
def isWritable : DataKeyState → Bool
  | active => true
  | _ => false

end DataKeyState

/-- One `content_data_keys` row. -/
structure KeyringRow where
  id : RawUuid
  keyVersion : Int
  purpose : DataKeyPurpose
  state : DataKeyState
  custodyBackend : String
  masterKeyId : String
  wrapAlgorithm : String
  wrapNonce : Bytes
  wrappedKey : Bytes
  keyCheckValue : FixedBytes 8
  deriving DecidableEq

namespace KeyringRow

def wrapped (row : KeyringRow) : WrappedKey where
  masterKeyId := row.masterKeyId
  wrapAlgorithm := row.wrapAlgorithm
  nonce := row.wrapNonce
  wrapped := row.wrappedKey

/-- The authenticated data of the wrap, from the row's own columns. -/
def aad (row : KeyringRow) : Bytes :=
  utf8 (wrappedDataKeyAad row.id row.masterKeyId row.wrapAlgorithm)

end KeyringRow

/-- `content_data_keys`, with its primary key and its two unique indexes. -/
structure KeyTable where
  rows : List KeyringRow
  id_unique : (rows.map KeyringRow.id).Nodup
  version_unique : (rows.map KeyringRow.keyVersion).Nodup
  single_active : rows.Pairwise fun a b =>
    a.state = .active → b.state = .active → a.purpose ≠ b.purpose

def formatKeyCheckValue (value : FixedBytes 8) : String :=
  String.ofList (hexText value.bytes)

inductive KeyringError
  | database
  | custody (error : KeyCustodyError)
  | unreadableRow (dataKeyId : RawUuid) (backend declared used : String)
  | unopenableDataKey (dataKeyId : RawUuid) (masterKeyId backend : String)
      (configured : List String) (source : KeyCustodyError)
  | keyCheckValueMismatch (dataKeyId : RawUuid) (masterKeyId stored computed : String)
  | noActiveKey (purpose : String) (loaded : Nat)
  | unknownDataKey (dataKeyId : RawUuid)
  | abandonedDataKey (id : RawUuid)
  | wrongPurposeDataKey (id : RawUuid) (purpose wanted : String)

/-! ## Entries and snapshots -/

structure MemoryDedupeHasher where
  dataKeyId : RawUuid
  key : DataKey
  deriving DecidableEq

/-- The opened form of a data key, chosen by its purpose. -/
inductive OpenedKey
  | content (cipher : ContentCipher)
  | memoryDedupe (hasher : MemoryDedupeHasher)
  deriving DecidableEq

/-- One keyring row, as the snapshot holds it; an abandoned key has nothing opened. -/
structure KeyEntry where
  id : RawUuid
  keyVersion : Int
  purpose : DataKeyPurpose
  state : DataKeyState
  custodyBackend : String
  masterKeyId : String
  keyCheckValue : FixedBytes 8
  opened : Option OpenedKey
  deriving DecidableEq

/-- The cipher, or the refusal this key earns. -/
def KeyEntry.cipher (entry : KeyEntry) : Except KeyringError ContentCipher :=
  match entry.opened with
  | none => .error (.abandonedDataKey entry.id)
  | some (.content cipher) => .ok cipher
  | some (.memoryDedupe _) =>
    .error (.wrongPurposeDataKey entry.id entry.purpose.asStr DataKeyPurpose.content.asStr)

/-- An immutable view of the keyring, swapped in whole. -/
structure KeyringSnapshot where
  activeContent : ContentCipher
  activeMemoryDedupe : Option MemoryDedupeHasher
  byId : List KeyEntry
  generation : Nat
  deriving DecidableEq

namespace KeyringSnapshot

def entry (snapshot : KeyringSnapshot) (id : RawUuid) : Option KeyEntry :=
  snapshot.byId.find? fun entry => entry.id = id

/-- `None` for a key this snapshot has never heard of. -/
def resolve (snapshot : KeyringSnapshot) (id : RawUuid) :
    Option (Except KeyringError ContentCipher) :=
  (snapshot.entry id).map KeyEntry.cipher

end KeyringSnapshot

/-! ## Loading -/

/-- Every row that is not retired, by version. -/
def fetchRows (table : KeyTable) : List KeyringRow :=
  (table.rows.filter fun row => row.state ≠ .retired).insertionSort fun a b =>
    a.keyVersion ≤ b.keyVersion

/-- What the loop over the rows has put together. -/
structure Assembly where
  activeContent : Option ContentCipher := none
  activeMemoryDedupe : Option MemoryDedupeHasher := none
  byId : List KeyEntry := []

/-- `HashMap::insert`: an entry replaces the one with its id. -/
def insertEntry (byId : List KeyEntry) (entry : KeyEntry) : List KeyEntry :=
  byId.filter (fun other => other.id ≠ entry.id) ++ [entry]

section

variable (A : Aead) (keyCheckValue : DataKey → FixedBytes 8) (custody : EnvironmentMasterKeyCustody)

/-- Unwrap a row's data key, and check that it is the right one. -/
def unwrapRow (row : KeyringRow) : Except KeyringError DataKey :=
  match custody.unwrap A row.wrapped row.aad with
  | .error source =>
    .error (.unopenableDataKey row.id row.masterKeyId custody.backendName custody.masterKeyIds source)
  | .ok dataKey =>
    if keyCheckValue dataKey ≠ row.keyCheckValue then
      .error (.keyCheckValueMismatch row.id row.masterKeyId (formatKeyCheckValue row.keyCheckValue)
        (formatKeyCheckValue (keyCheckValue dataKey)))
    else .ok dataKey

/-- The purpose decides what the 32 bytes become. -/
def openedKey (row : KeyringRow) (dataKey : DataKey) : OpenedKey :=
  match row.purpose with
  | .content => .content { dataKeyId := row.id, key := dataKey }
  | .memoryDedupe => .memoryDedupe { dataKeyId := row.id, key := dataKey }

def keyEntry (row : KeyringRow) (opened : Option OpenedKey) : KeyEntry where
  id := row.id
  keyVersion := row.keyVersion
  purpose := row.purpose
  state := row.state
  custodyBackend := row.custodyBackend
  masterKeyId := row.masterKeyId
  keyCheckValue := row.keyCheckValue
  opened := opened

/-- The end of the loop body: pick the active keys, and carry the entry. -/
def Assembly.add (acc : Assembly) (row : KeyringRow) (opened : Option OpenedKey) : Assembly where
  activeContent :=
    match row.state.isWritable, opened with
    | true, some (.content cipher) => some cipher
    | _, _ => acc.activeContent
  activeMemoryDedupe :=
    match row.state.isWritable, opened with
    | true, some (.memoryDedupe hasher) => some hasher
    | _, _ => acc.activeMemoryDedupe
  byId := insertEntry acc.byId (keyEntry row opened)

/-- One round of the loop of `assemble`. -/
def assembleRow (acc : Assembly) (row : KeyringRow) : Except KeyringError Assembly :=
  if ¬row.state.isCarriedInSnapshot then .ok acc
  else if row.state.isUnwrappedAtLoad then do
    let dataKey ← unwrapRow A keyCheckValue custody row
    .ok (acc.add row (some (openedKey row dataKey)))
  else .ok (acc.add row none)

/-- Unwrap every loadable row, and pick the active content key; any failure is a refusal. -/
def assemble (rows : List KeyringRow) (generation : Nat) : Except KeyringError KeyringSnapshot := do
  let acc ← rows.foldlM (assembleRow A keyCheckValue custody) {}
  match acc.activeContent with
  | none => .error (.noActiveKey DataKeyPurpose.content.asStr acc.byId.length)
  | some activeContent =>
    .ok
      { activeContent
        activeMemoryDedupe := acc.activeMemoryDedupe
        byId := acc.byId
        generation }

/-- A freshly loaded snapshot of a table. -/
def loadSnapshot (table : KeyTable) (generation : Nat) : Except KeyringError KeyringSnapshot :=
  assemble A keyCheckValue custody (fetchRows table) generation

end

end Moira.Keyring
