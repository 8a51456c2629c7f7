import Moira.Keyring.Properties.Rewrap
import Moira.Keyring.Reseal

/-!
# The statements of `reseal`

- `contentEnvelopeDataKeyId_of_seal` — a value sealed again names the new key
-/

namespace Moira.Keyring

open Bytes

/-- The tables hold this value, and it names the key. -/
def ContentTables.Sealed (tables : ContentTables) (dataKeyId : RawUuid) (value : SealedValue) : Prop :=
  ∃ row ∈ tables.rows, row.sealedUnder dataKeyId = some value

instance (tables : ContentTables) (dataKeyId : RawUuid) (value : SealedValue) :
    Decidable (tables.Sealed dataKeyId value) :=
  inferInstanceAs (Decidable (∃ row ∈ tables.rows, row.sealedUnder dataKeyId = some value))

section

variable {tables : ContentTables} {dataKeyId : RawUuid} {value : SealedValue} {row : SealedRow}

theorem sealedUnder_eq_some :
    row.sealedUnder dataKeyId = some value ↔ row.identity = value.identity ∧
      row.envelope = some value.envelope ∧
      contentEnvelopeDataKeyId value.envelope = some dataKeyId := by
  cases value with
  | mk identity envelope =>
    cases hrow : row.envelope with
    | none => simp [SealedRow.sealedUnder, hrow]
    | some stored =>
      simp only [SealedRow.sealedUnder, hrow]
      split
      · rename_i hnames
        simp only [Option.some.injEq, SealedValue.mk.injEq]
        constructor
        · rintro ⟨hidentity, rfl⟩
          exact ⟨hidentity, rfl, hnames⟩
        · rintro ⟨hidentity, henvelope, -⟩
          exact ⟨hidentity, henvelope⟩
      · rename_i hnames
        simp only [reduceCtorEq, Option.some.injEq, false_iff, not_and]
        rintro - rfl
        exact hnames

theorem names_of_sealed (h : tables.Sealed dataKeyId value) :
    contentEnvelopeDataKeyId value.envelope = some dataKeyId := by
  obtain ⟨row, -, hrow⟩ := h
  exact (sealedUnder_eq_some.mp hrow).2.2

theorem mem_sealedValues {profile : AadProfile} :
    value ∈ tables.sealedValues profile dataKeyId ↔
      value.identity.profile = profile ∧ tables.Sealed dataKeyId value := by
  simp only [ContentTables.sealedValues, List.mem_filterMap, List.mem_insertionSort,
    ContentTables.column, List.mem_filter, decide_eq_true_eq]
  constructor
  · rintro ⟨row, ⟨hrow, hprofile⟩, hvalue⟩
    refine ⟨?_, row, hrow, hvalue⟩
    rw [← (sealedUnder_eq_some.mp hvalue).1, hprofile]
  · rintro ⟨hprofile, row, hrow, hvalue⟩
    refine ⟨row, ⟨hrow, ?_⟩, hvalue⟩
    rw [(sealedUnder_eq_some.mp hvalue).1, hprofile]

/-- A column without a value that names the key. -/
def ContentTables.Clear (tables : ContentTables) (dataKeyId : RawUuid) (profile : AadProfile) : Prop :=
  ∀ value, tables.Sealed dataKeyId value → value.identity.profile ≠ profile

/-! ## A swap -/

theorem matchesValue_iff :
    ContentTables.matchesValue value row ↔
      row.key = value.key ∧ row.envelope = some value.envelope := by
  simp [ContentTables.matchesValue]

theorem mem_mapEnvelopes {f : SealedRow → Option Bytes} :
    row ∈ (tables.mapEnvelopes f).rows ↔
      ∃ old ∈ tables.rows, { old with envelope := f old } = row :=
  List.mem_map

theorem matches_of_sealed (hrow : row.sealedUnder dataKeyId = some value) :
    ContentTables.matchesValue value row := by
  obtain ⟨hidentity, henvelope, -⟩ := sealedUnder_eq_some.mp hrow
  rw [matchesValue_iff]
  refine ⟨?_, henvelope⟩
  rw [SealedRow.key, SealedValue.key, hidentity]

theorem swapCount_ne_zero (h : tables.Sealed dataKeyId value) : tables.swapCount value ≠ 0 := by
  obtain ⟨row, hrow, hvalue⟩ := h
  rw [ContentTables.swapCount, Nat.ne_zero_iff_zero_lt, List.countP_pos_iff]
  exact ⟨row, hrow, matches_of_sealed hvalue⟩

/-- **What is held after a swap was held before, and is not the value swapped out.** -/
theorem sealed_of_sealed_swap {old : SealedValue} {resealed : Bytes}
    (hother : contentEnvelopeDataKeyId resealed ≠ some dataKeyId)
    (h : (tables.swap old resealed).Sealed dataKeyId value) :
    tables.Sealed dataKeyId value ∧ value ≠ old := by
  obtain ⟨row, hrow, hvalue⟩ := h
  obtain ⟨before, hbefore, rfl⟩ := mem_mapEnvelopes.mp hrow
  by_cases hmatch : ContentTables.matchesValue old before
  · -- the new value names another key
    simp only [hmatch, if_true] at hvalue
    obtain ⟨-, henvelope, hnames⟩ := sealedUnder_eq_some.mp hvalue
    rw [← Option.some.inj henvelope] at hnames
    exact absurd hnames hother
  · simp only [hmatch, if_false, Bool.false_eq_true] at hvalue
    refine ⟨⟨before, hbefore, hvalue⟩, ?_⟩
    rintro rfl
    exact hmatch (matches_of_sealed hvalue)

/-- What is still held after a swap. -/
theorem sealed_swap {old : SealedValue} (resealed : Bytes) (h : tables.Sealed dataKeyId value) :
    (tables.swap old resealed).Sealed dataKeyId value ∨ tables.swapCount old ≠ 0 := by
  obtain ⟨row, hrow, hvalue⟩ := h
  by_cases hmatch : ContentTables.matchesValue old row
  · right
    rw [ContentTables.swapCount, Nat.ne_zero_iff_zero_lt, List.countP_pos_iff]
    exact ⟨row, hrow, hmatch⟩
  · left
    refine ⟨row, mem_mapEnvelopes.mpr ⟨row, hrow, ?_⟩, hvalue⟩
    simp [hmatch]

/-! ## A writer's update -/

variable {key : AadProfile × RawUuid} {envelope : Bytes}

theorem sealed_of_sealed_replace (hother : contentEnvelopeDataKeyId envelope ≠ some dataKeyId)
    (h : (tables.replace key envelope).Sealed dataKeyId value) : tables.Sealed dataKeyId value := by
  obtain ⟨row, hrow, hvalue⟩ := h
  obtain ⟨before, hbefore, rfl⟩ := mem_mapEnvelopes.mp hrow
  by_cases hkey : before.key = key
  · simp only [hkey, if_true] at hvalue
    obtain ⟨-, henvelope, hnames⟩ := sealedUnder_eq_some.mp hvalue
    rw [← Option.some.inj henvelope] at hnames
    exact absurd hnames hother
  · simp only [hkey, if_false] at hvalue
    exact ⟨before, hbefore, hvalue⟩

/-- What is still held after a writer's update. -/
theorem sealed_replace (h : tables.Sealed dataKeyId value) (hkey : value.key ≠ key) :
    (tables.replace key envelope).Sealed dataKeyId value := by
  obtain ⟨row, hrow, hvalue⟩ := h
  refine ⟨row, mem_mapEnvelopes.mpr ⟨row, hrow, ?_⟩, hvalue⟩
  have hrowKey : row.key ≠ key := by
    rw [SealedRow.key, (sealedUnder_eq_some.mp hvalue).1]
    exact hkey
  simp [hrowKey]

end

/-! ## Sealing again -/

theorem contentEnvelopeDataKeyId_of_seal {A : Aead} {cipher : ContentCipher}
    {identity : ContentIdentity} {plaintext : Bytes} {nonce : FixedBytes 12} {envelope : Bytes}
    (h : cipher.sealWithNonce A identity plaintext nonce = .ok envelope) :
    contentEnvelopeDataKeyId envelope = some cipher.dataKeyId := by
  have houtput : SealCall.output A { cipher, identity, plaintext, nonce } = .ok envelope := h
  exact contentEnvelopeDataKeyId_of_parse (SealCall.parse_output houtput)

/-! ## The end of a stretch of code -/

theorem wp_orReturned {γ : Type} {C : Contract resealSig γ} {P : ResealPoint → γ → Prop}
    (herror : ∀ error g, P (.returned (.error error)) g)
    {p : Prog resealSig KeyringAdminError ResealPoint} {g : γ}
    (h : p.wp C g (fun g point => P point g) (fun _ _ => True)) :
    (orReturned p).wp C g (fun g point => ∀ next, point = some next → P next g)
      (fun _ _ => True) := by
  unfold orReturned
  rw [Prog.wp_bind, Prog.wp_attempt]
  refine Prog.wp_mono h ?_ ?_
  · rintro g point hpoint next ⟨⟩
    exact hpoint
  · rintro g error - next ⟨⟩
    exact herror error g

namespace Sample

/-! A keyring with two content keys and a dedupe key, and two messages sealed under the older one.
-/

def uuidOf (b : UInt8) : RawUuid :=
  ⟨List.replicate 16 b, List.length_replicate⟩

def dataKeyOf (b : UInt8) : DataKey :=
  ⟨List.replicate 32 b, List.length_replicate⟩

def nonceFrom (start : Nat) : FixedBytes 12 :=
  ⟨(List.range 12).map fun n => UInt8.ofNat (n + start), by simp⟩

def oldKeyId : RawUuid := uuidOf 0xa1

def newKeyId : RawUuid := uuidOf 0xb2

def dedupeKeyId : RawUuid := uuidOf 0xc3

def oldKey : DataKey := dataKeyOf 0x5a

def newKey : DataKey := dataKeyOf 0x6b

def dedupeKey : DataKey := dataKeyOf 0x7c

/-- The check values of the three keys, as the source computes them. -/
def checkValueOf (key : DataKey) : FixedBytes 8 :=
  if key = oldKey then checkValue
  else if key = newKey then ⟨[0xe1, 0x6b, 0xf5, 0x4e, 0x73, 0xa1, 0xbb, 0xa7], rfl⟩
  else ⟨[0xbb, 0x81, 0xdd, 0xf8, 0xb7, 0x4c, 0x71, 0x38], rfl⟩

def wrapCall (id : RawUuid) (key : DataKey) (nonceStart : Nat) : AeadCall where
  key := masterKey2025
  nonce := nonceFrom nonceStart
  aad := utf8 (wrappedDataKeyAad id "2025-01" wrapAlgorithmAes256Gcm)
  plaintext := key.bytes

def wrappedOld : Recorded where
  call := wrapCall oldKeyId oldKey 0x10
  body := [0x23, 0x60, 0x67, 0x8b, 0x0c, 0xcb, 0x4e, 0x79, 0xf4, 0xfc, 0x8c, 0x0a, 0xb1, 0xa2, 0x55, 0xec,
    0x5f, 0x4d, 0xde, 0x93, 0x5c, 0x4b, 0x10, 0x51, 0x22, 0x34, 0x93, 0x8b, 0x81, 0x33, 0xe8, 0x8a,
    0x3e, 0x2e, 0x6b, 0xbe, 0x87, 0x55, 0x10, 0x79, 0x21, 0xea, 0x7e, 0x93, 0xce, 0x9a, 0x52, 0xac]
  length_body := rfl
  tagged := by decide

def wrappedNew : Recorded where
  call := wrapCall newKeyId newKey 0x20
  body := [0x5e, 0x80, 0xa8, 0x8b, 0x74, 0x1f, 0x3b, 0x72, 0x1f, 0x5e, 0x57, 0x87, 0x55, 0x1f, 0x35, 0xf8,
    0xf8, 0xcd, 0x87, 0x23, 0x2a, 0x1f, 0x68, 0xd2, 0xea, 0x03, 0x95, 0x43, 0xca, 0xd5, 0xa3, 0xbe,
    0xe6, 0x76, 0xb9, 0x5b, 0xed, 0x94, 0xe2, 0x29, 0xbf, 0xa3, 0x7d, 0xba, 0x9d, 0x0c, 0x0a, 0x71]
  length_body := rfl
  tagged := by decide

def wrappedDedupe : Recorded where
  call := wrapCall dedupeKeyId dedupeKey 0x30
  body := [0xfd, 0xab, 0x9e, 0x43, 0x04, 0xc4, 0xb7, 0x9f, 0x89, 0x65, 0xa8, 0x77, 0x96, 0x29, 0x91, 0x85,
    0xe4, 0x45, 0x38, 0x19, 0x98, 0xe6, 0xad, 0x19, 0xbe, 0xc2, 0x48, 0x74, 0xa5, 0x6e, 0xae, 0x8a,
    0x65, 0xde, 0xce, 0x52, 0xf7, 0x7e, 0xd0, 0x79, 0x6a, 0x41, 0x5f, 0xb8, 0xca, 0x10, 0x10, 0x9a]
  length_body := rfl
  tagged := by decide

def message (n : UInt8) (sequenceNumber : Int) : ContentIdentity :=
  .conversationMessage (uuidOf n) (uuidOf 0x0c) sequenceNumber

/-- A seal of a message. -/
def sealCall (id : RawUuid) (key : DataKey) (nonceStart : Nat) (n : UInt8) (sequenceNumber : Int)
    (plaintext : Bytes) : SealCall where
  cipher := { dataKeyId := id, key }
  identity := message n sequenceNumber
  plaintext := plaintext
  nonce := nonceFrom nonceStart

def hello : Bytes := [0x68, 0x65, 0x6c, 0x6c, 0x6f]

def world : Bytes := [0x77, 0x6f, 0x72, 0x6c, 0x64]

def firstOld : SealCall := sealCall oldKeyId oldKey 0x40 1 1 hello

def secondOld : SealCall := sealCall oldKeyId oldKey 0x50 2 2 world

def firstNew : SealCall := sealCall newKeyId newKey 0x60 1 1 hello

def secondNew : SealCall := sealCall newKeyId newKey 0x70 2 2 world

def firstDedupe : SealCall := sealCall dedupeKeyId dedupeKey 0x80 1 1 hello

/-- A user changes the first message to another text. -/
def firstEdited : SealCall := sealCall newKeyId newKey 0x90 1 1 [0x68, 0x6f, 0x77, 0x64, 0x79]

def sealedFirstOld : Recorded where
  call := firstOld.encryption
  body := [0x4c, 0xa2, 0xa2, 0x2a, 0x70, 0xad, 0x93, 0x11, 0xbe, 0xcf, 0xd5, 0xb3, 0x31, 0xfc, 0x7c, 0x62,
    0xe5, 0x3d, 0xda, 0x24, 0x9b]
  length_body := rfl
  tagged := by decide

def sealedSecondOld : Recorded where
  call := secondOld.encryption
  body := [0x19, 0x63, 0x6b, 0x60, 0x2a, 0x02, 0xba, 0x12, 0xf4, 0x6f, 0x18, 0xe4, 0x8b, 0x61, 0x31, 0x55,
    0xc9, 0xe0, 0xfc, 0x3d, 0x57]
  length_body := rfl
  tagged := by decide

def sealedFirstNew : Recorded where
  call := firstNew.encryption
  body := [0x78, 0x2e, 0x1b, 0x52, 0xa6, 0x9c, 0xa8, 0x8e, 0x04, 0x94, 0xbe, 0x56, 0x87, 0xdc, 0x37, 0x94,
    0x55, 0x34, 0x92, 0x92, 0xd0]
  length_body := rfl
  tagged := by decide

def sealedSecondNew : Recorded where
  call := secondNew.encryption
  body := [0x8f, 0xa2, 0x82, 0x2c, 0xf5, 0xf0, 0x1a, 0xf8, 0xd3, 0x07, 0xae, 0x50, 0x8d, 0x6b, 0x83, 0x03,
    0x33, 0xea, 0x90, 0xd7, 0x63]
  length_body := rfl
  tagged := by decide

def sealedFirstDedupe : Recorded where
  call := firstDedupe.encryption
  body := [0x25, 0xcc, 0xf6, 0x5c, 0xbd, 0x1b, 0x4a, 0x79, 0xd6, 0x15, 0x5f, 0x55, 0xcb, 0x40, 0x81, 0xa0,
    0x57, 0x9f, 0x5e, 0x73, 0x02]
  length_body := rfl
  tagged := by decide

def sealedFirstEdited : Recorded where
  call := firstEdited.encryption
  body := [0x6d, 0xab, 0x43, 0x70, 0x3b, 0xda, 0x0e, 0x4a, 0x7a, 0x92, 0x70, 0x61, 0x28, 0x87, 0x51, 0x96,
    0xde, 0xbe, 0xd3, 0x8d, 0xcf]
  length_body := rfl
  tagged := by decide

/-- AES-256-GCM on the inputs of the runs below. -/
def resealCipher : Aead :=
  Recorded.aead [wrappedOld, wrappedNew, wrappedDedupe, sealedFirstOld, sealedSecondOld,
    sealedFirstNew, sealedSecondNew, sealedFirstDedupe, sealedFirstEdited]

theorem roundTrips_resealCipher : resealCipher.RoundTrips := by
  apply Recorded.roundTrips_aead
  decide

/-- The bytes stored for a seal. -/
def stored (call : SealCall) (record : Recorded) : Bytes :=
  call.header.toBytes ++ record.body

def keyRowOf (id : RawUuid) (version : Int) (purpose : DataKeyPurpose) (state : DataKeyState)
    (key : DataKey) (nonceStart : Nat) (record : Recorded) : KeyringRow where
  id := id
  keyVersion := version
  purpose := purpose
  state := state
  custodyBackend := custodyBackendEnvironment
  masterKeyId := "2025-01"
  wrapAlgorithm := wrapAlgorithmAes256Gcm
  wrapNonce := (nonceFrom nonceStart).bytes
  wrappedKey := record.body
  keyCheckValue := checkValueOf key

def resealKeys : KeyTable where
  rows :=
    [keyRowOf oldKeyId 1 .content .retiring oldKey 0x10 wrappedOld,
      keyRowOf newKeyId 2 .content .active newKey 0x20 wrappedNew,
      keyRowOf dedupeKeyId 3 .memoryDedupe .active dedupeKey 0x30 wrappedDedupe]
  id_unique := by decide
  version_unique := by decide
  single_active := by decide

def storedMessages : ContentTables where
  rows :=
    [{ identity := message 1 1, envelope := some (stored firstOld sealedFirstOld) },
      { identity := message 2 2, envelope := some (stored secondOld sealedSecondOld) }]
  key_unique := by decide

end Sample

end Moira.Keyring
