import Moira.Lib.Bytes

/-!
# Content envelopes

The format of a sealed column: a header of 42 bytes, and the AES-256-GCM body behind it. The
authenticated data are the header bytes as stored, a zero byte, and the identity of the row.

- `ContentIdentity.identityString` — the identity, one shape for each profile
- `EnvelopeHeader.parse` — the framing checks, in the order the reader makes them
- `ContentCipher.sealWithNonce`, `ContentCipher.open` — with the cipher as a parameter (`Aead`)
-/

namespace Moira.Keyring

open Bytes

abbrev RawUuid := FixedBytes 16

/-- `Display` of a UUID. -/
def RawUuid.text (id : RawUuid) : String :=
  String.ofList (uuidText id.bytes)

/-! ## Profiles and identities -/

/-- One profile for each encrypted column. -/
inductive AadProfile
  | conversationMessageContent
  | conversationSummaryText
  | memoryRecordContent
  | ragDocumentVersionContent
  | ragChunkText
  deriving DecidableEq

namespace AadProfile

def all : List AadProfile :=
  [conversationMessageContent, conversationSummaryText, memoryRecordContent,
    ragDocumentVersionContent, ragChunkText]

def id : AadProfile → Nat
  | conversationMessageContent => 1
  | conversationSummaryText => 2
  | memoryRecordContent => 3
  | ragDocumentVersionContent => 4
  | ragChunkText => 5

def fromId (id : Nat) : Option AadProfile :=
  all.find? fun profile => profile.id = id

def table : AadProfile → String
  | conversationMessageContent => "conversation_messages"
  | conversationSummaryText => "conversation_summaries"
  | memoryRecordContent => "memory_records"
  | ragDocumentVersionContent => "rag_document_versions"
  | ragChunkText => "rag_chunks"

def column : AadProfile → String
  | conversationMessageContent => "content_encrypted"
  | conversationSummaryText => "summary_text_encrypted"
  | memoryRecordContent => "content_encrypted"
  | ragDocumentVersionContent => "content_encrypted"
  | ragChunkText => "chunk_text_encrypted"

end AadProfile

/-- The row a sealed value is bound to. -/
inductive ContentIdentity
  | conversationMessage (messageId conversationId : RawUuid) (sequenceNumber : Int)
  | conversationSummary (summaryId conversationId : RawUuid) (coversThroughSequence : Int)
  | memoryRecord (memoryId applicationId : RawUuid) (memoryScope : String)
  | ragDocumentVersion (versionId documentId : RawUuid) (versionNumber : Int)
  | ragChunk (chunkId documentVersionId : RawUuid) (chunkIndex : Int)
  deriving DecidableEq

namespace ContentIdentity

def profile : ContentIdentity → AadProfile
  | conversationMessage .. => .conversationMessageContent
  | conversationSummary .. => .conversationSummaryText
  | memoryRecord .. => .memoryRecordContent
  | ragDocumentVersion .. => .ragDocumentVersionContent
  | ragChunk .. => .ragChunkText

/-- What every identity of a profile starts with. -/
def head (profile : AadProfile) : String :=
  "moira/content/v1;table=" ++ profile.table ++ ";column=" ++ profile.column

/-- Two ids and a last field, each with its name. -/
def fields (profile : AadProfile) (first second last : String) (a b : RawUuid) (value : String) :
    String :=
  head profile ++ first ++ a.text ++ second ++ b.text ++ last ++ value

/-- `identity_string`. -/
def identityString : ContentIdentity → String
  | conversationMessage messageId conversationId sequenceNumber =>
    fields .conversationMessageContent ";message_id=" ";conversation_id=" ";sequence_number="
      messageId conversationId (toString sequenceNumber)
  | conversationSummary summaryId conversationId coversThroughSequence =>
    fields .conversationSummaryText ";summary_id=" ";conversation_id=" ";covers_through_sequence="
      summaryId conversationId (toString coversThroughSequence)
  | memoryRecord memoryId applicationId memoryScope =>
    fields .memoryRecordContent ";memory_id=" ";application_id=" ";memory_scope="
      memoryId applicationId memoryScope
  | ragDocumentVersion versionId documentId versionNumber =>
    fields .ragDocumentVersionContent ";version_id=" ";document_id=" ";version_number="
      versionId documentId (toString versionNumber)
  | ragChunk chunkId documentVersionId chunkIndex =>
    fields .ragChunkText ";chunk_id=" ";document_version_id=" ";chunk_index="
      chunkId documentVersionId (toString chunkIndex)

end ContentIdentity

/-! ## The header -/

inductive ContentEnvelopeError
  | tooShort (len : Nat)
  | badMagic (found : Bytes)
  | unsupportedFormatVersion (formatVersion : UInt8)
  | unsupportedAlgorithm (algorithmId : UInt8)
  | unsupportedKeyMode (keyMode : UInt8)
  | reservedNotZero (reserved : UInt8)
  | unknownAadProfile (aadProfile : Nat)
  | bodyLengthMismatch (declared actual : Nat)
  | profileMismatch (header identity : AadProfile)
  | dataKeyMismatch (header cipher : RawUuid)
  | plaintextTooLarge (len : Nat)
  | decrypt

/-- `"MOE1"`. -/
def envelopeMagic : Bytes := [0x4D, 0x4F, 0x45, 0x31]

def formatVersionV1 : UInt8 := 1

def algorithmAes256Gcm : UInt8 := 1

def keyModeWrappedDek : UInt8 := 1

def envelopeHeaderLen : Nat := 42

def envelopeTagLen : Nat := 16

def minEnvelopeLen : Nat := envelopeHeaderLen + envelopeTagLen

/-- The fields of a header that was accepted; the version, algorithm and key mode are fixed. -/
structure EnvelopeHeader where
  dataKeyId : RawUuid
  nonce : FixedBytes 12
  aadProfile : AadProfile
  bodyLen : Nat

namespace EnvelopeHeader

/-- The framing checks of a stored value, before any key is looked at. -/
def parse (envelope : Bytes) : Except ContentEnvelopeError EnvelopeHeader :=
  if h : envelope.length < minEnvelopeLen then .error (.tooShort envelope.length)
  else
    have h : 58 ≤ envelope.length := Nat.le_of_not_lt h
    if slice envelope 0 4 ≠ envelopeMagic then .error (.badMagic (slice envelope 0 4))
    else if byteAt envelope 4 ≠ formatVersionV1 then
      .error (.unsupportedFormatVersion (byteAt envelope 4))
    else if byteAt envelope 5 ≠ algorithmAes256Gcm then
      .error (.unsupportedAlgorithm (byteAt envelope 5))
    else if byteAt envelope 6 ≠ keyModeWrappedDek then
      .error (.unsupportedKeyMode (byteAt envelope 6))
    else if byteAt envelope 7 ≠ 0 then .error (.reservedNotZero (byteAt envelope 7))
    else
      match AadProfile.fromId (ofBe (slice envelope 36 2)) with
      | none => .error (.unknownAadProfile (ofBe (slice envelope 36 2)))
      | some aadProfile =>
        let bodyLen := ofBe (slice envelope 38 4)
        let actual := envelope.length - envelopeHeaderLen
        if bodyLen ≠ actual then .error (.bodyLengthMismatch bodyLen actual)
        else .ok
          { dataKeyId := ⟨slice envelope 8 16, length_slice (by omega)⟩
            nonce := ⟨slice envelope 24 12, length_slice (by omega)⟩
            aadProfile, bodyLen }

/-- The exact bytes in front of the body. -/
def toBytes (header : EnvelopeHeader) : Bytes :=
  envelopeMagic ++ ([formatVersionV1] ++ ([algorithmAes256Gcm] ++ ([keyModeWrappedDek] ++ ([0] ++
    (header.dataKeyId.bytes ++ (header.nonce.bytes ++ (be 2 header.aadProfile.id ++
      be 4 header.bodyLen)))))))

end EnvelopeHeader

/-- The authenticated data, from the header bytes as they are stored. -/
def envelopeAad (headerBytes : Bytes) (identity : ContentIdentity) : Bytes :=
  headerBytes ++ 0 :: identity.identityString.toUTF8.data.toList

/-! ## The cipher -/

abbrev DataKey := FixedBytes 32

/-- AES-256-GCM, as a parameter: encryption appends a tag of 16 bytes. -/
structure Aead where
  encrypt : DataKey → FixedBytes 12 → Bytes → Bytes → Bytes
  decrypt : DataKey → FixedBytes 12 → Bytes → Bytes → Option Bytes
  length_encrypt : ∀ key nonce aad plaintext,
    (encrypt key nonce aad plaintext).length = plaintext.length + envelopeTagLen

/-- One encryption: its key, nonce, authenticated data and plaintext. -/
structure AeadCall where
  key : DataKey
  nonce : FixedBytes 12
  aad : Bytes
  plaintext : Bytes
  deriving DecidableEq

/-- Decryption under an ideal cipher succeeds on what these calls encrypted, and on nothing else. -/
structure Aead.IdealFor (A : Aead) (made : AeadCall → Prop) : Prop where
  decrypt_eq_some_iff : ∀ key nonce aad body plaintext,
    A.decrypt key nonce aad body = some plaintext ↔
      made { key, nonce, aad, plaintext } ∧ A.encrypt key nonce aad plaintext = body

@[ext] structure ContentCipher where
  dataKeyId : RawUuid
  key : DataKey
  deriving DecidableEq

namespace ContentCipher

variable (A : Aead) (cipher : ContentCipher)

/-- The header of an envelope for a plaintext of this length. -/
def header (identity : ContentIdentity) (plaintext : Bytes) (nonce : FixedBytes 12) :
    EnvelopeHeader where
  dataKeyId := cipher.dataKeyId
  nonce := nonce
  aadProfile := identity.profile
  bodyLen := plaintext.length + envelopeTagLen

/-- `seal`, with the nonce it draws. -/
def sealWithNonce (identity : ContentIdentity) (plaintext : Bytes) (nonce : FixedBytes 12) :
    Except ContentEnvelopeError Bytes :=
  if plaintext.length + envelopeTagLen < 2 ^ 32 then
    let headerBytes := (cipher.header identity plaintext nonce).toBytes
    let aad := envelopeAad headerBytes identity
    .ok (headerBytes ++ A.encrypt cipher.key nonce aad plaintext)
  else .error (.plaintextTooLarge plaintext.length)

/-- `open`: the framing, the profile, the key id, and then the tag. -/
def «open» (envelope : Bytes) (identity : ContentIdentity) : Except ContentEnvelopeError Bytes := do
  let header ← EnvelopeHeader.parse envelope
  if header.aadProfile ≠ identity.profile then
    .error (.profileMismatch header.aadProfile identity.profile)
  else if header.dataKeyId ≠ cipher.dataKeyId then
    .error (.dataKeyMismatch header.dataKeyId cipher.dataKeyId)
  else
    let aad := envelopeAad (envelope.take envelopeHeaderLen) identity
    match A.decrypt cipher.key header.nonce aad (envelope.drop envelopeHeaderLen) with
    | some plaintext => .ok plaintext
    | none => .error .decrypt

end ContentCipher

/-! ## The database's reader -/

/--
`content_envelope_data_key_id`: `null` unless the length, the magic and the format version are those
of a v1 envelope. `substring` counts from one, `get_byte` from zero.
-/
def contentEnvelopeDataKeyId (envelope : Bytes) : Option RawUuid :=
  if h : envelope.length < 58 then none
  else if slice envelope (1 - 1) 4 ≠ [0x4D, 0x4F, 0x45, 0x31] then none
  else if byteAt envelope 4 ≠ 1 then none
  else some ⟨slice envelope (9 - 1) 16, length_slice (by omega)⟩

end Moira.Keyring
