import Mathlib.Algebra.GroupWithZero.Nat
import Moira.Domain.AppError
import Moira.Keyring.DataKeys

/-!
# Sealed content

The write path seals a text under the active data key; the read path opens an envelope with the key
it names, and counts what it could not open.
-/

namespace Moira.Keyring

open Bytes

/-! ## Refusals -/

def contentKeyUnavailable : AppError :=
  .coded 503 "content_key_unavailable"
    "content encryption is configured but no usable content key is available"

def contentDecryptionFailed : AppError :=
  .coded 500 "content_decryption_failed" "the stored content could not be decrypted"

def contentKeyAbandoned : AppError :=
  .coded 500 "content_key_abandoned"
    "the key that protects this content was abandoned and the content cannot be read"

def contentEnvelopeUnsupported : AppError :=
  .coded 500 "content_envelope_unsupported"
    "the stored content is not in a format this build can read"

def envelopeErrorDiscriminant : ContentEnvelopeError → String
  | .tooShort _ => "too_short"
  | .badMagic _ => "bad_magic"
  | .unsupportedFormatVersion _ => "unsupported_format_version"
  | .unsupportedAlgorithm _ => "unsupported_algorithm"
  | .unsupportedKeyMode _ => "unsupported_key_mode"
  | .reservedNotZero _ => "reserved_not_zero"
  | .unknownAadProfile _ => "unknown_aad_profile"
  | .bodyLengthMismatch .. => "body_length_mismatch"
  | .profileMismatch .. => "profile_mismatch"
  | .dataKeyMismatch .. => "data_key_mismatch"
  | .plaintextTooLarge _ => "plaintext_too_large"
  | .decrypt => "aead_open_failed"

def envelopeRefused : ContentEnvelopeError → AppError
  | .decrypt => contentDecryptionFailed
  | _ => contentEnvelopeUnsupported

/-! ## The read path -/

/-- The counter a read moves: exactly one of the two. -/
inductive EnvelopeMetric
  | opened (profile : AadProfile) (dataKeyId : RawUuid)
  | openFailed (profile : AadProfile) (reason : String)

/-- `open_with_snapshot`: the framing, the key of the snapshot, the tag, and the text. -/
def openWithSnapshot (A : Aead) (snapshot : KeyringSnapshot) (envelope : Bytes)
    (identity : ContentIdentity) : EnvelopeMetric × Except AppError String :=
  let failed (reason : String) (error : AppError) : EnvelopeMetric × Except AppError String :=
    (.openFailed identity.profile reason, .error error)
  match EnvelopeHeader.parse envelope with
  | .error error => failed (envelopeErrorDiscriminant error) (envelopeRefused error)
  | .ok header =>
    match snapshot.entry header.dataKeyId with
    | none => failed "unknown_data_key" contentKeyUnavailable
    | some entry =>
      match entry.cipher with
      | .error (.wrongPurposeDataKey ..) => failed "wrong_purpose_data_key" contentDecryptionFailed
      | .error _ => failed "abandoned_data_key" contentKeyAbandoned
      | .ok cipher =>
        match cipher.open A envelope identity with
        | .error error => failed (envelopeErrorDiscriminant error) (envelopeRefused error)
        | .ok plaintext =>
          match String.fromUTF8? ⟨plaintext.toArray⟩ with
          | none => failed "plaintext_not_utf8" contentDecryptionFailed
          | some text => (.opened identity.profile cipher.dataKeyId, .ok text)

/-! ## The sealed columns -/

/-- A row of one of the five tables: what its columns say it is, and its sealed column. -/
structure SealedRow where
  identity : ContentIdentity
  envelope : Option Bytes
  deriving DecidableEq

/-- The row's primary key. -/
def ContentIdentity.rowId : ContentIdentity → RawUuid
  | conversationMessage messageId .. => messageId
  | conversationSummary summaryId .. => summaryId
  | memoryRecord memoryId .. => memoryId
  | ragDocumentVersion versionId .. => versionId
  | ragChunk chunkId .. => chunkId

/-- Where a row is: its table and its id there. -/
def SealedRow.key (row : SealedRow) : AadProfile × RawUuid :=
  (row.identity.profile, row.identity.rowId)

/-- The rows of the five tables. -/
structure ContentTables where
  rows : List SealedRow
  key_unique : (rows.map SealedRow.key).Nodup

/-- The `where` clause of an audit: the value names this key. -/
def SealedRow.namesKey (row : SealedRow) (dataKeyId : RawUuid) : Bool :=
  row.envelope.bind contentEnvelopeDataKeyId = some dataKeyId

namespace ContentTables

def column (tables : ContentTables) (profile : AadProfile) : List SealedRow :=
  tables.rows.filter fun row => row.identity.profile = profile

/-- `usage_in`: a count for each sealed column. -/
def usage (tables : ContentTables) (dataKeyId : RawUuid) : List (AadProfile × Nat) :=
  AadProfile.all.map fun profile =>
    (profile, (tables.column profile).countP fun row => row.namesKey dataKeyId)

end ContentTables

def KeyUsage.total (perColumn : List (AadProfile × Nat)) : Nat :=
  (perColumn.map Prod.snd).sum

end Moira.Keyring
