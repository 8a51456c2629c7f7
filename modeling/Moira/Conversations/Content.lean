import Moira.Execution.Types
import Moira.Keyring.ContentAccess

/-!
# Content columns

What a writer makes of a text under the content policy of its application, and how a reader gets it
back.

- `ContentWrite.underPolicy`, `ContentWrite.underPolicyForRag` — the form a body is stored in
- `Digest` — ideal hashing: two texts have the same digest only if they are the same
-/

namespace Moira.Conversations

open Keyring (RawUuid ContentIdentity contentDecryptionFailed)

/-! ## Policies -/

inductive ConversationContentPersistence
  | none
  | metadataOnly
  | plainContent
  | encryptedContent
  deriving DecidableEq

namespace ConversationContentPersistence

def persistsPlaintext : ConversationContentPersistence → Bool
  | plainContent => true
  | _ => false

def persistsContentMetadata : ConversationContentPersistence → Bool
  | none => false
  | _ => true

def persistsCiphertext : ConversationContentPersistence → Bool
  | encryptedContent => true
  | _ => false

end ConversationContentPersistence

/-! ## What is stored -/

inductive ContentWrite
  | omitted
  | plain (text : String)
  | encrypt (text : String)

namespace ContentWrite

def underPolicy : ConversationContentPersistence → String → ContentWrite
  | .none, _ | .metadataOnly, _ => omitted
  | .plainContent, plaintext => plain plaintext
  | .encryptedContent, plaintext => encrypt plaintext

/-- A document has headings, offsets, hashes and vectors beside its text: a body that is left out
would claim more than is true. -/
def underPolicyForRag : ConversationContentPersistence → String → ContentWrite
  | .none, plaintext | .metadataOnly, plaintext | .plainContent, plaintext => plain plaintext
  | .encryptedContent, plaintext => encrypt plaintext

def plaintext : ContentWrite → Option String
  | omitted => Option.none
  | plain text | encrypt text => some text

end ContentWrite

/-! ## Columns -/

/-- A sealed value. -/
structure SealedContent where
  identity : ContentIdentity
  text : String
  deriving DecidableEq

def SealedContent.openContent (content : SealedContent) (identity : ContentIdentity) :
    Except AppError String :=
  if content.identity = identity then .ok content.text else .error contentDecryptionFailed

/-- The columns of a body. -/
structure ContentColumns where
  plain : Option String := Option.none
  encrypted : Option SealedContent := Option.none
  deriving DecidableEq

/--
What every write site does with its body. `sealing` is whether the keyring has a key that new
content may be sealed under.
-/
def ContentWrite.columns (sealing : Except AppError Unit) (identity : ContentIdentity) :
    ContentWrite → Except AppError ContentColumns
  | omitted => .ok {}
  | plain text => .ok { plain := some text }
  | encrypt text => sealing.map fun _ => { encrypted := some { identity, text } }

/-- `conversation_content_from_row`: a sealed body goes before a plain one. -/
def ContentColumns.content (columns : ContentColumns) (identity : ContentIdentity) :
    Except AppError (Option String) :=
  match columns.encrypted with
  | some content => (content.openContent identity).map some
  | Option.none => .ok columns.plain

/-! ## Digests and counts -/

structure Digest where
  text : String
  deriving DecidableEq

/-- `split_whitespace`, counted: `inWord` is whether the character before is part of a word. -/
def countWords : Bool → List Char → Nat
  | _, [] => 0
  | inWord, c :: rest =>
    if isWhiteSpace c then countWords false rest
    else (if inWord then 0 else 1) + countWords true rest

/-- The token count of a message. -/
def estimateTokens (content : String) : Nat :=
  max (countWords false content.toList) 1

def charsPerToken : Nat := 4

/-- The token count of a summary and of a backlog. -/
def budgetTokens (text : String) : Nat :=
  if text.isEmpty then 0
  else max (max (countWords false text.toList) ((text.length + charsPerToken - 1) / charsPerToken)) 1

/-- The token count of a chunk. -/
def estimateChunkTokens (text : String) : Nat :=
  (text.length + 3) / 4

/-! ## Identities -/

/-- The sixteen bytes of an id. -/
def rawUuid (id : Uuid) : RawUuid where
  bytes := Bytes.be 16 id
  length_bytes := Bytes.length_be 16 id

end Moira.Conversations
