import Mathlib.Data.List.Infix
import Moira.Conversations.Statements
import Moira.Lib.Program

/-!
# What the conversation service asks and is asked

Every statement, every model call, the two ends of the summarization lock and the envelope of an
admin command is one operation.

- `ConversationOp` — the operations; `Call` — the calls
- `validateContent`, `conversationAccess` — what is looked at before any statement
-/

namespace Moira.Conversations

/-! ## Operations -/

/-- One accepted candidate of an extraction. -/
structure AcceptedCandidate where
  content : String
  memoryKey : Option String := none

/-- The provider, the credential and the handle of an embedding model. -/
inductive EmbeddingModelState
  | ready
  | notConfigured
  | unavailable (error : AppError)

structure MemoryExtractionRunOutcome where
  candidateCount : Nat := 0
  acceptedCount : Nat := 0
  rejectedCount : Nat := 0
  duplicates : Nat := 0
  contradictions : Nat := 0
  failureClass : Option String := none

structure RetrievalRun where
  conversationId : Uuid
  embeddingModelId : Option Uuid := none
  memoryCandidateCount : Nat := 0
  memoryReturnedCount : Nat := 0
  chunkCandidateCount : Nat := 0
  chunkReturnedCount : Nat := 0
  failureClass : Option String := none

/-- What a caller is told. -/
inductive Reply
  | conversation (row : ConversationRow)
  | message (record : ConversationMessageRecord)
  | messages (records : List ConversationMessageRecord)
  | summary (summary : ConversationSummary)
  | alreadyRunning
  | memory (record : MemoryRecord)
  | memories (records : List MemoryRecord)
  | collection (row : CollectionRow)
  | document (row : DocumentRow)
  | conversationPolicy (policy : ConversationPolicy)
  | memoryPolicy (policy : MemoryPolicy)
  | retrievalPolicy (policy : RetrievalPolicy)
  | embeddingPolicy (policy : EmbeddingPolicy)
  /-- The response of an earlier command with the same key. -/
  | replayed
  | done

inductive ConversationOp
  | statement (s : Statement)
  /-- `Uuid::now_v7` -/
  | newId
  /-- The ids of a transaction that mints one for each chunk. -/
  | newIds
  | memoryContentHash (content : String)
  /-- Whether there is a key that new content may be sealed under. -/
  | canSeal
  | buildEmbeddingModel (providerId modelId applicationId : Uuid)
  | embedTexts (modelId : Uuid) (texts : List String)
  | tryLock (conversationId : Uuid)
  | unlock (conversationId : Uuid)
  /-- An execution: the text of the reply, if there is one. -/
  | execute (messages : List DomainMessage)
  /-- The execution of an extraction, with the verdict on each candidate of the reply. -/
  | extract (transcript : String)
  | openExtractionRun (conversationId : Uuid)
  | completeExtractionRun (outcome : MemoryExtractionRunOutcome)
  | insertRetrievalRun (run : RetrievalRun)
  | insertContextPlan (conversationId : Uuid)
  /-- The transaction of an admin command up to its mutation: whether the command is replayed. -/
  | claimCommand (operation : String)
  | audit (action : String)
  | answer (result : Except AppError Reply)

abbrev ConversationOp.Ans : ConversationOp → Type
  | statement s => Except AppError s.Value
  | newId => Uuid
  | newIds => DocumentIds
  | memoryContentHash _ => Except AppError Digest
  | buildEmbeddingModel .. => EmbeddingModelState
  | embedTexts .. => Except AppError (List Embedding)
  | tryLock _ => Except AppError Bool
  | unlock _ | completeExtractionRun _ | answer _ => Unit
  | execute _ => Option String
  | extract _ => Except String (List (Except String AcceptedCandidate))
  | openExtractionRun _ | insertRetrievalRun _ | insertContextPlan _ | audit _ => Except AppError Unit
  | claimCommand _ => Except AppError Bool
  | canSeal => Bool

abbrev conversationSig : Sig where
  Op := ConversationOp
  Ans := ConversationOp.Ans

abbrev Service (α : Type) := Prog conversationSig AppError α

namespace Service

abbrev ask (o : ConversationOp) : Service o.Ans :=
  Prog.ask (S := conversationSig) o

abbrev orFail {α : Type} (result : Except AppError α) : Service α :=
  Prog.ofExcept result

/-- A statement whose error is the error of the call. -/
def query (s : Statement) : Service s.Value := do
  orFail (← ask (.statement s))

abbrev conversation (s : ConversationStatement) : Service s.Value :=
  query (.conversation s)

abbrev memory (s : MemoryStatement) : Service s.Value :=
  query (.memory s)

abbrev document (s : DocumentStatement) : Service s.Value :=
  query (.document s)

abbrev policy (s : PolicyStatement) : Service s.Value :=
  query (.policy s)

def audit (action : String) : Service Unit := do
  orFail (← ask (.audit action))

end Service

open Service

/-! ## Requests -/

inductive ChunkStrategy
  | paragraph
  | markdown

def ChunkStrategy.asStr : ChunkStrategy → String
  | paragraph => "paragraph"
  | markdown => "markdown"

def markdownTypes : List String :=
  ["text/markdown", "text/x-markdown", "application/markdown"]

def ChunkStrategy.forMimeType (mimeType : Option String) : ChunkStrategy :=
  let mime := (trim (mimeType.getD "")).toList.map Char.toLower
  if markdownTypes.contains (trim (String.ofList (mime.takeWhile (· ≠ ';')))) then .markdown else .paragraph

/-- The text and the section of a chunk. -/
structure ChunkCandidate where
  text : String
  sectionTitle : Option String := none

structure ContextSections where
  summary : Option (Uuid × String)
  history : List HistoryMessage
  memories : List MemoryCandidate
  chunks : List RagChunkCandidate

structure Deployment where
  /-- `<=>` -/
  distance : List Float8 → List Float8 → Float8
  nearDuplicateMaxDistance : Float8
  chunk : ChunkStrategy → String → Except AppError (List ChunkCandidate)
  rankMemories : String → RetrievalPolicy → List MemoryCandidate → List MemoryCandidate
  rankChunks : String → RetrievalPolicy → List RagChunkCandidate → List RagChunkCandidate
  /-- Whether there is a plan to record. -/
  assembleContext : ContextSections → Nat → Nat → Except AppError Bool

structure ConversationMessageCreateRequest where
  role : ConversationMessageRole := .user
  content : String
  metadata : Json := .obj []

structure ResponseConversationInput where
  create : Bool := false
  id : Option Uuid := none
  title : Option String := none
  metadata : Json := .obj []

inductive PublicContentPart
  | inputText (text : String)
  | inputImage (imageUrl : String)

inductive Call
  | createConversation (title : Option String) (metadata : Json)
  | getConversation (id : Uuid)
  | patchConversation (id : Uuid) (request : ConversationPatchRequest)
  | setConversationStatus (id : Uuid) (status : ConversationStatus)
  | listMessages (id : Uuid) (after limit : Nat)
  | createMessage (id : Uuid) (request : ConversationMessageCreateRequest)
  | prepareResponse (input : ResponseConversationInput) (content : List PublicContentPart)
  | recordAssistantResponse (id responseId executionId : Uuid) (output : Option String)
  | summarizeConversation (id : Uuid) (force : Bool)
  | createMemory (request : MemoryCreateRequest)
  | listMemories (query : MemoryQuery)
  | getMemory (id : Uuid)
  | patchMemory (id : Uuid) (request : MemoryPatchRequest)
  | deleteMemory (id : Uuid)
  | createRagCollection (request : RagCollectionCreateRequest)
  | getRagCollection (id : Uuid)
  | patchRagCollection (id : Uuid) (request : RagCollectionPatchRequest)
  | setRagCollectionStatus (id : Uuid) (status : RagCollectionStatus)
  | createRagDocument (collectionId : Uuid) (request : RagDocumentCreateRequest)
  | getRagDocument (id : Uuid)
  | ingestRagDocument (id : Uuid) (request : RagDocumentIngestRequest)
  | deleteRagDocument (id : Uuid)
  | putConversationPolicy (applicationId : Uuid) (request : ConversationPolicyPutRequest)
  | putMemoryPolicy (applicationId : Uuid) (request : MemoryPolicyPutRequest)
  | putRetrievalPolicy (applicationId : Uuid) (request : RetrievalPolicyPutRequest)
  | putEmbeddingPolicy (applicationId : Uuid) (request : EmbeddingPolicyPutRequest)

structure Request where
  actor : Actor
  call : Call

/-! ## Validation -/

def effectiveTenant (actor : Actor) : Option String :=
  actor.externalTenantId <|> actor.tenantId

def effectiveUser (actor : Actor) : Option String :=
  actor.externalUserId <|> actor.subject

def requiredApplicationId (actor : Actor) : Except AppError Uuid :=
  match actor.internalApplicationId with
  | some applicationId => .ok applicationId
  | none => .error (.coded 403 "conversation_forbidden" "application-bound identity is required")

def ownedBy (applicationId : Uuid) (actor : Actor) : Owner where
  applicationId := applicationId
  externalTenantId := effectiveTenant actor
  externalUserId := effectiveUser actor

def retrievalScope (applicationId : Uuid) (actor : Actor) : RetrievalScope where
  applicationId := applicationId
  externalTenantId := effectiveTenant actor
  externalUserId := effectiveUser actor

def conversationAccess (actor : Actor) (privileged : Bool) : Except AppError ConversationAccess :=
  if (actor.actorType = .consumerKey ∨ actor.actorType = .trustedJwt) ∧
      actor.internalApplicationId = none then
    .error (.forbidden "application-bound caller identity is required for context access")
  else
    .ok { privileged, applicationId := actor.internalApplicationId
          externalTenantId := effectiveTenant actor, externalUserId := effectiveUser actor }

def actsForSystem (actor : Actor) : Bool :=
  actor.actorType = .systemKey || actor.actorType = .devAdmin

def canReadAll (actor : Actor) (scope : String) : Bool :=
  actsForSystem actor && actor.hasScope scope

/-- `char::is_control` -/
def isControl (c : Char) : Bool :=
  c.toNat < 32 || (127 ≤ c.toNat && c.toNat ≤ 159)

def validateTitle (title : Option String) : Except AppError Unit :=
  if title.any fun title => title.utf8ByteSize > 512 || title.toList.any isControl then
    .error (.badRequest "conversation title is invalid")
  else .ok ()

def secretNeedles : List String :=
  ["api_key=", "authorization:", "bearer ", "sk-", "private key"]

def containsSecretLikeText (content : String) : Bool :=
  secretNeedles.any fun needle => decide (needle.toList <:+: content.toList.map Char.toLower)

def unprocessable (code message : String) : AppError :=
  .coded 422 code message

def validateContent (content : String) : Except AppError Unit :=
  if content.isEmpty ∨ content.utf8ByteSize > 262144 then
    .error (unprocessable "context_required_content_too_large"
      "content must be non-empty and within the configured limit")
  else if containsSecretLikeText content then
    .error (unprocessable "memory_sensitivity_forbidden" "content appears to contain secret material")
  else .ok ()

def disallowedKeys : List String :=
  ["api_key", "authorization", "password", "secret", "token", "access_token", "refresh_token", "private_key",
    "cookie"]

def validateMetadata : Json → Except AppError Unit
  | .obj fields =>
    if fields.length > 64 then .error (unprocessable "invalid_metadata" "metadata has too many keys")
    else if fields.any fun (key, _) => key.utf8ByteSize > 128 ||
        disallowedKeys.contains (String.ofList (key.toList.map Char.toLower)) then
      .error (unprocessable "invalid_metadata" "metadata contains a disallowed key")
    else .ok ()
  | _ => .error (unprocessable "invalid_metadata" "metadata must be a JSON object")

def validateMetadataOption : Option Json → Except AppError Unit
  | some metadata => validateMetadata metadata
  | none => .ok ()

def documentTypes : List String :=
  ["text/plain", "text/markdown", "application/json"]

def validateDocument (request : RagDocumentCreateRequest) : Except AppError Unit :=
  if request.title.isEmpty ∨ request.title.utf8ByteSize > 512 then
    .error (unprocessable "rag_document_type_unsupported" "document title is invalid")
  else if ¬documentTypes.contains request.mimeType then
    .error (unprocessable "rag_document_type_unsupported"
      "only bounded text, markdown, and JSON documents are supported")
  else if request.sourceType ≠ "direct_text" ∧ request.sourceType ≠ "metadata_only" then
    .error (unprocessable "rag_document_type_unsupported"
      "only direct_text and metadata_only sources are supported in this phase")
  else
    match request.content with
    | some content => validateContent content
    | none => .ok ()

def userTextFromPublicInput (parts : List PublicContentPart) : String :=
  "\n".intercalate (parts.map fun part =>
    match part with
    | .inputText text => text
    | .inputImage imageUrl => "[image: " ++ imageUrl ++ "]")

def conversationArchived : AppError :=
  .conflict "conversation_archived" "conversation is archived"

end Moira.Conversations
