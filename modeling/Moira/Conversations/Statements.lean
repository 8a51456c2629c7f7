import Moira.Conversations.Documents

/-!
# The statements of the repository

Every transaction that the calls make over the tables, with what it comes to.

- `ConversationStatement`, `MemoryStatement`, `DocumentStatement`, `PolicyStatement` — one for each
  part of the tables
-/

namespace Moira.Conversations

structure Tables where
  conversation : ConversationTables := {}
  memory : MemoryTables := {}
  document : DocumentTables := {}
  policies : PolicyTables := {}

/-- The value of a read, with the tables as they are. -/
def reads {α τ : Type} (value : α) (t : τ) : Except AppError (α × τ) :=
  .ok (value, t)

/-! ## Conversations -/

inductive ConversationStatement
  | createConversation (insert : ConversationInsert)
  | findConversationAuthorized (id : Uuid) (access : ConversationAccess)
  | patchConversation (id : Uuid) (request : ConversationPatchRequest)
  | setConversationStatus (id : Uuid) (status : ConversationStatus)
  | addMessage (messageId : Uuid) (insert : ConversationMessageInsert)
  | listMessages (id : Uuid) (after limit : Nat)
  | findRecentMessages (id : Uuid) (beforeSequence : Option Nat) (limit : Nat)
  | findConversationContextAnchor (id : Uuid)
  | findActiveConversationSummary (id : Uuid)
  | countMessagesAfterSequence (id : Uuid) (afterSequence : Nat)
  | findMessagesAfterSequence (id : Uuid) (afterSequence limit : Nat)
  | insertConversationSummary (summaryId : Uuid) (insert : ConversationSummaryInsert)

namespace ConversationStatement

abbrev Value : ConversationStatement → Type
  | createConversation _ | findConversationAuthorized .. | patchConversation .. | setConversationStatus .. =>
    ConversationRow
  | addMessage .. => MessageRow
  | listMessages .. | findRecentMessages .. | findMessagesAfterSequence .. => List MessageRow
  | findConversationContextAnchor _ => Option ContextAnchor
  | findActiveConversationSummary _ => Option SummaryRow
  | countMessagesAfterSequence .. => Nat
  | insertConversationSummary .. => SummaryRow

instance instDecidableEqValue : (s : ConversationStatement) → DecidableEq s.Value
  | createConversation _ | findConversationAuthorized .. | patchConversation .. | setConversationStatus .. =>
    inferInstanceAs (DecidableEq ConversationRow)
  | addMessage .. => inferInstanceAs (DecidableEq MessageRow)
  | listMessages .. | findRecentMessages .. | findMessagesAfterSequence .. =>
    inferInstanceAs (DecidableEq (List MessageRow))
  | findConversationContextAnchor _ => inferInstanceAs (DecidableEq (Option ContextAnchor))
  | findActiveConversationSummary _ => inferInstanceAs (DecidableEq (Option SummaryRow))
  | countMessagesAfterSequence .. => inferInstanceAs (DecidableEq Nat)
  | insertConversationSummary .. => inferInstanceAs (DecidableEq SummaryRow)

/-- The value that a statement gives and the tables after it, or the error it comes back with. -/
def run (policies : PolicyTables) (moment : Moment) (t : ConversationTables) :
    (s : ConversationStatement) → Except AppError (s.Value × ConversationTables)
  | createConversation insert => t.createConversation insert
  | findConversationAuthorized id access => do reads (← t.findConversationAuthorized id access) t
  | patchConversation id request => t.patchConversation id request
  | setConversationStatus id status => t.setConversationStatus moment.now id status
  | addMessage messageId insert => t.addMessage policies moment messageId insert
  | listMessages id after limit => reads (t.listMessages id after limit) t
  | findRecentMessages id beforeSequence limit => reads (t.findRecentMessages id beforeSequence limit) t
  | findConversationContextAnchor id => reads (t.findConversationContextAnchor id) t
  | findActiveConversationSummary id => reads (t.findActiveConversationSummary id) t
  | countMessagesAfterSequence id afterSequence => reads (t.countMessagesAfterSequence id afterSequence) t
  | findMessagesAfterSequence id afterSequence limit =>
    reads (t.findMessagesAfterSequence id afterSequence limit) t
  | insertConversationSummary summaryId insert => t.insertConversationSummary moment summaryId insert

end ConversationStatement

/-! ## Memories -/

inductive MemoryStatement
  | createMemory (insert : MemoryInsert)
  | findMemoryAuthorized (id : Uuid) (access : ConversationAccess)
  | listMemoriesAuthorized (access : ConversationAccess) (query : MemoryQuery)
  | patchMemory (id : Uuid) (request : MemoryPatchRequest)
      (content : Option (ContentWrite × ConversationContentPersistence))
  | deleteMemory (id : Uuid)
  | findMemoryCandidates (scope : RetrievalScope) (vector : Embedding) (limit : Nat)
  | findMemoryByContentHash (scope : RetrievalScope) (contentHash : Digest)
  | findNearestMemory (scope : RetrievalScope) (vector : Embedding)
  | findMemoryByKey (scope : RetrievalScope) (memoryKey : String)
  | confirmMemory (id : Uuid)
  | insertExtractedMemory (insert : ExtractedMemoryInsert)
  | insertMemoryEmbedding (row : MemoryEmbeddingRow)

namespace MemoryStatement

abbrev Value : MemoryStatement → Type
  | createMemory _ | findMemoryAuthorized .. | patchMemory .. | insertExtractedMemory _ => MemoryRow
  | listMemoriesAuthorized .. => List MemoryRow
  | deleteMemory _ | confirmMemory _ | insertMemoryEmbedding _ => Unit
  | findMemoryCandidates .. => List MemoryMatch
  | findMemoryByContentHash .. => Option Uuid
  | findNearestMemory .. => Option (Uuid × Float8)
  | findMemoryByKey .. => Option (Uuid × Digest)

instance instDecidableEqValue : (s : MemoryStatement) → DecidableEq s.Value
  | createMemory _ | findMemoryAuthorized .. | patchMemory .. | insertExtractedMemory _ =>
    inferInstanceAs (DecidableEq MemoryRow)
  | listMemoriesAuthorized .. => inferInstanceAs (DecidableEq (List MemoryRow))
  | deleteMemory _ | confirmMemory _ | insertMemoryEmbedding _ => inferInstanceAs (DecidableEq Unit)
  | findMemoryCandidates .. => inferInstanceAs (DecidableEq (List MemoryMatch))
  | findMemoryByContentHash .. => inferInstanceAs (DecidableEq (Option Uuid))
  | findNearestMemory .. => inferInstanceAs (DecidableEq (Option (Uuid × Float8)))
  | findMemoryByKey .. => inferInstanceAs (DecidableEq (Option (Uuid × Digest)))

def run (distance : List Float8 → List Float8 → Float8) (moment : Moment) (t : MemoryTables) :
    (s : MemoryStatement) → Except AppError (s.Value × MemoryTables)
  | createMemory insert => t.createMemory moment insert
  | findMemoryAuthorized id access => do reads (← t.findMemoryAuthorized id access) t
  | listMemoriesAuthorized access query => reads (t.listMemoriesAuthorized access query) t
  | patchMemory id request content => t.patchMemory moment id request content
  | deleteMemory id => .ok ((), t.deleteMemory moment.now id)
  | findMemoryCandidates scope vector limit =>
    reads (t.findMemoryCandidates distance scope moment.now vector limit) t
  | findMemoryByContentHash scope contentHash => reads (t.findMemoryByContentHash scope contentHash) t
  | findNearestMemory scope vector => reads (t.findNearestMemory distance scope vector) t
  | findMemoryByKey scope memoryKey => reads (t.findMemoryByKey scope memoryKey) t
  | confirmMemory id => .ok ((), t.confirmMemory moment.now id)
  | insertExtractedMemory insert => t.insertExtractedMemory moment insert
  | insertMemoryEmbedding row => t.insertMemoryEmbedding row

end MemoryStatement

/-! ## Documents -/

/-- The ids of a document that is written are minted in its transaction. -/
inductive DocumentStatement
  | createRagCollection (id : Uuid) (request : RagCollectionCreateRequest)
  | getRagCollection (id : Uuid)
  | patchRagCollection (id : Uuid) (request : RagCollectionPatchRequest)
  | setRagCollectionStatus (id : Uuid) (status : RagCollectionStatus)
  | findCollectionIngestionContext (collectionId : Uuid)
  | findDocumentIngestionContext (documentId : Uuid)
  | findCollectionTarget (collectionId : Uuid)
  | insertRagDocument (target : CollectionTarget) (ids : DocumentIds) (request : RagDocumentCreateRequest)
      (contentHash : Option Digest) (plan : RagIngestionPlan)
  | getRagDocument (id : Uuid)
  | ingestRagDocument (documentId versionId : Uuid) (chunkIds : Nat → Uuid)
      (request : RagDocumentIngestRequest) (contentHash : Digest) (plan : RagIngestionPlan)
  | deleteRagDocument (id : Uuid)
  | findRagChunkCandidates (scope : RetrievalScope) (vector : Embedding)
      (allowedCollectionIds : List Uuid) (limit : Nat)

namespace DocumentStatement

abbrev Value : DocumentStatement → Type
  | createRagCollection .. | getRagCollection _ | patchRagCollection .. | setRagCollectionStatus .. =>
    CollectionRow
  | findCollectionIngestionContext _ | findDocumentIngestionContext _ => Option RagIngestionContext
  | findCollectionTarget _ => CollectionTarget
  | insertRagDocument .. | getRagDocument _ | ingestRagDocument .. => DocumentRow
  | deleteRagDocument _ => Unit
  | findRagChunkCandidates .. => List ChunkMatch

instance instDecidableEqValue : (s : DocumentStatement) → DecidableEq s.Value
  | createRagCollection .. | getRagCollection _ | patchRagCollection .. | setRagCollectionStatus .. =>
    inferInstanceAs (DecidableEq CollectionRow)
  | findCollectionIngestionContext _ | findDocumentIngestionContext _ =>
    inferInstanceAs (DecidableEq (Option RagIngestionContext))
  | findCollectionTarget _ => inferInstanceAs (DecidableEq CollectionTarget)
  | insertRagDocument .. | getRagDocument _
  | ingestRagDocument .. => inferInstanceAs (DecidableEq DocumentRow)
  | deleteRagDocument _ => inferInstanceAs (DecidableEq Unit)
  | findRagChunkCandidates .. => inferInstanceAs (DecidableEq (List ChunkMatch))

def run (distance : List Float8 → List Float8 → Float8) (policies : PolicyTables) (moment : Moment)
    (t : DocumentTables) : (s : DocumentStatement) → Except AppError (s.Value × DocumentTables)
  | createRagCollection id request => t.createRagCollection id request
  | getRagCollection id => do reads (← t.liveCollection id) t
  | patchRagCollection id request => t.patchRagCollection id request
  | setRagCollectionStatus id status => t.setRagCollectionStatus moment.now id status
  | findCollectionIngestionContext collectionId =>
    reads (t.findCollectionIngestionContext policies collectionId) t
  | findDocumentIngestionContext documentId => reads (t.findDocumentIngestionContext policies documentId) t
  | findCollectionTarget collectionId => do reads (← t.findCollectionTarget policies collectionId) t
  | insertRagDocument target ids request contentHash plan =>
    t.insertRagDocument moment target ids request contentHash plan
  | getRagDocument id => do reads (← t.liveDocument id) t
  | ingestRagDocument documentId versionId chunkIds request contentHash plan =>
    t.ingestRagDocument policies moment documentId versionId chunkIds request contentHash plan
  | deleteRagDocument id => .ok ((), t.deleteRagDocument moment.now id)
  | findRagChunkCandidates scope vector allowedCollectionIds limit =>
    reads (t.findRagChunkCandidates distance scope allowedCollectionIds moment.now vector limit) t

end DocumentStatement

/-! ## Policies -/

inductive PolicyStatement
  | getConversationPolicy (applicationId : Uuid)
  | putConversationPolicy (applicationId : Uuid) (request : ConversationPolicyPutRequest)
  | getMemoryPolicy (applicationId : Uuid)
  | putMemoryPolicy (applicationId : Uuid) (request : MemoryPolicyPutRequest)
  | getRetrievalPolicy (applicationId : Uuid)
  | putRetrievalPolicy (applicationId : Uuid) (request : RetrievalPolicyPutRequest)
  | getEmbeddingPolicy (applicationId : Uuid)
  | putEmbeddingPolicy (applicationId : Uuid) (request : EmbeddingPolicyPutRequest)
  | findApplicationEmbeddingTarget (applicationId : Uuid)

namespace PolicyStatement

abbrev Value : PolicyStatement → Type
  | getConversationPolicy _ | putConversationPolicy .. => ConversationPolicy
  | getMemoryPolicy _ | putMemoryPolicy .. => MemoryPolicy
  | getRetrievalPolicy _ | putRetrievalPolicy .. => RetrievalPolicy
  | getEmbeddingPolicy _ | putEmbeddingPolicy .. => EmbeddingPolicy
  | findApplicationEmbeddingTarget _ => Option RagEmbeddingTarget

instance instDecidableEqValue : (s : PolicyStatement) → DecidableEq s.Value
  | getConversationPolicy _ | putConversationPolicy .. => inferInstanceAs (DecidableEq ConversationPolicy)
  | getMemoryPolicy _ | putMemoryPolicy .. => inferInstanceAs (DecidableEq MemoryPolicy)
  | getRetrievalPolicy _ | putRetrievalPolicy .. => inferInstanceAs (DecidableEq RetrievalPolicy)
  | getEmbeddingPolicy _ | putEmbeddingPolicy .. => inferInstanceAs (DecidableEq EmbeddingPolicy)
  | findApplicationEmbeddingTarget _ => inferInstanceAs (DecidableEq (Option RagEmbeddingTarget))

/-- The target whatever is enabled: whoever asks has looked at that before. -/
def target (policy : EmbeddingPolicy) : RagEmbeddingTarget where
  providerId := policy.embeddingProviderId
  modelId := policy.embeddingModelId
  declaredDimension := policy.embeddingDimension

def run (t : PolicyTables) : (s : PolicyStatement) → Except AppError (s.Value × PolicyTables)
  | getConversationPolicy applicationId => reads (t.conversationPolicy applicationId) t
  | putConversationPolicy applicationId request =>
    let t := t.putConversationPolicy applicationId request
    .ok (t.conversationPolicy applicationId, t)
  | getMemoryPolicy applicationId => reads (t.memoryPolicy applicationId) t
  | putMemoryPolicy applicationId request =>
    let t := t.putMemoryPolicy applicationId request
    .ok (t.memoryPolicy applicationId, t)
  | getRetrievalPolicy applicationId => reads (t.retrievalPolicy applicationId) t
  | putRetrievalPolicy applicationId request =>
    let t := t.putRetrievalPolicy applicationId request
    .ok (t.retrievalPolicy applicationId, t)
  | getEmbeddingPolicy applicationId => reads (t.embeddingPolicy applicationId) t
  | putEmbeddingPolicy applicationId request =>
    let t := t.putEmbeddingPolicy applicationId request
    .ok (t.embeddingPolicy applicationId, t)
  | findApplicationEmbeddingTarget applicationId => reads ((t.embedding applicationId).map target) t

end PolicyStatement

/-! ## Over all tables -/

inductive Statement
  | conversation (s : ConversationStatement)
  | memory (s : MemoryStatement)
  | document (s : DocumentStatement)
  | policy (s : PolicyStatement)

namespace Statement

abbrev Value : Statement → Type
  | conversation s => s.Value
  | memory s => s.Value
  | document s => s.Value
  | policy s => s.Value

instance instDecidableEqValue : (s : Statement) → DecidableEq s.Value
  | conversation s => inferInstanceAs (DecidableEq s.Value)
  | memory s => inferInstanceAs (DecidableEq s.Value)
  | document s => inferInstanceAs (DecidableEq s.Value)
  | policy s => inferInstanceAs (DecidableEq s.Value)

def run (distance : List Float8 → List Float8 → Float8) (moment : Moment) (t : Tables) :
    (s : Statement) → Except AppError (s.Value × Tables)
  | conversation s =>
    (s.run t.policies moment t.conversation).map fun (a, tables) => (a, { t with conversation := tables })
  | memory s => (s.run distance moment t.memory).map fun (a, tables) => (a, { t with memory := tables })
  | document s =>
    (s.run distance t.policies moment t.document).map fun (a, tables) => (a, { t with document := tables })
  | policy s => (s.run t.policies).map fun (a, tables) => (a, { t with policies := tables })

end Statement

end Moira.Conversations
