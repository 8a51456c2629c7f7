import Moira.Conversations.Memories

/-!
# RAG collections, documents and their versions

- `findRagChunkCandidates` — retrieval
-/

namespace Moira.Conversations

open Keyring (ContentIdentity)

/-! ## Rows -/

inductive RagCollectionStatus
  | active
  | disabled
  | deleted
  deriving DecidableEq

inductive RagCollectionVisibility
  | application
  | tenant
  | restricted
  deriving DecidableEq

structure CollectionRow where
  id : Uuid
  applicationId : Uuid
  externalTenantId : Option String := none
  collectionKey : String
  displayName : String := ""
  status : RagCollectionStatus := .active
  visibility : RagCollectionVisibility := .application
  deletedAt : Option Int := none
  deriving DecidableEq

structure DocumentRow where
  id : Uuid
  collectionId : Uuid
  title : String
  mimeType : String
  status : RagCollectionStatus := .active
  currentVersionId : Option Uuid := none
  deletedAt : Option Int := none
  deriving DecidableEq

inductive RagIngestionStatus
  | pending
  | indexed
  | failed
  | superseded
  deriving DecidableEq

/-- `persistence` is the policy that the body was written under; it has no column. -/
structure VersionRow where
  id : Uuid
  documentId : Uuid
  versionNumber : Nat
  columns : ContentColumns
  contentHash : Digest
  contentSizeBytes : Nat
  ingestionStatus : RagIngestionStatus
  createdAt : Int
  supersededAt : Option Int := none
  persistence : ConversationContentPersistence

structure ChunkRow where
  id : Uuid
  documentVersionId : Uuid
  collectionId : Uuid
  chunkIndex : Nat
  columns : ContentColumns
  chunkHash : Digest
  tokenCount : Nat
  sectionTitle : Option String
  persistence : ConversationContentPersistence
  deriving DecidableEq

structure ChunkEmbeddingRow where
  chunkId : Uuid
  embeddingModelId : Option Uuid
  embedding : Embedding

inductive RagRunStatus
  | pending
  | completed
  | failed

structure IngestionRunRow where
  documentId : Uuid
  documentVersionId : Uuid
  status : RagRunStatus
  contentHash : Digest
  chunkCount : Nat
  embeddedChunkCount : Nat
  failureClass : Option String

structure DocumentTables where
  collections : List CollectionRow := []
  documents : List DocumentRow := []
  versions : List VersionRow := []
  chunks : List ChunkRow := []
  chunkEmbeddings : List ChunkEmbeddingRow := []
  ingestionRuns : List IngestionRunRow := []

def VersionRow.identity (row : VersionRow) : ContentIdentity :=
  .ragDocumentVersion (rawUuid row.id) (rawUuid row.documentId) row.versionNumber

def ChunkRow.identity (row : ChunkRow) : ContentIdentity :=
  .ragChunk (rawUuid row.id) (rawUuid row.documentVersionId) row.chunkIndex

/-- The collections that a caller may retrieve from. -/
def RetrievalScope.seesCollection (scope : RetrievalScope) (allowedCollectionIds : List Uuid)
    (row : CollectionRow) : Bool :=
  row.deletedAt.isNone && row.status = .active && row.applicationId = scope.applicationId &&
    (row.externalTenantId.getD "" = "" || sameText row.externalTenantId scope.externalTenantId) &&
    (row.visibility ≠ .tenant || sameText row.externalTenantId scope.externalTenantId) &&
    (row.visibility ≠ .restricted || allowedCollectionIds.contains row.id)

/-! ## Plans -/

structure PreparedChunk where
  chunkIndex : Nat
  text : String
  chunkHash : Digest
  tokenEstimate : Nat
  sectionTitle : Option String := none
  embedding : Option Embedding := none

/-- What a pipeline has produced, and the status that follows from it. -/
structure RagIngestionPlan where
  chunks : List PreparedChunk
  strategy : String
  embeddingModelId : Option Uuid := none
  failureClass : Option String := none

namespace RagIngestionPlan

/-- The plan of a version with no content. -/
def empty : RagIngestionPlan where
  chunks := []
  strategy := "none"

/-- The chunks are kept: they were really produced. -/
def failed (chunks : List PreparedChunk) (strategy failure : String) : RagIngestionPlan where
  chunks := chunks
  strategy := strategy
  failureClass := some failure

variable (plan : RagIngestionPlan)

def chunkCount : Nat := plan.chunks.length

def embeddedChunkCount : Nat :=
  (plan.chunks.filter fun chunk => chunk.embedding.isSome).length

def terminalStatus : RagIngestionStatus :=
  if plan.failureClass.isSome then .failed
  else if plan.chunks.isEmpty then .pending
  else .indexed

def runStatus : RagRunStatus :=
  match plan.terminalStatus with
  | .indexed => .completed
  | .failed => .failed
  | _ => .pending

end RagIngestionPlan

/-! ## Statements -/

def ragCollectionNotFound : AppError :=
  .coded 404 "rag_collection_not_found" "RAG collection not found"

def ragDocumentNotFound : AppError :=
  .coded 404 "rag_document_not_found" "RAG document not found"

structure RagCollectionCreateRequest where
  applicationId : Uuid
  externalTenantId : Option String := none
  collectionKey : String
  displayName : String := ""
  visibility : RagCollectionVisibility := .application
  metadata : Json := .obj []

structure RagCollectionPatchRequest where
  displayName : Option String := none
  visibility : Option RagCollectionVisibility := none
  metadata : Option Json := none

structure RagDocumentCreateRequest where
  title : String
  sourceType : String := "direct_text"
  mimeType : String := "text/plain"
  content : Option String := none
  metadata : Json := .obj []

structure RagDocumentIngestRequest where
  content : Option String := none
  metadata : Json := .obj []

/-- The collection of a document that is created, with the policy of its application. -/
structure CollectionTarget where
  collectionId : Uuid
  persistence : ConversationContentPersistence
  deriving DecidableEq

/-- The ids that are minted for a document: `chunk i` is the one of the chunk at position `i`. -/
structure DocumentIds where
  document : Uuid
  version : Uuid
  chunk : Nat → Uuid

structure RagEmbeddingTarget where
  providerId : Option Uuid
  modelId : Option Uuid
  declaredDimension : Option Nat
  deriving DecidableEq

structure RagIngestionContext where
  applicationId : Uuid
  mimeType : Option String
  embedding : Option RagEmbeddingTarget
  deriving DecidableEq

/-- A row that a retrieval may give. -/
structure ChunkMatch where
  chunk : ChunkRow
  documentId : Uuid
  documentTitle : String
  distance : Float8
  ageSeconds : Int
  deriving DecidableEq

structure RagChunkCandidate where
  chunkId : Uuid
  documentId : Uuid
  documentTitle : String
  sectionTitle : Option String
  chunkIndex : Nat
  text : Option String
  distance : Float8
  ageSeconds : Int

/-- `chunk_candidate_from_row` -/
def ChunkMatch.candidate (found : ChunkMatch) : Except AppError RagChunkCandidate := do
  let text ← found.chunk.columns.content
    (.ragChunk (rawUuid found.chunk.id) (rawUuid found.chunk.documentVersionId) found.chunk.chunkIndex)
  return { chunkId := found.chunk.id, documentId := found.documentId, documentTitle := found.documentTitle
           sectionTitle := found.chunk.sectionTitle, chunkIndex := found.chunk.chunkIndex, text
           distance := found.distance, ageSeconds := found.ageSeconds }

/-- What an application has asked for: no target where embeddings are off. -/
def ragTarget (policy : Option EmbeddingPolicy) : Option RagEmbeddingTarget :=
  match policy with
  | some policy =>
    if policy.ragEmbeddingsEnabled then
      some { providerId := policy.embeddingProviderId, modelId := policy.embeddingModelId
             declaredDimension := policy.embeddingDimension }
    else none
  | none => none

namespace DocumentTables

variable (t : DocumentTables)

def liveCollection (id : Uuid) : Except AppError CollectionRow :=
  match Rows.find CollectionRow.id t.collections id with
  | some row => if row.deletedAt.isNone then .ok row else .error ragCollectionNotFound
  | none => .error ragCollectionNotFound

def liveDocument (id : Uuid) : Except AppError DocumentRow :=
  match Rows.find DocumentRow.id t.documents id with
  | some row => if row.deletedAt.isNone then .ok row else .error ragDocumentNotFound
  | none => .error ragDocumentNotFound

def versionsOf (documentId : Uuid) : List VersionRow :=
  t.versions.filter fun row => row.documentId = documentId

def chunksOf (versionId : Uuid) : List ChunkRow :=
  t.chunks.filter fun row => row.documentVersionId = versionId

/-! ### Collections -/

def createRagCollection (id : Uuid) (request : RagCollectionCreateRequest) :
    Except AppError (CollectionRow × DocumentTables) :=
  let row : CollectionRow :=
    { id, applicationId := request.applicationId, externalTenantId := request.externalTenantId
      collectionKey := request.collectionKey, displayName := request.displayName
      visibility := request.visibility }
  -- `rag_collections_key_active_unique`
  if t.collections.any fun other => other.id = id ||
      (other.applicationId = row.applicationId && sameText other.externalTenantId row.externalTenantId &&
        other.collectionKey = row.collectionKey && other.deletedAt.isNone) then .error .sqlx
  else .ok (row, { t with collections := t.collections ++ [row] })

def patchRagCollection (id : Uuid) (request : RagCollectionPatchRequest) :
    Except AppError (CollectionRow × DocumentTables) := do
  let row ← t.liveCollection id
  let patch (row : CollectionRow) : CollectionRow :=
    { row with
      displayName := request.displayName.getD row.displayName
      visibility := request.visibility.getD row.visibility }
  return (patch row, { t with collections := Rows.modify CollectionRow.id t.collections id patch })

/-- The time of a deletion stays when the status does not. -/
def withCollectionStatus (now : Int) (status : RagCollectionStatus) (row : CollectionRow) : CollectionRow :=
  { row with
    status
    deletedAt := if status = .deleted then row.deletedAt <|> some now else row.deletedAt }

/-- The row may be a deleted one. -/
def setRagCollectionStatus (now : Int) (id : Uuid) (status : RagCollectionStatus) :
    Except AppError (CollectionRow × DocumentTables) :=
  match Rows.find CollectionRow.id t.collections id with
  | some row =>
    .ok (withCollectionStatus now status row,
      { t with collections := Rows.modify CollectionRow.id t.collections id (withCollectionStatus now status) })
  | none => .error ragCollectionNotFound

/-! ### Versions -/

/-- The rows of the chunks of a version. -/
def chunkRows (moment : Moment) (persistence : ConversationContentPersistence) (ids : DocumentIds)
    (collectionId : Uuid) (chunks : List PreparedChunk) : Except AppError (List ChunkRow) :=
  chunks.zipIdx.mapM fun (chunk, position) => do
    let columns ← (ContentWrite.underPolicyForRag persistence chunk.text).columns moment.sealing
      (.ragChunk (rawUuid (ids.chunk position)) (rawUuid ids.version) chunk.chunkIndex)
    return { id := ids.chunk position, documentVersionId := ids.version, collectionId
             chunkIndex := chunk.chunkIndex, columns, chunkHash := chunk.chunkHash
             tokenCount := chunk.tokenEstimate, sectionTitle := chunk.sectionTitle, persistence }

/-- The rows of the embeddings of a version. -/
def embeddingRows (ids : DocumentIds) (plan : RagIngestionPlan) : List ChunkEmbeddingRow :=
  plan.chunks.zipIdx.filterMap fun (chunk, position) =>
    chunk.embedding.map fun embedding =>
      { chunkId := ids.chunk position, embeddingModelId := plan.embeddingModelId, embedding }

/-- The constraints of the table of chunks. -/
def chunksFit (rows : List ChunkRow) : Bool :=
  (rows.map ChunkRow.id).Nodup && (rows.map ChunkRow.chunkIndex).Nodup &&
    rows.all fun row => t.chunks.all fun other => other.id ≠ row.id

/-- The chunks, the embeddings and the run of a version. -/
def writeRagIngestionArtifacts (moment : Moment) (persistence : ConversationContentPersistence)
    (ids : DocumentIds) (collectionId : Uuid) (contentHash : Digest) (plan : RagIngestionPlan) :
    Except AppError DocumentTables := do
  let rows ← chunkRows moment persistence ids collectionId plan.chunks
  let run : IngestionRunRow :=
    { documentId := ids.document, documentVersionId := ids.version, status := plan.runStatus, contentHash
      chunkCount := plan.chunkCount, embeddedChunkCount := plan.embeddedChunkCount
      failureClass := plan.failureClass }
  if t.chunksFit rows then
    return { t with
      chunks := t.chunks ++ rows
      chunkEmbeddings := t.chunkEmbeddings ++ embeddingRows ids plan
      ingestionRuns := t.ingestionRuns ++ [run] }
  else .error .sqlx

/-- A version with its artifacts, which becomes the current one. -/
def writeVersion (moment : Moment) (persistence : ConversationContentPersistence) (ids : DocumentIds)
    (collectionId : Uuid) (versionNumber : Nat) (content : String) (contentHash : Digest)
    (plan : RagIngestionPlan) : Except AppError DocumentTables := do
  let columns ← (ContentWrite.underPolicyForRag persistence content).columns moment.sealing
    (.ragDocumentVersion (rawUuid ids.version) (rawUuid ids.document) versionNumber)
  let row : VersionRow :=
    { id := ids.version, documentId := ids.document, versionNumber, columns, contentHash
      contentSizeBytes := content.utf8ByteSize, ingestionStatus := plan.terminalStatus
      createdAt := moment.now, persistence }
  if t.versions.any fun other => other.id = ids.version then .error .sqlx
  else
    let t : DocumentTables := { t with versions := t.versions ++ [row] }
    let t ← t.writeRagIngestionArtifacts moment persistence ids collectionId contentHash plan
    return { t with
      documents := Rows.modify DocumentRow.id t.documents ids.document fun document =>
        { document with currentVersionId := some ids.version } }

/-! ### Documents -/

/-- The lookup of the collection, with which a creation begins. -/
def findCollectionTarget (policies : PolicyTables) (collectionId : Uuid) :
    Except AppError CollectionTarget := do
  let collection ← t.liveCollection collectionId
  return { collectionId := collection.id, persistence := policies.contentPersistence collection.applicationId }

/-- The rest of a creation: nothing locks the collection. -/
def insertRagDocument (moment : Moment) (target : CollectionTarget) (ids : DocumentIds)
    (request : RagDocumentCreateRequest) (contentHash : Option Digest) (plan : RagIngestionPlan) :
    Except AppError (DocumentRow × DocumentTables) := do
  let row : DocumentRow :=
    { id := ids.document, collectionId := target.collectionId, title := request.title
      mimeType := request.mimeType }
  if t.documents.any fun other => other.id = ids.document then .error .sqlx
  else
    let t : DocumentTables := { t with documents := t.documents ++ [row] }
    match request.content, contentHash with
    | some content, some contentHash =>
      let t ← t.writeVersion moment target.persistence ids target.collectionId 1 content contentHash plan
      return ({ row with currentVersionId := some ids.version }, t)
    | _, _ => return (row, t)

/-- Every version that is not superseded is; one that was indexed is marked. -/
def supersedeVersions (now : Int) (documentId : Uuid) (rows : List VersionRow) : List VersionRow :=
  rows.map fun row =>
    if row.documentId = documentId ∧ row.supersededAt = none then
      { row with
        supersededAt := some now
        ingestionStatus := if row.ingestionStatus = .indexed then .superseded else row.ingestionStatus }
    else row

/-- Under the lock of the document. Its collection may be a deleted one. -/
def ingestRagDocument (policies : PolicyTables) (moment : Moment) (documentId versionId : Uuid)
    (chunkIds : Nat → Uuid) (request : RagDocumentIngestRequest) (contentHash : Digest)
    (plan : RagIngestionPlan) : Except AppError (DocumentRow × DocumentTables) := do
  let document ← t.liveDocument documentId
  match Rows.find CollectionRow.id t.collections document.collectionId with
  | none => .error ragDocumentNotFound
  | some collection =>
    let versionNumber := Rows.nextNumber VersionRow.versionNumber (t.versionsOf document.id)
    let t : DocumentTables := { t with versions := supersedeVersions moment.now document.id t.versions }
    let t ← t.writeVersion moment (policies.contentPersistence collection.applicationId)
      { document := document.id, version := versionId, chunk := chunkIds } document.collectionId
      versionNumber (request.content.getD "") contentHash plan
    return ({ document with currentVersionId := some versionId }, t)

/-- A document that is deleted keeps the time of it. -/
def deleteRagDocument (now : Int) (id : Uuid) : DocumentTables :=
  { t with documents := Rows.modify DocumentRow.id t.documents id fun row =>
      { row with status := .deleted, deletedAt := row.deletedAt <|> some now } }

/-! ### Queries -/

def findCollectionIngestionContext (policies : PolicyTables) (collectionId : Uuid) :
    Option RagIngestionContext :=
  match t.liveCollection collectionId with
  | .ok collection =>
    some { applicationId := collection.applicationId, mimeType := none
           embedding := ragTarget (policies.embedding collection.applicationId) }
  | .error _ => none

def findDocumentIngestionContext (policies : PolicyTables) (documentId : Uuid) :
    Option RagIngestionContext :=
  match t.liveDocument documentId with
  | .ok document =>
    (Rows.find CollectionRow.id t.collections document.collectionId).map fun collection =>
      { applicationId := collection.applicationId, mimeType := some document.mimeType
        embedding := ragTarget (policies.embedding collection.applicationId) }
  | .error _ => none

variable (distance : List Float8 → List Float8 → Float8) (scope : RetrievalScope)
  (allowedCollectionIds : List Uuid)

/-- The embeddings joined with their chunks, where the scope sees the collection of the chunk. -/
def joined : List (ChunkEmbeddingRow × ChunkRow) :=
  t.chunkEmbeddings.flatMap fun embedding =>
    (t.chunks.filter fun chunk =>
      chunk.id = embedding.chunkId &&
        t.collections.any fun collection =>
          collection.id = chunk.collectionId && scope.seesCollection allowedCollectionIds collection).map
      fun chunk => (embedding, chunk)

/-- The version of a chunk and its document, where neither is retired. -/
def currentVersion (chunk : ChunkRow) : Option (VersionRow × DocumentRow) :=
  match t.versions.find? fun version => version.id = chunk.documentVersionId && version.supersededAt.isNone with
  | some version =>
    (t.documents.find? fun document => document.id = version.documentId && document.deletedAt.isNone).map
      fun document => (version, document)
  | none => none

def findRagChunkCandidates (now : Int) (vector : Embedding) (limit : Nat) : List ChunkMatch :=
  Rows.top ChunkMatch.distance limit
    ((t.joined scope allowedCollectionIds).filterMap fun (embedding, chunk) =>
      (t.currentVersion chunk).map fun (version, document) =>
        { chunk, documentId := document.id, documentTitle := document.title
          distance := distance embedding.embedding.coordinates vector.coordinates
          ageSeconds := now - version.createdAt })

end DocumentTables

end Moira.Conversations
