import Mathlib.Data.Prod.Lex
import Moira.Conversations.Messages

/-!
# Memories and their embeddings

- `createMemory`, `patchMemory`, `insertExtractedMemory` — the writers of a body
- `findMemoryCandidates` — retrieval; `findMemoryByContentHash`, `findNearestMemory`,
  `findMemoryByKey` — the decisions of an extraction

A double is named by its place in the order of the doubles. The order of rows at the same distance
is the order they were inserted in.
-/

namespace Moira.Conversations

open Keyring (ContentIdentity)

/-! ## Embeddings -/

abbrev Float8 := Nat

/-- `model` and `text` are what the vector was made of; they have no columns. -/
structure Embedding where
  coordinates : List Float8
  model : Uuid
  text : String

/-- The caller scope every retrieval is bound to. -/
structure RetrievalScope where
  applicationId : Uuid
  externalTenantId : Option String
  externalUserId : Option String
  deriving DecidableEq

/-- `coalesce(a, '') = coalesce(b, '')` -/
def sameText (a b : Option String) : Bool :=
  a.getD "" = b.getD ""

/-! ## Rows -/

inductive MemoryScope
  | conversation
  | userApplication
  | tenantApplication
  | application
  deriving DecidableEq

def MemoryScope.toDb : MemoryScope → String
  | conversation => "conversation"
  | userApplication => "user_application"
  | tenantApplication => "tenant_application"
  | application => "application"

/--
`persistence` is the policy that the body was written under; it has no column. `importance` is none
where the default of the column is stored.
-/
structure MemoryRow where
  id : Uuid
  owner : Owner
  conversationId : Option Uuid := none
  scope : MemoryScope
  memoryKey : Option String := none
  columns : ContentColumns
  contentHash : Digest
  importance : Option Float8 := none
  status : MemoryStatus := .active
  validUntil : Option Int := none
  useCount : Nat := 0
  lastConfirmedAt : Option Int := none
  contradictsMemoryId : Option Uuid := none
  createdAt : Int
  updatedAt : Int
  deletedAt : Option Int := none
  persistence : ConversationContentPersistence
  deriving DecidableEq

/-- The row of `embedding_version` 1, which is the only one that is written. -/
structure MemoryEmbeddingRow where
  memoryId : Uuid
  embeddingModelId : Option Uuid
  embedding : Embedding

structure MemoryTables where
  memories : List MemoryRow := []
  memoryEmbeddings : List MemoryEmbeddingRow := []

/-- `memory_records_scope_valid` -/
def MemoryRow.scopeValid (row : MemoryRow) : Bool :=
  match row.scope with
  | .conversation => row.conversationId.isSome
  | .userApplication => row.owner.externalUserId.isSome
  | .tenantApplication => row.owner.externalTenantId.isSome
  | .application => true

def MemoryRow.identity (row : MemoryRow) : ContentIdentity :=
  .memoryRecord (rawUuid row.id) (rawUuid row.owner.applicationId) row.scope.toDb

structure MemoryRecord where
  id : Uuid
  scope : MemoryScope
  content : Option String
  contentHash : Digest
  status : MemoryStatus

/-- `memory_record_from_row` -/
def MemoryRow.record (row : MemoryRow) : Except AppError MemoryRecord := do
  let content ← row.columns.content
    (.memoryRecord (rawUuid row.id) (rawUuid row.owner.applicationId) row.scope.toDb)
  return { id := row.id, scope := row.scope, content, contentHash := row.contentHash, status := row.status }

/-- `MEMORY_SCOPE_PREDICATE` -/
def RetrievalScope.sees (scope : RetrievalScope) (row : MemoryRow) : Bool :=
  row.owner.applicationId = scope.applicationId &&
    match row.scope with
    | .application => true
    | .tenantApplication => sameText row.owner.externalTenantId scope.externalTenantId
    | .userApplication | .conversation =>
      sameText row.owner.externalTenantId scope.externalTenantId &&
        sameText row.owner.externalUserId scope.externalUserId

/-- The statuses that suppress a duplicate. -/
def MemoryStatus.dedupes : MemoryStatus → Bool
  | active | candidate => true
  | _ => false

/-! ## Statements -/

def memoryNotFound : AppError :=
  .coded 404 "memory_not_found" "memory not found"

structure MemoryCreateRequest where
  content : String
  metadata : Json := .obj []
  importance : Option Float8 := none
  validUntil : Option Int := none

structure MemoryInsert where
  id : Uuid
  owner : Owner
  scope : MemoryScope
  request : MemoryCreateRequest
  content : ContentWrite
  persistence : ConversationContentPersistence

structure MemoryPatchRequest where
  content : Option String := none
  metadata : Option Json := none
  importance : Option Float8 := none
  validUntil : Option Int := none
  status : Option MemoryStatus := none

/-- The digest is the caller's: the lookup of a duplicate has used it before. -/
structure ExtractedMemoryInsert where
  id : Uuid
  owner : Owner
  conversationId : Uuid
  scope : MemoryScope
  memoryKey : Option String
  content : ContentWrite
  contentHash : Digest
  status : MemoryStatus
  contradictsMemoryId : Option Uuid
  persistence : ConversationContentPersistence

/-- The keyset of a page: the row that the page before ended with. -/
structure MemoryCursor where
  updatedAt : Int
  id : Uuid

structure MemoryQuery where
  status : Option MemoryStatus := none
  cursor : Option MemoryCursor := none
  limit : Nat := 50

/-- A row that a retrieval may give, with its distance and its age. -/
structure MemoryMatch where
  row : MemoryRow
  distance : Float8
  ageSeconds : Int
  deriving DecidableEq

structure MemoryCandidate where
  memoryId : Uuid
  memoryKey : Option String
  content : Option String
  importance : Option Float8
  distance : Float8
  ageSeconds : Int

/-- `memory_candidate_from_row` -/
def MemoryMatch.candidate (found : MemoryMatch) : Except AppError MemoryCandidate := do
  let content ← found.row.columns.content
    (.memoryRecord (rawUuid found.row.id) (rawUuid found.row.owner.applicationId) found.row.scope.toDb)
  return { memoryId := found.row.id, memoryKey := found.row.memoryKey, content
           importance := found.row.importance, distance := found.distance, ageSeconds := found.ageSeconds }

/-- `memory_content_hash` -/
def Moment.memoryContentHash (moment : Moment) (content : String) : Except AppError Digest :=
  moment.hashing.map fun _ => ⟨content⟩

namespace MemoryTables

variable (t : MemoryTables)

def liveMemory (id : Uuid) : Except AppError MemoryRow :=
  match Rows.find MemoryRow.id t.memories id with
  | some row => if row.deletedAt.isNone then .ok row else .error memoryNotFound
  | none => .error memoryNotFound

/-- The constraints of the table. -/
def insertMemory (row : MemoryRow) : Except AppError (MemoryRow × MemoryTables) :=
  if (t.memories.any fun other => other.id = row.id) || !row.scopeValid then .error .sqlx
  else .ok (row, { t with memories := t.memories ++ [row] })

def createMemory (moment : Moment) (insert : MemoryInsert) : Except AppError (MemoryRow × MemoryTables) := do
  let columns ← insert.content.columns moment.sealing
    (.memoryRecord (rawUuid insert.id) (rawUuid insert.owner.applicationId) insert.scope.toDb)
  let contentHash ← moment.memoryContentHash insert.request.content
  t.insertMemory
    { id := insert.id, owner := insert.owner, scope := insert.scope, columns, contentHash
      importance := insert.request.importance, validUntil := insert.request.validUntil
      createdAt := moment.now, updatedAt := moment.now, persistence := insert.persistence }

def findMemoryAuthorized (id : Uuid) (access : ConversationAccess) : Except AppError MemoryRow := do
  let row ← t.liveMemory id
  if access.sees row.owner then return row else .error memoryNotFound

/-- The last changed first, and among those the one with the greater id. -/
def listMemoriesAuthorized (access : ConversationAccess) (query : MemoryQuery) : List MemoryRow :=
  Rows.top (fun row => OrderDual.toDual (toLex (row.updatedAt, row.id))) query.limit
    (t.memories.filter fun row =>
      row.deletedAt.isNone && access.sees row.owner && (query.status.all fun status => row.status = status) &&
        query.cursor.all fun cursor =>
          row.updatedAt < cursor.updatedAt || (row.updatedAt = cursor.updatedAt && row.id < cursor.id))

/-- The columns of a patch that leaves the body alone. -/
def patched (now : Int) (request : MemoryPatchRequest) (row : MemoryRow) : MemoryRow :=
  { row with
    importance := request.importance <|> row.importance
    validUntil := request.validUntil <|> row.validUntil
    status := request.status.getD row.status
    updatedAt := now }

/-- A body that is written takes the place of both columns. -/
def patchMemory (moment : Moment) (id : Uuid) (request : MemoryPatchRequest)
    (content : Option (ContentWrite × ConversationContentPersistence)) :
    Except AppError (MemoryRow × MemoryTables) := do
  let existing ← t.liveMemory id
  let patch ← match content with
    | none => .ok (patched moment.now request)
    | some (stored, persistence) => do
      let plaintext := ((request.content <|> stored.plaintext).getD "")
      let contentHash ← moment.memoryContentHash plaintext
      let columns ← stored.columns moment.sealing
        (.memoryRecord (rawUuid existing.id) (rawUuid existing.owner.applicationId) existing.scope.toDb)
      .ok fun row => { patched moment.now request row with columns, contentHash, persistence }
  return (patch existing, { t with memories := Rows.modify MemoryRow.id t.memories id patch })

/-- A memory that is deleted, or is not there, is left alone. -/
def deleteMemory (now : Int) (id : Uuid) : MemoryTables :=
  { t with memories := t.memories.map fun row =>
      if row.id = id ∧ row.deletedAt = none then
        { row with status := .deleted, deletedAt := some now, updatedAt := now }
      else row }

def insertExtractedMemory (moment : Moment) (insert : ExtractedMemoryInsert) :
    Except AppError (MemoryRow × MemoryTables) := do
  let columns ← insert.content.columns moment.sealing
    (.memoryRecord (rawUuid insert.id) (rawUuid insert.owner.applicationId) insert.scope.toDb)
  t.insertMemory
    { id := insert.id, owner := insert.owner, conversationId := some insert.conversationId
      scope := insert.scope, memoryKey := insert.memoryKey, columns, contentHash := insert.contentHash
      status := insert.status, contradictsMemoryId := insert.contradictsMemoryId
      createdAt := moment.now, updatedAt := moment.now, persistence := insert.persistence }

def confirmMemory (now : Int) (id : Uuid) : MemoryTables :=
  { t with memories := t.memories.map fun row =>
      if row.id = id ∧ row.deletedAt = none then
        { row with useCount := row.useCount + 1, lastConfirmedAt := some now, updatedAt := now }
      else row }

/-- An upsert: a vector of an earlier body does not stay. -/
def insertMemoryEmbedding (row : MemoryEmbeddingRow) : Except AppError (Unit × MemoryTables) :=
  if t.memories.all fun memory => memory.id ≠ row.memoryId then .error .sqlx
  else .ok ((), { t with
    memoryEmbeddings := (t.memoryEmbeddings.filter fun other => other.memoryId ≠ row.memoryId) ++ [row] })

/-! ### Queries -/

variable (distance : List Float8 → List Float8 → Float8) (scope : RetrievalScope)

/-- The embeddings joined with their memories, where `p` holds and the scope sees the memory. -/
def joined (p : MemoryRow → Bool) : List (MemoryEmbeddingRow × MemoryRow) :=
  t.memoryEmbeddings.flatMap fun embedding =>
    (t.memories.filter fun row =>
      row.id = embedding.memoryId && row.deletedAt.isNone && p row && scope.sees row).map fun row =>
        (embedding, row)

def findMemoryCandidates (now : Int) (vector : Embedding) (limit : Nat) : List MemoryMatch :=
  Rows.top MemoryMatch.distance limit
    ((t.joined scope fun row => row.status = .active).map fun (embedding, row) =>
      { row, distance := distance embedding.embedding.coordinates vector.coordinates
        ageSeconds := now - row.updatedAt })

/-- The memories that suppress a duplicate, where `p` holds and the scope sees the memory. -/
def dedupes (p : MemoryRow → Bool) : List MemoryRow :=
  t.memories.filter fun row => row.deletedAt.isNone && row.status.dedupes && p row && scope.sees row

/-- The oldest with the digest. -/
def findMemoryByContentHash (contentHash : Digest) : Option Uuid :=
  ((Rows.top MemoryRow.createdAt 1 (t.dedupes scope fun row => row.contentHash = contentHash)).head?).map
    MemoryRow.id

def findNearestMemory (vector : Embedding) : Option (Uuid × Float8) :=
  (Rows.top Prod.snd 1
    ((t.joined scope fun row => row.status.dedupes).map fun (embedding, row) =>
      (row.id, distance embedding.embedding.coordinates vector.coordinates))).head?

/-- The newest with the key, with its digest. -/
def findMemoryByKey (memoryKey : String) : Option (Uuid × Digest) :=
  ((Rows.top (fun row => OrderDual.toDual row.createdAt) 1
    (t.dedupes scope fun row => row.memoryKey = some memoryKey)).head?).map fun row =>
      (row.id, row.contentHash)

end MemoryTables

end Moira.Conversations
