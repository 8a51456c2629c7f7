import Moira.Conversations.Summarization
import Moira.Lib.Rows
import Moira.Security.Authz

/-!
# Conversations, their messages and their summaries

The statements of the repository over the three tables, each as it is when its transaction commits.
A public id is the id of its row behind a fixed text, so that rows are named by their ids here.

No statement deletes a message or changes one.
-/

namespace Moira.Conversations

open Keyring (ContentIdentity)

/-! ## Who asks -/

/-- The owner columns of a row. -/
structure Owner where
  applicationId : Uuid
  externalTenantId : Option String := none
  externalUserId : Option String := none
  deriving DecidableEq

structure ConversationAccess where
  privileged : Bool
  applicationId : Option Uuid
  externalTenantId : Option String
  externalUserId : Option String

/-- The access predicate: what the caller leaves open is not compared. -/
def ConversationAccess.sees (access : ConversationAccess) (owner : Owner) : Bool :=
  access.privileged ||
    (access.applicationId = some owner.applicationId &&
      (access.externalTenantId.isNone || owner.externalTenantId = access.externalTenantId) &&
      (access.externalUserId.isNone || owner.externalUserId = access.externalUserId))

/-- What a statement finds beside its tables. -/
structure Moment where
  now : Int := 0
  /-- Whether there is a key that new content may be sealed under. -/
  sealing : Except AppError Unit := .ok ()
  /-- Whether there is a key for the digests of memories. -/
  hashing : Except AppError Unit := .ok ()

/-! ## Rows -/

inductive ConversationStatus
  | active
  | archived
  | deleted
  deriving DecidableEq

structure ConversationRow where
  id : Uuid
  owner : Owner
  title : Option String := none
  metadata : Json := .obj []
  status : ConversationStatus := .active
  messageCount : Nat := 0
  lastMessageAt : Option Int := none
  archivedAt : Option Int := none
  deletedAt : Option Int := none
  deriving DecidableEq

inductive ConversationMessageType
  | input
  | output
  | summary
  | toolCall
  | toolResult
  | marker
  deriving DecidableEq

/-- `persistence` is the policy that the row was written under; it has no column. -/
structure MessageRow where
  id : Uuid
  conversationId : Uuid
  responseId : Option Uuid := none
  executionId : Option Uuid := none
  role : ConversationMessageRole
  messageType : ConversationMessageType := .input
  sequenceNumber : Nat
  columns : ContentColumns
  contentHash : Digest
  contentSizeBytes : Nat
  tokenCount : Option Nat
  metadata : Json := .obj []
  persistence : ConversationContentPersistence
  deriving DecidableEq

/-- `persistence` and `asked`, which is what the model was asked for the text, have no columns. -/
structure SummaryRow where
  id : Uuid
  conversationId : Uuid
  summaryVersion : Nat
  coversThroughSequence : Nat
  columns : ContentColumns
  summaryHash : Digest
  tokenCount : Option Nat
  createdAt : Int
  supersededAt : Option Int := none
  persistence : ConversationContentPersistence
  asked : List DomainMessage
  deriving DecidableEq

/-- The summaries are held with the newest first. -/
structure ConversationTables where
  conversations : List ConversationRow := []
  messages : List MessageRow := []
  summaries : List SummaryRow := []

/-! ## What is read from a row -/

def MessageRow.identity (row : MessageRow) : ContentIdentity :=
  .conversationMessage (rawUuid row.id) (rawUuid row.conversationId) row.sequenceNumber

structure ConversationMessageRecord where
  id : Uuid
  role : ConversationMessageRole
  sequenceNumber : Nat
  content : Option String
  contentHash : Digest
  contentSizeBytes : Nat
  tokenCount : Option Nat

/-- `conversation_message_record_from_row` -/
def MessageRow.record (row : MessageRow) : Except AppError ConversationMessageRecord := do
  let content ← row.columns.content
    (.conversationMessage (rawUuid row.id) (rawUuid row.conversationId) row.sequenceNumber)
  return { id := row.id, role := row.role, sequenceNumber := row.sequenceNumber, content
           contentHash := row.contentHash, contentSizeBytes := row.contentSizeBytes
           tokenCount := row.tokenCount }

/-- One prior turn. -/
structure HistoryMessage where
  messageId : Uuid
  role : ConversationMessageRole
  content : Option String
  sequenceNumber : Nat

/-- `history_message_from_row` -/
def MessageRow.history (row : MessageRow) : Except AppError HistoryMessage := do
  let content ← row.columns.content
    (.conversationMessage (rawUuid row.id) (rawUuid row.conversationId) row.sequenceNumber)
  return { messageId := row.id, role := row.role, content, sequenceNumber := row.sequenceNumber }

def SummaryRow.identity (row : SummaryRow) : ContentIdentity :=
  .conversationSummary (rawUuid row.id) (rawUuid row.conversationId) row.coversThroughSequence

structure ConversationSummary where
  id : Uuid
  summaryVersion : Nat
  coversThroughSequence : Nat
  summaryText : Option String
  tokenCount : Option Nat
  createdAt : Int
  supersededAt : Option Int

/-- `conversation_summary_row_from` -/
def SummaryRow.summary (row : SummaryRow) : Except AppError ConversationSummary := do
  let summaryText ← row.columns.content
    (.conversationSummary (rawUuid row.id) (rawUuid row.conversationId) row.coversThroughSequence)
  return { id := row.id, summaryVersion := row.summaryVersion
           coversThroughSequence := row.coversThroughSequence, summaryText
           tokenCount := row.tokenCount, createdAt := row.createdAt, supersededAt := row.supersededAt }

/-! ## Statements -/

def conversationNotFound : AppError :=
  .coded 404 "conversation_not_found" "conversation not found"

structure ConversationInsert where
  id : Uuid
  owner : Owner
  title : Option String
  metadata : Json

structure ConversationPatchRequest where
  title : Option String := none
  metadata : Option Json := none

structure ConversationMessageInsert where
  conversationId : Uuid
  responseId : Option Uuid := none
  executionId : Option Uuid := none
  role : ConversationMessageRole
  messageType : ConversationMessageType
  content : ContentWrite
  contentHash : Digest
  contentSizeBytes : Nat
  tokenCount : Option Nat
  metadata : Json

/-- `persistence` is the policy that `summaryText` was made under. -/
structure ConversationSummaryInsert where
  conversationId : Uuid
  coversThroughSequence : Nat
  summaryText : ContentWrite
  summaryHash : Digest
  tokenCount : Option Nat
  persistence : ConversationContentPersistence
  asked : List DomainMessage

/-- The anchor of a context: the conversation and its active summary. -/
structure ContextAnchor where
  conversationId : Uuid
  summary : Option SummaryRow
  messageCount : Nat
  deriving DecidableEq

namespace ConversationTables

variable (t : ConversationTables)

def messagesOf (conversationId : Uuid) : List MessageRow :=
  t.messages.filter fun row => row.conversationId = conversationId

def summariesOf (conversationId : Uuid) : List SummaryRow :=
  t.summaries.filter fun row => row.conversationId = conversationId

/-- The row that is not deleted. -/
def liveConversation (id : Uuid) : Except AppError ConversationRow :=
  match Rows.find ConversationRow.id t.conversations id with
  | some row => if row.deletedAt.isNone then .ok row else .error conversationNotFound
  | none => .error conversationNotFound

def createConversation (insert : ConversationInsert) :
    Except AppError (ConversationRow × ConversationTables) :=
  let row : ConversationRow :=
    { id := insert.id, owner := insert.owner, title := insert.title, metadata := insert.metadata }
  if t.conversations.any fun other => other.id = insert.id then .error .sqlx
  else .ok (row, { t with conversations := t.conversations ++ [row] })

def findConversationAuthorized (id : Uuid) (access : ConversationAccess) :
    Except AppError ConversationRow := do
  let row ← t.liveConversation id
  if access.sees row.owner then return row else .error conversationNotFound

def patchConversation (id : Uuid) (request : ConversationPatchRequest) :
    Except AppError (ConversationRow × ConversationTables) := do
  let row ← t.liveConversation id
  let patch (row : ConversationRow) : ConversationRow :=
    { row with title := request.title <|> row.title, metadata := request.metadata.getD row.metadata }
  return (patch row, { t with conversations := Rows.modify ConversationRow.id t.conversations id patch })

/-- The columns of a status. The time of the other statuses is taken back. -/
def withStatus (now : Int) (status : ConversationStatus) (row : ConversationRow) : ConversationRow :=
  { row with
    status
    archivedAt := if status = .archived then row.archivedAt <|> some now else none
    deletedAt := if status = .deleted then row.deletedAt <|> some now else none }

/-- The row may be a deleted one. -/
def setConversationStatus (now : Int) (id : Uuid) (status : ConversationStatus) :
    Except AppError (ConversationRow × ConversationTables) :=
  match Rows.find ConversationRow.id t.conversations id with
  | some row =>
    .ok (withStatus now status row,
      { t with conversations := Rows.modify ConversationRow.id t.conversations id (withStatus now status) })
  | none => .error conversationNotFound

/-- The counter of a conversation after a message. -/
def counted (now : Int) (row : ConversationRow) : ConversationRow :=
  { row with messageCount := row.messageCount + 1, lastMessageAt := some now }

/-- The storage form is made here, from the policy that the lock finds. -/
def addMessage (policies : PolicyTables) (moment : Moment) (messageId : Uuid)
    (insert : ConversationMessageInsert) : Except AppError (MessageRow × ConversationTables) := do
  let conversation ← t.liveConversation insert.conversationId
  let persistence := policies.contentPersistence conversation.owner.applicationId
  let stored := match insert.content.plaintext with
    | some plaintext => ContentWrite.underPolicy persistence plaintext
    | none => .omitted
  let sequence := Rows.nextNumber MessageRow.sequenceNumber (t.messagesOf conversation.id)
  let columns ← stored.columns moment.sealing
    (.conversationMessage (rawUuid messageId) (rawUuid conversation.id) sequence)
  let row : MessageRow :=
    { id := messageId, conversationId := conversation.id, responseId := insert.responseId
      executionId := insert.executionId, role := insert.role, messageType := insert.messageType
      sequenceNumber := sequence, columns, contentHash := insert.contentHash
      contentSizeBytes := if persistence.persistsContentMetadata then insert.contentSizeBytes else 0
      tokenCount := if persistence.persistsContentMetadata then insert.tokenCount else none
      metadata := insert.metadata, persistence }
  if t.messages.any fun other => other.id = messageId then .error .sqlx
  else
    return (row, { t with
      messages := t.messages ++ [row]
      conversations := Rows.modify ConversationRow.id t.conversations conversation.id (counted moment.now) })

/-- The messages of a page, from the first number after `after` on. -/
def listMessages (conversationId : Uuid) (after : Nat) (limit : Nat) : List MessageRow :=
  Rows.top MessageRow.sequenceNumber limit
    ((t.messagesOf conversationId).filter fun row => after < row.sequenceNumber)

/-- The last messages before a number, oldest first. -/
def findRecentMessages (conversationId : Uuid) (beforeSequence : Option Nat) (limit : Nat) :
    List MessageRow :=
  match t.liveConversation conversationId with
  | .ok conversation =>
    (Rows.top (fun row => OrderDual.toDual row.sequenceNumber) limit
      ((t.messagesOf conversation.id).filter fun row =>
        beforeSequence.all fun sequence => row.sequenceNumber < sequence)).reverse
  | .error _ => []

/-- The active summaries, by version. -/
def findActiveConversationSummary (conversationId : Uuid) : Option SummaryRow :=
  (Rows.top (fun row => OrderDual.toDual row.summaryVersion) 1
    ((t.summariesOf conversationId).filter fun row => row.supersededAt.isNone)).head?

def findConversationContextAnchor (conversationId : Uuid) : Option ContextAnchor :=
  match t.liveConversation conversationId with
  | .ok conversation =>
    some { conversationId := conversation.id
           summary := t.findActiveConversationSummary conversation.id
           messageCount := conversation.messageCount }
  | .error _ => none

def countMessagesAfterSequence (conversationId : Uuid) (afterSequence : Nat) : Nat :=
  ((t.messagesOf conversationId).filter fun row => afterSequence < row.sequenceNumber).length

/-- The first messages after a boundary, oldest first. -/
def findMessagesAfterSequence (conversationId : Uuid) (afterSequence limit : Nat) : List MessageRow :=
  Rows.top MessageRow.sequenceNumber limit
    ((t.messagesOf conversationId).filter fun row => afterSequence < row.sequenceNumber)

/-- What supersedes the active summaries of a conversation. -/
def superseded (now : Int) (conversationId : Uuid) (row : SummaryRow) : SummaryRow :=
  if row.conversationId = conversationId ∧ row.supersededAt = none then { row with supersededAt := some now }
  else row

/-- Nothing here is compared with what the insert was planned from. -/
def insertConversationSummary (moment : Moment) (summaryId : Uuid) (insert : ConversationSummaryInsert) :
    Except AppError (SummaryRow × ConversationTables) := do
  let nextVersion := Rows.nextNumber SummaryRow.summaryVersion (t.summariesOf insert.conversationId)
  let columns ← insert.summaryText.columns moment.sealing
    (.conversationSummary (rawUuid summaryId) (rawUuid insert.conversationId) insert.coversThroughSequence)
  let row : SummaryRow :=
    { id := summaryId, conversationId := insert.conversationId, summaryVersion := nextVersion
      coversThroughSequence := insert.coversThroughSequence, columns, summaryHash := insert.summaryHash
      tokenCount := insert.tokenCount, createdAt := moment.now, persistence := insert.persistence
      asked := insert.asked }
  -- `conversation_summary_boundary_unique`
  if t.summaries.any fun other => other.id = summaryId ||
      (other.conversationId = insert.conversationId &&
        other.coversThroughSequence = insert.coversThroughSequence) then .error .sqlx
  else
    return (row, { t with
      summaries := row :: t.summaries.map (superseded moment.now insert.conversationId) })

end ConversationTables

end Moira.Conversations
