import Moira.Conversations.Statements
import Moira.Lib.Fallible

/-!
# What the statements do

One lemma for each statement that has gone through: the row that it gives, and the tables after it.
-/

namespace Moira.Conversations

open Keyring (ContentIdentity)

/-! ## Conversations -/

variable {policies : PolicyTables} {moment : Moment}

namespace ConversationTables

variable {t t' : ConversationTables} {id : Uuid} {row : ConversationRow}

theorem liveConversation_ok (h : t.liveConversation id = .ok row) :
    Rows.find ConversationRow.id t.conversations id = some row ∧ row.deletedAt = none := by
  unfold liveConversation at h
  split at h
  · next found hfind =>
    split at h
    · next hlive =>
      cases h
      exact ⟨hfind, Option.isNone_iff_eq_none.mp hlive⟩
    · cases h
  · cases h

theorem findConversationAuthorized_ok {access : ConversationAccess}
    (h : t.findConversationAuthorized id access = .ok row) :
    t.liveConversation id = .ok row ∧ access.sees row.owner = true := by
  obtain ⟨found, hlive, h⟩ := Fallible.bind_eq_ok.mp h
  split at h
  · next hsees =>
    cases h
    exact ⟨hlive, hsees⟩
  · cases h

theorem createConversation_ok {insert : ConversationInsert}
    (h : t.createConversation insert = .ok (row, t')) :
    row = { id := insert.id, owner := insert.owner, title := insert.title, metadata := insert.metadata } ∧
      (∀ other ∈ t.conversations, other.id ≠ insert.id) ∧
        t' = { t with conversations := t.conversations ++ [row] } := by
  obtain ⟨hnew, h⟩ := Fallible.ite_error_eq_ok.mp h
  cases h
  exact ⟨rfl, by simpa using hnew, rfl⟩

/-- The columns that a patch writes. -/
def patchRow (request : ConversationPatchRequest) (row : ConversationRow) : ConversationRow :=
  { row with title := request.title <|> row.title, metadata := request.metadata.getD row.metadata }

theorem patchConversation_ok {request : ConversationPatchRequest}
    (h : t.patchConversation id request = .ok (row, t')) :
    (∃ found, t.liveConversation id = .ok found ∧ row = patchRow request found) ∧
      t' = { t with conversations := Rows.modify ConversationRow.id t.conversations id (patchRow request) } := by
  obtain ⟨found, hlive, h⟩ := Fallible.bind_eq_ok.mp h
  cases h
  exact ⟨⟨found, hlive, rfl⟩, rfl⟩

theorem setConversationStatus_ok {now : Int} {status : ConversationStatus}
    (h : t.setConversationStatus now id status = .ok (row, t')) :
    (∃ found, Rows.find ConversationRow.id t.conversations id = some found ∧
        row = withStatus now status found) ∧
      t' = { t with
        conversations := Rows.modify ConversationRow.id t.conversations id (withStatus now status) } := by
  unfold setConversationStatus at h
  split at h
  · next found hfind =>
    cases h
    exact ⟨⟨found, hfind, rfl⟩, rfl⟩
  · cases h

/-- What is stored of the body of a message. -/
def storedForm (persistence : ConversationContentPersistence) (content : ContentWrite) : ContentWrite :=
  match content.plaintext with
  | some plaintext => .underPolicy persistence plaintext
  | none => .omitted

/-- A message that has been added. -/
structure AddedMessage (t : ConversationTables) (policies : PolicyTables) (moment : Moment)
    (messageId : Uuid) (insert : ConversationMessageInsert) (conversation : ConversationRow)
    (row : MessageRow) : Prop where
  live : t.liveConversation insert.conversationId = .ok conversation
  id : row.id = messageId
  conversationId : row.conversationId = conversation.id
  role : row.role = insert.role
  sequenceNumber : row.sequenceNumber =
    Rows.nextNumber MessageRow.sequenceNumber (t.messagesOf conversation.id)
  persistence : row.persistence = policies.contentPersistence conversation.owner.applicationId
  columns : (storedForm row.persistence insert.content).columns moment.sealing row.identity = .ok row.columns
  contentHash : row.contentHash = insert.contentHash
  contentSizeBytes : row.contentSizeBytes =
    if row.persistence.persistsContentMetadata then insert.contentSizeBytes else 0
  tokenCount : row.tokenCount = if row.persistence.persistsContentMetadata then insert.tokenCount else none
  fresh : ∀ other ∈ t.messages, other.id ≠ messageId

theorem addMessage_ok {messageId : Uuid} {insert : ConversationMessageInsert} {row : MessageRow}
    (h : t.addMessage policies moment messageId insert = .ok (row, t')) :
    ∃ conversation, AddedMessage t policies moment messageId insert conversation row ∧
      t' = { t with
        messages := t.messages ++ [row]
        conversations := Rows.modify ConversationRow.id t.conversations conversation.id (counted moment.now) } := by
  obtain ⟨conversation, hlive, h⟩ := Fallible.bind_eq_ok.mp h
  obtain ⟨columns, hcolumns, h⟩ := Fallible.bind_eq_ok.mp h
  obtain ⟨hnew, h⟩ := Fallible.ite_error_eq_ok.mp h
  cases h
  exact ⟨conversation,
    { live := hlive, id := rfl, conversationId := rfl, role := rfl, sequenceNumber := rfl, persistence := rfl
      columns := hcolumns, contentHash := rfl, contentSizeBytes := rfl, tokenCount := rfl
      fresh := by simpa using hnew }, rfl⟩

/-- A summary that has been inserted. -/
structure InsertedSummary (t : ConversationTables) (moment : Moment) (summaryId : Uuid)
    (insert : ConversationSummaryInsert) (row : SummaryRow) : Prop where
  id : row.id = summaryId
  conversationId : row.conversationId = insert.conversationId
  summaryVersion : row.summaryVersion =
    Rows.nextNumber SummaryRow.summaryVersion (t.summariesOf insert.conversationId)
  coversThroughSequence : row.coversThroughSequence = insert.coversThroughSequence
  columns : insert.summaryText.columns moment.sealing row.identity = .ok row.columns
  summaryHash : row.summaryHash = insert.summaryHash
  tokenCount : row.tokenCount = insert.tokenCount
  supersededAt : row.supersededAt = none
  persistence : row.persistence = insert.persistence
  asked : row.asked = insert.asked
  fresh : ∀ other ∈ t.summaries, other.id ≠ summaryId
  boundary : ∀ other ∈ t.summaries, other.conversationId = insert.conversationId →
    other.coversThroughSequence ≠ insert.coversThroughSequence

theorem insertConversationSummary_ok {summaryId : Uuid} {insert : ConversationSummaryInsert}
    {row : SummaryRow}
    (h : t.insertConversationSummary moment summaryId insert = .ok (row, t')) :
    InsertedSummary t moment summaryId insert row ∧
      t' = { t with summaries := row :: t.summaries.map (superseded moment.now insert.conversationId) } := by
  obtain ⟨columns, hcolumns, h⟩ := Fallible.bind_eq_ok.mp h
  obtain ⟨hnew, h⟩ := Fallible.ite_error_eq_ok.mp h
  cases h
  have hnew' : ∀ other ∈ t.summaries, other.id ≠ summaryId ∧
      (other.conversationId = insert.conversationId →
        other.coversThroughSequence ≠ insert.coversThroughSequence) := by
    simpa using hnew
  exact ⟨
    { id := rfl, conversationId := rfl, summaryVersion := rfl, coversThroughSequence := rfl
      columns := hcolumns, summaryHash := rfl, tokenCount := rfl, supersededAt := rfl, persistence := rfl
      asked := rfl, fresh := fun other hother => (hnew' other hother).1
      boundary := fun other hother => (hnew' other hother).2 }, rfl⟩

end ConversationTables

/-- The tables of conversations stay as they are. -/
def ConversationStatement.isRead : ConversationStatement → Bool
  | createConversation _ | patchConversation .. | setConversationStatus .. | addMessage ..
  | insertConversationSummary .. => false
  | _ => true

theorem ConversationStatement.tables_of_isRead {s : ConversationStatement}
    {t t' : ConversationTables} {a : s.Value} (hread : s.isRead = true)
    (h : s.run policies moment t = .ok (a, t')) : t' = t := by
  cases s with
  | createConversation _ | patchConversation _ _ | setConversationStatus _ _ | addMessage _ _
  | insertConversationSummary _ _ => cases hread
  | findConversationAuthorized id access =>
    obtain ⟨row, -, h⟩ := Fallible.bind_eq_ok.mp h
    exact (Prod.mk.inj (Except.ok.inj h)).2.symm
  | listMessages _ _ _ | findRecentMessages _ _ _ | findConversationContextAnchor _
  | findActiveConversationSummary _ | countMessagesAfterSequence _ _ | findMessagesAfterSequence _ _ _ =>
    exact (Prod.mk.inj (Except.ok.inj h)).2.symm

namespace ConversationTables

variable {t t' : ConversationTables} {s : ConversationStatement} {a : s.Value}

theorem messages_run (h : s.run policies moment t = .ok (a, t')) :
    t'.messages = t.messages ∨ ∃ messageId insert row conversation,
      s = .addMessage messageId insert ∧ t'.messages = t.messages ++ [row] ∧
        t.AddedMessage policies moment messageId insert conversation row := by
  cases s with
  | createConversation insert =>
    obtain ⟨-, -, rfl⟩ := createConversation_ok h
    exact .inl rfl
  | patchConversation id request =>
    obtain ⟨-, rfl⟩ := patchConversation_ok h
    exact .inl rfl
  | setConversationStatus id status =>
    obtain ⟨-, rfl⟩ := setConversationStatus_ok h
    exact .inl rfl
  | addMessage messageId insert =>
    obtain ⟨conversation, hadded, rfl⟩ := addMessage_ok h
    exact .inr ⟨messageId, insert, a, conversation, rfl, rfl, hadded⟩
  | insertConversationSummary summaryId insert =>
    obtain ⟨-, rfl⟩ := insertConversationSummary_ok h
    exact .inl rfl
  | findConversationAuthorized _ _ | listMessages _ _ _ | findRecentMessages _ _ _
  | findConversationContextAnchor _ | findActiveConversationSummary _ | countMessagesAfterSequence _ _
  | findMessagesAfterSequence _ _ _ =>
    rw [ConversationStatement.tables_of_isRead rfl h]
    exact .inl rfl

theorem summaries_run (h : s.run policies moment t = .ok (a, t')) :
    t'.summaries = t.summaries ∨ ∃ summaryId insert row, s = .insertConversationSummary summaryId insert ∧
      t'.summaries = row :: t.summaries.map (superseded moment.now insert.conversationId) ∧
        t.InsertedSummary moment summaryId insert row := by
  cases s with
  | createConversation insert =>
    obtain ⟨-, -, rfl⟩ := createConversation_ok h
    exact .inl rfl
  | patchConversation id request =>
    obtain ⟨-, rfl⟩ := patchConversation_ok h
    exact .inl rfl
  | setConversationStatus id status =>
    obtain ⟨-, rfl⟩ := setConversationStatus_ok h
    exact .inl rfl
  | addMessage messageId insert =>
    obtain ⟨conversation, -, rfl⟩ := addMessage_ok h
    exact .inl rfl
  | insertConversationSummary summaryId insert =>
    obtain ⟨hinserted, rfl⟩ := insertConversationSummary_ok h
    exact .inr ⟨summaryId, insert, a, rfl, rfl, hinserted⟩
  | findConversationAuthorized _ _ | listMessages _ _ _ | findRecentMessages _ _ _
  | findConversationContextAnchor _ | findActiveConversationSummary _ | countMessagesAfterSequence _ _
  | findMessagesAfterSequence _ _ _ =>
    rw [ConversationStatement.tables_of_isRead rfl h]
    exact .inl rfl

end ConversationTables

/-! ## Memories -/

variable {row' : MemoryRow}

namespace MemoryTables

variable {t t' : MemoryTables} {id : Uuid} {row : MemoryRow}

theorem liveMemory_ok (h : t.liveMemory id = .ok row) :
    Rows.find MemoryRow.id t.memories id = some row ∧ row.deletedAt = none := by
  unfold liveMemory at h
  split at h
  · next found hfind =>
    split at h
    · next hlive =>
      cases h
      exact ⟨hfind, Option.isNone_iff_eq_none.mp hlive⟩
    · cases h
  · cases h

theorem insertMemory_ok {row : MemoryRow} (h : t.insertMemory row = .ok (row', t')) :
    row' = row ∧ (∀ other ∈ t.memories, other.id ≠ row.id) ∧
      t' = { t with memories := t.memories ++ [row] } := by
  obtain ⟨hnew, h⟩ := Fallible.ite_error_eq_ok.mp h
  cases h
  refine ⟨rfl, fun other hother hid => ?_, rfl⟩
  simp only [Bool.or_eq_true, List.any_eq_true, decide_eq_true_eq] at hnew
  exact hnew (.inl ⟨other, hother, hid⟩)

/-- A memory that has been created. -/
structure CreatedMemory (moment : Moment) (insert : MemoryInsert) (row : MemoryRow) : Prop where
  id : row.id = insert.id
  owner : row.owner = insert.owner
  columns : insert.content.columns moment.sealing row.identity = .ok row.columns
  contentHash : row.contentHash = ⟨insert.request.content⟩
  status : row.status = .active
  persistence : row.persistence = insert.persistence
  deletedAt : row.deletedAt = none
  conversationId : row.conversationId = none

theorem createMemory_ok {insert : MemoryInsert} (h : t.createMemory moment insert = .ok (row, t')) :
    CreatedMemory moment insert row ∧ (∀ other ∈ t.memories, other.id ≠ row.id) ∧
      t' = { t with memories := t.memories ++ [row] } := by
  obtain ⟨columns, hcolumns, h⟩ := Fallible.bind_eq_ok.mp h
  obtain ⟨contentHash, hhash, h⟩ := Fallible.bind_eq_ok.mp h
  obtain ⟨_, -, rfl⟩ := Fallible.map_eq_ok.mp hhash
  obtain ⟨rfl, hnew, ht⟩ := insertMemory_ok h
  exact ⟨⟨rfl, rfl, hcolumns, rfl, rfl, rfl, rfl, rfl⟩, hnew, ht⟩

/-- A memory that an extraction has inserted. -/
structure ExtractedMemory (moment : Moment) (insert : ExtractedMemoryInsert) (row : MemoryRow) : Prop where
  id : row.id = insert.id
  owner : row.owner = insert.owner
  conversationId : row.conversationId = some insert.conversationId
  scope : row.scope = insert.scope
  columns : insert.content.columns moment.sealing row.identity = .ok row.columns
  contentHash : row.contentHash = insert.contentHash
  status : row.status = insert.status
  persistence : row.persistence = insert.persistence
  deletedAt : row.deletedAt = none

theorem insertExtractedMemory_ok {insert : ExtractedMemoryInsert}
    (h : t.insertExtractedMemory moment insert = .ok (row, t')) :
    ExtractedMemory moment insert row ∧ (∀ other ∈ t.memories, other.id ≠ row.id) ∧
      t' = { t with memories := t.memories ++ [row] } := by
  obtain ⟨columns, hcolumns, h⟩ := Fallible.bind_eq_ok.mp h
  obtain ⟨rfl, hnew, ht⟩ := insertMemory_ok h
  exact ⟨⟨rfl, rfl, rfl, rfl, hcolumns, rfl, rfl, rfl, rfl⟩, hnew, ht⟩

/-- A row after a patch, which may have written a body. -/
inductive Patched (moment : Moment) (request : MemoryPatchRequest) (row : MemoryRow) :
    Option (ContentWrite × ConversationContentPersistence) → MemoryRow → Prop
  | kept : Patched moment request row none (patched moment.now request row)
  | written {stored : ContentWrite} {persistence : ConversationContentPersistence} {columns : ContentColumns}
      (hcolumns : stored.columns moment.sealing row.identity = .ok columns) :
      Patched moment request row (some (stored, persistence))
        { patched moment.now request row with
          columns, contentHash := ⟨(request.content <|> stored.plaintext).getD ""⟩, persistence }

theorem patchMemory_ok {request : MemoryPatchRequest}
    {content : Option (ContentWrite × ConversationContentPersistence)}
    (h : t.patchMemory moment id request content = .ok (row', t')) :
    ∃ row patch, t.liveMemory id = .ok row ∧ row' = patch row ∧
    Patched moment request row content (patch row) ∧
      (∀ other, (patch other).id = other.id) ∧
      t' = { t with memories := Rows.modify MemoryRow.id t.memories id patch } := by
  obtain ⟨row, hlive, h⟩ := Fallible.bind_eq_ok.mp h
  cases content with
  | none =>
    cases h
    exact ⟨row, _, hlive, rfl, .kept, fun _ => rfl, rfl⟩
  | some content =>
    obtain ⟨contentHash, hhash, h⟩ := Fallible.bind_eq_ok.mp h
    obtain ⟨_, -, rfl⟩ := Fallible.map_eq_ok.mp hhash
    obtain ⟨columns, hcolumns, h⟩ := Fallible.bind_eq_ok.mp h
    cases h
    exact ⟨row, fun row => { patched moment.now request row with columns, contentHash := _, persistence := _ },
      hlive, rfl, .written hcolumns, fun _ => rfl, rfl⟩

/-- What becomes of a row that is there before a statement. -/
inductive Changed (moment : Moment) (row : MemoryRow) : MemoryStatement → MemoryRow → Prop
  | same {s : MemoryStatement} : Changed moment row s row
  | patched {request : MemoryPatchRequest} {content : Option (ContentWrite × ConversationContentPersistence)}
      {row' : MemoryRow} (hlive : row.deletedAt = none) (hpatched : Patched moment request row content row') :
      Changed moment row (.patchMemory row.id request content) row'
  | deleted (hlive : row.deletedAt = none) : Changed moment row (.deleteMemory row.id)
      { row with status := .deleted, deletedAt := some moment.now, updatedAt := moment.now }
  | confirmed (hlive : row.deletedAt = none) : Changed moment row (.confirmMemory row.id)
      { row with useCount := row.useCount + 1, lastConfirmedAt := some moment.now, updatedAt := moment.now }

/-- What no statement touches. -/
structure SameMemory (row row' : MemoryRow) : Prop where
  id : row'.id = row.id
  owner : row'.owner = row.owner
  scope : row'.scope = row.scope
  conversationId : row'.conversationId = row.conversationId

theorem Changed.keeps {s : MemoryStatement} (h : Changed moment row s row') :
    SameMemory row row' := by
  cases h with
  | patched _ hpatched => cases hpatched <;> exact ⟨rfl, rfl, rfl, rfl⟩
  | same | deleted _ | confirmed _ => exact ⟨rfl, rfl, rfl, rfl⟩

/-- A row that a statement has put into the table. -/
inductive Inserted (moment : Moment) (row : MemoryRow) : MemoryStatement → Prop
  | created {insert : MemoryInsert} (hcreated : CreatedMemory moment insert row) :
      Inserted moment row (.createMemory insert)
  | extracted {insert : ExtractedMemoryInsert} (hextracted : ExtractedMemory moment insert row) :
      Inserted moment row (.insertExtractedMemory insert)

theorem insertMemoryEmbedding_ok {row : MemoryEmbeddingRow} {a : Unit}
    (h : t.insertMemoryEmbedding row = .ok (a, t')) :
    (∃ memory ∈ t.memories, memory.id = row.memoryId) ∧
      t' = { t with memoryEmbeddings :=
        (t.memoryEmbeddings.filter fun other => other.memoryId ≠ row.memoryId) ++ [row] } := by
  obtain ⟨hmemory, h⟩ := Fallible.ite_error_eq_ok.mp h
  cases h
  exact ⟨by simpa using hmemory, rfl⟩

end MemoryTables

/-- The tables of memories stay as they are. -/
def MemoryStatement.isRead : MemoryStatement → Bool
  | createMemory _ | patchMemory .. | deleteMemory _ | confirmMemory _ | insertExtractedMemory _
  | insertMemoryEmbedding _ => false
  | _ => true

variable {distance : List Float8 → List Float8 → Float8}

theorem MemoryStatement.tables_of_isRead {s : MemoryStatement} {t t' : MemoryTables} {a : s.Value}
    (hread : s.isRead = true) (h : s.run distance moment t = .ok (a, t')) : t' = t := by
  cases s with
  | createMemory _ | patchMemory _ _ _ | deleteMemory _ | confirmMemory _ | insertExtractedMemory _
  | insertMemoryEmbedding _ => cases hread
  | findMemoryAuthorized id access =>
    obtain ⟨row, -, h⟩ := Fallible.bind_eq_ok.mp h
    exact (Prod.mk.inj (Except.ok.inj h)).2.symm
  | listMemoriesAuthorized _ _ | findMemoryCandidates _ _ _ | findMemoryByContentHash _ _
  | findNearestMemory _ _ | findMemoryByKey _ _ =>
    exact (Prod.mk.inj (Except.ok.inj h)).2.symm

namespace MemoryTables

variable {t t' : MemoryTables} {s : MemoryStatement} {a : s.Value}

section

variable (hids : (t.memories.map MemoryRow.id).Nodup)
include hids

/-- **The memories after a statement**: those of before, each changed or as it was, and at most one
more. -/
theorem memories_run (h : s.run distance moment t = .ok (a, t')) :
    ∃ f new, t'.memories = t.memories.map f ++ new ∧ (∀ row ∈ t.memories, Changed moment row s (f row)) ∧
      (new = [] ∨ ∃ row, new = [row] ∧ f = id ∧ Inserted moment row s ∧
          ∀ other ∈ t.memories, other.id ≠ row.id) := by
  cases s with
  | createMemory insert =>
    obtain ⟨hcreated, hnew, rfl⟩ := createMemory_ok h
    exact ⟨id, [a], by rw [List.map_id], fun row _ => .same, .inr ⟨a, rfl, rfl, .created hcreated, hnew⟩⟩
  | insertExtractedMemory insert =>
    obtain ⟨hextracted, hnew, rfl⟩ := insertExtractedMemory_ok h
    exact ⟨id, [a], by rw [List.map_id], fun row _ => .same, .inr ⟨a, rfl, rfl, .extracted hextracted, hnew⟩⟩
  | patchMemory id request content =>
    obtain ⟨found, patch, hlive, -, hpatched, -, rfl⟩ := patchMemory_ok h
    obtain ⟨hfind, hlive⟩ := liveMemory_ok hlive
    refine ⟨_, [], (List.append_nil _).symm, fun row hrow => ?_, .inl rfl⟩
    by_cases hkey : row.id = id
    · obtain rfl := (Rows.modify_of_find hids hfind).2 row hrow hkey
      rw [if_pos hkey, ← hkey]
      exact .patched hlive hpatched
    · rw [if_neg hkey]
      exact .same
  | deleteMemory id =>
    obtain ⟨-, rfl⟩ := Prod.mk.inj (Except.ok.inj h)
    refine ⟨_, [], (List.append_nil _).symm, fun row hrow => ?_, .inl rfl⟩
    split
    · next hkey =>
      rw [← hkey.1]
      exact .deleted hkey.2
    · exact .same
  | confirmMemory id =>
    obtain ⟨-, rfl⟩ := Prod.mk.inj (Except.ok.inj h)
    refine ⟨_, [], (List.append_nil _).symm, fun row hrow => ?_, .inl rfl⟩
    split
    · next hkey =>
      rw [← hkey.1]
      exact .confirmed hkey.2
    · exact .same
  | insertMemoryEmbedding embedding =>
    obtain ⟨-, rfl⟩ := insertMemoryEmbedding_ok h
    exact ⟨id, [], by rw [List.map_id, List.append_nil], fun _ _ => .same, .inl rfl⟩
  | findMemoryAuthorized _ _ | listMemoriesAuthorized _ _ | findMemoryCandidates _ _ _
  | findMemoryByContentHash _ _ | findNearestMemory _ _ | findMemoryByKey _ _ =>
    rw [MemoryStatement.tables_of_isRead rfl h]
    exact ⟨id, [], by rw [List.map_id, List.append_nil], fun _ _ => .same, .inl rfl⟩

theorem nodup_memories (h : s.run distance moment t = .ok (a, t')) :
    (t'.memories.map MemoryRow.id).Nodup := by
  obtain ⟨f, new, hmemories, hchanged, hnew⟩ := memories_run hids h
  have hsame : (t.memories.map f).map MemoryRow.id = t.memories.map MemoryRow.id := by
    rw [List.map_map]
    exact List.map_congr_left fun row hrow => (hchanged row hrow).keeps.id
  rw [hmemories, List.map_append, hsame]
  rcases hnew with rfl | ⟨row, rfl, -, -, hfresh⟩
  · rw [List.map_nil, List.append_nil]
    exact hids
  · refine List.Nodup.append hids (List.nodup_singleton _) ?_
    rintro id hid hid'
    obtain ⟨other, hother, rfl⟩ := List.mem_map.mp hid
    exact hfresh other hother (List.mem_singleton.mp hid')

theorem memory_kept (h : s.run distance moment t = .ok (a, t')) {row : MemoryRow}
    (hrow : row ∈ t.memories) : ∃ row' ∈ t'.memories, SameMemory row row' := by
  obtain ⟨f, new, hmemories, hchanged, -⟩ := memories_run hids h
  refine ⟨f row, ?_, (hchanged row hrow).keeps⟩
  rw [hmemories]
  exact List.mem_append_left _ (List.mem_map_of_mem hrow)

theorem mem_memories_run (h : s.run distance moment t = .ok (a, t')) (hrow' : row' ∈ t'.memories) :
    (∃ row ∈ t.memories, Changed moment row s row') ∨
      Inserted moment row' s ∧ ∀ other ∈ t.memories, other.id ≠ row'.id := by
  obtain ⟨f, new, hmemories, hchanged, hnew⟩ := memories_run hids h
  rw [hmemories] at hrow'
  rcases List.mem_append.mp hrow' with hmem | hmem
  · obtain ⟨row, hrow, rfl⟩ := List.mem_map.mp hmem
    exact .inl ⟨row, hrow, hchanged row hrow⟩
  · rcases hnew with rfl | ⟨row, rfl, -, hinserted, hfresh⟩
    · exact absurd hmem List.not_mem_nil
    · rw [List.mem_singleton.mp hmem]
      exact .inr ⟨hinserted, hfresh⟩

end

theorem embeddings_run (h : s.run distance moment t = .ok (a, t')) :
    t'.memoryEmbeddings = t.memoryEmbeddings ∨ ∃ row, s = .insertMemoryEmbedding row ∧
    t'.memories = t.memories ∧
      (∃ memory ∈ t.memories, memory.id = row.memoryId) ∧
      t'.memoryEmbeddings = (t.memoryEmbeddings.filter fun other => other.memoryId ≠ row.memoryId) ++ [row] := by
  cases s with
  | createMemory insert =>
    obtain ⟨-, -, rfl⟩ := createMemory_ok h
    exact .inl rfl
  | insertExtractedMemory insert =>
    obtain ⟨-, -, rfl⟩ := insertExtractedMemory_ok h
    exact .inl rfl
  | patchMemory id request content =>
    obtain ⟨-, -, -, -, -, -, rfl⟩ := patchMemory_ok h
    exact .inl rfl
  | deleteMemory id =>
    obtain ⟨-, rfl⟩ := Prod.mk.inj (Except.ok.inj h)
    exact .inl rfl
  | confirmMemory id =>
    obtain ⟨-, rfl⟩ := Prod.mk.inj (Except.ok.inj h)
    exact .inl rfl
  | insertMemoryEmbedding embedding =>
    obtain ⟨hmemory, rfl⟩ := insertMemoryEmbedding_ok h
    exact .inr ⟨embedding, rfl, rfl, hmemory, rfl⟩
  | findMemoryAuthorized _ _ | listMemoriesAuthorized _ _ | findMemoryCandidates _ _ _
  | findMemoryByContentHash _ _ | findNearestMemory _ _ | findMemoryByKey _ _ =>
    rw [MemoryStatement.tables_of_isRead rfl h]
    exact .inl rfl

end MemoryTables

/-! ## Documents -/

namespace DocumentTables

variable {t t' : DocumentTables} {id : Uuid}

theorem liveCollection_ok {row : CollectionRow} (h : t.liveCollection id = .ok row) :
    Rows.find CollectionRow.id t.collections id = some row ∧ row.deletedAt = none := by
  unfold liveCollection at h
  split at h
  · next found hfind =>
    split at h
    · next hlive =>
      cases h
      exact ⟨hfind, Option.isNone_iff_eq_none.mp hlive⟩
    · cases h
  · cases h

theorem liveDocument_ok {row : DocumentRow} (h : t.liveDocument id = .ok row) :
    Rows.find DocumentRow.id t.documents id = some row ∧ row.deletedAt = none := by
  unfold liveDocument at h
  split at h
  · next found hfind =>
    split at h
    · next hlive =>
      cases h
      exact ⟨hfind, Option.isNone_iff_eq_none.mp hlive⟩
    · cases h
  · cases h

theorem findCollectionTarget_ok {target : CollectionTarget}
    (h : t.findCollectionTarget policies id = .ok target) :
    ∃ collection, t.liveCollection id = .ok collection ∧ target.collectionId = collection.id ∧
      target.persistence = policies.contentPersistence collection.applicationId := by
  obtain ⟨collection, hlive, h⟩ := Fallible.bind_eq_ok.mp h
  cases h
  exact ⟨collection, hlive, rfl, rfl⟩

theorem createRagCollection_ok {request : RagCollectionCreateRequest} {row : CollectionRow}
    (h : t.createRagCollection id request = .ok (row, t')) :
    row.id = id ∧ row.applicationId = request.applicationId ∧ row.deletedAt = none ∧
      (∀ other ∈ t.collections, other.id ≠ id) ∧ t' = { t with collections := t.collections ++ [row] } := by
  obtain ⟨hnew, h⟩ := Fallible.ite_error_eq_ok.mp h
  cases h
  refine ⟨rfl, rfl, rfl, fun other hother hid => ?_, rfl⟩
  simp only [List.any_eq_true, Bool.or_eq_true, decide_eq_true_eq] at hnew
  exact hnew ⟨other, hother, .inl hid⟩

/-- The columns that a patch writes. -/
def patchCollectionRow (request : RagCollectionPatchRequest) (row : CollectionRow) : CollectionRow :=
  { row with
    displayName := request.displayName.getD row.displayName
    visibility := request.visibility.getD row.visibility }

theorem patchRagCollection_ok {request : RagCollectionPatchRequest} {row : CollectionRow}
    (h : t.patchRagCollection id request = .ok (row, t')) :
    (∃ found, t.liveCollection id = .ok found ∧ row = patchCollectionRow request found) ∧
      t' = { t with
        collections := Rows.modify CollectionRow.id t.collections id (patchCollectionRow request) } := by
  obtain ⟨found, hlive, h⟩ := Fallible.bind_eq_ok.mp h
  cases h
  exact ⟨⟨found, hlive, rfl⟩, rfl⟩

theorem setRagCollectionStatus_ok {now : Int} {status : RagCollectionStatus} {row : CollectionRow}
    (h : t.setRagCollectionStatus now id status = .ok (row, t')) :
    (∃ found, Rows.find CollectionRow.id t.collections id = some found ∧
        row = withCollectionStatus now status found) ∧
      t' = { t with
        collections := Rows.modify CollectionRow.id t.collections id (withCollectionStatus now status) } := by
  unfold setRagCollectionStatus at h
  split at h
  · next found hfind =>
    cases h
    exact ⟨⟨found, hfind, rfl⟩, rfl⟩
  · cases h

/-- The row of a chunk. -/
structure ChunkOf (moment : Moment) (persistence : ConversationContentPersistence) (ids : DocumentIds)
    (collectionId : Uuid) (chunk : PreparedChunk) (position : Nat) (row : ChunkRow) : Prop where
  id : row.id = ids.chunk position
  documentVersionId : row.documentVersionId = ids.version
  collectionId : row.collectionId = collectionId
  chunkIndex : row.chunkIndex = chunk.chunkIndex
  columns : (ContentWrite.underPolicyForRag persistence chunk.text).columns moment.sealing row.identity =
    .ok row.columns
  chunkHash : row.chunkHash = chunk.chunkHash
  tokenCount : row.tokenCount = chunk.tokenEstimate
  persistence : row.persistence = persistence

variable {persistence : ConversationContentPersistence} {ids : DocumentIds} {collectionId : Uuid}

theorem chunkRows_ok {chunks : List PreparedChunk} {rows : List ChunkRow}
    (h : chunkRows moment persistence ids collectionId chunks = .ok rows) :
    List.Forall₂ (fun chunk row => ChunkOf moment persistence ids collectionId chunk.1 chunk.2 row)
      chunks.zipIdx rows := by
  unfold chunkRows at h
  generalize chunks.zipIdx = pairs at h
  induction pairs generalizing rows with
  | nil =>
    cases h
    exact .nil
  | cons pair rest ih =>
    rw [List.mapM_cons] at h
    obtain ⟨row, hrow, h⟩ := Fallible.bind_eq_ok.mp h
    obtain ⟨others, hothers, h⟩ := Fallible.bind_eq_ok.mp h
    cases h
    obtain ⟨columns, hcolumns, hrow⟩ := Fallible.bind_eq_ok.mp hrow
    cases hrow
    exact .cons ⟨rfl, rfl, rfl, rfl, hcolumns, rfl, rfl, rfl⟩ (ih hothers)

/-- The run of a plan. -/
def runOf (ids : DocumentIds) (contentHash : Digest) (plan : RagIngestionPlan) : IngestionRunRow where
  documentId := ids.document
  documentVersionId := ids.version
  status := plan.runStatus
  contentHash := contentHash
  chunkCount := plan.chunkCount
  embeddedChunkCount := plan.embeddedChunkCount
  failureClass := plan.failureClass

/-- A version that has been written, with its chunks. -/
structure WrittenVersion (t : DocumentTables) (moment : Moment)
    (persistence : ConversationContentPersistence)
    (ids : DocumentIds) (collectionId : Uuid) (versionNumber : Nat) (content : String) (contentHash : Digest)
    (plan : RagIngestionPlan) (row : VersionRow) (chunks : List ChunkRow) : Prop where
  id : row.id = ids.version
  documentId : row.documentId = ids.document
  versionNumber : row.versionNumber = versionNumber
  columns : (ContentWrite.underPolicyForRag persistence content).columns moment.sealing row.identity =
    .ok row.columns
  contentHash : row.contentHash = contentHash
  contentSizeBytes : row.contentSizeBytes = content.utf8ByteSize
  ingestionStatus : row.ingestionStatus = plan.terminalStatus
  supersededAt : row.supersededAt = none
  fresh : ∀ other ∈ t.versions, other.id ≠ ids.version
  fit : t.chunksFit chunks = true
  pieces : List.Forall₂ (fun chunk row => ChunkOf moment persistence ids collectionId chunk.1 chunk.2 row)
    plan.chunks.zipIdx chunks
  persistence : row.persistence = persistence

theorem exists_of_forall₂ {α β : Type} {R : α → β → Prop} {as : List α} {bs : List β}
    (h : List.Forall₂ R as bs) {b : β} (hb : b ∈ bs) : ∃ a ∈ as, R a b := by
  induction h with
  | nil => exact absurd hb List.not_mem_nil
  | cons hR _ ih =>
    rcases List.mem_cons.mp hb with rfl | hb
    · exact ⟨_, List.mem_cons_self, hR⟩
    · obtain ⟨a, ha, hR⟩ := ih hb
      exact ⟨a, List.mem_cons_of_mem _ ha, hR⟩

variable {contentHash : Digest} {plan : RagIngestionPlan}

namespace WrittenVersion

variable {versionNumber : Nat} {content : String} {row : VersionRow} {chunks : List ChunkRow}
  (h : t.WrittenVersion moment persistence ids collectionId versionNumber content contentHash plan row chunks)

include h

theorem piece {chunk : ChunkRow} (hchunk : chunk ∈ chunks) :
    ∃ pair ∈ plan.chunks.zipIdx, ChunkOf moment persistence ids collectionId pair.1 pair.2 chunk :=
  exists_of_forall₂ h.pieces hchunk

theorem chunkOf {pair : PreparedChunk × Nat} (hpair : pair ∈ plan.chunks.zipIdx) :
    ∃ chunk ∈ chunks, ChunkOf moment persistence ids collectionId pair.1 pair.2 chunk :=
  exists_of_forall₂ (List.Forall₂.flip h.pieces) hpair

end WrittenVersion

/-- The tables after a version. -/
def withVersion (t : DocumentTables) (ids : DocumentIds) (contentHash : Digest) (plan : RagIngestionPlan)
    (row : VersionRow) (chunks : List ChunkRow) : DocumentTables where
  collections := t.collections
  documents := Rows.modify DocumentRow.id t.documents ids.document fun document =>
    { document with currentVersionId := some ids.version }
  versions := t.versions ++ [row]
  chunks := t.chunks ++ chunks
  chunkEmbeddings := t.chunkEmbeddings ++ embeddingRows ids plan
  ingestionRuns := t.ingestionRuns ++ [runOf ids contentHash plan]

theorem writeVersion_ok {versionNumber : Nat} {content : String}
    (h : t.writeVersion moment persistence ids collectionId versionNumber content contentHash plan = .ok t') :
    ∃ row chunks, WrittenVersion t moment persistence ids collectionId versionNumber content contentHash plan
        row chunks ∧ t' = t.withVersion ids contentHash plan row chunks := by
  obtain ⟨columns, hcolumns, h⟩ := Fallible.bind_eq_ok.mp h
  obtain ⟨hnew, h⟩ := Fallible.ite_error_eq_ok.mp h
  obtain ⟨written, hwritten, h⟩ := Fallible.bind_eq_ok.mp h
  cases h
  obtain ⟨rows, hrows, hwritten⟩ := Fallible.bind_eq_ok.mp hwritten
  simp only at hwritten
  split at hwritten
  · next hfit =>
    cases hwritten
    refine ⟨{ id := ids.version, documentId := ids.document, versionNumber, columns, contentHash
              contentSizeBytes := content.utf8ByteSize, ingestionStatus := plan.terminalStatus
              createdAt := moment.now, persistence }, rows, ?_, rfl⟩
    exact
      { id := rfl, documentId := rfl, versionNumber := rfl, columns := hcolumns, contentHash := rfl
        contentSizeBytes := rfl, ingestionStatus := rfl, supersededAt := rfl, persistence := rfl
        fresh := by simpa using hnew, pieces := chunkRows_ok hrows, fit := hfit }
  · cases hwritten

/-- The row of a document that is made. -/
def documentRow (target : CollectionTarget) (ids : DocumentIds) (request : RagDocumentCreateRequest) :
    DocumentRow where
  id := ids.document
  collectionId := target.collectionId
  title := request.title
  mimeType := request.mimeType

theorem insertRagDocument_ok {target : CollectionTarget} {request : RagDocumentCreateRequest}
    {contentHash : Option Digest} {row : DocumentRow}
    (h : t.insertRagDocument moment target ids request contentHash plan = .ok (row, t')) :
    (∀ other ∈ t.documents, other.id ≠ ids.document) ∧
      (((request.content = none ∨ contentHash = none) ∧ row = documentRow target ids request ∧
          t' = { t with documents := t.documents ++ [documentRow target ids request] }) ∨
        ∃ content hash version chunks, request.content = some content ∧ contentHash = some hash ∧
          WrittenVersion t moment target.persistence ids target.collectionId 1 content hash plan version chunks ∧
          row = { documentRow target ids request with currentVersionId := some ids.version } ∧
          t' = withVersion { t with documents := t.documents ++ [documentRow target ids request] } ids hash plan
            version chunks) := by
  obtain ⟨hnew, h⟩ := Fallible.ite_error_eq_ok.mp h
  refine ⟨by simpa using hnew, ?_⟩
  cases hcontent : request.content with
  | none =>
    rw [hcontent] at h
    cases h
    exact .inl ⟨.inl rfl, rfl, rfl⟩
  | some content =>
    rw [hcontent] at h
    cases contentHash with
    | none =>
      cases h
      exact .inl ⟨.inr rfl, rfl, rfl⟩
    | some hash =>
      obtain ⟨written, hwritten, h⟩ := Fallible.bind_eq_ok.mp h
      cases h
      obtain ⟨version, chunks, hversion, rfl⟩ := writeVersion_ok hwritten
      exact .inr ⟨content, hash, version, chunks, rfl, rfl,
        { hversion with fresh := hversion.fresh, fit := hversion.fit }, rfl, rfl⟩

theorem ingestRagDocument_ok {documentId versionId : Uuid} {chunkIds : Nat → Uuid}
    {request : RagDocumentIngestRequest} {row : DocumentRow}
    (h : t.ingestRagDocument policies moment documentId versionId chunkIds request contentHash plan =
      .ok (row, t')) :
    ∃ document collection version chunks, t.liveDocument documentId = .ok document ∧
      Rows.find CollectionRow.id t.collections document.collectionId = some collection ∧
      WrittenVersion t moment (policies.contentPersistence collection.applicationId)
        { document := document.id, version := versionId, chunk := chunkIds } document.collectionId
        (Rows.nextNumber VersionRow.versionNumber (t.versionsOf document.id)) (request.content.getD "")
        contentHash plan version chunks ∧
      row = { document with currentVersionId := some versionId } ∧
      t' = withVersion { t with versions := supersedeVersions moment.now document.id t.versions }
        { document := document.id, version := versionId, chunk := chunkIds } contentHash plan version chunks := by
  obtain ⟨document, hlive, h⟩ := Fallible.bind_eq_ok.mp h
  cases hcollection : Rows.find CollectionRow.id t.collections document.collectionId with
  | none =>
    rw [hcollection] at h
    cases h
  | some collection =>
    rw [hcollection] at h
    obtain ⟨written, hwritten, h⟩ := Fallible.bind_eq_ok.mp h
    cases h
    obtain ⟨version, chunks, hversion, rfl⟩ := writeVersion_ok hwritten
    refine ⟨document, collection, version, chunks, hlive, hcollection,
      { hversion with fresh := ?_, fit := hversion.fit }, rfl, rfl⟩
    intro other hother
    have hmem := List.mem_map_of_mem (f := fun row : VersionRow =>
      if row.documentId = document.id ∧ row.supersededAt = none then
        { row with
          supersededAt := some moment.now
          ingestionStatus := if row.ingestionStatus = .indexed then .superseded else row.ingestionStatus }
      else row) hother
    have hfresh := hversion.fresh _ hmem
    split at hfresh <;> exact hfresh

end DocumentTables

/-- The tables of documents stay as they are. -/
def DocumentStatement.isRead : DocumentStatement → Bool
  | createRagCollection .. | patchRagCollection .. | setRagCollectionStatus .. | insertRagDocument ..
  | ingestRagDocument .. | deleteRagDocument _ => false
  | _ => true

theorem DocumentStatement.tables_of_isRead {s : DocumentStatement} {t t' : DocumentTables}
    {a : s.Value} (hread : s.isRead = true) (h : s.run distance policies moment t = .ok (a, t')) :
    t' = t := by
  cases s with
  | createRagCollection _ _ | patchRagCollection _ _ | setRagCollectionStatus _ _
  | insertRagDocument _ _ _ _ _
  | ingestRagDocument _ _ _ _ _ _ | deleteRagDocument _ => cases hread
  | getRagCollection id | findCollectionTarget id | getRagDocument id =>
    obtain ⟨row, -, h⟩ := Fallible.bind_eq_ok.mp h
    exact (Prod.mk.inj (Except.ok.inj h)).2.symm
  | findCollectionIngestionContext _ | findDocumentIngestionContext _ | findRagChunkCandidates _ _ _ _ =>
    exact (Prod.mk.inj (Except.ok.inj h)).2.symm

/-! ## Over all tables -/

namespace Statement

variable {t t' : Tables}

theorem run_conversation {s : ConversationStatement} {a : s.Value}
    (h : (Statement.conversation s).run distance moment t = .ok (a, t')) :
    ∃ tables, s.run t.policies moment t.conversation = .ok (a, tables) ∧
    t' = { t with conversation := tables } := by
  obtain ⟨⟨b, tables⟩, hrun, heq⟩ := Fallible.map_eq_ok.mp h
  obtain ⟨rfl, rfl⟩ := Prod.mk.inj heq
  exact ⟨tables, hrun, rfl⟩

theorem run_memory {s : MemoryStatement} {a : s.Value}
    (h : (Statement.memory s).run distance moment t = .ok (a, t')) :
    ∃ tables, s.run distance moment t.memory = .ok (a, tables) ∧ t' = { t with memory := tables } := by
  obtain ⟨⟨b, tables⟩, hrun, heq⟩ := Fallible.map_eq_ok.mp h
  obtain ⟨rfl, rfl⟩ := Prod.mk.inj heq
  exact ⟨tables, hrun, rfl⟩

theorem run_document {s : DocumentStatement} {a : s.Value}
    (h : (Statement.document s).run distance moment t = .ok (a, t')) :
    ∃ tables, s.run distance t.policies moment t.document = .ok (a, tables) ∧
      t' = { t with document := tables } := by
  obtain ⟨⟨b, tables⟩, hrun, heq⟩ := Fallible.map_eq_ok.mp h
  obtain ⟨rfl, rfl⟩ := Prod.mk.inj heq
  exact ⟨tables, hrun, rfl⟩

theorem run_policy {s : PolicyStatement} {a : s.Value}
    (h : (Statement.policy s).run distance moment t = .ok (a, t')) :
    ∃ tables, s.run t.policies = .ok (a, tables) ∧ t' = { t with policies := tables } := by
  obtain ⟨⟨b, tables⟩, hrun, heq⟩ := Fallible.map_eq_ok.mp h
  obtain ⟨rfl, rfl⟩ := Prod.mk.inj heq
  exact ⟨tables, hrun, rfl⟩

/-- A statement on other tables leaves those of the memories. -/
theorem memory_kept {s : Statement} {a : s.Value} (h : s.run distance moment t = .ok (a, t'))
    (hother : ∀ m, s ≠ .memory m) : t'.memory = t.memory := by
  cases s with
  | memory m => exact absurd rfl (hother m)
  | conversation s => obtain ⟨_, -, rfl⟩ := run_conversation h; rfl
  | document s => obtain ⟨_, -, rfl⟩ := run_document h; rfl
  | policy s => obtain ⟨_, -, rfl⟩ := run_policy h; rfl

theorem document_kept {s : Statement} {a : s.Value} (h : s.run distance moment t = .ok (a, t'))
    (hother : ∀ d, s ≠ .document d) : t'.document = t.document := by
  cases s with
  | document d => exact absurd rfl (hother d)
  | conversation s => obtain ⟨_, -, rfl⟩ := run_conversation h; rfl
  | memory s => obtain ⟨_, -, rfl⟩ := run_memory h; rfl
  | policy s => obtain ⟨_, -, rfl⟩ := run_policy h; rfl

theorem conversation_kept {s : Statement} {a : s.Value} (h : s.run distance moment t = .ok (a, t'))
    (hother : ∀ c, s ≠ .conversation c) : t'.conversation = t.conversation := by
  cases s with
  | conversation c => exact absurd rfl (hother c)
  | memory s => obtain ⟨_, -, rfl⟩ := run_memory h; rfl
  | document s => obtain ⟨_, -, rfl⟩ := run_document h; rfl
  | policy s => obtain ⟨_, -, rfl⟩ := run_policy h; rfl

end Statement

end Moira.Conversations
