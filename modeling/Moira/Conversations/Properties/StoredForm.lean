import Moira.Conversations.Properties.Steps

/-!
# The stored form of a body

- `StoredForm`, **`stored_form`** — what the columns and the readers of a row come to, over all runs
  and for each step of them
-/

namespace Moira.Conversations

open Prog Transition
open Keyring (ContentIdentity)

/-! ## Columns -/

/-- The columns of a body that was sealed, if at all, for the identity. -/
def Holds (columns : ContentColumns) (identity : ContentIdentity) (stored : ContentWrite) : Prop :=
  stored.columns (.ok ()) identity = .ok columns

variable {text text' : String} {persistence : ConversationContentPersistence}

section Columns

variable {columns : ContentColumns} {identity : ContentIdentity} {stored : ContentWrite}
  {sealing : Except AppError Unit}

theorem holds_of_columns (h : stored.columns sealing identity = .ok columns) :
    Holds columns identity stored := by
  cases stored with
  | omitted => exact h
  | plain text => exact h
  | encrypt text =>
    obtain ⟨_, -, rfl⟩ := Fallible.map_eq_ok.mp h
    rfl

theorem columns_of_encrypt
    (h : (ContentWrite.encrypt text).columns sealing identity = .ok columns) :
    sealing.isOk = true := by
  obtain ⟨_, hok, -⟩ := Fallible.map_eq_ok.mp h
  rw [hok]
  rfl

theorem Holds.one (h : Holds columns identity stored) : columns.plain = none ∨ columns.encrypted = none := by
  cases stored with
  | omitted | plain text =>
    cases h
    exact .inr rfl
  | encrypt text =>
    cases h
    exact .inl rfl

theorem Holds.plain (h : Holds columns identity stored) (hplain : columns.plain.isSome = true) :
    ∃ text, stored = .plain text := by
  cases stored with
  | omitted | encrypt text =>
    cases h
    cases hplain
  | plain text => exact ⟨text, rfl⟩

/-- **A body is read back as it was written.** -/
theorem Holds.content (h : Holds columns identity stored) :
    columns.content identity = .ok stored.plaintext := by
  cases stored with
  | omitted | plain text =>
    cases h
    rfl
  | encrypt text =>
    cases h
    show Except.map some (if identity = identity then .ok text else _) = _
    rw [if_pos rfl]
    rfl

theorem persistsPlaintext_of_plain (h : ContentWrite.underPolicy persistence text = .plain text') :
    persistence.persistsPlaintext = true := by
  cases persistence with
  | plainContent => rfl
  | none | metadataOnly | encryptedContent => cases h

theorem eq_of_plaintext_underPolicy
    (h : (ContentWrite.underPolicy persistence text).plaintext = some text') : text' = text := by
  cases persistence with
  | none | metadataOnly => cases h
  | plainContent | encryptedContent => exact (Option.some.inj h).symm

theorem plaintext_underPolicyForRag (persistence : ConversationContentPersistence) (text : String) :
    (ContentWrite.underPolicyForRag persistence text).plaintext = some text := by
  cases persistence <;> rfl

end Columns

/-! ## Bodies -/

inductive BodyKind
  | message
  | summary
  | memory
  | version
  | chunk

namespace BodyKind

/-- The form that a policy gives to a body. -/
def form : BodyKind → ConversationContentPersistence → String → ContentWrite
  | message | summary | memory => ContentWrite.underPolicy
  | version | chunk => ContentWrite.underPolicyForRag

/-- The policies that leave a body in the clear. -/
def admitsPlaintext : BodyKind → ConversationContentPersistence → Bool
  | message, persistence | summary, persistence | memory, persistence => persistence.persistsPlaintext
  | version, persistence | chunk, persistence => !persistence.persistsCiphertext

/-- The size and the token count of a body, where its table has a column for them. -/
def measure : BodyKind → ConversationContentPersistence → String → Option Nat × Option Nat
  | message, persistence, text =>
    if persistence.persistsContentMetadata then (some text.utf8ByteSize, some (estimateTokens text))
    else (some 0, none)
  | summary, _, text => (none, some (budgetTokens text))
  | memory, _, _ => (none, none)
  | version, _, text => (some text.utf8ByteSize, none)
  | chunk, _, text => (none, some (estimateChunkTokens text))

theorem admitsPlaintext_of_plain {kind : BodyKind} (h : kind.form persistence text = .plain text') :
    kind.admitsPlaintext persistence = true := by
  cases kind with
  | message | summary | memory => exact persistsPlaintext_of_plain h
  | version | chunk => cases persistence <;> first | rfl | cases h

end BodyKind

/-- A text for a row. `position` is the place of a chunk in its version. -/
structure BodyText where
  kind : BodyKind
  row : Uuid
  text : String
  position : Nat := 0

/-- A body as its row has it. `text` is what the digest of the row is of. -/
structure StoredBody extends BodyText where
  identity : ContentIdentity
  columns : ContentColumns
  measured : Option Nat × Option Nat
  persistence : ConversationContentPersistence

def StoredBody.form (body : StoredBody) : ContentWrite :=
  body.kind.form body.persistence body.text

def MessageRow.body (row : MessageRow) : StoredBody where
  kind := .message
  row := row.id
  identity := row.identity
  columns := row.columns
  text := row.contentHash.text
  measured := (some row.contentSizeBytes, row.tokenCount)
  persistence := row.persistence

def SummaryRow.body (row : SummaryRow) : StoredBody where
  kind := .summary
  row := row.id
  identity := row.identity
  columns := row.columns
  text := row.summaryHash.text
  measured := (none, row.tokenCount)
  persistence := row.persistence

def MemoryRow.body (row : MemoryRow) : StoredBody where
  kind := .memory
  row := row.id
  identity := row.identity
  columns := row.columns
  text := row.contentHash.text
  measured := (none, none)
  persistence := row.persistence

def VersionRow.body (row : VersionRow) : StoredBody where
  kind := .version
  row := row.id
  identity := row.identity
  columns := row.columns
  text := row.contentHash.text
  measured := (some row.contentSizeBytes, none)
  persistence := row.persistence

def ChunkRow.body (row : ChunkRow) : StoredBody where
  kind := .chunk
  row := row.id
  position := row.chunkIndex
  identity := row.identity
  columns := row.columns
  text := row.chunkHash.text
  measured := (none, some row.tokenCount)
  persistence := row.persistence

/-- A body of one of the tables. -/
inductive Tables.HasBody (t : Tables) : StoredBody → Prop
  | message {row : MessageRow} (hrow : row ∈ t.conversation.messages) : t.HasBody row.body
  | summary {row : SummaryRow} (hrow : row ∈ t.conversation.summaries) : t.HasBody row.body
  | memory {row : MemoryRow} (hrow : row ∈ t.memory.memories) : t.HasBody row.body
  | version {row : VersionRow} (hrow : row ∈ t.document.versions) : t.HasBody row.body
  | chunk {row : ChunkRow} (hrow : row ∈ t.document.chunks) : t.HasBody row.body

/-! ## Writers -/

def RagIngestionPlan.bodies (plan : RagIngestionPlan) (ids : Nat → Uuid) : List BodyText :=
  plan.chunks.zipIdx.map fun (chunk, position) => ⟨.chunk, ids position, chunk.text, position⟩

/-- The bodies that a statement is to write: a version with its chunks, one body otherwise. -/
def Statement.bodies : Statement → List BodyText
  | conversation (.addMessage messageId insert) =>
    insert.content.plaintext.toList.map fun text => { kind := .message, row := messageId, text }
  | conversation (.insertConversationSummary summaryId insert) =>
    [{ kind := .summary, row := summaryId, text := insert.summaryHash.text }]
  | memory (.createMemory insert) => [{ kind := .memory, row := insert.id, text := insert.request.content }]
  | memory (.patchMemory id request _) =>
    request.content.toList.map fun text => { kind := .memory, row := id, text }
  | memory (.insertExtractedMemory insert) =>
    [{ kind := .memory, row := insert.id, text := insert.contentHash.text }]
  | document (.insertRagDocument _ ids request _ plan) =>
    request.content.toList.flatMap fun text =>
      { kind := .version, row := ids.version, text } :: plan.bodies ids.chunk
  | document (.ingestRagDocument _ versionId chunkIds request _ plan) =>
    request.content.toList.flatMap fun text =>
      { kind := .version, row := versionId, text } :: plan.bodies chunkIds
  | _ => []

/-- The persistence of an application, as the call has read it. -/
def Seen.persistenceOf (seen : Seen) (applicationId : Uuid) : Option ConversationContentPersistence :=
  seen.policy.bind fun (found, policy) =>
    if found = applicationId then some policy.conversationContentPersistence else none

/-- The persistence that a writer reads for its bodies, in its transaction or before: that of the
application the row is of, or of the caller where the row is patched. -/
def Statement.readPersistence (request : Request) (t : Tables) (seen : Seen) :
    Statement → Option ConversationContentPersistence
  | conversation (.addMessage _ insert) =>
    (Rows.find ConversationRow.id t.conversation.conversations insert.conversationId).map fun row =>
      t.policies.contentPersistence row.owner.applicationId
  | conversation (.insertConversationSummary _ insert) =>
    seen.found.bind fun row =>
      if row.id = insert.conversationId then seen.persistenceOf row.owner.applicationId else none
  | memory (.createMemory insert) => seen.persistenceOf insert.owner.applicationId
  | memory (.insertExtractedMemory insert) => seen.persistenceOf insert.owner.applicationId
  | memory (.patchMemory ..) => request.actor.internalApplicationId.bind seen.persistenceOf
  | document (.insertRagDocument target ..) =>
    seen.collection.bind fun found =>
      if found.collectionId = target.collectionId then some found.persistence else none
  | document (.ingestRagDocument documentId ..) =>
    (Rows.find DocumentRow.id t.document.documents documentId).bind fun document =>
      (Rows.find CollectionRow.id t.document.collections document.collectionId).map fun collection =>
        t.policies.contentPersistence collection.applicationId
  | _ => none

/-- A body that a statement has written. -/
structure Writes (request : Request) (t : Tables) (moment : Moment) (seen : Seen) (st : Statement)
    (body : StoredBody) : Prop where
  columns : body.form.columns moment.sealing body.identity = .ok body.columns
  measured : body.measured = body.kind.measure body.persistence body.text
  written : body.toBodyText ∈ st.bodies
  persistence : st.readPersistence request t seen = some body.persistence

variable {tables : DocumentTables} {ids : DocumentIds} {collectionId : Uuid} {versionNumber : Nat}
  {contentHash : Digest} {plan : RagIngestionPlan} {chunks : List ChunkRow}
  {place : IngestionPlace} {version : VersionRow}

variable {st : Statement}

section Writers

variable {request : Request} {seen : Seen} {moment : Moment} {t : Tables} {body : StoredBody}

theorem Stores.read {applicationId : Uuid} {content : ContentWrite}
    (h : Stores seen applicationId content persistence text) :
    seen.persistenceOf applicationId = some persistence := by
  obtain ⟨-, policy, hpolicy, rfl⟩ := h
  simp [Seen.persistenceOf, hpolicy]

/-- A body is written by what it is made of. -/
theorem Writes.of (hpersistence : body.persistence = persistence) (htext : body.text = text)
    (hcolumns : (body.kind.form persistence text).columns moment.sealing body.identity = .ok body.columns)
    (hmeasured : body.measured = body.kind.measure persistence text)
    (hwritten : ⟨body.kind, body.row, text, body.position⟩ ∈ st.bodies)
    (hread : st.readPersistence request t seen = some persistence) :
    Writes request t moment seen st body := by
  subst hpersistence htext
  exact ⟨hcolumns, hmeasured, hwritten, hread⟩

theorem writes_message {messageId : Uuid} {insert : ConversationMessageInsert}
    {conversation : ConversationRow} {row : MessageRow} (hadds : AddsMessage request seen insert)
    (hadded : t.conversation.AddedMessage t.policies moment messageId insert conversation row) :
    Writes request t moment seen (.conversation (.addMessage messageId insert)) row.body := by
  obtain ⟨text, hinsert⟩ := hadds.text
  have hcontent : insert.content = .plain text := by rw [hinsert]; rfl
  have htext : row.contentHash.text = text := by rw [hadded.contentHash, hinsert]; rfl
  have hcolumns := hadded.columns
  rw [hcontent] at hcolumns
  refine .of rfl htext hcolumns ?_ ?_ ?_
  · rw [MessageRow.body, hadded.contentSizeBytes, hadded.tokenCount, hinsert]
    simp only [BodyKind.measure]
    split <;> rfl
  · simp [Statement.bodies, hcontent, ContentWrite.plaintext, MessageRow.body, hadded.id]
  · simp [Statement.readPersistence, (ConversationTables.liveConversation_ok hadded.live).1, MessageRow.body,
      hadded.persistence]

theorem writes_summary {summaryId : Uuid} {insert : ConversationSummaryInsert} {row : SummaryRow}
    (hdoes : DoesConversation request seen (.insertConversationSummary summaryId insert))
    (hinserted : t.conversation.InsertedSummary moment summaryId insert row) :
    Writes request t moment seen (.conversation (.insertConversationSummary summaryId insert)) row.body := by
  obtain ⟨-, ⟨found, hfound, hid, hstores⟩, htokens⟩ := hdoes
  have hcolumns := hinserted.columns
  rw [hstores.1] at hcolumns
  refine .of hinserted.persistence (congrArg Digest.text hinserted.summaryHash) hcolumns ?_ ?_ ?_
  · rw [SummaryRow.body, hinserted.tokenCount, htokens]
    rfl
  · simp [Statement.bodies, SummaryRow.body, hinserted.id]
  · simp [Statement.readPersistence, hfound, hid, hstores.read]

theorem body_superseded (now : Int) (conversationId : Uuid) (row : SummaryRow) :
    (ConversationTables.superseded now conversationId row).body = row.body := by
  unfold ConversationTables.superseded
  split <;> rfl

theorem writes_inserted {row : MemoryRow} {s : MemoryStatement} (hdoes : DoesMemory request seen s)
    (hinserted : MemoryTables.Inserted moment row s) :
    Writes request t moment seen (.memory s) row.body := by
  cases hinserted with
  | @created insert hcreated =>
    have hcolumns := hcreated.columns
    rw [hdoes.1.1] at hcolumns
    refine .of hcreated.persistence (congrArg Digest.text hcreated.contentHash) hcolumns rfl ?_ hdoes.1.read
    simp [Statement.bodies, MemoryRow.body, hcreated.id]
  | @extracted insert hextracted =>
    have hcolumns := hextracted.columns
    rw [hdoes.1.1] at hcolumns
    refine .of hextracted.persistence (congrArg Digest.text hextracted.contentHash) hcolumns rfl ?_ hdoes.1.read
    simp [Statement.bodies, MemoryRow.body, hextracted.id]

theorem writes_patched {patch : MemoryPatchRequest}
    {content : Option (ContentWrite × ConversationContentPersistence)} {row row' : MemoryRow}
    (hdoes : DoesMemory request seen (.patchMemory row.id patch content))
    (hpatched : MemoryTables.Patched moment patch row content row') :
    (patch.content = none ∧ row'.body = row.body) ∨
      Writes request t moment seen (.memory (.patchMemory row.id patch content)) row'.body := by
  cases hpatched with
  | kept => exact .inl ⟨hdoes.2, rfl⟩
  | @written stored persistence columns hcolumns =>
    obtain ⟨-, text, applicationId, hcontent, hactor, hstores⟩ := hdoes
    have htext : (patch.content <|> stored.plaintext).getD "" = text := by
      rw [hcontent]
      rfl
    rw [htext]
    rw [hstores.1] at hcolumns
    refine .inr ⟨hcolumns, rfl, ?_, ?_⟩
    · show (⟨.memory, row.id, text, 0⟩ : BodyText) ∈ patch.content.toList.map _
      rw [hcontent]
      exact List.mem_singleton_self _
    · show request.actor.internalApplicationId.bind seen.persistenceOf = some persistence
      rw [hactor]
      exact hstores.read

variable {row : VersionRow}

theorem writes_version {content : String} (hcontent : content = contentHash.text)
    (hbody : ⟨.version, ids.version, content, 0⟩ ∈ st.bodies)
    (hread : st.readPersistence request t seen = some persistence)
    (hwritten : tables.WrittenVersion moment persistence ids collectionId versionNumber content contentHash plan
      row chunks) : Writes request t moment seen st row.body := by
  subst hcontent
  refine .of hwritten.persistence (congrArg Digest.text hwritten.contentHash) hwritten.columns ?_ ?_ hread
  · rw [VersionRow.body, hwritten.contentSizeBytes]
    rfl
  · rw [VersionRow.body, hwritten.id]
    exact hbody

/-- The body of a chunk is what its place in the plan has. -/
theorem bodyText_chunk {prepared : PreparedChunk} {position : Nat} {chunk : ChunkRow}
    (hplan : WellPlanned seen place plan) (hmem : (prepared, position) ∈ plan.chunks.zipIdx)
    (hof : DocumentTables.ChunkOf moment persistence ids collectionId prepared position chunk) :
    chunk.body.toBodyText = ⟨.chunk, ids.chunk position, prepared.text, position⟩ := by
  have hindex := congrArg (·[position]?) hplan.indices
  have hprepared : plan.chunks[position]? = some prepared := List.mem_zipIdx_iff_getElem?.mp hmem
  obtain ⟨hlt, -⟩ := List.getElem?_eq_some_iff.mp hprepared
  have haddress : prepared.chunkHash = ⟨prepared.text⟩ :=
      (hplan.chunks _ (List.fst_mem_of_mem_zipIdx hmem)).1
  have hplace : chunk.chunkIndex = position := by
    rw [List.getElem?_map, hprepared, List.getElem?_range hlt] at hindex
    exact hof.chunkIndex.trans (Option.some.inj hindex)
  simp only [ChunkRow.body, hof.id, hof.chunkHash, haddress, hplace]

theorem writes_chunk {content : String} (hplan : WellPlanned seen place plan)
    (hbodies : plan.bodies ids.chunk ⊆ st.bodies)
    (hread : st.readPersistence request t seen = some persistence)
    (hwritten : tables.WrittenVersion moment persistence ids collectionId versionNumber content contentHash plan
      row chunks)
    {chunk : ChunkRow} (hchunk : chunk ∈ chunks) : Writes request t moment seen st chunk.body := by
  obtain ⟨⟨prepared, position⟩, hmem, hof⟩ := hwritten.piece hchunk
  obtain ⟨haddress, htokens⟩ := hplan.chunks prepared (List.fst_mem_of_mem_zipIdx hmem)
  have hbody := bodyText_chunk hplan hmem hof
  refine .of hof.persistence (congrArg BodyText.text hbody) hof.columns ?_ ?_ hread
  · rw [ChunkRow.body, hof.tokenCount, htokens]
    rfl
  · rw [← congrArg BodyText.text hbody]
    show chunk.body.toBodyText ∈ _
    rw [hbody]
    exact hbodies (List.mem_map_of_mem hmem)

variable (request t)

/-- What a document that is made with a text has of it. -/
theorem writes_insertRagDocument {target : CollectionTarget} {create : RagDocumentCreateRequest}
    {contentHash : Option Digest} {hash : Digest} {content : String}
    (hdoes : DoesDocument seen (.insertRagDocument target ids create contentHash plan))
    (hcontent : create.content = some content) (hhash : contentHash = some hash)
    (hwritten : tables.WrittenVersion moment target.persistence ids target.collectionId 1 content hash plan
      version chunks) :
    let st : Statement := .document (.insertRagDocument target ids create contentHash plan)
    Writes request t moment seen st version.body ∧
    ∀ chunk ∈ chunks, Writes request t moment seen st chunk.body := by
  obtain ⟨hcollection, hdigest, hplan⟩ := hdoes
  have htext : content = hash.text := by
    rw [hcontent, hhash] at hdigest
    rw [Option.some.inj hdigest]
  have hread : (Statement.document (.insertRagDocument target ids create contentHash plan)).readPersistence
      request t seen = some target.persistence := by
    simp [Statement.readPersistence, hcollection]
  refine ⟨writes_version htext ?_ hread hwritten, fun chunk hchunk => writes_chunk hplan ?_ hread hwritten hchunk⟩
  · simp [Statement.bodies, hcontent]
  · simp [Statement.bodies, hcontent]

theorem writes_ingestRagDocument {documentId versionId : Uuid} {chunkIds : Nat → Uuid}
    {ingest : RagDocumentIngestRequest} {document : DocumentRow} {collection : CollectionRow}
    (hdoes : DoesDocument seen (.ingestRagDocument documentId versionId chunkIds ingest contentHash plan))
    (hlive : t.document.liveDocument documentId = .ok document)
    (hfind : Rows.find CollectionRow.id t.document.collections document.collectionId = some collection)
    (hwritten : tables.WrittenVersion moment (t.policies.contentPersistence collection.applicationId)
      { document := document.id, version := versionId, chunk := chunkIds } document.collectionId versionNumber
      (ingest.content.getD "") contentHash plan version chunks) :
    let st : Statement := .document (.ingestRagDocument documentId versionId chunkIds ingest contentHash plan)
    Writes request t moment seen st version.body ∧
    ∀ chunk ∈ chunks, Writes request t moment seen st chunk.body := by
  obtain ⟨hcontent, hplan⟩ := hdoes
  have htext : ingest.content.getD "" = contentHash.text := by
    rw [hcontent]
    rfl
  have hread : (Statement.document
      (.ingestRagDocument documentId versionId chunkIds ingest contentHash plan)).readPersistence request t seen =
        some (t.policies.contentPersistence collection.applicationId) := by
    simp [Statement.readPersistence, (DocumentTables.liveDocument_ok hlive).1, hfind]
  refine ⟨writes_version htext ?_ hread hwritten, fun chunk hchunk => writes_chunk hplan ?_ hread hwritten hchunk⟩
  · simp [Statement.bodies, hcontent]
  · simp [Statement.bodies, hcontent]

theorem body_supersedeVersions {now : Int} {documentId : Uuid} {rows : List VersionRow}
    (h : row ∈ DocumentTables.supersedeVersions now documentId rows) :
    ∃ before ∈ rows, before.body = row.body := by
  obtain ⟨before, hbefore, rfl⟩ := List.mem_map.mp h
  refine ⟨before, hbefore, ?_⟩
  split <;> rfl

end Writers

/-! ## Statements -/

section Statements

variable {request : Request} {seen : Seen} {moment : Moment} {t : Tables} {body : StoredBody}

theorem bodies_conversation {s : ConversationStatement} {tables : ConversationTables} {a : s.Value}
    (hdoes : DoesConversation request seen s)
    (hrun : s.run t.policies moment t.conversation = .ok (a, tables))
    (hbody : ({ t with conversation := tables } : Tables).HasBody body) :
    t.HasBody body ∨ Writes request t moment seen (.conversation s) body := by
  cases hbody with
  | memory hrow => exact .inl (.memory hrow)
  | version hrow => exact .inl (.version hrow)
  | chunk hrow => exact .inl (.chunk hrow)
  | @message row hrow =>
    rcases ConversationTables.messages_run hrun with hsame |
        ⟨messageId, insert, added, conversation, rfl, happend, hadded⟩
    · exact .inl (.message (hsame ▸ hrow))
    · rw [happend] at hrow
      rcases List.mem_append.mp hrow with hrow | hrow
      · exact .inl (.message hrow)
      · rw [List.mem_singleton.mp hrow]
        exact .inr (writes_message hdoes hadded)
  | @summary row hrow =>
    rcases ConversationTables.summaries_run hrun with hsame |
        ⟨summaryId, insert, added, rfl, hsummaries, hinserted⟩
    · exact .inl (.summary (hsame ▸ hrow))
    · rw [hsummaries] at hrow
      rcases List.mem_cons.mp hrow with rfl | hrow
      · exact .inr (writes_summary hdoes hinserted)
      · obtain ⟨before, hbefore, rfl⟩ := List.mem_map.mp hrow
        rw [body_superseded]
        exact .inl (.summary hbefore)

variable {distance : List Float8 → List Float8 → Float8}

theorem bodies_memory {s : MemoryStatement} {tables : MemoryTables} {a : s.Value}
    (hids : (t.memory.memories.map MemoryRow.id).Nodup) (hdoes : DoesMemory request seen s)
    (hrun : s.run distance moment t.memory = .ok (a, tables))
    (hbody : ({ t with memory := tables } : Tables).HasBody body) :
    t.HasBody body ∨ Writes request t moment seen (.memory s) body := by
  cases hbody with
  | message hrow => exact .inl (.message hrow)
  | summary hrow => exact .inl (.summary hrow)
  | version hrow => exact .inl (.version hrow)
  | chunk hrow => exact .inl (.chunk hrow)
  | @memory row' hrow' =>
    rcases MemoryTables.mem_memories_run hids hrun hrow' with ⟨row, hrow, hchanged⟩ | ⟨hinserted, -⟩
    · cases hchanged with
      | same => exact .inl (.memory hrow)
      | patched hlive hpatched =>
        rcases writes_patched hdoes hpatched with ⟨-, hsame⟩ | hwrites
        · rw [hsame]
          exact .inl (.memory hrow)
        · exact .inr hwrites
      | deleted hlive =>
        have hbody : t.HasBody row.body := .memory hrow
        exact .inl hbody
      | confirmed hlive =>
        have hbody : t.HasBody row.body := .memory hrow
        exact .inl hbody
    · exact .inr (writes_inserted hdoes hinserted)

theorem hasBody_document (hbody : ({ t with document := tables } : Tables).HasBody body)
    (hversions : ∀ row ∈ tables.versions, ∃ before ∈ t.document.versions, before.body = row.body)
    (hchunks : tables.chunks = t.document.chunks) : t.HasBody body := by
  cases hbody with
  | message hrow => exact .message hrow
  | summary hrow => exact .summary hrow
  | memory hrow => exact .memory hrow
  | version hrow =>
    obtain ⟨before, hbefore, hsame⟩ := hversions _ hrow
    rw [← hsame]
    exact .version hbefore
  | chunk hrow => exact .chunk (hchunks ▸ hrow)

theorem hasBody_withVersion
    (hbody : ({ t with document := tables.withVersion ids contentHash plan version chunks } : Tables).HasBody
      body)
    (hversions : ∀ row ∈ tables.versions, ∃ before ∈ t.document.versions, before.body = row.body)
    (hchunks : tables.chunks = t.document.chunks) :
    t.HasBody body ∨ body = version.body ∨ ∃ chunk ∈ chunks, body = chunk.body := by
  cases hbody with
  | message hrow => exact .inl (.message hrow)
  | summary hrow => exact .inl (.summary hrow)
  | memory hrow => exact .inl (.memory hrow)
  | version hrow =>
    rcases List.mem_append.mp hrow with hrow | hrow
    · obtain ⟨before, hbefore, hsame⟩ := hversions _ hrow
      rw [← hsame]
      exact .inl (.version hbefore)
    · rw [List.mem_singleton.mp hrow]
      exact .inr (.inl rfl)
  | @chunk row hrow =>
    rcases List.mem_append.mp hrow with hrow | hrow
    · exact .inl (.chunk (hchunks ▸ hrow))
    · exact .inr (.inr ⟨row, hrow, rfl⟩)

theorem bodies_document {s : DocumentStatement} {a : s.Value} (hdoes : DoesDocument seen s)
    (hrun : s.run distance t.policies moment t.document = .ok (a, tables))
    (hbody : ({ t with document := tables } : Tables).HasBody body) :
    t.HasBody body ∨ Writes request t moment seen (.document s) body := by
  have hkept : ∀ row ∈ t.document.versions, ∃ before ∈ t.document.versions, before.body = row.body :=
    fun row hrow => ⟨row, hrow, rfl⟩
  cases s with
  | createRagCollection id request =>
    obtain ⟨-, -, -, -, rfl⟩ := DocumentTables.createRagCollection_ok hrun
    exact .inl (hasBody_document hbody hkept rfl)
  | patchRagCollection id request =>
    obtain ⟨-, rfl⟩ := DocumentTables.patchRagCollection_ok hrun
    exact .inl (hasBody_document hbody hkept rfl)
  | setRagCollectionStatus id status =>
    obtain ⟨-, rfl⟩ := DocumentTables.setRagCollectionStatus_ok hrun
    exact .inl (hasBody_document hbody hkept rfl)
  | deleteRagDocument id =>
    obtain ⟨-, rfl⟩ := Prod.mk.inj (Except.ok.inj hrun)
    exact .inl (hasBody_document hbody hkept rfl)
  | insertRagDocument target ids create contentHash plan =>
    obtain ⟨-, ⟨-, -, rfl⟩ | ⟨content, hash, version, chunks, hcontent, hhash, hwritten, -, rfl⟩⟩ :=
      DocumentTables.insertRagDocument_ok hrun
    · exact .inl (hasBody_document hbody hkept rfl)
    obtain ⟨hversion, hchunks⟩ := writes_insertRagDocument request t hdoes hcontent hhash hwritten
    rcases hasBody_withVersion hbody hkept rfl with hold | rfl | ⟨chunk, hchunk, rfl⟩
    · exact .inl hold
    · exact .inr hversion
    · exact .inr (hchunks chunk hchunk)
  | ingestRagDocument documentId versionId chunkIds ingest contentHash plan =>
    obtain ⟨document, collection, version, chunks, hlive, hfind, hwritten, -, rfl⟩ :=
      DocumentTables.ingestRagDocument_ok hrun
    obtain ⟨hversion, hchunks⟩ := writes_ingestRagDocument request t hdoes hlive hfind hwritten
    rcases hasBody_withVersion hbody (fun row hrow => body_supersedeVersions hrow) rfl with
      hold | rfl | ⟨chunk, hchunk, rfl⟩
    · exact .inl hold
    · exact .inr hversion
    · exact .inr (hchunks chunk hchunk)
  | getRagCollection _ | findCollectionIngestionContext _ | findDocumentIngestionContext _
  | findCollectionTarget _ | getRagDocument _ | findRagChunkCandidates _ _ _ _ =>
    rw [DocumentStatement.tables_of_isRead rfl hrun] at hbody
    exact .inl hbody

/-! ### What a statement leaves behind -/

/-- The statement has left the body. -/
def Leaves (request : Request) (t : Tables) (moment : Moment) (seen : Seen) (st : Statement) (t' : Tables)
    (written : BodyText) : Prop :=
  ∃ body, t'.HasBody body ∧ body.toBodyText = written ∧ Writes request t moment seen st body

variable {written : BodyText}

/-- A statement with one body has left the one it has written. -/
theorem leaves_single {t' : Tables} (hbody : t'.HasBody body)
    (hwrites : Writes request t moment seen st body) (hlength : st.bodies.length ≤ 1)
    (hwritten : written ∈ st.bodies) : Leaves request t moment seen st t' written := by
  obtain ⟨only, honly⟩ := List.length_eq_one_iff.mp
    (Nat.le_antisymm hlength (List.length_pos_of_mem hwritten))
  have hsame := hwrites.written
  rw [honly, List.mem_singleton] at hwritten hsame
  exact ⟨body, hbody, hsame.trans hwritten.symm, hwrites⟩

theorem leaves_conversation {s : ConversationStatement} {tables : ConversationTables} {a : s.Value}
    (hdoes : DoesConversation request seen s)
    (hrun : s.run t.policies moment t.conversation = .ok (a, tables))
    (hwritten : written ∈ (Statement.conversation s).bodies) :
    Leaves request t moment seen (.conversation s) { t with conversation := tables } written := by
  cases s with
  | addMessage messageId insert =>
    obtain ⟨conversation, hadded, rfl⟩ := ConversationTables.addMessage_ok hrun
    refine leaves_single (.message (List.mem_append_right _ List.mem_cons_self)) (writes_message hdoes hadded) ?_
      hwritten
    rw [Statement.bodies, List.length_map]
    exact Option.length_toList_le
  | insertConversationSummary summaryId insert =>
    obtain ⟨hinserted, rfl⟩ := ConversationTables.insertConversationSummary_ok hrun
    exact leaves_single (.summary List.mem_cons_self) (writes_summary hdoes hinserted) le_rfl hwritten
  | _ => cases hwritten

theorem leaves_memory {s : MemoryStatement} {tables : MemoryTables} {a : s.Value}
    (hdoes : DoesMemory request seen s) (hrun : s.run distance moment t.memory = .ok (a, tables))
    (hwritten : written ∈ (Statement.memory s).bodies) :
    Leaves request t moment seen (.memory s) { t with memory := tables } written := by
  cases s with
  | createMemory insert =>
    obtain ⟨hcreated, -, rfl⟩ := MemoryTables.createMemory_ok hrun
    exact leaves_single (.memory (List.mem_append_right _ List.mem_cons_self))
      (writes_inserted hdoes (.created hcreated)) le_rfl hwritten
  | patchMemory id patch content =>
    obtain ⟨row, change, hlive, -, hpatched, -, rfl⟩ := MemoryTables.patchMemory_ok hrun
    obtain ⟨hmem, rfl⟩ := Rows.find_some (MemoryTables.liveMemory_ok hlive).1
    rcases writes_patched hdoes hpatched with ⟨hnone, -⟩ | hwrites
    · simp [Statement.bodies, hnone] at hwritten
    · refine leaves_single (.memory (Rows.mem_modify_of_eq hmem rfl)) hwrites ?_ hwritten
      rw [Statement.bodies, List.length_map]
      exact Option.length_toList_le
  | insertExtractedMemory insert =>
    obtain ⟨hextracted, -, rfl⟩ := MemoryTables.insertExtractedMemory_ok hrun
    exact leaves_single (.memory (List.mem_append_right _ List.mem_cons_self))
      (writes_inserted hdoes (.extracted hextracted)) le_rfl hwritten
  | _ => cases hwritten

/-- A version is there with all the chunks of its plan. -/
theorem leaves_withVersion {content : String} {base : DocumentTables}
    (hplan : WellPlanned seen place plan)
    (hversion : tables.WrittenVersion moment persistence ids collectionId versionNumber content contentHash plan
      version chunks)
    (hwrites : Writes request t moment seen st version.body ∧
      ∀ chunk ∈ chunks, Writes request t moment seen st chunk.body)
    (hcontent : content = contentHash.text)
    (hwritten : written ∈ (⟨.version, ids.version, content, 0⟩ : BodyText) :: plan.bodies ids.chunk) :
    Leaves request t moment seen st
      { t with document := base.withVersion ids contentHash plan version chunks } written := by
  rcases List.mem_cons.mp hwritten with rfl | hwritten
  · refine ⟨_, .version (List.mem_append_right _ List.mem_cons_self), ?_, hwrites.1⟩
    simp only [VersionRow.body, hversion.id, hversion.contentHash, hcontent]
  · obtain ⟨⟨prepared, position⟩, hmem, rfl⟩ := List.mem_map.mp hwritten
    obtain ⟨chunk, hchunk, hof⟩ := hversion.chunkOf hmem
    exact ⟨_, .chunk (List.mem_append_right _ hchunk), bodyText_chunk hplan hmem hof, hwrites.2 chunk hchunk⟩

theorem leaves_document {s : DocumentStatement} {a : s.Value} (hdoes : DoesDocument seen s)
    (hrun : s.run distance t.policies moment t.document = .ok (a, tables))
    (hwritten : written ∈ (Statement.document s).bodies) :
    Leaves request t moment seen (.document s) { t with document := tables } written := by
  cases s with
  | insertRagDocument target ids create contentHash plan =>
    have hdigest := hdoes.2.1
    obtain ⟨content, hcontent, hwritten⟩ := List.mem_flatMap.mp hwritten
    obtain hcontent : create.content = some content := Option.mem_toList.mp hcontent
    rw [hcontent] at hdigest
    obtain ⟨-, ⟨hnone, -, -⟩ | ⟨content', hash, version, chunks, hcontent', hhash, hversion, -, rfl⟩⟩ :=
      DocumentTables.insertRagDocument_ok hrun
    · simp [hcontent, hdigest] at hnone
    · obtain rfl := Option.some.inj (hcontent.symm.trans hcontent')
      obtain rfl := Option.some.inj (hhash.symm.trans hdigest)
      exact leaves_withVersion hdoes.2.2 hversion
        (writes_insertRagDocument request t hdoes hcontent hhash hversion) rfl hwritten
  | ingestRagDocument documentId versionId chunkIds ingest contentHash plan =>
    obtain ⟨document, collection, version, chunks, hlive, hfind, hversion, -, rfl⟩ :=
      DocumentTables.ingestRagDocument_ok hrun
    have hcontent : ingest.content = some contentHash.text := hdoes.1
    simp only [Statement.bodies, hcontent, Option.toList_some, List.flatMap_cons, List.flatMap_nil,
      List.append_nil] at hwritten
    have hwrites := writes_ingestRagDocument request t hdoes hlive hfind hversion
    rw [hcontent] at hversion
    exact leaves_withVersion hdoes.2 hversion hwrites rfl hwritten
  | _ => cases hwritten

end Statements

/-! ## Steps -/

section Steps

variable {deployment : Deployment} {requests : Nat → Request} {w w' : World} {i : Nat}
  {a : st.Value}

/-- **A body after a statement** was there before, or the statement has written it. -/
theorem bodies_made (hids : (w.tables.memory.memories.map MemoryRow.id).Nodup)
    (hdoes : Does (requests i) (w.seen i) (.statement st)) (hstep : StatementStep deployment w w' i st a)
    {body : StoredBody} (hbody : w'.tables.HasBody body) :
    w.tables.HasBody body ∨ Writes (requests i) w.tables w.moment (w.seen i) st body := by
  cases st with
  | conversation s =>
    obtain ⟨tables, hrun, ht⟩ := Statement.run_conversation hstep.run
    rw [ht] at hbody
    exact bodies_conversation hdoes hrun hbody
  | memory s =>
    obtain ⟨tables, hrun, ht⟩ := Statement.run_memory hstep.run
    rw [ht] at hbody
    exact bodies_memory hids hdoes hrun hbody
  | document s =>
    obtain ⟨tables, hrun, ht⟩ := Statement.run_document hstep.run
    rw [ht] at hbody
    exact bodies_document hdoes hrun hbody
  | policy s =>
    obtain ⟨tables, -, ht⟩ := Statement.run_policy hstep.run
    rw [ht] at hbody
    left
    cases hbody with
    | message hrow => exact .message hrow
    | summary hrow => exact .summary hrow
    | memory hrow => exact .memory hrow
    | version hrow => exact .version hrow
    | chunk hrow => exact .chunk hrow

/-- **What a statement is to write** is there afterwards. -/
theorem leaves_made (hdoes : Does (requests i) (w.seen i) (.statement st))
    (hstep : StatementStep deployment w w' i st a) {written : BodyText} (hwritten : written ∈ st.bodies) :
    Leaves (requests i) w.tables w.moment (w.seen i) st w'.tables written := by
  cases st with
  | conversation s =>
    obtain ⟨tables, hrun, ht⟩ := Statement.run_conversation hstep.run
    rw [ht]
    exact leaves_conversation hdoes hrun hwritten
  | memory s =>
    obtain ⟨tables, hrun, ht⟩ := Statement.run_memory hstep.run
    rw [ht]
    exact leaves_memory hdoes hrun hwritten
  | document s =>
    obtain ⟨tables, hrun, ht⟩ := Statement.run_document hstep.run
    rw [ht]
    exact leaves_document hdoes hrun hwritten
  | policy s => cases hwritten

/-! ### What a call has read -/

theorem found_read (hstep : StatementStep deployment w w' i st a) {row : ConversationRow}
    (h : ((w.seen i).recordStatement st a).found = some row) :
    (w.seen i).found = some row ∨ row ∈ w'.tables.conversation.conversations := by
  cases st with
  | conversation s =>
    obtain ⟨tables, hrun, ht⟩ := Statement.run_conversation hstep.run
    rw [ht]
    cases s with
    | createConversation insert =>
      obtain rfl := Option.some.inj h
      obtain ⟨-, -, rfl⟩ := ConversationTables.createConversation_ok hrun
      exact .inr (List.mem_append_right _ List.mem_cons_self)
    | findConversationAuthorized id access =>
      obtain rfl := Option.some.inj h
      obtain ⟨row, hrow, hread⟩ := Fallible.bind_eq_ok.mp hrun
      cases hread
      obtain ⟨hlive, -⟩ := ConversationTables.findConversationAuthorized_ok hrow
      exact .inr (Rows.find_some (ConversationTables.liveConversation_ok hlive).1).1
    | _ => exact .inl h
  | memory s =>
    obtain ⟨written, looked, hseen⟩ := recordMemory_eq (w.seen i) s a
    exact .inl (by simpa [Seen.recordStatement, hseen] using h)
  | document s =>
    obtain ⟨place, target, collection, hseen⟩ := recordDocument_eq (w.seen i) s a
    exact .inl (by simpa [Seen.recordStatement, hseen] using h)
  | policy s =>
    obtain ⟨policy, memoryPolicy, retrieval, target, hseen⟩ := recordPolicy_eq (w.seen i) s a
    exact .inl (by simpa [Seen.recordStatement, hseen] using h)

theorem policy_read (hstep : StatementStep deployment w w' i st a) {applicationId : Uuid}
    {policy : ConversationPolicy}
    (h : ((w.seen i).recordStatement st a).policy = some (applicationId, policy)) :
    (w.seen i).policy = some (applicationId, policy) ∨
      policy = w.tables.policies.conversationPolicy applicationId := by
  cases st with
  | conversation s => cases s <;> exact .inl h
  | memory s =>
    obtain ⟨written, looked, hseen⟩ := recordMemory_eq (w.seen i) s a
    exact .inl (by simpa [Seen.recordStatement, hseen] using h)
  | document s =>
    obtain ⟨place, target, collection, hseen⟩ := recordDocument_eq (w.seen i) s a
    exact .inl (by simpa [Seen.recordStatement, hseen] using h)
  | policy s =>
    obtain ⟨tables, hrun, -⟩ := Statement.run_policy hstep.run
    cases s with
    | getConversationPolicy id =>
      cases hrun
      obtain ⟨rfl, rfl⟩ := Prod.mk.inj (Option.some.inj h)
      exact .inr rfl
    | _ => exact .inl h

/-- The persistence of the application whose collection it is. -/
def CollectionTarget.ReadFrom (target : CollectionTarget) (t : Tables) : Prop :=
  ∃ collection, Rows.find CollectionRow.id t.document.collections target.collectionId = some collection ∧
    target.persistence = t.policies.contentPersistence collection.applicationId

theorem target_read (hstep : StatementStep deployment w w' i st a) {target : CollectionTarget}
    (h : ((w.seen i).recordStatement st a).collection = some target) :
    (w.seen i).collection = some target ∨ target.ReadFrom w.tables := by
  cases st with
  | conversation s => cases s <;> exact .inl h
  | memory s =>
    obtain ⟨written, looked, hseen⟩ := recordMemory_eq (w.seen i) s a
    exact .inl (by simpa [Seen.recordStatement, hseen] using h)
  | document s =>
    obtain ⟨tables, hrun, -⟩ := Statement.run_document hstep.run
    cases s with
    | findCollectionTarget id =>
      obtain rfl := Option.some.inj h
      obtain ⟨found, hfound, hread⟩ := Fallible.bind_eq_ok.mp hrun
      cases hread
      obtain ⟨collection, hlive, hid, hpersistence⟩ := DocumentTables.findCollectionTarget_ok hfound
      have hfind := (DocumentTables.liveCollection_ok hlive).1
      rw [← (Rows.find_some hfind).2, ← hid] at hfind
      exact .inr ⟨collection, hfind, hpersistence⟩
    | _ => exact .inl h
  | policy s =>
    obtain ⟨policy, memoryPolicy, retrieval, target, hseen⟩ := recordPolicy_eq (w.seen i) s a
    exact .inl (by simpa [Seen.recordStatement, hseen] using h)

end Steps

/-! ## Runs -/

section Runs

variable (deployment : Deployment) (requests : Nat → Request)

/-- A body that was sealed, if at all, for its row, and measured as it is. -/
structure StoredBody.Sound (body : StoredBody) : Prop where
  holds : Holds body.columns body.identity body.form
  measured : body.measured = body.kind.measure body.persistence body.text

/-- Every body is as it was written. -/
structure Bodies (t : Tables) : Prop where
  ids : (t.memory.memories.map MemoryRow.id).Nodup
  sound : ∀ body, t.HasBody body → body.Sound

/-- What is said of a state, and of a step out of it. -/
structure StoredForm (s : (conversations deployment requests).State)
    (m : (conversations deployment requests).Move) (t : (conversations deployment requests).State) :
    Prop where
  one : ∀ body, s.world.tables.HasBody body → body.columns.plain = none ∨ body.columns.encrypted = none
  plain : ∀ body, s.world.tables.HasBody body → body.columns.plain.isSome = true →
    body.kind.admitsPlaintext body.persistence = true
  measured : ∀ body, s.world.tables.HasBody body →
    body.measured = body.kind.measure body.persistence body.text
  /-- The readers name the identity of a row by themselves. -/
  record : ∀ row ∈ s.world.tables.conversation.messages, ∃ record, row.record = .ok record ∧
    record.content = row.body.form.plaintext
  history : ∀ row ∈ s.world.tables.conversation.messages, ∃ message, row.history = .ok message ∧
    message.content = row.body.form.plaintext
  summary : ∀ row ∈ s.world.tables.conversation.summaries, ∃ summary, row.summary = .ok summary ∧
    summary.summaryText = row.body.form.plaintext
  memory : ∀ row ∈ s.world.tables.memory.memories, ∃ record, row.record = .ok record ∧
    record.content = row.body.form.plaintext
  memoryCandidate : ∀ found : MemoryMatch, found.row ∈ s.world.tables.memory.memories →
    ∃ candidate, found.candidate = .ok candidate ∧ candidate.content = found.row.body.form.plaintext
  chunkCandidate : ∀ found : ChunkMatch, found.chunk ∈ s.world.tables.document.chunks →
    ∃ candidate, found.candidate = .ok candidate ∧ candidate.text = some found.chunk.chunkHash.text
  /-- A body that is new is one that its statement was to write, under the policy that its writer
  reads. -/
  written : ∀ body, t.world.tables.HasBody body → s.world.tables.HasBody body ∨
    ∃ i st a, Made deployment requests s t i st a ∧ body.toBodyText ∈ st.bodies ∧
      st.readPersistence (requests i) s.world.tables (s.world.seen i) = some body.persistence
  /-- Every body that a statement was to write is there. -/
  left : ∀ i st a, Made deployment requests s t i st a → ∀ written ∈ st.bodies, ∃ body,
    t.world.tables.HasBody body ∧ body.toBodyText = written ∧
      st.readPersistence (requests i) s.world.tables (s.world.seen i) = some body.persistence
  /-- Nothing is written of a body that should be sealed and cannot be. -/
  unsealed : ∀ i st, Asks s m i st → st.bodies ≠ [] →
    st.readPersistence (requests i) s.world.tables (s.world.seen i) = some .encryptedContent →
    s.world.moment.sealing.isOk = false → t.world.tables = s.world.tables
  /-- What a call has read beforehand is what was there. -/
  found : ∀ i row, (t.world.seen i).found = some row →
    (s.world.seen i).found = some row ∨ row ∈ t.world.tables.conversation.conversations
  policy : ∀ i applicationId policy, (t.world.seen i).policy = some (applicationId, policy) →
    (s.world.seen i).policy = some (applicationId, policy) ∨
      policy = s.world.tables.policies.conversationPolicy applicationId
  target : ∀ i target, (t.world.seen i).collection = some target →
    (s.world.seen i).collection = some target ∨ target.ReadFrom s.world.tables

variable {deployment requests} {s t : (conversations deployment requests).State}
  {moves : List (conversations deployment requests).Move} {m : (conversations deployment requests).Move}

theorem preserved_bodies : Preserved deployment requests Always fun w => Bodies w.tables where
  statement {i w w' st a} hbodies _ hdoes hstep := by
    refine ⟨?_, fun body hbody => ?_⟩
    · cases st with
      | memory s =>
        obtain ⟨tables, hrun, ht⟩ := Statement.run_memory hstep.run
        rw [ht]
        exact MemoryTables.nodup_memories hbodies.ids hrun
      | conversation s | document s | policy s =>
        rw [Statement.memory_kept hstep.run (by simp)]
        exact hbodies.ids
    · rcases bodies_made hbodies.ids hdoes hstep hbody with hold | hwrites
      · exact hbodies.sound body hold
      · exact ⟨holds_of_columns hwrites.columns, hwrites.measured⟩
  idle hbodies hstep := by
    rw [hstep.tables]
    exact hbodies
  nature hbodies := hbodies

theorem bodies_initial : Bodies (conversationsInitial deployment requests).world.tables where
  ids := List.nodup_nil
  sound body hbody := by cases hbody <;> contradiction

theorem StoredBody.Sound.read {body : StoredBody} (h : body.Sound) {α : Type}
    (f : Option String → α) :
    (do let content ← body.columns.content body.identity; return f content : Except AppError α) =
      .ok (f body.form.plaintext) := by
  rw [h.holds.content]
  rfl

theorem StoredBody.Sound.sealed {body : StoredBody} {sealing : Except AppError Unit}
    (hcolumns : body.form.columns sealing body.identity = .ok body.columns)
    (hpersistence : body.persistence = .encryptedContent) : sealing.isOk = true := by
  have hform : body.form = .encrypt body.text := by
    unfold StoredBody.form
    rw [hpersistence]
    cases body.kind <;> rfl
  rw [hform] at hcolumns
  exact columns_of_encrypt hcolumns

/-- **The stored form**, in every run, and for each step of it. -/
theorem stored_form
    (hrun : runFrom (conversations deployment requests).step (conversationsInitial deployment requests) moves =
      some s)
    (hstep : (conversations deployment requests).step s m = some t) :
    StoredForm deployment requests s m t := by
  obtain ⟨hprotocol, hbodies⟩ := preserved_bodies.run_always onProtocol_initial bodies_initial hrun
  have hsound := hbodies.sound
  refine
    { one := fun body hbody => (hsound body hbody).holds.one
      plain := fun body hbody hplain => ?_
      measured := fun body hbody => (hsound body hbody).measured
      record := fun row hrow => ⟨_, (hsound _ (.message hrow)).read _, rfl⟩
      history := fun row hrow => ⟨_, (hsound _ (.message hrow)).read _, rfl⟩
      summary := fun row hrow => ⟨_, (hsound _ (.summary hrow)).read _, rfl⟩
      memory := fun row hrow => ⟨_, (hsound _ (.memory hrow)).read _, rfl⟩
      memoryCandidate := fun found hfound => ⟨_, (hsound _ (.memory hfound)).read _, rfl⟩
      chunkCandidate := fun found hfound =>
        ⟨_, (hsound _ (.chunk hfound)).read _, plaintext_underPolicyForRag _ _⟩
      written := fun body hbody => ?_
      left := fun i st a hmade written hwritten => ?_
      unsealed := fun i st hasks hbodies' hpersistence hsealing => ?_
      found := fun i row hfound => ?_
      policy := fun i applicationId policy hpolicy => ?_
      target := fun i target htarget => ?_ }
  · obtain ⟨text, hform⟩ := (hsound body hbody).holds.plain hplain
    exact BodyKind.admitsPlaintext_of_plain hform
  · rcases @step_made _ _ Always _ _ _ hprotocol hstep with hsame | ⟨i, st, a, hmade, -⟩
    · exact .inl (hsame ▸ hbody)
    · rcases bodies_made hbodies.ids hmade.does hmade.step hbody with hold | hwrites
      · exact .inl hold
      · exact .inr ⟨i, st, a, hmade, hwrites.written, hwrites.persistence⟩
  · obtain ⟨body, hbody, htext, hwrites⟩ := leaves_made hmade.does hmade.step hwritten
    exact ⟨body, hbody, htext, hwrites.persistence⟩
  · rcases hasks.made hprotocol hstep with hsame | ⟨a, hmade⟩
    · exact hsame
    · -- the first body of the statement would have been sealed
      obtain ⟨written, hwritten⟩ := List.exists_mem_of_ne_nil _ hbodies'
      obtain ⟨body, -, -, hwrites⟩ := leaves_made hmade.does hmade.step hwritten
      have hencrypted := Option.some.inj (hwrites.persistence.symm.trans hpersistence)
      have hsealed := StoredBody.Sound.sealed hwrites.columns hencrypted
      rw [hsealing] at hsealed
      cases hsealed
  · rcases step_seen hprotocol hstep i with hidle | ⟨st, a, hmade, hseen⟩
    · exact .inl (hidle.kept (f := Seen.found) rfl (fun _ => rfl) hfound)
    · rw [hseen] at hfound
      exact found_read hmade.step hfound
  · rcases step_seen hprotocol hstep i with hidle | ⟨st, a, hmade, hseen⟩
    · exact .inl (hidle.kept (f := Seen.policy) rfl (fun _ => rfl) hpolicy)
    · rw [hseen] at hpolicy
      exact policy_read hmade.step hpolicy
  · rcases step_seen hprotocol hstep i with hidle | ⟨st, a, hmade, hseen⟩
    · exact .inl (hidle.kept (f := Seen.collection) rfl (fun _ => rfl) htarget)
    · rw [hseen] at htarget
      exact target_read hmade.step htarget

end Runs

/-! ### Samples -/

open Sample in
/-- A document that is asked for keeps its text whatever the policy says of messages. -/
theorem stored_form_createRagDocument :
    ∃ (s : (system documentCalls).State) (m : (system documentCalls).Move) (t : (system documentCalls).State),
      s.world.tables.document.chunks.map (fun row => (row.persistence, row.columns.plain)) =
        [(.none, some "hello")] ∧
      StoredForm deployment (requestsOf documentCalls) s m t := by
  have hsummary : (lastStep {} documentCalls oneByOne 2).map (fun p =>
      p.1.world.tables.document.chunks.map fun row => (row.persistence, row.columns.plain)) =
        some [(.none, some "hello")] := by
    decide +kernel
  obtain ⟨⟨s, m, t⟩, hstep, hchunks⟩ := Option.map_eq_some_iff.mp hsummary
  obtain ⟨hrun, hmove⟩ := lastStep_some hstep
  exact ⟨s, m, t, hchunks, stored_form hrun hmove⟩

open Sample in
/-- A policy that keeps no body does not keep the text of a document out of its column. -/
theorem document_is_stored_under_no_body :
    ¬∀ (moves : List (system documentCalls).Move) (s : (system documentCalls).State),
      runFrom (system documentCalls).step (conversationsInitial deployment (requestsOf documentCalls)) moves =
        some s → ∀ body, s.world.tables.HasBody body → body.columns.plain.isSome = true →
          body.persistence ≠ .none ∧ body.persistence ≠ .metadataOnly := by
  intro hall
  have hsummary : (after {} documentCalls oneByOne).map (fun s =>
      s.world.tables.document.chunks.map fun row => (row.persistence, row.columns.plain)) =
        some [(.none, some "hello")] := by
    decide +kernel
  obtain ⟨s, hrun, hchunks⟩ := Option.map_eq_some_iff.mp hsummary
  obtain ⟨row, hrow, hbody⟩ := List.mem_map.mp (hchunks ▸ List.mem_singleton_self _)
  obtain ⟨hpersistence, hplain⟩ := Prod.mk.inj hbody
  refine (hall _ s hrun _ (.chunk hrow) ?_).1 hpersistence
  show row.columns.plain.isSome = true
  rw [hplain]
  rfl

end Moira.Conversations
