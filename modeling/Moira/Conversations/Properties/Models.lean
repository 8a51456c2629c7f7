import Moira.Conversations.Properties.Ledger
import Moira.Conversations.Properties.Vectors

/-!
# The models of vectors

- **`vectors_share_a_model`** — over the runs that meet `ModelKept`, a query is compared with
  vectors of its own model
-/

namespace Moira.Conversations

open Prog Transition

/-! ## Models -/

/-- The model that an application has configured. -/
def PolicyTables.modelOf (t : PolicyTables) (applicationId : Uuid) : Option Uuid :=
  (t.embedding applicationId).bind EmbeddingPolicy.embeddingModelId

/-- An application has vectors. -/
def Tables.hasVectors (t : Tables) (applicationId : Uuid) : Bool :=
  (t.memory.memoryEmbeddings.any fun embedding => t.memory.memories.any fun row =>
      row.id = embedding.memoryId && row.owner.applicationId = applicationId) ||
    t.document.chunkEmbeddings.any fun embedding => t.document.chunks.any fun chunk =>
      chunk.id = embedding.chunkId && t.document.collections.any fun collection =>
        collection.id = chunk.collectionId && collection.applicationId = applicationId

/-- The model that a call has read is the one that its application has. -/
def targetKept (seen : Seen) (policies : PolicyTables) : Bool :=
  seen.target.all fun target => policies.modelOf target.1 = some target.2

/--
The policy of an application with vectors names no other model, and a call stores and compares
vectors of the model that the policy still names. A comparison may be late where there is nothing to
compare with.
-/
def modelKept (i : Nat) (w : World) : ConversationOp → Bool
  | .statement (.policy (.putEmbeddingPolicy applicationId put)) =>
    put.embeddingModelId.all fun model =>
      w.tables.policies.modelOf applicationId = some model || !w.tables.hasVectors applicationId
  | .statement (.memory (.insertMemoryEmbedding _)) => targetKept (w.seen i) w.tables.policies
  | .statement (.document (.insertRagDocument _ _ _ _ plan))
  | .statement (.document (.ingestRagDocument _ _ _ _ _ plan)) =>
    (plan.chunks.all fun chunk => chunk.embedding.isNone) || targetKept (w.seen i) w.tables.policies
  | .statement (.memory (.findMemoryCandidates scope ..)) | .statement (.memory (.findNearestMemory scope _))
  | .statement (.document (.findRagChunkCandidates scope ..)) =>
    !w.tables.hasVectors scope.applicationId || targetKept (w.seen i) w.tables.policies
  | _ => true

/-- No policy names another model while its application has vectors. -/
abbrev ModelKept (i : Nat) (w : World) (o : ConversationOp) : Prop :=
  modelKept i w o = true

variable {seen : Seen}

theorem modelOf_of_targetKept {policies : PolicyTables} {applicationId model : Uuid}
    (h : targetKept seen policies = true) (htarget : seen.target = some (applicationId, model)) :
    policies.modelOf applicationId = some model := by
  unfold targetKept at h
  rw [htarget] at h
  simpa using h

/-- Every vector is of the model that its application has. -/
structure Models (t : Tables) : Prop where
  memories : ∀ embedding ∈ t.memory.memoryEmbeddings, ∃ row ∈ t.memory.memories,
      row.id = embedding.memoryId ∧
    t.policies.modelOf row.owner.applicationId = some embedding.embedding.model
  chunks : ∀ embedding ∈ t.document.chunkEmbeddings, ∃ chunk ∈ t.document.chunks,
      chunk.id = embedding.chunkId ∧
    ∃ collection ∈ t.document.collections, collection.id = chunk.collectionId ∧
      t.policies.modelOf collection.applicationId = some embedding.embedding.model

variable {w : World}

namespace Models

variable {t : Tables}

theorem hasVectors_memory (h : Models t) {embedding : MemoryEmbeddingRow}
    (hembedding : embedding ∈ t.memory.memoryEmbeddings) :
    ∃ row ∈ t.memory.memories, row.id = embedding.memoryId ∧ t.hasVectors row.owner.applicationId = true ∧
      t.policies.modelOf row.owner.applicationId = some embedding.embedding.model := by
  obtain ⟨row, hrow, hid, hmodel⟩ := h.memories embedding hembedding
  refine ⟨row, hrow, hid, ?_, hmodel⟩
  unfold Tables.hasVectors
  rw [Bool.or_eq_true]
  left
  simp only [List.any_eq_true, Bool.and_eq_true, decide_eq_true_eq]
  exact ⟨embedding, hembedding, row, hrow, hid, rfl⟩

theorem hasVectors_chunk (h : Models t) {embedding : ChunkEmbeddingRow}
    (hembedding : embedding ∈ t.document.chunkEmbeddings) :
    ∃ chunk ∈ t.document.chunks, chunk.id = embedding.chunkId ∧
      ∃ collection ∈ t.document.collections, collection.id = chunk.collectionId ∧
        t.hasVectors collection.applicationId = true ∧
        t.policies.modelOf collection.applicationId = some embedding.embedding.model := by
  obtain ⟨chunk, hchunk, hid, collection, hcollection, hcollectionId, hmodel⟩ :=
      h.chunks embedding hembedding
  refine ⟨chunk, hchunk, hid, collection, hcollection, hcollectionId, ?_, hmodel⟩
  unfold Tables.hasVectors
  rw [Bool.or_eq_true]
  right
  simp only [List.any_eq_true, Bool.and_eq_true, decide_eq_true_eq]
  exact ⟨embedding, hembedding, chunk, hchunk, hid, collection, hcollection, hcollectionId, rfl⟩

theorem policies (h : Models t) {policies : PolicyTables}
    (hkept : ∀ applicationId, t.hasVectors applicationId = true →
      policies.modelOf applicationId = t.policies.modelOf applicationId) : Models { t with policies } where
  memories embedding hembedding := by
    obtain ⟨row, hrow, hid, hvectors, hmodel⟩ := h.hasVectors_memory hembedding
    exact ⟨row, hrow, hid, (hkept _ hvectors).trans hmodel⟩
  chunks embedding hembedding := by
    obtain ⟨chunk, hchunk, hid, collection, hcollection, hcollectionId, hvectors, hmodel⟩ :=
      h.hasVectors_chunk hembedding
    exact ⟨chunk, hchunk, hid, collection, hcollection, hcollectionId, (hkept _ hvectors).trans hmodel⟩

theorem modelOf_putEmbeddingPolicy (t : PolicyTables) (applicationId applicationId' : Uuid)
    (put : EmbeddingPolicyPutRequest) :
    (t.putEmbeddingPolicy applicationId put).modelOf applicationId' =
      if applicationId' = applicationId then put.embeddingModelId <|> t.modelOf applicationId
      else t.modelOf applicationId' := by
  unfold PolicyTables.modelOf PolicyTables.putEmbeddingPolicy
  by_cases happlication : applicationId' = applicationId
  · subst happlication
    rw [if_pos rfl]
    simp only [Function.update_self]
    unfold PolicyTables.embeddingPolicy
    cases t.embedding applicationId' <;> rfl
  · rw [if_neg happlication]
    simp only [Function.update_of_ne happlication]

theorem run_policy (h : Models t) {i : Nat} {s : PolicyStatement} {tables : PolicyTables}
    {a : s.Value} (ht : w.tables = t) (hguard : ModelKept i w (.statement (.policy s)))
    (hrun : s.run t.policies = .ok (a, tables)) : Models { t with policies := tables } := by
  subst ht
  cases s with
  | putEmbeddingPolicy applicationId put =>
    obtain ⟨-, rfl⟩ := Prod.mk.inj (Except.ok.inj hrun)
    refine h.policies fun applicationId' hvectors => ?_
    rw [modelOf_putEmbeddingPolicy]
    split
    · next happlication =>
      subst happlication
      have hmet : (put.embeddingModelId.all fun model =>
        w.tables.policies.modelOf applicationId' = some model || !w.tables.hasVectors applicationId') = true := hguard
      cases hput : put.embeddingModelId with
      | none => rfl
      | some model =>
        rw [hput] at hmet
        simpa [hvectors, eq_comm] using hmet
    · rfl
  | putConversationPolicy _ _ | putMemoryPolicy _ _ | putRetrievalPolicy _ _ =>
    obtain ⟨-, rfl⟩ := Prod.mk.inj (Except.ok.inj hrun)
    exact h.policies fun _ _ => rfl
  | getConversationPolicy _ | getMemoryPolicy _ | getRetrievalPolicy _ | getEmbeddingPolicy _
  | findApplicationEmbeddingTarget _ =>
    obtain ⟨-, rfl⟩ := Prod.mk.inj (Except.ok.inj hrun)
    exact h

end Models

/-- The memory that a call has written is still there. -/
def SeenWritten (t : MemoryTables) (seen : Seen) : Prop :=
  ∀ memory, seen.written = some memory → ∃ row ∈ t.memories, row.id = memory.id ∧ row.owner = memory.owner

namespace Models

variable {t : Tables} {i : Nat} {request : Request}
  {distance : List Float8 → List Float8 → Float8}

theorem run_memory (h : Models t) (ht : w.tables = t) (hids : (t.memory.memories.map MemoryRow.id).Nodup)
    (hwritten : SeenWritten t.memory (w.seen i)) {s : MemoryStatement} {tables : MemoryTables} {a : s.Value}
    (hguard : ModelKept i w (.statement (.memory s))) (hdoes : DoesMemory request (w.seen i) s)
    (hrun : s.run distance w.moment t.memory = .ok (a, tables)) : Models { t with memory := tables } := by
  subst ht
  -- a memory keeps its owner
  have hkept : ∀ embedding ∈ w.tables.memory.memoryEmbeddings, ∃ row ∈ tables.memories,
      row.id = embedding.memoryId ∧
      w.tables.policies.modelOf row.owner.applicationId = some embedding.embedding.model := by
    intro embedding hembedding
    obtain ⟨row, hrow, hid, hmodel⟩ := h.memories embedding hembedding
    obtain ⟨row', hrow', hsame⟩ := MemoryTables.memory_kept hids hrun hrow
    exact ⟨row', hrow', hsame.id.trans hid, by rw [hsame.owner, hmodel]⟩
  refine ⟨fun embedding hembedding => ?_, h.chunks⟩
  rcases MemoryTables.embeddings_run hrun with hsame | ⟨new, rfl, hmemories, -, hembeddings⟩
  · exact hkept embedding (hsame ▸ hembedding)
  · have hembedding : embedding ∈ tables.memoryEmbeddings := hembedding
    rw [hembeddings] at hembedding
    rcases List.mem_append.mp hembedding with hold | hnew
    · exact hkept embedding (List.mem_of_mem_filter hold)
    · rw [List.mem_singleton.mp hnew]
      obtain ⟨-, memory, hseen, hid, htarget, -⟩ := hdoes
      obtain ⟨row, hrow, hrowId, howner⟩ := hwritten memory hseen
      refine ⟨row, hmemories ▸ hrow, hrowId.trans hid.symm, ?_⟩
      rw [howner]
      exact modelOf_of_targetKept hguard htarget

theorem chunks_withVersion {base : DocumentTables} (h : Models t) {moment : Moment}
    {persistence : ConversationContentPersistence} {ids : DocumentIds} {collectionId : Uuid}
    {versionNumber : Nat} {content : String} {contentHash : Digest} {plan : RagIngestionPlan}
    {row : VersionRow} {chunks : List ChunkRow} {place : IngestionPlace}
    (hcollections : base.collections = t.document.collections)
    (hchunks : base.chunks = t.document.chunks)
    (hembeddings : base.chunkEmbeddings = t.document.chunkEmbeddings)
    (hwritten : t.document.WrittenVersion moment persistence ids collectionId versionNumber content contentHash plan
      row chunks)
    (hplan : WellPlanned seen place plan)
    (hguard : ((plan.chunks.all fun chunk => chunk.embedding.isNone) || targetKept seen t.policies) = true)
    (hplace : ∀ applicationId, seen.place = some (place, applicationId) →
      ∃ collection ∈ t.document.collections, collection.id = collectionId ∧
          collection.applicationId = applicationId) :
    Models { t with document := base.withVersion ids contentHash plan row chunks } where
  memories := h.memories
  chunks embedding hembedding := by
    show ∃ chunk ∈ base.chunks ++ chunks, _ ∧ ∃ collection ∈ base.collections, _
    rw [hchunks, hcollections]
    have hembedding : embedding ∈ base.chunkEmbeddings ++ DocumentTables.embeddingRows ids plan := hembedding
    rw [hembeddings] at hembedding
    rcases List.mem_append.mp hembedding with hold | hnew
    · obtain ⟨chunk, hchunk, hid, hcollection⟩ := h.chunks embedding hold
      exact ⟨chunk, List.mem_append_left _ hchunk, hid, hcollection⟩
    · obtain ⟨pair, hpair, hnew⟩ := List.mem_filterMap.mp hnew
      obtain ⟨vector, hvector, rfl⟩ := Option.map_eq_some_iff.mp hnew
      obtain ⟨chunk, hchunk, hof⟩ := hwritten.chunkOf hpair
      have hprepared := List.fst_mem_of_mem_zipIdx hpair
      obtain ⟨-, -, applicationId, hseen, htarget⟩ := hplan.model pair.1 hprepared vector hvector
      obtain ⟨collection, hcollection, hcollectionId, happlication⟩ := hplace applicationId hseen
      refine ⟨chunk, List.mem_append_right _ hchunk, hof.id, collection, hcollection,
        hcollectionId.trans hof.collectionId.symm, ?_⟩
      rw [happlication]
      refine modelOf_of_targetKept ?_ htarget
      rw [Bool.or_eq_true] at hguard
      refine hguard.resolve_left fun hnone => ?_
      have hchunkNone := List.all_eq_true.mp hnone pair.1 hprepared
      rw [hvector] at hchunkNone
      cases hchunkNone

theorem run_document (h : Models t) (ht : w.tables = t) (hledger : t.document.Ledger)
    (hseen : SeenHomes t.document (w.seen i)) {s : DocumentStatement} {tables : DocumentTables} {a : s.Value}
    (hguard : ModelKept i w (.statement (.document s))) (hdoes : DoesDocument (w.seen i) s)
    (hrun : s.run distance t.policies w.moment t.document = .ok (a, tables)) :
    Models { t with document := tables } := by
  subst ht
  -- the collections keep their applications
  have hkept : tables.chunks = w.tables.document.chunks →
      tables.chunkEmbeddings = w.tables.document.chunkEmbeddings →
      Models { w.tables with document := tables } := by
    intro hchunks hembeddings
    refine ⟨h.memories, fun embedding hembedding => ?_⟩
    have hembedding : embedding ∈ tables.chunkEmbeddings := hembedding
    rw [hembeddings] at hembedding
    obtain ⟨chunk, hchunk, hid, collection, hcollection, hcollectionId, hmodel⟩ :=
        h.chunks embedding hembedding
    obtain ⟨collection', hcollection', hsame, happlication⟩ :=
      (DocumentTables.kept_run hrun).collection collection hcollection
    exact ⟨chunk, hchunks ▸ hchunk, hid, collection', hcollection', hsame.trans hcollectionId,
      by rw [happlication, hmodel]⟩
  cases s with
  | createRagCollection id request =>
    obtain ⟨-, -, -, -, rfl⟩ := DocumentTables.createRagCollection_ok hrun
    exact hkept rfl rfl
  | patchRagCollection id request =>
    obtain ⟨-, rfl⟩ := DocumentTables.patchRagCollection_ok hrun
    exact hkept rfl rfl
  | setRagCollectionStatus id status =>
    obtain ⟨-, rfl⟩ := DocumentTables.setRagCollectionStatus_ok hrun
    exact hkept rfl rfl
  | deleteRagDocument id =>
    obtain ⟨-, rfl⟩ := Prod.mk.inj (Except.ok.inj hrun)
    exact hkept rfl rfl
  | insertRagDocument target ids request contentHash plan =>
    obtain ⟨-, ⟨-, -, rfl⟩ | ⟨content, hash, version, chunks, -, -, hwritten, -, rfl⟩⟩ :=
      DocumentTables.insertRagDocument_ok hrun
    · exact hkept rfl rfl
    · exact h.chunks_withVersion rfl rfl rfl hwritten hdoes.2.2 hguard fun applicationId hplace =>
        hseen.place _ applicationId hplace
  | ingestRagDocument documentId versionId chunkIds request contentHash plan =>
    obtain ⟨document, collection, version, chunks, hlive, -, hwritten, -, rfl⟩ :=
      DocumentTables.ingestRagDocument_ok hrun
    refine h.chunks_withVersion rfl rfl rfl hwritten hdoes.2 hguard fun applicationId hplace => ?_
    obtain ⟨document', hdocument', hdocumentId, row, hrow, hid, happlication⟩ :=
        hseen.place _ applicationId hplace
    obtain ⟨hmem, hkey⟩ := Rows.find_some (DocumentTables.liveDocument_ok hlive).1
    obtain rfl := Rows.eq_of_key hledger.homes.documentIds hdocument' hmem (hdocumentId.trans hkey.symm)
    exact ⟨row, hrow, hid, happlication⟩
  | getRagCollection _ | findCollectionIngestionContext _ | findDocumentIngestionContext _
  | findCollectionTarget _ | getRagDocument _ | findRagChunkCandidates _ _ _ _ =>
    rw [DocumentStatement.tables_of_isRead rfl hrun]
    exact h

end Models

/-! ## Runs -/

section Runs

variable {deployment : Deployment} {requests : Nat → Request}

theorem preserved_seenWritten : Preserved deployment requests ModelKept fun w =>
    (Bodies w.tables ∧ (True ∧ ∀ j, SeenHomes w.tables.document (w.seen j)) ∧ w.tables.document.Ledger) ∧
      ∀ j, SeenWritten w.tables.memory (w.seen j) := by
  refine ((preserved_bodies.mono fun _ _ _ _ => trivial).and (preserved_ledger ModelKept)).with_calls
    (P := fun _ t seen => SeenWritten t.memory seen) ?_ ?_ ?_
  · intro i w w' s a j hI _ _ hstep hwritten memory hmemory
    obtain ⟨row, hrow, hid, howner⟩ := hwritten memory hmemory
    cases s with
    | memory s =>
      obtain ⟨tables, hrun, ht⟩ := Statement.run_memory hstep.run
      obtain ⟨row', hrow', hsame⟩ := MemoryTables.memory_kept hI.1.ids hrun hrow
      rw [ht]
      exact ⟨row', hrow', hsame.id.trans hid, hsame.owner.trans howner⟩
    | conversation s | document s | policy s =>
      rw [Statement.memory_kept hstep.run (by simp)]
      exact ⟨row, hrow, hid, howner⟩
  · intro i w w' s a _ _ _ hstep hwritten
    cases s with
    | memory s =>
      obtain ⟨tables, hrun, ht⟩ := Statement.run_memory hstep.run
      rw [ht] at hwritten ⊢
      cases s with
      | createMemory insert =>
        obtain ⟨-, -, rfl⟩ := MemoryTables.createMemory_ok hrun
        intro memory hmemory
        obtain rfl := Option.some.inj hmemory
        exact ⟨a, List.mem_append_right _ (List.mem_singleton_self _), rfl, rfl⟩
      | insertExtractedMemory insert =>
        obtain ⟨-, -, rfl⟩ := MemoryTables.insertExtractedMemory_ok hrun
        intro memory hmemory
        obtain rfl := Option.some.inj hmemory
        exact ⟨a, List.mem_append_right _ (List.mem_singleton_self _), rfl, rfl⟩
      | findMemoryByContentHash scope contentHash => cases a <;> exact hwritten
      | _ => exact hwritten
    | conversation s => cases s <;> exact hwritten
    | document s =>
      obtain ⟨place, target, collection, heq⟩ := recordDocument_eq (w.seen i) s a
      show SeenWritten _ ((w.seen i).recordDocument s a)
      rw [heq]
      exact hwritten
    | policy s => cases s <;> exact hwritten
  · intro j t seen seen' hwritten hidles
    cases hidles with
    | rest | asked => exact hwritten
    | answered => exact fun _ hmemory => (nomatch hmemory)

theorem preserved_models : Preserved deployment requests ModelKept fun w =>
    ((Bodies w.tables ∧ (True ∧ ∀ j, SeenHomes w.tables.document (w.seen j)) ∧ w.tables.document.Ledger) ∧
      ∀ j, SeenWritten w.tables.memory (w.seen j)) ∧ Models w.tables := by
  refine preserved_seenWritten.with_tables (J := Models) ?_
  rintro i w w' s a ⟨⟨hbodies, hseen, hledger⟩, hwritten⟩ hmodels hguard hdoes hstep
  cases s with
  | memory s =>
    obtain ⟨tables, hrun, ht⟩ := Statement.run_memory hstep.run
    rw [ht]
    exact hmodels.run_memory rfl hbodies.ids (hwritten i) hguard hdoes hrun
  | document s =>
    obtain ⟨tables, hrun, ht⟩ := Statement.run_document hstep.run
    rw [ht]
    exact hmodels.run_document rfl hledger (hseen.2 i) hguard hdoes hrun
  | policy s =>
    obtain ⟨tables, hrun, ht⟩ := Statement.run_policy hstep.run
    rw [ht]
    exact hmodels.run_policy rfl hguard hrun
  | conversation s =>
    obtain ⟨tables, -, ht⟩ := Statement.run_conversation hstep.run
    rw [ht]
    exact ⟨hmodels.memories, hmodels.chunks⟩

/-- A step that compares a vector compares it with vectors of its own model. -/
structure SameModel (s : (conversations deployment requests).State)
    (m : (conversations deployment requests).Move) :
    Prop where
  memories : ∀ i scope vector limit, Asks s m i (.memory (.findMemoryCandidates scope vector limit)) →
    ∀ p, ∀ pair ∈ s.world.tables.memory.joined scope p, pair.1.embedding.model = vector.model
  nearest : ∀ i scope vector, Asks s m i (.memory (.findNearestMemory scope vector)) →
    ∀ p, ∀ pair ∈ s.world.tables.memory.joined scope p, pair.1.embedding.model = vector.model
  chunks : ∀ i scope vector allowedCollectionIds limit,
    Asks s m i (.document (.findRagChunkCandidates scope vector allowedCollectionIds limit)) →
    ∀ pair ∈ s.world.tables.document.joined scope allowedCollectionIds, pair.1.embedding.model = vector.model

variable {vector : Embedding}

theorem model_of_query {applicationId model : Uuid}
    (hguard : (!w.tables.hasVectors applicationId || targetKept seen w.tables.policies) = true)
    (htarget : seen.target = some (applicationId, vector.model))
    (hvectors : w.tables.hasVectors applicationId = true)
    (hmodel : w.tables.policies.modelOf applicationId = some model) : model = vector.model := by
  rw [hvectors, Bool.not_true, Bool.false_or] at hguard
  rw [modelOf_of_targetKept hguard htarget] at hmodel
  exact (Option.some.inj hmodel).symm

theorem Models.memory_query (h : Models w.tables) {scope : RetrievalScope}
    (hids : (w.tables.memory.memories.map MemoryRow.id).Nodup)
    (hguard : (!w.tables.hasVectors scope.applicationId || targetKept seen w.tables.policies) = true)
    (htarget : seen.target = some (scope.applicationId, vector.model)) {p : MemoryRow → Bool}
    {pair : MemoryEmbeddingRow × MemoryRow} (hpair : pair ∈ w.tables.memory.joined scope p) :
    pair.1.embedding.model = vector.model := by
  obtain ⟨hembedding, hrow, hid, -, -, hsees⟩ := mem_joined hpair
  obtain ⟨row, hrow', hid', hvectors, hmodel⟩ := h.hasVectors_memory hembedding
  obtain rfl := Rows.eq_of_key hids hrow' hrow (hid'.trans hid.symm)
  have happlication : pair.2.owner.applicationId = scope.applicationId := by
    unfold RetrievalScope.sees at hsees
    rw [Bool.and_eq_true] at hsees
    exact of_decide_eq_true hsees.1
  rw [happlication] at hvectors hmodel
  exact model_of_query hguard htarget hvectors hmodel

theorem Models.chunk_query (h : Models w.tables) {scope : RetrievalScope}
    (hhomes : w.tables.document.Homes) {allowedCollectionIds : List Uuid}
    (hguard : (!w.tables.hasVectors scope.applicationId || targetKept seen w.tables.policies) = true)
    (htarget : seen.target = some (scope.applicationId, vector.model))
    {pair : ChunkEmbeddingRow × ChunkRow}
    (hpair : pair ∈ w.tables.document.joined scope allowedCollectionIds) :
    pair.1.embedding.model = vector.model := by
  obtain ⟨embedding, hembedding, hpair⟩ := List.mem_flatMap.mp hpair
  obtain ⟨chunk, hchunk, rfl⟩ := List.mem_map.mp hpair
  obtain ⟨hchunk, hsees⟩ := List.mem_filter.mp hchunk
  simp only [Bool.and_eq_true, decide_eq_true_eq, List.any_eq_true] at hsees
  obtain ⟨hid, collection, hcollection, hcollectionId, hsees⟩ := hsees
  obtain ⟨chunk', hchunk', hid', collection', hcollection', hcollectionId', hvectors, hmodel⟩ :=
    h.hasVectors_chunk hembedding
  obtain rfl := Rows.eq_of_key hhomes.chunkIds hchunk' hchunk (hid'.trans hid.symm)
  obtain rfl := Rows.eq_of_key hhomes.collectionIds hcollection' hcollection
    (hcollectionId'.trans hcollectionId.symm)
  have happlication : collection'.applicationId = scope.applicationId := by
    simp only [RetrievalScope.seesCollection, Bool.and_eq_true, decide_eq_true_eq] at hsees
    exact hsees.1.1.1.2
  rw [happlication] at hvectors hmodel
  exact model_of_query hguard htarget hvectors hmodel

variable {s : (conversations deployment requests).State} {moves : List (conversations deployment requests).Move}
  {m : (conversations deployment requests).Move}

/-- **A query and what it is compared with are of one model**, in every run that meets `ModelKept`.
-/
theorem vectors_share_a_model
    (hmeets : Meets (conversations deployment requests).step (System.Guarded ModelKept)
      (conversationsInitial deployment requests) moves)
    (hrun : runFrom (conversations deployment requests).step (conversationsInitial deployment requests) moves =
      some s)
    (hguard : System.Guarded ModelKept s m) : SameModel s m := by
  obtain ⟨hprotocol, ⟨⟨hbodies, -, hledger⟩, -⟩, hmodels⟩ := preserved_models.run onProtocol_initial
    ⟨⟨⟨bodies_initial, ⟨trivial, seenHomes_initial⟩, DocumentTables.Ledger.empty⟩,
      fun _ _ hmemory => (nomatch hmemory)⟩,
      ⟨fun _ hembedding => absurd hembedding List.not_mem_nil,
        fun _ hembedding => absurd hembedding List.not_mem_nil⟩⟩ hmeets hrun
  refine ⟨fun i scope vector limit hasks p pair hpair => ?_, fun i scope vector hasks p pair hpair => ?_,
    fun i scope vector allowedCollectionIds limit hasks pair hpair => ?_⟩
  · exact hmodels.memory_query hbodies.ids (hasks.meets hguard) (hasks.does hprotocol).1 hpair
  · exact hmodels.memory_query hbodies.ids (hasks.meets hguard) (hasks.does hprotocol) hpair
  · exact hmodels.chunk_query hledger.homes (hasks.meets hguard) (hasks.does hprotocol) hpair

end Runs

/-! ### Samples -/

namespace Sample

/-- A memory with a vector, and a turn that retrieves; the model may be another one before it. -/
def modelCalls : List Call :=
  [.putMemoryPolicy 1 { enabled := some true, manualMemoryEnabled := some true },
    .putEmbeddingPolicy 1
      { embeddingProviderId := some 7, embeddingModelId := some 8, memoryEmbeddingsEnabled := some true },
    .createMemory { content := "tea" },
    .putRetrievalPolicy 1 { enabled := some true, memoryRetrievalEnabled := some true },
    .putConversationPolicy 1 { memoryRetrievalEnabled := some true },
    .prepareResponse { create := true } [.inputText "tea"],
    .putEmbeddingPolicy 1 { embeddingModelId := some 9 }]

/-- The turn is about to compare its vector. -/
def retrieving (between : List Nat) : List Nat :=
  indexed ++ List.replicate 3 3 ++ List.replicate 3 4 ++ between ++ List.replicate 14 5

/-- The model of the query of the turn, and those of the vectors it is compared with. -/
def queryModels (s : (system modelCalls).State) : Option (Uuid × List Uuid) :=
  match s.proc 5 with
  | .op (.statement (.memory (.findMemoryCandidates scope vector _))) _ =>
    some (vector.model, (s.world.tables.memory.joined scope fun row => row.status = .active).map fun pair =>
      pair.1.embedding.model)
  | _ => none

theorem asks_of_queryModels {s : (system modelCalls).State} {own : Uuid} {others : List Uuid}
    (answer : (o : ConversationOp) → o.Ans) (h : queryModels s = some (own, others)) :
    ∃ scope vector limit, Asks s (.act 5 answer) 5
        (.memory (.findMemoryCandidates scope vector limit)) ∧ vector.model = own ∧
      ((s.world.tables.memory.joined scope fun row => row.status = .active).map fun pair =>
        pair.1.embedding.model) = others := by
  unfold queryModels at h
  split at h
  · next scope vector limit k hproc =>
    obtain ⟨rfl, rfl⟩ := Prod.mk.inj (Option.some.inj h)
    exact ⟨scope, vector, limit, ⟨answer, k, rfl, hproc⟩, rfl, rfl⟩
  · cases h

instance instDecidableModelKeptMove (calls : List Call) (s : (system calls).State)
    (m : (system calls).Move) :
    Decidable (System.Guarded (M := system calls) ModelKept s m) :=
  decidableGuarded calls modelKept s m

end Sample

open Sample in
theorem vectors_share_a_model_retrieving :
    ∃ (s : (system modelCalls).State) (m : (system modelCalls).Move),
      queryModels s = some (8, [8]) ∧
        SameModel s m := by
  have hsummary : (lastStep {} modelCalls (retrieving []) 5).map (fun p => queryModels p.1) = some (some (8, [8])) := by
    decide +kernel
  have hmeets : Meets (system modelCalls).step (System.Guarded ModelKept)
      (conversationsInitial deployment (requestsOf modelCalls)) (scheduled {} modelCalls (retrieving [])) := by
    decide +kernel
  have hlast : (lastStep {} modelCalls (retrieving []) 5).all
      (fun p => decide (System.Guarded (M := system modelCalls) ModelKept p.1 p.2.1)) = true := by
    decide +kernel
  obtain ⟨⟨s, m, t⟩, hstep, hmodels⟩ := Option.map_eq_some_iff.mp hsummary
  rw [hstep] at hlast
  exact ⟨s, m, hmodels, vectors_share_a_model hmeets (lastStep_some hstep).1 (of_decide_eq_true hlast)⟩

open Sample in
/-- A query in a new model is compared with vectors of the model before. -/
theorem query_is_compared_with_another_model :
    ¬∀ (moves : List (system modelCalls).Move) (s : (system modelCalls).State) (m : (system modelCalls).Move),
      runFrom (system modelCalls).step (conversationsInitial deployment (requestsOf modelCalls)) moves = some s →
        SameModel s m := by
  intro hall
  have hsummary : (after {} modelCalls (retrieving [6, 6, 6])).map queryModels = some (some (9, [8])) := by
    decide +kernel
  obtain ⟨s, hrun, hmodels⟩ := Option.map_eq_some_iff.mp hsummary
  obtain ⟨scope, vector, limit, hasks, hmodel, hcompared⟩ :=
    asks_of_queryModels (fun o => reply {} s.world o) hmodels
  obtain ⟨pair, hpair, hpairModel⟩ := List.mem_map.mp (hcompared ▸ List.mem_singleton_self 8)
  have hsame := (hall _ s _ hrun).memories 5 scope vector limit hasks _ pair hpair
  rw [hpairModel, hmodel] at hsame
  cases hsame

end Moira.Conversations
