import Moira.Conversations.Properties.Steps

/-!
# The versions of a document

- `withVersion` — a version with its artifacts keeps them
- **`version_ledger`** — over all runs
-/

namespace Moira.Conversations

open Prog Transition

variable {t : DocumentTables} {seen : Seen} {moment : Moment} {f : DocumentRow → DocumentRow}

variable {id : Uuid}

namespace DocumentTables

/-! ## Rows -/

/-- The embeddings of the chunks of a version. -/
def embeddingsOf (t : DocumentTables) (versionId : Uuid) : List ChunkEmbeddingRow :=
  t.chunkEmbeddings.filter fun row => (t.chunksOf versionId).any fun chunk => chunk.id = row.chunkId

/-- What a new version does to one of before. -/
def retired (now : Int) (documentId : Uuid) (row : VersionRow) : VersionRow :=
  if row.documentId = documentId ∧ row.supersededAt = none then
    { row with
      supersededAt := some now
      ingestionStatus := if row.ingestionStatus = .indexed then .superseded else row.ingestionStatus }
  else row

theorem mem_supersedeVersions {now : Int} {documentId : Uuid} {rows : List VersionRow} {row : VersionRow} :
    row ∈ supersedeVersions now documentId rows ↔ ∃ before ∈ rows, retired now documentId before = row :=
  List.mem_map

theorem map_supersedeVersions {α : Type} {column : VersionRow → α} {now : Int} {documentId : Uuid}
    (hcolumn : ∀ row, column (retired now documentId row) = column row) (rows : List VersionRow) :
    (supersedeVersions now documentId rows).map column = rows.map column := by
  show (rows.map (retired now documentId)).map column = _
  rw [List.map_map]
  exact List.map_congr_left fun row _ => hcolumn row

section Retired

variable (now : Int) (documentId : Uuid) (row : VersionRow)

theorem retired_id : (retired now documentId row).id = row.id := by
  unfold retired
  split <;> rfl

theorem retired_documentId : (retired now documentId row).documentId = row.documentId := by
  unfold retired
  split <;> rfl

theorem retired_versionNumber : (retired now documentId row).versionNumber = row.versionNumber := by
  unfold retired
  split <;> rfl

theorem retired_of_ne (h : row.documentId ≠ documentId) : retired now documentId row = row :=
  if_neg fun hand => h hand.1

theorem retired_of_eq (h : row.documentId = documentId) :
    (retired now documentId row).supersededAt.isSome = true := by
  unfold retired
  split
  · rfl
  · next hnone =>
    rw [Option.isSome_iff_ne_none]
    exact fun hsuperseded => hnone ⟨h, hsuperseded⟩

theorem indexed_of_retired (h : (retired now documentId row).ingestionStatus = .indexed) :
    row.ingestionStatus = .indexed := by
  unfold retired at h
  split at h
  · cases hstatus : row.ingestionStatus <;> simp [hstatus] at h
  · exact h

end Retired

/-! ## The assertions -/

/-- Every row belongs to rows that are there. -/
structure Homes (t : DocumentTables) : Prop where
  collectionIds : (t.collections.map CollectionRow.id).Nodup
  documentIds : (t.documents.map DocumentRow.id).Nodup
  versionIds : (t.versions.map VersionRow.id).Nodup
  chunkIds : (t.chunks.map ChunkRow.id).Nodup
  document : ∀ document ∈ t.documents, ∃ collection ∈ t.collections, collection.id = document.collectionId
  version : ∀ version ∈ t.versions, ∃ document ∈ t.documents, document.id = version.documentId
  chunk : ∀ chunk ∈ t.chunks, ∃ version ∈ t.versions, version.id = chunk.documentVersionId ∧
    ∀ document ∈ t.documents, document.id = version.documentId → document.collectionId = chunk.collectionId
  embedding : ∀ row ∈ t.chunkEmbeddings, ∃ chunk ∈ t.chunks, chunk.id = row.chunkId
  run : ∀ run ∈ t.ingestionRuns, ∃ version ∈ t.versions, version.id = run.documentVersionId

/-- A vector for each chunk of a version, in the order of the chunks. -/
def Covers (rows : List ChunkEmbeddingRow) (chunks : List ChunkRow) : Prop :=
  List.Forall₂ (fun row chunk => row.chunkId = chunk.id ∧
      row.embedding.text = chunk.chunkHash.text) rows chunks

structure Versions (t : DocumentTables) : Prop where
  numbered : ∀ id, Rows.Numbered VersionRow.versionNumber (t.versionsOf id)
  indexed : ∀ version ∈ t.versions, version.ingestionStatus = .indexed → t.chunksOf version.id ≠ [] ∧
    ∀ run ∈ t.ingestionRuns, run.documentVersionId = version.id → run.status ≠ .failed
  ordered : ∀ version ∈ t.versions,
    (t.chunksOf version.id).map ChunkRow.chunkIndex = List.range (t.chunksOf version.id).length
  covered : ∀ version ∈ t.versions,
    t.embeddingsOf version.id = [] ∨ Covers (t.embeddingsOf version.id) (t.chunksOf version.id)

/-- The version of a document that is not superseded is the one that it names. -/
structure Current (t : DocumentTables) (document : DocumentRow) : Prop where
  iff : ∀ version ∈ t.versions, version.documentId = document.id →
    (version.supersededAt = none ↔ document.currentVersionId = some version.id)
  exists_of_version : ∀ version ∈ t.versions, version.documentId = document.id →
    ∃ current ∈ t.versions, current.documentId = document.id ∧ current.supersededAt = none

structure Ledger (t : DocumentTables) : Prop where
  homes : t.Homes
  versions : t.Versions
  current : ∀ document ∈ t.documents, t.Current document

theorem Versions.of_same (h : t.Versions) (collections : List CollectionRow)
    (documents : List DocumentRow) : Versions { t with collections, documents } :=
  ⟨h.numbered, h.indexed, h.ordered, h.covered⟩

theorem Current.of_same {document : DocumentRow} (h : t.Current document)
    (collections : List CollectionRow) (documents : List DocumentRow) :
    Current { t with collections, documents } document :=
  ⟨h.iff, h.exists_of_version⟩

theorem Ledger.empty : Ledger {} where
  homes :=
    { collectionIds := List.nodup_nil
      documentIds := List.nodup_nil
      versionIds := List.nodup_nil
      chunkIds := List.nodup_nil
      document := fun _ hrow => absurd hrow List.not_mem_nil
      version := fun _ hrow => absurd hrow List.not_mem_nil
      chunk := fun _ hrow => absurd hrow List.not_mem_nil
      embedding := fun _ hrow => absurd hrow List.not_mem_nil
      run := fun _ hrow => absurd hrow List.not_mem_nil }
  versions :=
    { numbered := fun _ => Rows.numbered_nil
      indexed := fun _ hrow => absurd hrow List.not_mem_nil
      ordered := fun _ hrow => absurd hrow List.not_mem_nil
      covered := fun _ hrow => absurd hrow List.not_mem_nil }
  current _ hrow := absurd hrow List.not_mem_nil

/-! ## Rows that are updated -/

section Updates

theorem nodup_concat {α : Type} {key : α → Uuid} {rows : List α} {row : α} (h : (rows.map key).Nodup)
    (hnew : ∀ other ∈ rows, key other ≠ key row) : ((rows ++ [row]).map key).Nodup := by
  rw [List.map_append, List.map_singleton]
  refine List.Nodup.append h (List.nodup_singleton _) ?_
  rintro k hk hk'
  obtain ⟨other, hother, rfl⟩ := List.mem_map.mp hk
  exact hnew other hother (List.mem_singleton.mp hk')

theorem Homes.createRagCollection (h : t.Homes) {row : CollectionRow}
    (hnew : ∀ other ∈ t.collections, other.id ≠ row.id) :
    Homes { t with collections := t.collections ++ [row] } where
  collectionIds := nodup_concat h.collectionIds hnew
  documentIds := h.documentIds
  versionIds := h.versionIds
  chunkIds := h.chunkIds
  document document hdocument := by
    obtain ⟨collection, hcollection, hid⟩ := h.document document hdocument
    exact ⟨collection, List.mem_append_left _ hcollection, hid⟩
  version := h.version
  chunk := h.chunk
  embedding := h.embedding
  run := h.run

theorem Homes.modifyCollection (h : t.Homes) {f : CollectionRow → CollectionRow}
    (hid : ∀ row, (f row).id = row.id) :
    Homes { t with collections := Rows.modify CollectionRow.id t.collections id f } where
  collectionIds := by
    show ((Rows.modify _ _ _ _).map _).Nodup
    rw [Rows.map_modify hid]
    exact h.collectionIds
  documentIds := h.documentIds
  versionIds := h.versionIds
  chunkIds := h.chunkIds
  document document hdocument := by
    obtain ⟨collection, hcollection, howner⟩ := h.document document hdocument
    by_cases hkey : collection.id = id
    · exact ⟨f collection, Rows.mem_modify_of_eq hcollection hkey, (hid collection).trans howner⟩
    · exact ⟨collection, Rows.mem_modify_of_ne hcollection hkey, howner⟩
  version := h.version
  chunk := h.chunk
  embedding := h.embedding
  run := h.run

theorem Homes.modifyDocument (h : t.Homes) (hid : ∀ row, (f row).id = row.id)
    (hcollection : ∀ row, (f row).collectionId = row.collectionId) :
    Homes { t with documents := Rows.modify DocumentRow.id t.documents id f } where
  collectionIds := h.collectionIds
  documentIds := by
    show ((Rows.modify _ _ _ _).map _).Nodup
    rw [Rows.map_modify hid]
    exact h.documentIds
  versionIds := h.versionIds
  chunkIds := h.chunkIds
  document := Rows.forall_modify h.document fun row hrow _ => by
    obtain ⟨collection, hmem, howner⟩ := h.document row hrow
    exact ⟨collection, hmem, howner.trans (hcollection row).symm⟩
  version version hversion := by
    obtain ⟨document, hdocument, howner⟩ := h.version version hversion
    by_cases hkey : document.id = id
    · exact ⟨f document, Rows.mem_modify_of_eq hdocument hkey, (hid document).trans howner⟩
    · exact ⟨document, Rows.mem_modify_of_ne hdocument hkey, howner⟩
  chunk chunk hchunk := by
    obtain ⟨version, hversion, howner, hplace⟩ := h.chunk chunk hchunk
    refine ⟨version, hversion, howner, Rows.forall_modify hplace fun row hrow _ hdocument => ?_⟩
    rw [hcollection]
    exact hplace row hrow ((hid row).symm.trans hdocument)
  embedding := h.embedding
  run := h.run

theorem Homes.insertDocument (h : t.Homes) {row : DocumentRow}
    (hnew : ∀ other ∈ t.documents, other.id ≠ row.id)
    (hcollection : ∃ collection ∈ t.collections, collection.id = row.collectionId) :
    Homes { t with documents := t.documents ++ [row] } ∧
    ∀ version ∈ t.versions, version.documentId ≠ row.id := by
  have hnone : ∀ version ∈ t.versions, version.documentId ≠ row.id := by
    intro version hversion howner
    obtain ⟨document, hdocument, hid⟩ := h.version version hversion
    exact hnew document hdocument (hid.trans howner)
  refine ⟨⟨h.collectionIds, nodup_concat h.documentIds hnew, h.versionIds, h.chunkIds, fun document hmem => ?_,
    fun version hversion => ?_, fun chunk hchunk => ?_, h.embedding, h.run⟩, hnone⟩
  · rcases List.mem_append.mp hmem with hmem | hmem
    · exact h.document document hmem
    · rw [List.mem_singleton.mp hmem]
      exact hcollection
  · obtain ⟨document, hdocument, hid⟩ := h.version version hversion
    exact ⟨document, List.mem_append_left _ hdocument, hid⟩
  · obtain ⟨version, hversion, howner, hplace⟩ := h.chunk chunk hchunk
    refine ⟨version, hversion, howner, fun document hmem hid => ?_⟩
    rcases List.mem_append.mp hmem with hmem | hmem
    · exact hplace document hmem hid
    · rw [List.mem_singleton.mp hmem] at hid
      exact absurd hid.symm (hnone version hversion)

theorem Homes.supersede (h : t.Homes) (now : Int) (documentId : Uuid) :
    Homes { t with versions := supersedeVersions now documentId t.versions } where
  collectionIds := h.collectionIds
  documentIds := h.documentIds
  versionIds := by
    show ((supersedeVersions now documentId t.versions).map VersionRow.id).Nodup
    rw [map_supersedeVersions (retired_id now documentId)]
    exact h.versionIds
  chunkIds := h.chunkIds
  document := h.document
  version version hversion := by
    obtain ⟨before, hbefore, rfl⟩ := mem_supersedeVersions.mp hversion
    obtain ⟨document, hdocument, howner⟩ := h.version before hbefore
    exact ⟨document, hdocument, howner.trans (retired_documentId now documentId before).symm⟩
  chunk chunk hchunk := by
    obtain ⟨version, hversion, howner, hplace⟩ := h.chunk chunk hchunk
    refine ⟨_, List.mem_map_of_mem hversion, (retired_id now documentId version).trans howner, ?_⟩
    intro document hdocument hid
    exact hplace document hdocument (hid.trans (retired_documentId now documentId version))
  embedding := h.embedding
  run run hrun := by
    obtain ⟨version, hversion, howner⟩ := h.run run hrun
    exact ⟨_, List.mem_map_of_mem hversion, (retired_id now documentId version).trans howner⟩

theorem Versions.supersede (h : t.Versions) (now : Int) (documentId : Uuid) :
    Versions { t with versions := supersedeVersions now documentId t.versions } where
  numbered id := by
    have hversions : versionsOf { t with versions := supersedeVersions now documentId t.versions } id =
        supersedeVersions now documentId (t.versionsOf id) := by
      show (t.versions.map (retired now documentId)).filter _ = (t.versionsOf id).map (retired now documentId)
      rw [List.filter_map]
      congr 1
      refine List.filter_congr fun row _ => ?_
      rw [Function.comp, retired_documentId]
    rw [hversions]
    unfold Rows.Numbered
    rw [map_supersedeVersions (retired_versionNumber now documentId)]
    show _ = List.range' 1 ((t.versionsOf id).map (retired now documentId)).length
    rw [List.length_map]
    exact h.numbered id
  indexed version hversion hindexed := by
    obtain ⟨before, hbefore, rfl⟩ := mem_supersedeVersions.mp hversion
    rw [retired_id]
    exact h.indexed before hbefore (indexed_of_retired now documentId before hindexed)
  ordered version hversion := by
    obtain ⟨before, hbefore, rfl⟩ := mem_supersedeVersions.mp hversion
    rw [retired_id]
    exact h.ordered before hbefore
  covered version hversion := by
    obtain ⟨before, hbefore, rfl⟩ := mem_supersedeVersions.mp hversion
    rw [retired_id]
    exact h.covered before hbefore

end Updates

/-! ## A version more -/

section WithVersion

variable {place : IngestionPlace} {persistence : ConversationContentPersistence}
  {ids : DocumentIds} {collectionId : Uuid} {versionNumber : Nat} {content : String}
  {contentHash : Digest} {plan : RagIngestionPlan} {row : VersionRow} {chunks : List ChunkRow}

theorem covers_pieces (hplan : WellPlanned seen place plan)
    (hall : ∀ prepared ∈ plan.chunks, prepared.embedding.isSome = true) {pairs : List (PreparedChunk × Nat)}
    (hprepared : ∀ pair ∈ pairs, pair.1 ∈ plan.chunks)
    (hpieces : List.Forall₂ (fun pair chunk => ChunkOf moment persistence ids collectionId pair.1 pair.2 chunk)
      pairs chunks) :
    Covers (pairs.filterMap fun pair => pair.1.embedding.map fun embedding =>
      { chunkId := ids.chunk pair.2, embeddingModelId := plan.embeddingModelId, embedding }) chunks := by
  induction hpieces with
  | nil => exact .nil
  | @cons pair chunk pairs chunks hof _ ih =>
    have hmem := hprepared pair List.mem_cons_self
    obtain ⟨embedding, hembedding⟩ := Option.isSome_iff_exists.mp (hall pair.1 hmem)
    obtain ⟨-, htext, -⟩ := hplan.model pair.1 hmem embedding hembedding
    rw [List.filterMap_cons_some (by rw [hembedding]; rfl)]
    refine .cons ⟨hof.id.symm, ?_⟩ (ih fun pair hpair => hprepared pair (List.mem_cons_of_mem _ hpair))
    rw [hof.chunkHash, (hplan.chunks pair.1 hmem).1]
    exact htext

namespace WrittenVersion

variable (h : t.WrittenVersion moment persistence ids collectionId versionNumber content contentHash plan row chunks)

include h

theorem documentVersionId {chunk : ChunkRow} (hchunk : chunk ∈ chunks) :
    chunk.documentVersionId = ids.version := by
  obtain ⟨pair, -, hof⟩ := h.piece hchunk
  exact hof.documentVersionId

theorem chunk_fresh {chunk other : ChunkRow} (hchunk : chunk ∈ chunks) (hother : other ∈ t.chunks) :
    other.id ≠ chunk.id := by
  have hfit := h.fit
  simp only [chunksFit, Bool.and_eq_true, List.all_eq_true, decide_eq_true_eq] at hfit
  exact hfit.2 chunk hchunk other hother

theorem chunk_nodup : (chunks.map ChunkRow.id).Nodup := by
  have hfit := h.fit
  simp only [chunksFit, Bool.and_eq_true, decide_eq_true_eq] at hfit
  exact hfit.1.1

theorem length_chunks : chunks.length = plan.chunks.length := by
  rw [← h.pieces.length_eq, List.length_zipIdx]

theorem map_chunkIndex : chunks.map ChunkRow.chunkIndex = plan.chunks.map PreparedChunk.chunkIndex := by
  have hpieces : List.Forall₂ (· = ·) (plan.chunks.zipIdx.map fun pair => pair.1.chunkIndex)
      (chunks.map ChunkRow.chunkIndex) :=
    List.forall₂_map_left_iff.mpr (List.forall₂_map_right_iff.mpr
      (h.pieces.imp fun _ _ hof => hof.chunkIndex.symm))
  rw [List.forall₂_eq_eq_eq] at hpieces
  have hprepared : (plan.chunks.zipIdx.map Prod.fst).map PreparedChunk.chunkIndex =
      plan.chunks.map PreparedChunk.chunkIndex := by
    rw [List.zipIdx_map_fst]
  rw [← hpieces, ← hprepared, List.map_map]
  rfl

theorem chunk_of_embedding {e : ChunkEmbeddingRow} (he : e ∈ embeddingRows ids plan) :
    ∃ chunk ∈ chunks, chunk.id = e.chunkId := by
  obtain ⟨pair, hpair, he⟩ := List.mem_filterMap.mp he
  obtain ⟨embedding, -, rfl⟩ := Option.map_eq_some_iff.mp he
  obtain ⟨chunk, hchunk, hof⟩ := h.chunkOf hpair
  exact ⟨chunk, hchunk, hof.id⟩

theorem covers (hplan : WellPlanned seen place plan) :
    embeddingRows ids plan = [] ∨ Covers (embeddingRows ids plan) chunks := by
  rcases hplan.whole with hall | hnone
  · right
    have hprepared : ∀ pair ∈ plan.chunks.zipIdx, pair.1 ∈ plan.chunks := fun pair hpair =>
      List.fst_mem_of_mem_zipIdx hpair
    exact covers_pieces hplan hall hprepared h.pieces
  · left
    refine List.filterMap_eq_nil_iff.mpr fun ⟨prepared, position⟩ hpair => ?_
    show prepared.embedding.map _ = none
    rw [hnone prepared (List.fst_mem_of_mem_zipIdx hpair)]
    rfl

end WrittenVersion

/-! ### The parts of a document -/

theorem versionsOf_withVersion (hdocumentId : row.documentId = ids.document) (id : Uuid) :
    (t.withVersion ids contentHash plan row chunks).versionsOf id =
      if id = ids.document then t.versionsOf id ++ [row] else t.versionsOf id := by
  show (t.versions ++ [row]).filter _ = _
  rw [List.filter_append]
  split
  · next hid =>
    rw [List.filter_cons_of_pos (by simp [hdocumentId, hid]), List.filter_nil]
    rfl
  · next hid =>
    rw [List.filter_cons_of_neg (by simp [hdocumentId, Ne.symm hid]), List.filter_nil, List.append_nil]
    rfl

theorem chunksOf_withVersion_of_ne
    (h : t.WrittenVersion moment persistence ids collectionId versionNumber content contentHash plan row chunks)
    {versionId : Uuid} (hne : versionId ≠ ids.version) :
    (t.withVersion ids contentHash plan row chunks).chunksOf versionId = t.chunksOf versionId := by
  have hnew : chunks.filter (fun chunk => decide (chunk.documentVersionId = versionId)) = [] := by
    refine List.filter_eq_nil_iff.mpr fun chunk hchunk => ?_
    rw [h.documentVersionId hchunk]
    simpa using Ne.symm hne
  show (t.chunks ++ chunks).filter _ = t.chunks.filter _
  rw [List.filter_append, hnew, List.append_nil]

theorem chunksOf_withVersion_self (hhomes : t.Homes)
    (h : t.WrittenVersion moment persistence ids collectionId versionNumber content contentHash plan row chunks) :
    (t.withVersion ids contentHash plan row chunks).chunksOf ids.version = chunks := by
  have hold : t.chunks.filter (fun chunk => decide (chunk.documentVersionId = ids.version)) = [] := by
    refine List.filter_eq_nil_iff.mpr fun chunk hchunk => ?_
    obtain ⟨version, hversion, howner, -⟩ := hhomes.chunk chunk hchunk
    rw [← howner]
    simpa using h.fresh version hversion
  have hnew : chunks.filter (fun chunk => decide (chunk.documentVersionId = ids.version)) = chunks := by
    refine List.filter_eq_self.mpr fun chunk hchunk => ?_
    rw [h.documentVersionId hchunk]
    exact decide_eq_true rfl
  show (t.chunks ++ chunks).filter _ = chunks
  rw [List.filter_append, hold, hnew, List.nil_append]

theorem embeddingsOf_withVersion_of_ne
    (h : t.WrittenVersion moment persistence ids collectionId versionNumber content contentHash plan row chunks)
    {versionId : Uuid} (hne : versionId ≠ ids.version) :
    (t.withVersion ids contentHash plan row chunks).embeddingsOf versionId = t.embeddingsOf versionId := by
  have hnew : (embeddingRows ids plan).filter
      (fun e => (t.chunksOf versionId).any fun chunk => decide (chunk.id = e.chunkId)) = [] := by
    refine List.filter_eq_nil_iff.mpr fun e he => ?_
    obtain ⟨chunk, hchunk, hid⟩ := h.chunk_of_embedding he
    simp only [List.any_eq_true, decide_eq_true_eq, not_exists, not_and]
    rw [← hid]
    exact fun other hother => h.chunk_fresh hchunk (List.mem_of_mem_filter hother)
  unfold embeddingsOf
  rw [chunksOf_withVersion_of_ne h hne]
  show (t.chunkEmbeddings ++ embeddingRows ids plan).filter _ = _
  rw [List.filter_append, hnew, List.append_nil]

theorem embeddingsOf_withVersion_self (hhomes : t.Homes)
    (h : t.WrittenVersion moment persistence ids collectionId versionNumber content contentHash plan row chunks) :
    (t.withVersion ids contentHash plan row chunks).embeddingsOf ids.version = embeddingRows ids plan := by
  -- an old vector belongs to an old chunk
  have hold : t.chunkEmbeddings.filter (fun e => chunks.any fun chunk => decide (chunk.id = e.chunkId)) = [] := by
    refine List.filter_eq_nil_iff.mpr fun e he => ?_
    obtain ⟨chunk, hchunk, hid⟩ := hhomes.embedding e he
    simp only [List.any_eq_true, decide_eq_true_eq, not_exists, not_and]
    rw [← hid]
    exact fun other hother => (h.chunk_fresh hother hchunk).symm
  have hnew : (embeddingRows ids plan).filter (fun e => chunks.any fun chunk => decide (chunk.id = e.chunkId)) =
      embeddingRows ids plan := by
    refine List.filter_eq_self.mpr fun e he => ?_
    simpa using h.chunk_of_embedding he
  unfold embeddingsOf
  rw [chunksOf_withVersion_self hhomes h]
  show (t.chunkEmbeddings ++ embeddingRows ids plan).filter _ = _
  rw [List.filter_append, hold, hnew, List.nil_append]

/-! ### The ledger -/

theorem Homes.withVersion (hhomes : t.Homes)
    (h : t.WrittenVersion moment persistence ids collectionId versionNumber content contentHash plan row chunks)
    {document : DocumentRow} (hdocument : document ∈ t.documents) (hid : document.id = ids.document)
    (hcollection : document.collectionId = collectionId) :
    (t.withVersion ids contentHash plan row chunks).Homes := by
  have hmodified : Homes { t with
      documents := Rows.modify DocumentRow.id t.documents ids.document fun document =>
        { document with currentVersionId := some ids.version } } :=
    hhomes.modifyDocument (fun _ => rfl) fun _ => rfl
  refine
    { collectionIds := hhomes.collectionIds
      documentIds := hmodified.documentIds
      versionIds := nodup_concat hhomes.versionIds fun other hother => ?_
      chunkIds := ?_
      document := hmodified.document
      version := fun version hversion => ?_
      chunk := fun chunk hchunk => ?_
      embedding := fun e he => ?_
      run := fun run hrun => ?_ }
  · rw [h.id]
    exact h.fresh other hother
  · show ((t.chunks ++ chunks).map ChunkRow.id).Nodup
    rw [List.map_append]
    refine List.Nodup.append hhomes.chunkIds h.chunk_nodup fun id hold hnew => ?_
    obtain ⟨other, hother, rfl⟩ := List.mem_map.mp hold
    obtain ⟨chunk, hchunk, hsame⟩ := List.mem_map.mp hnew
    exact h.chunk_fresh hchunk hother hsame.symm
  · rcases List.mem_append.mp hversion with hversion | hversion
    · exact hmodified.version version hversion
    · rw [List.mem_singleton.mp hversion, h.documentId]
      exact ⟨_, Rows.mem_modify_of_eq hdocument hid, hid⟩
  · rcases List.mem_append.mp hchunk with hchunk | hchunk
    · obtain ⟨version, hversion, howner, hplace⟩ := hmodified.chunk chunk hchunk
      exact ⟨version, List.mem_append_left _ hversion, howner, hplace⟩
    · obtain ⟨pair, -, hof⟩ := h.piece hchunk
      refine ⟨row, List.mem_append_right _ (List.mem_singleton_self row), h.id.trans hof.documentVersionId.symm, ?_⟩
      intro other hother hsame
      rw [h.documentId, ← hid] at hsame
      obtain ⟨before, hbefore, rfl⟩ := Rows.mem_modify.mp hother
      have hkey : before.id = document.id := by
        rw [← hsame]
        split <;> rfl
      rw [Rows.eq_of_key hhomes.documentIds hbefore hdocument hkey, hof.collectionId, ← hcollection]
      split <;> rfl
  · rcases List.mem_append.mp he with he | he
    · obtain ⟨chunk, hchunk, hid⟩ := hhomes.embedding e he
      exact ⟨chunk, List.mem_append_left _ hchunk, hid⟩
    · obtain ⟨chunk, hchunk, hid⟩ := h.chunk_of_embedding he
      exact ⟨chunk, List.mem_append_right _ hchunk, hid⟩
  · rcases List.mem_append.mp hrun with hrun | hrun
    · obtain ⟨version, hversion, howner⟩ := hhomes.run run hrun
      exact ⟨version, List.mem_append_left _ hversion, howner⟩
    · rw [List.mem_singleton.mp hrun]
      exact ⟨row, List.mem_append_right _ (List.mem_singleton_self row), h.id⟩

theorem indexed_plan (hindexed : plan.terminalStatus = .indexed) :
    plan.chunks ≠ [] ∧ plan.runStatus ≠ .failed := by
  constructor
  · intro hnone
    unfold RagIngestionPlan.terminalStatus at hindexed
    rw [hnone] at hindexed
    split at hindexed <;> cases hindexed
  · unfold RagIngestionPlan.runStatus
    rw [hindexed]
    exact fun hfailed => (nomatch hfailed)

theorem Versions.withVersion (hhomes : t.Homes) (hversions : t.Versions)
    (h : t.WrittenVersion moment persistence ids collectionId versionNumber content contentHash plan row chunks)
    (hplan : WellPlanned seen place plan)
    (hnumber : versionNumber = Rows.nextNumber VersionRow.versionNumber (t.versionsOf ids.document)) :
    (t.withVersion ids contentHash plan row chunks).Versions := by
  -- a version is one of before, with the same parts, or the new one
  have hcases : ∀ version ∈ (t.withVersion ids contentHash plan row chunks).versions,
      (version ∈ t.versions ∧ version.id ≠ ids.version) ∨ version = row := by
    intro version hversion
    rcases List.mem_append.mp hversion with hversion | hversion
    · exact .inl ⟨hversion, h.fresh version hversion⟩
    · exact .inr (List.mem_singleton.mp hversion)
  refine ⟨fun id => ?_, fun version hversion hindexed => ?_, fun version hversion => ?_, fun version hversion => ?_⟩
  · rw [versionsOf_withVersion h.documentId]
    split
    · next hid =>
      subst hid
      refine Rows.numbered_concat (hversions.numbered _) ?_
      rw [h.versionNumber, hnumber]
    · exact hversions.numbered id
  · rcases hcases version hversion with ⟨hold, hne⟩ | rfl
    · rw [chunksOf_withVersion_of_ne h hne]
      obtain ⟨hchunks, hruns⟩ := hversions.indexed version hold hindexed
      refine ⟨hchunks, fun run hrun howner => ?_⟩
      rcases List.mem_append.mp hrun with hrun | hrun
      · exact hruns run hrun howner
      · rw [List.mem_singleton.mp hrun] at howner
        exact absurd howner.symm hne
    · rw [h.ingestionStatus] at hindexed
      obtain ⟨hchunks, hstatus⟩ := indexed_plan hindexed
      rw [h.id, chunksOf_withVersion_self hhomes h]
      refine ⟨fun hnone => hchunks ?_, fun run hrun howner => ?_⟩
      · rw [← List.length_eq_zero_iff, ← h.length_chunks, hnone, List.length_nil]
      · rcases List.mem_append.mp hrun with hrun | hrun
        · obtain ⟨version, hversion, hid⟩ := hhomes.run run hrun
          exact absurd (hid.trans howner) (h.fresh version hversion)
        · rw [List.mem_singleton.mp hrun]
          exact hstatus
  · rcases hcases version hversion with ⟨hold, hne⟩ | rfl
    · rw [chunksOf_withVersion_of_ne h hne]
      exact hversions.ordered version hold
    · rw [h.id, chunksOf_withVersion_self hhomes h, h.map_chunkIndex, h.length_chunks]
      exact hplan.indices
  · rcases hcases version hversion with ⟨hold, hne⟩ | rfl
    · rw [chunksOf_withVersion_of_ne h hne, embeddingsOf_withVersion_of_ne h hne]
      exact hversions.covered version hold
    · rw [h.id, chunksOf_withVersion_self hhomes h, embeddingsOf_withVersion_self hhomes h]
      exact h.covers hplan

theorem current_withVersion
    (h : t.WrittenVersion moment persistence ids collectionId versionNumber content contentHash plan row chunks)
    (hcurrent : ∀ document ∈ t.documents, document.id ≠ ids.document → t.Current document)
    (hclosed : ∀ version ∈ t.versions, version.documentId = ids.document → version.supersededAt ≠ none) :
    ∀ document ∈ (t.withVersion ids contentHash plan row chunks).documents,
      (t.withVersion ids contentHash plan row chunks).Current document := by
  intro document hdocument
  obtain ⟨before, hbefore, rfl⟩ := Rows.mem_modify.mp hdocument
  by_cases hkey : before.id = ids.document
  · rw [if_pos hkey]
    refine ⟨fun version hversion howner => ?_, fun _ _ _ => ⟨row, List.mem_append_right _ (List.mem_singleton_self row),
      h.documentId.trans hkey.symm, h.supersededAt⟩⟩
    rcases List.mem_append.mp hversion with hversion | hversion
    · have hne := h.fresh version hversion
      have hsuperseded := hclosed version hversion (howner.trans hkey)
      simp [hsuperseded, Ne.symm hne]
    · rw [List.mem_singleton.mp hversion]
      simp [h.supersededAt, h.id]
  · rw [if_neg hkey]
    have hold := hcurrent before hbefore hkey
    refine ⟨fun version hversion howner => ?_, fun version hversion howner => ?_⟩
    · rcases List.mem_append.mp hversion with hversion | hversion
      · exact hold.iff version hversion howner
      · rw [List.mem_singleton.mp hversion, h.documentId] at howner
        exact absurd howner.symm hkey
    · rcases List.mem_append.mp hversion with hversion | hversion
      · obtain ⟨current, hcurrent, howner, hlive⟩ := hold.exists_of_version version hversion howner
        exact ⟨current, List.mem_append_left _ hcurrent, howner, hlive⟩
      · rw [List.mem_singleton.mp hversion, h.documentId] at howner
        exact absurd howner.symm hkey

end WithVersion

end DocumentTables

/-! ## Statements -/

variable {t' : DocumentTables} {distance : List Float8 → List Float8 → Float8}
  {policies : PolicyTables}

namespace DocumentTables

/-- No collection and no document goes away, or moves. -/
structure Kept (t t' : DocumentTables) : Prop where
  collection : ∀ collection ∈ t.collections, ∃ collection' ∈ t'.collections,
    collection'.id = collection.id ∧ collection'.applicationId = collection.applicationId
  document : ∀ document ∈ t.documents, ∃ document' ∈ t'.documents,
    document'.id = document.id ∧ document'.collectionId = document.collectionId

section Kept

theorem Kept.refl (t : DocumentTables) : Kept t t :=
  ⟨fun collection hcollection => ⟨collection, hcollection, rfl, rfl⟩,
    fun document hdocument => ⟨document, hdocument, rfl, rfl⟩⟩

theorem kept_modifyCollection {f : CollectionRow → CollectionRow}
    (hf : ∀ row, (f row).id = row.id ∧ (f row).applicationId = row.applicationId) :
    Kept t { t with collections := Rows.modify CollectionRow.id t.collections id f } where
  collection collection hcollection := by
    by_cases hkey : collection.id = id
    · exact ⟨f collection, Rows.mem_modify_of_eq hcollection hkey, hf collection⟩
    · exact ⟨collection, Rows.mem_modify_of_ne hcollection hkey, rfl, rfl⟩
  document document hdocument := ⟨document, hdocument, rfl, rfl⟩

theorem kept_modifyDocument {documents : List DocumentRow}
    (hsub : ∀ document ∈ t.documents, document ∈ documents)
    (hf : ∀ row, (f row).id = row.id ∧ (f row).collectionId = row.collectionId)
    (hcollections : t'.collections = t.collections)
    (hdocuments : t'.documents = Rows.modify DocumentRow.id documents id f) :
    Kept t t' where
  collection collection hcollection := by
    rw [hcollections]
    exact ⟨collection, hcollection, rfl, rfl⟩
  document document hdocument := by
    rw [hdocuments]
    by_cases hkey : document.id = id
    · exact ⟨f document, Rows.mem_modify_of_eq (hsub document hdocument) hkey, hf document⟩
    · exact ⟨document, Rows.mem_modify_of_ne (hsub document hdocument) hkey, rfl, rfl⟩

/-- No statement takes a collection or a document away. -/
theorem kept_run {s : DocumentStatement} {a : s.Value}
    (h : s.run distance policies moment t = .ok (a, t')) : Kept t t' := by
  cases s with
  | createRagCollection id request =>
    obtain ⟨-, -, -, -, rfl⟩ := createRagCollection_ok h
    exact ⟨fun collection hcollection => ⟨collection, List.mem_append_left _ hcollection, rfl, rfl⟩,
      fun document hdocument => ⟨document, hdocument, rfl, rfl⟩⟩
  | patchRagCollection id request =>
    obtain ⟨-, rfl⟩ := patchRagCollection_ok h
    exact kept_modifyCollection fun _ => ⟨rfl, rfl⟩
  | setRagCollectionStatus id status =>
    obtain ⟨-, rfl⟩ := setRagCollectionStatus_ok h
    exact kept_modifyCollection fun _ => ⟨rfl, rfl⟩
  | insertRagDocument target ids request contentHash plan =>
    obtain ⟨-, ⟨-, -, rfl⟩ | ⟨content, hash, version, chunks, -, -, -, -, rfl⟩⟩ := insertRagDocument_ok h
    · exact ⟨fun collection hcollection => ⟨collection, hcollection, rfl, rfl⟩,
        fun document hdocument => ⟨document, List.mem_append_left _ hdocument, rfl, rfl⟩⟩
    · exact kept_modifyDocument (f := fun document => { document with currentVersionId := some ids.version })
        (fun _ hdocument => List.mem_append_left _ hdocument) (fun _ => ⟨rfl, rfl⟩) rfl rfl
  | ingestRagDocument documentId versionId chunkIds request contentHash plan =>
    obtain ⟨document, collection, version, chunks, -, -, -, -, rfl⟩ := ingestRagDocument_ok h
    exact kept_modifyDocument (f := fun document => { document with currentVersionId := some versionId })
      (fun _ hdocument => hdocument) (fun _ => ⟨rfl, rfl⟩) rfl rfl
  | deleteRagDocument id =>
    obtain ⟨-, rfl⟩ := Prod.mk.inj (Except.ok.inj h)
    exact kept_modifyDocument
      (f := fun row => { row with status := .deleted, deletedAt := row.deletedAt <|> some moment.now })
      (fun _ hdocument => hdocument) (fun _ => ⟨rfl, rfl⟩) rfl rfl
  | getRagCollection _ | findCollectionIngestionContext _ | findDocumentIngestionContext _
  | findCollectionTarget _ | getRagDocument _ | findRagChunkCandidates _ _ _ _ =>
    rw [DocumentStatement.tables_of_isRead rfl h]
    exact .refl t

end Kept

theorem Ledger.modifyDocument (h : t.Ledger) (hid : ∀ row, (f row).id = row.id)
    (hcollection : ∀ row, (f row).collectionId = row.collectionId)
    (hcurrent : ∀ row, (f row).currentVersionId = row.currentVersionId) :
    Ledger { t with documents := Rows.modify DocumentRow.id t.documents id f } where
  homes := h.homes.modifyDocument hid hcollection
  versions := h.versions.of_same _ _
  current := Rows.forall_modify (fun row hrow => (h.current row hrow).of_same _ _) fun row hrow _ => by
    refine ⟨fun version hversion howner => ?_, fun version hversion howner => ?_⟩
    · rw [hcurrent]
      exact (h.current row hrow).iff version hversion (howner.trans (hid row))
    · rw [hid]
      exact (h.current row hrow).exists_of_version version hversion (howner.trans (hid row))

theorem Ledger.insertDocument (h : t.Ledger) {row : DocumentRow}
    (hnew : ∀ other ∈ t.documents, other.id ≠ row.id)
    (hcollection : ∃ collection ∈ t.collections, collection.id = row.collectionId) :
    Ledger { t with documents := t.documents ++ [row] } := by
  obtain ⟨hhomes, hnone⟩ := h.homes.insertDocument hnew hcollection
  refine ⟨hhomes, h.versions.of_same _ _, fun document hmem => ?_⟩
  rcases List.mem_append.mp hmem with hmem | hmem
  · exact (h.current document hmem).of_same _ _
  · rw [List.mem_singleton.mp hmem]
    exact ⟨fun version hversion howner => absurd howner (hnone version hversion),
      fun version hversion howner => absurd howner (hnone version hversion)⟩

theorem current_supersede {now : Int} {documentId : Uuid} {document : DocumentRow}
    (h : t.Current document) (hne : document.id ≠ documentId) :
    Current { t with versions := supersedeVersions now documentId t.versions } document := by
  have hsame : ∀ version : VersionRow, version.documentId = document.id →
      retired now documentId version = version :=
    fun version howner => retired_of_ne now documentId version fun hkey => hne (howner.symm.trans hkey)
  refine ⟨fun version hversion howner => ?_, fun version hversion howner => ?_⟩
  · obtain ⟨before, hbefore, rfl⟩ := mem_supersedeVersions.mp hversion
    rw [retired_documentId] at howner
    rw [hsame before howner]
    exact h.iff before hbefore howner
  · obtain ⟨before, hbefore, rfl⟩ := mem_supersedeVersions.mp hversion
    rw [retired_documentId] at howner
    obtain ⟨current, hcurrent, howner', hlive⟩ := h.exists_of_version before hbefore howner
    exact ⟨current, mem_supersedeVersions.mpr ⟨current, hcurrent, hsame current howner'⟩, howner', hlive⟩

/-- **Every statement keeps the ledger.** -/
theorem Ledger.run (h : t.Ledger)
    (hseen : ∀ target, seen.collection = some target → ∃ collection ∈ t.collections,
        collection.id = target.collectionId)
    {s : DocumentStatement} {a : s.Value} (hdoes : DoesDocument seen s)
    (hrun : s.run distance policies moment t = .ok (a, t')) : t'.Ledger := by
  cases s with
  | createRagCollection id request =>
    obtain ⟨hid, -, -, hnew, rfl⟩ := createRagCollection_ok hrun
    exact ⟨h.homes.createRagCollection (hid ▸ hnew), h.versions.of_same _ _,
      fun document hmem => (h.current document hmem).of_same _ _⟩
  | patchRagCollection id request =>
    obtain ⟨-, rfl⟩ := patchRagCollection_ok hrun
    exact ⟨h.homes.modifyCollection fun _ => rfl, h.versions.of_same _ _,
      fun document hmem => (h.current document hmem).of_same _ _⟩
  | setRagCollectionStatus id status =>
    obtain ⟨-, rfl⟩ := setRagCollectionStatus_ok hrun
    exact ⟨h.homes.modifyCollection fun _ => rfl, h.versions.of_same _ _,
      fun document hmem => (h.current document hmem).of_same _ _⟩
  | insertRagDocument target ids request contentHash plan =>
    obtain ⟨hcollection, -, hplan⟩ := hdoes
    obtain ⟨hnew, ⟨-, -, rfl⟩ | ⟨content, hash, version, chunks, -, -, hwritten, -, rfl⟩⟩ :=
        insertRagDocument_ok hrun
    · exact h.insertDocument hnew (hseen target hcollection)
    · have hbase : Ledger { t with documents := t.documents ++ [documentRow target ids request] } :=
        h.insertDocument hnew (hseen target hcollection)
      obtain ⟨-, hnone⟩ : Homes { t with documents := t.documents ++ [documentRow target ids request] } ∧
          ∀ version ∈ t.versions, version.documentId ≠ (documentRow target ids request).id :=
        h.homes.insertDocument hnew (hseen target hcollection)
      have hwritten' : WrittenVersion { t with documents := t.documents ++ [documentRow target ids request] } moment
          target.persistence ids target.collectionId 1 content hash plan version chunks :=
        { hwritten with fresh := hwritten.fresh, fit := hwritten.fit }
      have hmem := List.mem_append_right t.documents (List.mem_singleton_self (documentRow target ids request))
      refine ⟨hbase.homes.withVersion hwritten' hmem rfl rfl, hbase.versions.withVersion hbase.homes hwritten' hplan ?_,
        current_withVersion hwritten' (fun document hdocument _ => hbase.current document hdocument) ?_⟩
      · have hversions : t.versionsOf ids.document = [] := by
          refine List.filter_eq_nil_iff.mpr fun version hversion => ?_
          have hne : version.documentId ≠ ids.document := hnone version hversion
          simpa using hne
        show 1 = Rows.nextNumber VersionRow.versionNumber (t.versionsOf ids.document)
        rw [hversions]
        rfl
      · exact fun version hversion howner => absurd howner (hnone version hversion)
  | ingestRagDocument documentId versionId chunkIds request contentHash plan =>
    obtain ⟨document, collection, version, chunks, hlive, -, hwritten, -, rfl⟩ := ingestRagDocument_ok hrun
    obtain ⟨-, hplan⟩ := hdoes
    have hmem := (Rows.find_some (liveDocument_ok hlive).1).1
    have hhomes := h.homes.supersede moment.now document.id
    have hversions := h.versions.supersede moment.now document.id
    have hwritten' : WrittenVersion { t with versions := supersedeVersions moment.now document.id t.versions } moment
        _ { document := document.id, version := versionId, chunk := chunkIds } document.collectionId _ _ contentHash
        plan version chunks :=
      { hwritten with
        fresh := fun other hother => by
          obtain ⟨before, hbefore, rfl⟩ := mem_supersedeVersions.mp hother
          rw [retired_id]
          exact hwritten.fresh before hbefore
        fit := hwritten.fit }
    refine ⟨hhomes.withVersion hwritten' hmem rfl rfl, hversions.withVersion hhomes hwritten' hplan ?_,
      current_withVersion hwritten' (fun other hother hne => current_supersede (h.current other hother) hne) ?_⟩
    · rw [Rows.nextNumber_of_numbered (h.versions.numbered _), Rows.nextNumber_of_numbered (hversions.numbered _)]
      congr 1
      show _ = ((t.versions.map (retired moment.now document.id)).filter _).length
      rw [List.filter_map, List.length_map]
      unfold versionsOf
      congr 1
      refine List.filter_congr fun row _ => ?_
      rw [Function.comp, retired_documentId]
    · intro version hversion howner
      obtain ⟨before, -, rfl⟩ := mem_supersedeVersions.mp hversion
      rw [retired_documentId] at howner
      exact Option.isSome_iff_ne_none.mp (retired_of_eq moment.now document.id before howner)
  | deleteRagDocument id =>
    obtain ⟨-, rfl⟩ := Prod.mk.inj (Except.ok.inj hrun)
    exact h.modifyDocument (fun _ => rfl) (fun _ => rfl) fun _ => rfl
  | getRagCollection _ | findCollectionIngestionContext _ | findDocumentIngestionContext _
  | findCollectionTarget _ | getRagDocument _ | findRagChunkCandidates _ _ _ _ =>
    rw [DocumentStatement.tables_of_isRead rfl hrun]
    exact h

end DocumentTables

/-! ## Runs -/

section Runs

variable {deployment : Deployment} {requests : Nat → Request}

/-- What an ingestion is planned for belongs to the application. -/
def IngestionPlace.In (t : DocumentTables) (applicationId : Uuid) : IngestionPlace → Prop
  | collection id => ∃ row ∈ t.collections, row.id = id ∧ row.applicationId = applicationId
  | document id => ∃ document ∈ t.documents, document.id = id ∧
      ∃ row ∈ t.collections, row.id = document.collectionId ∧ row.applicationId = applicationId

/-- What a call has seen of the documents is still there. -/
structure SeenHomes (t : DocumentTables) (seen : Seen) : Prop where
  collection : ∀ target, seen.collection = some target →
    ∃ collection ∈ t.collections, collection.id = target.collectionId
  place : ∀ place applicationId, seen.place = some (place, applicationId) → place.In t applicationId

theorem SeenHomes.kept (h : SeenHomes t seen) (hkept : t.Kept t') :
    SeenHomes t' seen where
  collection target htarget := by
    obtain ⟨collection, hcollection, hid⟩ := h.collection target htarget
    obtain ⟨collection', hcollection', hid', -⟩ := hkept.collection collection hcollection
    exact ⟨collection', hcollection', hid'.trans hid⟩
  place place applicationId hplace := by
    have hold := h.place place applicationId hplace
    cases place with
    | collection id =>
      obtain ⟨row, hrow, hid, happlication⟩ := hold
      obtain ⟨row', hrow', hid', happlication'⟩ := hkept.collection row hrow
      exact ⟨row', hrow', hid'.trans hid, happlication'.trans happlication⟩
    | document id =>
      obtain ⟨document, hdocument, hdocumentId, row, hrow, hid, happlication⟩ := hold
      obtain ⟨document', hdocument', hdocumentId', hcollection⟩ := hkept.document document hdocument
      obtain ⟨row', hrow', hid', happlication'⟩ := hkept.collection row hrow
      exact ⟨document', hdocument', hdocumentId'.trans hdocumentId, row', hrow',
        (hid'.trans hid).trans hcollection.symm, happlication'.trans happlication⟩

theorem in_of_planned {place place' : IngestionPlace} {applicationId : Uuid}
    {context : Option RagIngestionContext}
    (h : (seen.planned place context).place = some (place', applicationId))
    (hin : ∀ found, context = some found → place.In t found.applicationId) :
    place'.In t applicationId := by
  obtain ⟨found, hfound, heq⟩ := Option.map_eq_some_iff.mp h
  obtain ⟨rfl, rfl⟩ := Prod.mk.inj heq
  exact hin found hfound

theorem SeenHomes.record {s : DocumentStatement} {a : s.Value} (h : SeenHomes t' seen)
    (hrun : s.run distance policies moment t = .ok (a, t')) :
    SeenHomes t' (seen.recordDocument s a) := by
  cases s with
  | findCollectionTarget id =>
    obtain ⟨target, htarget, hread⟩ := Fallible.bind_eq_ok.mp hrun
    cases hread
    obtain ⟨collection, hlive, hid, -⟩ := DocumentTables.findCollectionTarget_ok htarget
    refine ⟨fun target' htarget' => ?_, h.place⟩
    obtain rfl := Option.some.inj htarget'
    exact ⟨collection, (Rows.find_some (DocumentTables.liveCollection_ok hlive).1).1, hid.symm⟩
  | findCollectionIngestionContext id =>
    cases hrun
    refine ⟨h.collection, fun place applicationId hplace => in_of_planned hplace fun found hfound => ?_⟩
    unfold DocumentTables.findCollectionIngestionContext at hfound
    split at hfound
    · next collection hlive =>
      obtain rfl := Option.some.inj hfound
      obtain ⟨hmem, hid⟩ := Rows.find_some (DocumentTables.liveCollection_ok hlive).1
      exact ⟨collection, hmem, hid, rfl⟩
    · cases hfound
  | findDocumentIngestionContext id =>
    cases hrun
    refine ⟨h.collection, fun place applicationId hplace => in_of_planned hplace fun found hfound => ?_⟩
    unfold DocumentTables.findDocumentIngestionContext at hfound
    split at hfound
    · next document hlive =>
      obtain ⟨collection, hcollection, rfl⟩ := Option.map_eq_some_iff.mp hfound
      obtain ⟨hdocument, hdocumentId⟩ := Rows.find_some (DocumentTables.liveDocument_ok hlive).1
      obtain ⟨hmem, hid⟩ := Rows.find_some hcollection
      exact ⟨document, hdocument, hdocumentId, collection, hmem, hid, rfl⟩
    · cases hfound
  | _ => exact h

theorem SeenHomes.recordStatement (h : SeenHomes t seen) {s : Statement} {a : s.Value}
    (hother : ∀ s', s ≠ .document s') : SeenHomes t (seen.recordStatement s a) := by
  cases s with
  | conversation s => cases s <;> exact ⟨h.collection, h.place⟩
  | memory s =>
    obtain ⟨written, looked, heq⟩ := recordMemory_eq seen s a
    show SeenHomes t (seen.recordMemory s a)
    rw [heq]
    exact ⟨h.collection, h.place⟩
  | document s => exact absurd rfl (hother s)
  | policy s => cases s <;> exact ⟨h.collection, h.place⟩

theorem preserved_seenHomes (guard : Nat → World → ConversationOp → Prop) :
    Preserved deployment requests guard fun w => True ∧ ∀ j, SeenHomes w.tables.document (w.seen j) := by
  refine Preserved.with_calls (P := fun _ t seen => SeenHomes t.document seen) .true ?_ ?_ ?_
  · intro i w w' s a j _ _ _ hstep hseen
    cases s with
    | document s =>
      obtain ⟨tables, hrun, ht⟩ := Statement.run_document hstep.run
      rw [ht]
      exact hseen.kept (DocumentTables.kept_run hrun)
    | conversation s | memory s | policy s =>
      rw [Statement.document_kept hstep.run (by simp)]
      exact hseen
  · intro i w w' s a _ _ _ hstep hseen
    cases s with
    | document s =>
      obtain ⟨tables, hrun, ht⟩ := Statement.run_document hstep.run
      rw [ht] at hseen ⊢
      exact hseen.record hrun
    | conversation s => exact hseen.recordStatement fun _ heq => (nomatch heq)
    | memory s => exact hseen.recordStatement fun _ heq => (nomatch heq)
    | policy s => exact hseen.recordStatement fun _ heq => (nomatch heq)
  · intro j t seen seen' hseen hidles
    cases hidles with
    | rest | asked => exact ⟨hseen.collection, hseen.place⟩
    | answered => exact ⟨fun _ htarget => (nomatch htarget), fun _ _ hplace => (nomatch hplace)⟩

theorem preserved_ledger (guard : Nat → World → ConversationOp → Prop) :
    Preserved deployment requests guard fun w =>
      (True ∧ ∀ j, SeenHomes w.tables.document (w.seen j)) ∧ w.tables.document.Ledger := by
  refine (preserved_seenHomes guard).with_tables (J := fun t => t.document.Ledger) ?_
  intro i w w' s a hseen hledger _ hdoes hstep
  cases s with
  | document s =>
    obtain ⟨tables, hrun, ht⟩ := Statement.run_document hstep.run
    rw [ht]
    exact hledger.run (hseen.2 i).collection hdoes hrun
  | conversation s | memory s | policy s =>
    rw [Statement.document_kept hstep.run (by simp)]
    exact hledger

theorem seenHomes_initial (j : Nat) :
    SeenHomes {} ((conversationsInitial deployment requests).world.seen j) where
  collection _ htarget := (nomatch htarget)
  place _ _ hplace := (nomatch hplace)

/-- A chunk of the current version of a live document, in a collection that is live and active. -/
structure Retrievable (t : DocumentTables) (found : ChunkMatch) : Prop where
  chunk : found.chunk ∈ t.chunks
  current : ∃ version ∈ t.versions, ∃ document ∈ t.documents, ∃ collection ∈ t.collections,
    version.id = found.chunk.documentVersionId ∧ version.supersededAt = none ∧
    document.id = version.documentId ∧ document.currentVersionId = some version.id ∧
        document.deletedAt = none ∧
    collection.id = document.collectionId ∧ collection.deletedAt = none ∧ collection.status = .active

/-- What is said of the documents of a state. -/
structure VersionLedger (t : DocumentTables) : Prop where
  numbered : ∀ documentId, (t.versionsOf documentId).map VersionRow.versionNumber =
    List.range' 1 (t.versionsOf documentId).length
  one : ∀ version ∈ t.versions, ∀ other ∈ t.versions, other.documentId = version.documentId →
    version.supersededAt = none → other.supersededAt = none → other = version
  current : ∀ version ∈ t.versions, ∃ document ∈ t.documents, document.id = version.documentId ∧
    ∃ current ∈ t.versions, current.documentId = document.id ∧ current.supersededAt = none ∧
      document.currentVersionId = some current.id
  indexed : ∀ version ∈ t.versions, version.ingestionStatus = .indexed → t.chunksOf version.id ≠ [] ∧
    ∀ run ∈ t.ingestionRuns, run.documentVersionId = version.id → run.status ≠ .failed
  ordered : ∀ version ∈ t.versions,
    (t.chunksOf version.id).map ChunkRow.chunkIndex = List.range (t.chunksOf version.id).length
  covered : ∀ version ∈ t.versions,
    t.embeddingsOf version.id = [] ∨
        DocumentTables.Covers (t.embeddingsOf version.id) (t.chunksOf version.id)
  retrieved : ∀ distance scope allowedCollectionIds now vector limit,
    ∀ found ∈ t.findRagChunkCandidates distance scope allowedCollectionIds now vector limit,
        Retrievable t found

theorem retrievable_of_found (h : t.Ledger) {scope : RetrievalScope}
    {allowedCollectionIds : List Uuid} {now : Int} {vector : Embedding} {limit : Nat}
    {found : ChunkMatch}
    (hfound : found ∈ t.findRagChunkCandidates distance scope allowedCollectionIds now vector limit) :
    Retrievable t found := by
  obtain ⟨⟨embedding, chunk⟩, hjoined, hmatch⟩ := List.mem_filterMap.mp (Rows.mem_of_mem_top hfound)
  obtain ⟨⟨version, document⟩, hcurrent, rfl⟩ := Option.map_eq_some_iff.mp hmatch
  obtain ⟨embedding', -, hjoined⟩ := List.mem_flatMap.mp hjoined
  obtain ⟨chunk', hchunk, heq⟩ := List.mem_map.mp hjoined
  obtain ⟨rfl, rfl⟩ := Prod.mk.inj heq
  obtain ⟨hchunk, hsees⟩ := List.mem_filter.mp hchunk
  simp only [Bool.and_eq_true, decide_eq_true_eq, List.any_eq_true] at hsees
  obtain ⟨-, collection, hcollection, hid, hsees⟩ := hsees
  unfold DocumentTables.currentVersion at hcurrent
  split at hcurrent
  · next found hversion =>
    obtain ⟨document', hdocument, heq⟩ := Option.map_eq_some_iff.mp hcurrent
    obtain ⟨rfl, rfl⟩ := Prod.mk.inj heq
    have hversionMem := List.mem_of_find?_eq_some hversion
    have hdocumentMem := List.mem_of_find?_eq_some hdocument
    have hversion := List.find?_some hversion
    have hdocument := List.find?_some hdocument
    simp only [Bool.and_eq_true, decide_eq_true_eq, Option.isNone_iff_eq_none] at hversion hdocument
    obtain ⟨owner, howner, hownerId, hplace⟩ := h.homes.chunk chunk' hchunk
    obtain rfl := Rows.eq_of_key h.homes.versionIds howner hversionMem (hownerId.trans hversion.1.symm)
    have hsees : collection.deletedAt = none ∧ collection.status = .active := by
      simp only [RetrievalScope.seesCollection, Bool.and_eq_true, decide_eq_true_eq,
        Option.isNone_iff_eq_none] at hsees
      exact ⟨hsees.1.1.1.1.1, hsees.1.1.1.1.2⟩
    exact ⟨hchunk, _, hversionMem, _, hdocumentMem, collection, hcollection, hversion.1, hversion.2, hdocument.1,
      ((h.current _ hdocumentMem).iff _ hversionMem hdocument.1.symm).mp hversion.2, hdocument.2,
      hid.trans (hplace _ hdocumentMem hdocument.1).symm, hsees⟩
  · cases hcurrent

variable {s : (conversations deployment requests).State} {moves : List (conversations deployment requests).Move}

/-- **The version ledger** holds in every run. -/
theorem version_ledger
    (hrun : runFrom (conversations deployment requests).step (conversationsInitial deployment requests) moves =
      some s) : VersionLedger s.world.tables.document := by
  obtain ⟨-, -, h⟩ := (preserved_ledger Always).run_always onProtocol_initial
    ⟨⟨trivial, seenHomes_initial⟩, DocumentTables.Ledger.empty⟩ hrun
  refine ⟨h.versions.numbered, fun version hversion other hother hsame hlive hlive' => ?_,
    fun version hversion => ?_, h.versions.indexed, h.versions.ordered, h.versions.covered,
    fun _ _ _ _ _ _ _ hfound => retrievable_of_found h hfound⟩
  · obtain ⟨document, hdocument, hid⟩ := h.homes.version version hversion
    have hnamed := ((h.current document hdocument).iff version hversion hid.symm).mp hlive
    have hnamed' := ((h.current document hdocument).iff other hother (hsame.trans hid.symm)).mp hlive'
    exact Rows.eq_of_key h.homes.versionIds hother hversion (Option.some.inj (hnamed'.symm.trans hnamed))
  · obtain ⟨document, hdocument, hid⟩ := h.homes.version version hversion
    obtain ⟨current, hcurrent, howner, hlive⟩ :=
      (h.current document hdocument).exists_of_version version hversion hid.symm
    exact ⟨document, hdocument, hid, current, hcurrent, howner, hlive,
      ((h.current document hdocument).iff current hcurrent howner).mp hlive⟩

end Runs

/-- A document, and another text for it. -/
def Sample.ingestCalls : List Call :=
  documentCalls ++ [.ingestRagDocument 2 { content := some "bye" }]

open Sample in
theorem version_ledger_ingestRagDocument :
    ∃ s : (system ingestCalls).State,
      s.world.tables.document.versions.map (fun row => (row.versionNumber, row.ingestionStatus)) =
        [(1, .superseded), (2, .indexed)] ∧
      VersionLedger s.world.tables.document := by
  have hsummary : (after {} ingestCalls (oneByOne ++ List.replicate 8 3)).map (fun s =>
      s.world.tables.document.versions.map fun row => (row.versionNumber, row.ingestionStatus)) =
        some [(1, .superseded), (2, .indexed)] := by
    decide +kernel
  obtain ⟨s, hrun, hversions⟩ := Option.map_eq_some_iff.mp hsummary
  exact ⟨s, hversions, version_ledger hrun⟩

end Moira.Conversations
