import Moira.Conversations.Properties.Tables

/-!
# The collections a caller is shown

The owner of a collection and the tenant of a caller are texts that may be absent; an empty one
counts as absent.
-/

namespace Moira.Conversations

variable {scope : RetrievalScope}

/-! ## Owners and labels -/

/-- A text that names something. -/
def named (text : Option String) : Option String :=
  text.filter (· ≠ "")

def CollectionRow.owner (row : CollectionRow) : Option String :=
  named row.externalTenantId

def RetrievalScope.tenant (scope : RetrievalScope) : Option String :=
  named scope.externalTenantId

theorem getD_eq_empty_iff {text : Option String} : text.getD "" = "" ↔ named text = none := by
  cases text with
  | none => simp [named]
  | some text => simp [named, Option.filter]

theorem sameText_iff {a b : Option String} : sameText a b ↔ named a = named b := by
  cases a with
  | none =>
    cases b with
    | none => simp [sameText, named]
    | some b => by_cases hb : b = "" <;> simp [sameText, named, Option.filter, hb, eq_comm]
  | some a =>
    cases b with
    | none => by_cases ha : a = "" <;> simp [sameText, named, Option.filter, ha]
    | some b =>
      by_cases ha : a = "" <;> by_cases hb : b = "" <;> simp [sameText, named, Option.filter, ha, hb, eq_comm]

/-- The documented rules. -/
structure OfferedTo (scope : RetrievalScope) (allowedCollectionIds : List Uuid) (row : CollectionRow) :
    Prop where
  live : row.deletedAt = none
  active : row.status = .active
  application : row.applicationId = scope.applicationId
  owned : ∀ tenant, row.owner = some tenant → scope.tenant = some tenant
  labelledTenant : row.visibility = .tenant → ∃ tenant, row.owner = some tenant ∧ scope.tenant = some tenant
  labelledRestricted : row.visibility = .restricted → row.id ∈ allowedCollectionIds

/-- A collection that the rules offer to nobody, while the query compares two absent tenants. -/
structure SlipsThrough (scope : RetrievalScope) (row : CollectionRow) : Prop where
  live : row.deletedAt = none
  active : row.status = .active
  application : row.applicationId = scope.applicationId
  labelled : row.visibility = .tenant
  unowned : row.owner = none
  caller : scope.tenant = none

variable {allowedCollectionIds : List Uuid}

section Collections

variable {row : CollectionRow}

theorem seesCollection_eq : scope.seesCollection allowedCollectionIds row ↔
    row.deletedAt = none ∧ row.status = .active ∧ row.applicationId = scope.applicationId ∧
      (row.owner = none ∨ row.owner = scope.tenant) ∧ (row.visibility = .tenant → row.owner = scope.tenant) ∧
      (row.visibility = .restricted → row.id ∈ allowedCollectionIds) := by
  have howned : row.externalTenantId.getD "" = "" ↔ named row.externalTenantId = none := getD_eq_empty_iff
  have hsame := sameText_iff (a := row.externalTenantId) (b := scope.externalTenantId)
  simp only [RetrievalScope.seesCollection, Bool.and_eq_true, Bool.or_eq_true, decide_eq_true_eq,
    Option.isNone_iff_eq_none, List.contains_iff_mem, howned, hsame, CollectionRow.owner,
        RetrievalScope.tenant]
  tauto

/-- What the query compares are the documented rules, but for the collections that are labelled
`tenant` and have no owner: a caller without a tenant sees them. -/
theorem seesCollection_iff : scope.seesCollection allowedCollectionIds row ↔
    OfferedTo scope allowedCollectionIds row ∨ SlipsThrough scope row := by
  rw [seesCollection_eq]
  constructor
  · rintro ⟨hlive, hactive, happlication, howner, htenant, hrestricted⟩
    cases hname : row.owner with
    | none =>
      by_cases hlabel : row.visibility = .tenant
      · have hcaller := htenant hlabel
        rw [hname] at hcaller
        exact Or.inr ⟨hlive, hactive, happlication, hlabel, hname, hcaller.symm⟩
      · refine Or.inl ⟨hlive, hactive, happlication, fun tenant h => ?_, fun h => absurd h hlabel, hrestricted⟩
        rw [hname] at h
        cases h
    | some tenant =>
      have hcaller : scope.tenant = some tenant := by
        rw [hname] at howner
        rcases howner with h | h
        · cases h
        · exact h.symm
      refine Or.inl ⟨hlive, hactive, happlication, fun tenant' h => ?_, fun _ => ⟨tenant, hname, hcaller⟩,
        hrestricted⟩
      rw [hcaller, ← hname, h]
  · rintro (h | h)
    · refine ⟨h.live, h.active, h.application, ?_, fun hlabel => ?_, h.labelledRestricted⟩
      · cases hname : row.owner with
        | none => exact Or.inl rfl
        | some tenant => exact Or.inr (h.owned tenant hname).symm
      · obtain ⟨tenant, hname, hcaller⟩ := h.labelledTenant hlabel
        rw [hname, hcaller]
    · refine ⟨h.live, h.active, h.application, Or.inl h.unowned, fun _ => ?_, fun hlabel => ?_⟩
      · rw [h.unowned, h.caller]
      · rw [h.labelled] at hlabel
        cases hlabel

end Collections

/-! ## Candidates -/

/-- What `findRagChunkCandidates` puts in order. -/
def DocumentTables.chunkMatches (t : DocumentTables) (distance : List Float8 → List Float8 → Float8)
    (scope : RetrievalScope) (allowedCollectionIds : List Uuid) (now : Int) (vector : Embedding) :
    List ChunkMatch :=
  (t.joined scope allowedCollectionIds).filterMap fun (embedding, chunk) =>
    (t.currentVersion chunk).map fun (version, document) =>
      { chunk, documentId := document.id, documentTitle := document.title
        distance := distance embedding.embedding.coordinates vector.coordinates
        ageSeconds := now - version.createdAt }

/-- The columns that are primary keys. -/
structure PrimaryKeys (t : DocumentTables) : Prop where
  collections : (t.collections.map CollectionRow.id).Nodup
  versions : (t.versions.map VersionRow.id).Nodup

/-- A chunk that has an embedding, of a version that is current and whose document is live. -/
structure Indexed (t : DocumentTables) (embedding : ChunkEmbeddingRow) (chunk : ChunkRow) : Prop where
  stored : chunk ∈ t.chunks
  indexed : embedding ∈ t.chunkEmbeddings
  embeds : embedding.chunkId = chunk.id
  version : ∃ version ∈ t.versions, version.id = chunk.documentVersionId ∧ version.supersededAt = none ∧
    ∃ document ∈ t.documents, document.id = version.documentId ∧ document.deletedAt = none

/-- The candidates of a caller, at any moment, for any vector and any limit, are as the rules say.
-/
structure FollowsRules (t : DocumentTables) (scope : RetrievalScope) (allowedCollectionIds : List Uuid) :
    Prop where
  sound : ∀ distance now vector limit,
    ∀ found ∈ t.findRagChunkCandidates distance scope allowedCollectionIds now vector limit,
      ∃ collection ∈ t.collections, collection.id = found.chunk.collectionId ∧
        OfferedTo scope allowedCollectionIds collection
  -- A chunk is left out for nearer ones only.
  complete : ∀ collection ∈ t.collections, OfferedTo scope allowedCollectionIds collection →
    ∀ embedding chunk, Indexed t embedding chunk → chunk.collectionId = collection.id →
      ∀ distance now vector limit,
        (∃ found ∈ t.findRagChunkCandidates distance scope allowedCollectionIds now vector limit,
          found.chunk = chunk) ∨
        (t.findRagChunkCandidates distance scope allowedCollectionIds now vector limit).length = limit ∧
        ∀ found ∈ t.findRagChunkCandidates distance scope allowedCollectionIds now vector limit,
          found.distance ≤ distance embedding.embedding.coordinates vector.coordinates

section Candidates

variable {t : DocumentTables} {embedding : ChunkEmbeddingRow} {chunk : ChunkRow}

theorem DocumentTables.mem_joined : (embedding, chunk) ∈ t.joined scope allowedCollectionIds ↔
    embedding ∈ t.chunkEmbeddings ∧ chunk ∈ t.chunks ∧ chunk.id = embedding.chunkId ∧
      ∃ collection ∈ t.collections, collection.id = chunk.collectionId ∧
        scope.seesCollection allowedCollectionIds collection := by
  simp only [DocumentTables.joined, List.mem_flatMap, List.mem_map, List.mem_filter, Bool.and_eq_true,
    decide_eq_true_eq, List.any_eq_true, Prod.mk.injEq]
  constructor
  · rintro ⟨e, he, c, ⟨hc, hid, hcollection⟩, rfl, rfl⟩
    exact ⟨he, hc, hid, hcollection⟩
  · rintro ⟨he, hc, hid, hcollection⟩
    exact ⟨embedding, he, chunk, ⟨hc, hid, hcollection⟩, rfl, rfl⟩

theorem exists_currentVersion (hkeys : PrimaryKeys t) (h : Indexed t embedding chunk) :
    ∃ pair, t.currentVersion chunk = some pair := by
  obtain ⟨version, hversion, hid, hlive, document, hdocument, howner, hkept⟩ := h.version
  unfold DocumentTables.currentVersion
  cases hfound : t.versions.find? fun version =>
      version.id = chunk.documentVersionId && version.supersededAt.isNone with
  | none =>
    refine absurd ?_ (List.find?_eq_none.mp hfound version hversion)
    rw [hid, hlive]
    simp
  | some found =>
    have hfoundId := List.find?_some hfound
    simp only [Bool.and_eq_true, decide_eq_true_eq] at hfoundId
    obtain rfl := Rows.eq_of_key hkeys.versions (List.mem_of_find?_eq_some hfound) hversion
      (hfoundId.1.trans hid.symm)
    cases hdocuments : t.documents.find? fun document =>
        document.id = found.documentId && document.deletedAt.isNone with
    | none =>
      refine absurd ?_ (List.find?_eq_none.mp hdocuments document hdocument)
      rw [howner, hkept]
      simp
    | some other =>
      refine ⟨(found, other), ?_⟩
      simp only [hdocuments, Option.map_some]

theorem version_of_current {pair : VersionRow × DocumentRow} (h : t.currentVersion chunk = some pair) :
    ∃ version ∈ t.versions, version.id = chunk.documentVersionId ∧ version.supersededAt = none ∧
      ∃ document ∈ t.documents, document.id = version.documentId ∧ document.deletedAt = none := by
  unfold DocumentTables.currentVersion at h
  split at h
  · next version hversion =>
    obtain ⟨document, hdocument, -⟩ := Option.map_eq_some_iff.mp h
    have hversionIs := List.find?_some hversion
    have hdocumentIs := List.find?_some hdocument
    simp only [Bool.and_eq_true, decide_eq_true_eq, Option.isNone_iff_eq_none] at hversionIs hdocumentIs
    exact ⟨version, List.mem_of_find?_eq_some hversion, hversionIs.1, hversionIs.2,
      document, List.mem_of_find?_eq_some hdocument, hdocumentIs⟩
  · cases h

variable {distance : List Float8 → List Float8 → Float8} {now : Int} {vector : Embedding} {limit : Nat}

theorem sees_of_candidate {found : ChunkMatch}
    (h : found ∈ t.findRagChunkCandidates distance scope allowedCollectionIds now vector limit) :
    ∃ embedding, Indexed t embedding found.chunk ∧
      ∃ collection ∈ t.collections, collection.id = found.chunk.collectionId ∧
        scope.seesCollection allowedCollectionIds collection := by
  obtain ⟨⟨embedding, chunk⟩, hjoined, hmatch⟩ := List.mem_filterMap.mp (Rows.mem_of_mem_top h)
  obtain ⟨⟨version, document⟩, hcurrent, rfl⟩ := Option.map_eq_some_iff.mp hmatch
  obtain ⟨hembedding, hchunk, hid, hcollection⟩ := DocumentTables.mem_joined.mp hjoined
  exact ⟨embedding, ⟨hchunk, hembedding, hid.symm, version_of_current hcurrent⟩, hcollection⟩

variable (distance now vector) in
theorem exists_match (hkeys : PrimaryKeys t) (h : Indexed t embedding chunk) {collection : CollectionRow}
    (hcollection : collection ∈ t.collections) (hid : chunk.collectionId = collection.id)
    (hsees : scope.seesCollection allowedCollectionIds collection) :
    ∃ found ∈ t.chunkMatches distance scope allowedCollectionIds now vector, found.chunk = chunk ∧
      found.distance = distance embedding.embedding.coordinates vector.coordinates := by
  obtain ⟨⟨version, document⟩, hcurrent⟩ := exists_currentVersion hkeys h
  have hjoined : (embedding, chunk) ∈ t.joined scope allowedCollectionIds :=
    DocumentTables.mem_joined.mpr ⟨h.indexed, h.stored, h.embeds.symm, collection, hcollection, hid.symm, hsees⟩
  let found : ChunkMatch :=
    { chunk, documentId := document.id, documentTitle := document.title
      distance := distance embedding.embedding.coordinates vector.coordinates
      ageSeconds := now - version.createdAt }
  refine ⟨found, List.mem_filterMap.mpr ⟨(embedding, chunk), hjoined, ?_⟩, rfl, rfl⟩
  show (t.currentVersion chunk).map _ = some found
  rw [hcurrent, Option.map_some]

/-- **The candidates follow the documented rules** unless a collection with a chunk to give slips
through. -/
theorem candidates_follow_rules_iff (hkeys : PrimaryKeys t) :
    FollowsRules t scope allowedCollectionIds ↔
      ∀ collection ∈ t.collections, SlipsThrough scope collection →
        ∀ embedding chunk, Indexed t embedding chunk → chunk.collectionId ≠ collection.id := by
  constructor
  · intro hrules collection hcollection hslips embedding chunk hindexed hid
    obtain ⟨found, hfound, hchunk, -⟩ := exists_match (fun _ _ => 0) 0 embedding.embedding
      hkeys hindexed hcollection hid (seesCollection_iff.mpr (Or.inr hslips))
    -- A limit that leaves nothing out.
    obtain ⟨other, hother, hotherId, hoffered⟩ :=
      hrules.sound (fun _ _ => 0) 0 embedding.embedding _ found
        (Rows.mem_top_of_length_lt hfound (Nat.lt_succ_self _))
    rw [hchunk, hid] at hotherId
    obtain rfl := Rows.eq_of_key hkeys.collections hother hcollection hotherId
    obtain ⟨tenant, howner, -⟩ := hoffered.labelledTenant hslips.labelled
    rw [hslips.unowned] at howner
    cases howner
  · intro hnone
    constructor
    · intro distance now vector limit found hfound
      obtain ⟨embedding, hindexed, collection, hcollection, hid, hsees⟩ := sees_of_candidate hfound
      rcases seesCollection_iff.mp hsees with hoffered | hslips
      · exact ⟨collection, hcollection, hid, hoffered⟩
      · exact absurd hid.symm (hnone collection hcollection hslips embedding found.chunk hindexed)
    · intro collection hcollection hoffered embedding chunk hindexed hid distance now vector limit
      obtain ⟨found, hfound, hchunk, hdistance⟩ := exists_match distance now vector
        hkeys hindexed hcollection hid (seesCollection_iff.mpr (Or.inl hoffered))
      rcases (Rows.mem_top_or hfound : found ∈ Rows.top ChunkMatch.distance limit _ ∨ _) with
        htop | ⟨hlength, hnearer⟩
      · exact Or.inl ⟨found, htop, hchunk⟩
      · refine Or.inr ⟨hlength, ?_⟩
        rw [← hdistance]
        exact hnearer

end Candidates

namespace Sample

def question : Embedding := ⟨[1], 5, "leave"⟩

/-- A document of one chunk, in a collection that is labelled `tenant` and has no owner. -/
def unowned : DocumentTables where
  collections := [{ id := 1, applicationId := 7, collectionKey := "handbook", visibility := .tenant }]
  documents :=
    [{ id := 2, collectionId := 1, title := "Leave", mimeType := "text/plain", currentVersionId := some 3 }]
  versions :=
    [{ id := 3, documentId := 2, versionNumber := 1, columns := { plain := some "Leave is granted." }
       contentHash := ⟨"Leave is granted."⟩, contentSizeBytes := 17, ingestionStatus := .indexed,
           createdAt := 0
       persistence := .plainContent }]
  chunks :=
    [{ id := 4, documentVersionId := 3, collectionId := 1, chunkIndex := 0
       columns := { plain := some "Leave is granted." }, chunkHash := ⟨"Leave is granted."⟩, tokenCount := 5
       sectionTitle := none, persistence := .plainContent }]
  chunkEmbeddings := [{ chunkId := 4, embeddingModelId := some 9, embedding := question }]

/-- A caller of the application who has no tenant. -/
def outsider : RetrievalScope where
  applicationId := 7
  externalTenantId := none
  externalUserId := some "ada"

end Sample

open Sample in
/-- A caller without a tenant is given the chunk. -/
theorem not_followsRules_unowned : ¬ FollowsRules unowned outsider [] := by
  intro h
  have hfound : (unowned.findRagChunkCandidates (fun _ _ => 0) outsider [] 0 question 10).length = 1 := by
    decide +kernel
  obtain ⟨found, hcandidates⟩ := List.length_eq_one_iff.mp hfound
  obtain ⟨collection, hcollection, -, hoffered⟩ :=
    h.sound (fun _ _ => 0) 0 question 10 found (hcandidates ▸ List.mem_singleton_self found)
  obtain rfl := List.mem_singleton.mp hcollection
  obtain ⟨tenant, howner, -⟩ := hoffered.labelledTenant rfl
  cases howner

open Sample in
theorem followsRules_unowned_tenant :
    FollowsRules unowned { outsider with externalTenantId := some "acme" } [] :=
  (candidates_follow_rules_iff ⟨by decide, by decide⟩).mpr fun _ _ hslips => by cases hslips.caller

end Moira.Conversations
