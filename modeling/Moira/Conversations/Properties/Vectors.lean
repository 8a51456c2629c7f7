import Moira.Conversations.Properties.StoredForm

/-!
# Vectors and texts

- `TextKept` — no patch gives a memory with a vector another text; **`vectors_follow_texts`** — over
  the runs that meet it, a vector that is compared stands for the text of its memory
-/

namespace Moira.Conversations

open Prog Transition

variable {scope : RetrievalScope}

/--
A patch with a text finds no vector of the memory, or its text; and the text of a memory is still
the one that its call has written when the vector of it comes.
-/
def textKept (i : Nat) (w : World) : ConversationOp → Bool
  | .statement (.memory (.patchMemory id request (some _))) =>
    (Rows.find MemoryRow.id w.tables.memory.memories id).all fun row =>
      request.content = some row.contentHash.text ||
        w.tables.memory.memoryEmbeddings.all fun embedding => embedding.memoryId ≠ id
  | .statement (.memory (.insertMemoryEmbedding _)) =>
    (w.seen i).written.all fun memory =>
      (Rows.find MemoryRow.id w.tables.memory.memories memory.id).all fun row =>
        row.contentHash = memory.contentHash
  | _ => true

abbrev TextKept (i : Nat) (w : World) (o : ConversationOp) : Prop :=
  textKept i w o = true

section TextKept

variable {i : Nat} {w : World} {row : MemoryRow}

theorem TextKept.patch {request : MemoryPatchRequest}
    {content : ContentWrite × ConversationContentPersistence}
    (h : TextKept i w (.statement (.memory (.patchMemory row.id request (some content)))))
    (hids : (w.tables.memory.memories.map MemoryRow.id).Nodup) (hrow : row ∈ w.tables.memory.memories) :
    request.content = some row.contentHash.text ∨
      ∀ embedding ∈ w.tables.memory.memoryEmbeddings, embedding.memoryId ≠ row.id := by
  have hmet : ((Rows.find MemoryRow.id w.tables.memory.memories row.id).all fun row' =>
    request.content = some row'.contentHash.text ||
      w.tables.memory.memoryEmbeddings.all fun embedding => embedding.memoryId ≠ row.id) = true := h
  rw [Rows.find_of_mem hids hrow] at hmet
  simpa using hmet

theorem TextKept.insert {embedding : MemoryEmbeddingRow} {memory : MemoryRow}
    (h : TextKept i w (.statement (.memory (.insertMemoryEmbedding embedding))))
    (hids : (w.tables.memory.memories.map MemoryRow.id).Nodup) (hrow : row ∈ w.tables.memory.memories)
    (hwritten : (w.seen i).written = some memory) (hid : row.id = memory.id) :
    row.contentHash = memory.contentHash := by
  have hmet : ((w.seen i).written.all fun memory =>
    (Rows.find MemoryRow.id w.tables.memory.memories memory.id).all fun row =>
      row.contentHash = memory.contentHash) = true := h
  rw [hwritten, Option.all_some, ← hid, Rows.find_of_mem hids hrow] at hmet
  simpa using hmet

end TextKept

namespace MemoryTables

/-- Every vector is of a memory, and of its text. -/
def Followed (t : MemoryTables) : Prop :=
  ∀ embedding ∈ t.memoryEmbeddings, ∃ row ∈ t.memories, row.id = embedding.memoryId ∧
    row.contentHash.text = embedding.embedding.text

theorem Followed.memories {t t' : MemoryTables} (h : t.Followed)
    (hembeddings : t'.memoryEmbeddings = t.memoryEmbeddings)
    (hmemories : ∀ row ∈ t.memories, (∃ embedding ∈ t.memoryEmbeddings, embedding.memoryId = row.id) →
      ∃ row' ∈ t'.memories, row'.id = row.id ∧ row'.contentHash.text = row.contentHash.text) :
          t'.Followed := by
  intro embedding hembedding
  rw [hembeddings] at hembedding
  obtain ⟨row, hrow, hid, htext⟩ := h embedding hembedding
  obtain ⟨row', hrow', hid', htext'⟩ := hmemories row hrow ⟨embedding, hembedding, hid.symm⟩
  exact ⟨row', hrow', hid'.trans hid, htext'.trans htext⟩

theorem Changed.text {request : Request} {seen : Seen} {moment : Moment} {row row' : MemoryRow}
    {s : MemoryStatement}
    (h : Changed moment row s row') (hdoes : DoesMemory request seen s)
    (hkept : ∀ patch content, s = .patchMemory row.id patch (some content) →
        patch.content = some row.contentHash.text) :
    row'.contentHash.text = row.contentHash.text := by
  cases h with
  | same => rfl
  | deleted _ => rfl
  | confirmed _ => rfl
  | patched _ hpatched =>
    cases hpatched with
    | kept => rfl
    | written _ =>
      have hcontent := hkept _ _ rfl
      show ((_ <|> _ : Option String).getD "") = _
      rw [hcontent]
      rfl

theorem Followed.run {t t' : MemoryTables} {w : World} {i : Nat} {request : Request}
    {distance : List Float8 → List Float8 → Float8} {s : MemoryStatement} {a : s.Value}
    (ht : w.tables.memory = t)
    (hids : (t.memories.map MemoryRow.id).Nodup) (h : t.Followed)
    (hguard : TextKept i w (.statement (.memory s)))
    (hdoes : DoesMemory request (w.seen i) s) (hrun : s.run distance w.moment t = .ok (a, t')) :
    t'.Followed := by
  subst ht
  rcases embeddings_run hrun with hsame | ⟨new, rfl, hmemories, hmemory, hembeddings⟩
  · refine h.memories hsame fun row hrow hvector => ?_
    obtain ⟨f, others, heq, hchanged, -⟩ := memories_run hids hrun
    refine ⟨f row, ?_, (hchanged row hrow).keeps.id, (hchanged row hrow).text hdoes ?_⟩
    · rw [heq]
      exact List.mem_append_left _ (List.mem_map_of_mem hrow)
    · rintro patch content rfl
      refine (hguard.patch hids hrow).resolve_right fun hnone => ?_
      obtain ⟨embedding, hembedding, hid⟩ := hvector
      exact hnone embedding hembedding hid
  · intro embedding hembedding
    rw [hembeddings] at hembedding
    rw [hmemories]
    rcases List.mem_append.mp hembedding with hold | hnew
    · exact h embedding (List.mem_of_mem_filter hold)
    · rw [List.mem_singleton.mp hnew]
      obtain ⟨-, memory, hwritten, hid, -, htext, -⟩ := hdoes
      obtain ⟨row, hrow, hrowId⟩ := hmemory
      exact ⟨row, hrow, hrowId, by rw [hguard.insert hids hrow hwritten (hrowId.trans hid), htext]⟩

end MemoryTables

section Runs

variable {deployment : Deployment} {requests : Nat → Request}

/-- A vector that is compared, and the memory it stands for. -/
structure Follows (pair : MemoryEmbeddingRow × MemoryRow) : Prop where
  text : pair.1.embedding.text = pair.2.contentHash.text
  /-- A body that is stored is that text. -/
  body : ∀ text, pair.2.columns.content pair.2.identity = .ok (some text) → text = pair.1.embedding.text

/-- What is said of the memories of a state. -/
structure VectorsFollow (t : MemoryTables) : Prop where
  compared : ∀ scope (p : MemoryRow → Bool), ∀ pair ∈ t.joined scope p, Follows pair
  candidates : ∀ distance scope now vector limit,
      ∀ found ∈ t.findMemoryCandidates distance scope now vector limit,
    ∃ embedding ∈ t.memoryEmbeddings, Follows (embedding, found.row) ∧
      found.distance = distance embedding.embedding.coordinates vector.coordinates
  nearest : ∀ distance scope vector existing near,
      t.findNearestMemory distance scope vector = some (existing, near) →
    ∃ embedding ∈ t.memoryEmbeddings, ∃ row ∈ t.memories, row.id = existing ∧ Follows (embedding, row) ∧
      near = distance embedding.embedding.coordinates vector.coordinates
  /-- A text that has no vector is not retrieved. -/
  unembedded : ∀ row ∈ t.memories,
    (∀ embedding ∈ t.memoryEmbeddings, embedding.memoryId = row.id →
        embedding.embedding.text ≠ row.contentHash.text) →
    ∀ distance scope now vector limit, ∀ found ∈ t.findMemoryCandidates distance scope now vector limit,
      found.row.id ≠ row.id

theorem mem_joined {t : MemoryTables} {p : MemoryRow → Bool}
    {pair : MemoryEmbeddingRow × MemoryRow} (h : pair ∈ t.joined scope p) :
    pair.1 ∈ t.memoryEmbeddings ∧ pair.2 ∈ t.memories ∧ pair.2.id = pair.1.memoryId ∧
    pair.2.deletedAt = none ∧
      p pair.2 = true ∧ scope.sees pair.2 = true := by
  obtain ⟨embedding, hembedding, h⟩ := List.mem_flatMap.mp h
  obtain ⟨row, hrow, rfl⟩ := List.mem_map.mp h
  obtain ⟨hrow, hjoin⟩ := List.mem_filter.mp hrow
  simp only [Bool.and_eq_true, decide_eq_true_eq, Option.isNone_iff_eq_none] at hjoin
  exact ⟨hembedding, hrow, hjoin.1.1.1, hjoin.1.1.2, hjoin.1.2, hjoin.2⟩

theorem pair_of_candidate {t : MemoryTables} {distance : List Float8 → List Float8 → Float8}
    {now : Int} {vector : Embedding} {limit : Nat} {found : MemoryMatch}
    (h : found ∈ t.findMemoryCandidates distance scope now vector limit) :
    ∃ pair ∈ t.joined scope fun row => row.status = .active, found.row = pair.2 ∧
      found.distance = distance pair.1.embedding.coordinates vector.coordinates := by
  obtain ⟨pair, hpair, rfl⟩ := List.mem_map.mp (Rows.mem_of_mem_top h)
  exact ⟨pair, hpair, rfl, rfl⟩

theorem pair_of_nearest {t : MemoryTables} {distance : List Float8 → List Float8 → Float8}
    {vector : Embedding} {existing : Uuid} {near : Float8}
    (h : t.findNearestMemory distance scope vector = some (existing, near)) :
    ∃ pair ∈ t.joined scope fun row => row.status.dedupes, pair.2.id = existing ∧
      near = distance pair.1.embedding.coordinates vector.coordinates := by
  obtain ⟨pair, hpair, heq⟩ := List.mem_map.mp (Rows.mem_of_mem_top (List.mem_of_mem_head? h))
  obtain ⟨rfl, rfl⟩ := Prod.mk.inj heq
  exact ⟨pair, hpair, rfl, rfl⟩

theorem follows_of_joined {t : MemoryTables} (hids : (t.memories.map MemoryRow.id).Nodup)
    (h : t.Followed) (hsound : ∀ row ∈ t.memories, row.body.Sound) {p : MemoryRow → Bool}
    {pair : MemoryEmbeddingRow × MemoryRow} (hpair : pair ∈ t.joined scope p) : Follows pair := by
  obtain ⟨hembedding, hrow, hid, -⟩ := mem_joined hpair
  obtain ⟨row, hrow', hid', htext⟩ := h pair.1 hembedding
  obtain rfl := Rows.eq_of_key hids hrow' hrow (hid'.trans hid.symm)
  refine ⟨htext.symm, fun text hcontent => ?_⟩
  have hread : pair.2.columns.content pair.2.identity = .ok pair.2.body.form.plaintext :=
    (hsound _ hrow).holds.content
  rw [hcontent] at hread
  rw [← htext]
  exact eq_of_plaintext_underPolicy (Except.ok.inj hread).symm

theorem preserved_followed : Preserved deployment requests TextKept fun w =>
    Bodies w.tables ∧ w.tables.memory.Followed := by
  refine (preserved_bodies.mono fun _ _ _ _ => trivial).with_tables (J := fun t => t.memory.Followed) ?_
  intro i w w' s a hbodies hfollowed hguard hdoes hstep
  cases s with
  | memory s =>
    obtain ⟨tables, hrun, ht⟩ := Statement.run_memory hstep.run
    rw [ht]
    exact hfollowed.run rfl hbodies.ids hguard hdoes hrun
  | conversation s | document s | policy s =>
    rw [Statement.memory_kept hstep.run (by simp)]
    exact hfollowed

variable {s : (conversations deployment requests).State} {moves : List (conversations deployment requests).Move}

/-- **A memory's vector follows its text**, in every run that meets `TextKept`. -/
theorem vectors_follow_texts
    (hmeets : Meets (conversations deployment requests).step (System.Guarded TextKept)
      (conversationsInitial deployment requests) moves)
    (hrun : runFrom (conversations deployment requests).step (conversationsInitial deployment requests) moves =
      some s) : VectorsFollow s.world.tables.memory := by
  obtain ⟨-, hbodies, hfollowed⟩ := preserved_followed.run onProtocol_initial
    ⟨bodies_initial, fun _ hembedding => absurd hembedding List.not_mem_nil⟩ hmeets hrun
  have hfollows : ∀ scope (p : MemoryRow → Bool), ∀ pair ∈ s.world.tables.memory.joined scope p,
      Follows pair :=
    fun _ _ _ hpair => follows_of_joined hbodies.ids hfollowed (fun _ hrow => hbodies.sound _ (.memory hrow)) hpair
  refine ⟨hfollows, fun distance scope now vector limit found hfound => ?_,
    fun distance scope vector existing near hnear => ?_,
    fun row hrow hnone distance scope now vector limit found hfound hid => ?_⟩
  · obtain ⟨pair, hpair, hrow, hdistance⟩ := pair_of_candidate hfound
    rw [hrow]
    exact ⟨pair.1, (mem_joined hpair).1, hfollows _ _ pair hpair, hdistance⟩
  · obtain ⟨pair, hpair, hid, hdistance⟩ := pair_of_nearest hnear
    exact ⟨pair.1, (mem_joined hpair).1, pair.2, (mem_joined hpair).2.1, hid, hfollows _ _ pair hpair, hdistance⟩
  · obtain ⟨pair, hpair, hfoundRow, -⟩ := pair_of_candidate hfound
    obtain ⟨hembedding, hmem, hjoin, -⟩ := mem_joined hpair
    rw [hfoundRow] at hid
    obtain rfl := Rows.eq_of_key hbodies.ids hmem hrow hid
    exact hnone pair.1 hembedding hjoin.symm (hfollows _ _ pair hpair).text

end Runs

/-! ### Samples -/

instance instDecidableTextKeptMove (calls : List Call) (s : (Sample.system calls).State)
    (m : (Sample.system calls).Move) : Decidable (System.Guarded (M := Sample.system calls) TextKept s m) :=
  Sample.decidableGuarded calls textKept s m

open Sample in
theorem vectors_follow_texts_indexed :
    ∃ s : (system vectorCalls).State,
      comparedTexts s.world.tables = [("tea", "tea")] ∧ VectorsFollow s.world.tables.memory := by
  have hsummary : (after {} vectorCalls indexed).map (fun s => comparedTexts s.world.tables) =
      some [("tea", "tea")] := by
    decide +kernel
  have hmeets : Meets (system vectorCalls).step (System.Guarded TextKept)
      (conversationsInitial deployment (requestsOf vectorCalls)) (scheduled {} vectorCalls indexed) := by
    decide +kernel
  obtain ⟨s, hrun, htexts⟩ := Option.map_eq_some_iff.mp hsummary
  exact ⟨s, htexts, vectors_follow_texts hmeets hrun⟩

open Sample in
/-- A patch leaves the vector of the text before. -/
theorem patched_memory_keeps_its_vector :
    ¬∀ (moves : List (system vectorCalls).Move) (s : (system vectorCalls).State),
      runFrom (system vectorCalls).step (conversationsInitial deployment (requestsOf vectorCalls)) moves = some s →
        VectorsFollow s.world.tables.memory := by
  intro hall
  have hsummary : (after {} vectorCalls (indexed ++ [3, 3, 3, 3, 3])).map (fun s => comparedTexts s.world.tables) =
      some [("tea", "coffee")] := by
    decide +kernel
  obtain ⟨s, hrun, htexts⟩ := Option.map_eq_some_iff.mp hsummary
  obtain ⟨pair, hpair, heq⟩ := List.mem_map.mp (htexts ▸ List.mem_singleton_self ("tea", "coffee"))
  obtain ⟨htea, hcoffee⟩ := Prod.mk.inj heq
  have hfollows := ((hall _ s hrun).compared _ _ pair hpair).text
  rw [htea, hcoffee] at hfollows
  exact absurd hfollows (by decide)

end Moira.Conversations
