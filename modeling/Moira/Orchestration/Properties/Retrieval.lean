import Moira.Orchestration.Retrieval

/-!
# What a ranking keeps

With distinct public ids the order of the candidates does not matter.

- **`rank_order_independent`** — for the memories and for the chunks
-/

namespace Moira.Retrieval

/-! ## One order -/

section Order

variable {T : Type} {score : T → ℚ} {key : T →
    String} {limits : RetrievalLimits} {candidates candidates' : List T}

/-- The order of a result. -/
def Before (key : T → String) (a b : Scored T) : Prop :=
  b.score < a.score ∨ a.score = b.score ∧ key a.item < key b.item

instance (key : T → String) : DecidableRel (Before key) := fun _ _ => inferInstanceAs (Decidable (_ ∨ _))

/-- What the sort compares. -/
def AtOrBefore (key : T → String) (a b : Scored T) : Prop :=
  b.score < a.score ∨ a.score = b.score ∧ key a.item ≤ key b.item

variable {a b : Scored T}

theorem isLE_iff :
    ((compare b.score a.score).then (compare (key a.item) (key b.item))).isLE = true ↔
    AtOrBefore key a b := by
  unfold AtOrBefore
  rcases lt_trichotomy b.score a.score with h | h | h
  · rw [compare_lt_iff_lt.mpr h]
    simp [h, Ordering.then]
  · rw [compare_eq_iff_eq.mpr h, h]
    simp only [Ordering.then, lt_irrefl, true_and, false_or]
    rcases lt_trichotomy (key a.item) (key b.item) with hkey | hkey | hkey
    · rw [compare_lt_iff_lt.mpr hkey]
      exact iff_of_true rfl hkey.le
    · rw [compare_eq_iff_eq.mpr hkey]
      exact iff_of_true rfl hkey.le
    · rw [compare_gt_iff_gt.mpr hkey]
      exact iff_of_false Bool.false_ne_true (not_le_of_gt hkey)
  · rw [compare_gt_iff_gt.mpr h]
    simp [h.le, h.ne, Ordering.then]

theorem AtOrBefore.trans {c : Scored T} (hab : AtOrBefore key a b) (hbc : AtOrBefore key b c) :
    AtOrBefore key a c := by
  rcases hab with hab | ⟨hab, hkab⟩
  · rcases hbc with hbc | ⟨hbc, -⟩
    · exact Or.inl (hbc.trans hab)
    · exact Or.inl (hbc ▸ hab)
  · rcases hbc with hbc | ⟨hbc, hkbc⟩
    · exact Or.inl (hab ▸ hbc)
    · exact Or.inr ⟨hab.trans hbc, le_trans hkab hkbc⟩

theorem AtOrBefore.total (a b : Scored T) : AtOrBefore key a b ∨ AtOrBefore key b a := by
  rcases lt_trichotomy b.score a.score with h | h | h
  · exact Or.inl (Or.inl h)
  · rcases le_total (key a.item) (key b.item) with hkey | hkey
    · exact Or.inl (Or.inr ⟨h.symm, hkey⟩)
    · exact Or.inr (Or.inr ⟨h, hkey⟩)
  · exact Or.inr (Or.inl h)

theorem Before.not_flip (hab : Before key a b) (hba : Before key b a) : False := by
  rcases hab with hab | ⟨hab, hkab⟩
  · rcases hba with hba | ⟨hba, -⟩
    · exact lt_asymm hab hba
    · exact lt_irrefl _ (hba ▸ hab)
  · rcases hba with hba | ⟨-, hkba⟩
    · exact lt_irrefl _ (hab ▸ hba)
    · exact lt_asymm hkab hkba

/-- The candidates above the minimum, before they are sorted. -/
def above (score : T → ℚ) (limits : RetrievalLimits) (candidates : List T) : List (Scored T) :=
  (candidates.map fun candidate => { item := candidate, score := score candidate }).filter fun scored =>
    scored.score > limits.minimumScore

theorem mem_above {scored : Scored T} : scored ∈ above score limits candidates ↔
    scored.item ∈ candidates ∧ scored.score = score scored.item ∧ limits.minimumScore < scored.score := by
  unfold above
  rw [List.mem_filter, List.mem_map, decide_eq_true_eq]
  constructor
  · rintro ⟨⟨candidate, hcandidate, rfl⟩, habove⟩
    exact ⟨hcandidate, rfl, habove⟩
  · rintro ⟨hcandidate, hscore, habove⟩
    refine ⟨⟨scored.item, hcandidate, ?_⟩, habove⟩
    rw [← hscore]

theorem above_keys_nodup (hids : (candidates.map key).Nodup) :
    ((above score limits candidates).map fun scored => key scored.item).Nodup := by
  refine List.Nodup.sublist ((List.filter_sublist).map _) ?_
  rw [List.map_map]
  exact hids

theorem mem_scoredAbove {scored : Scored T} : scored ∈ scoredAbove score key limits candidates ↔
    scored.item ∈ candidates ∧ scored.score = score scored.item ∧ limits.minimumScore < scored.score := by
  rw [← mem_above]
  exact List.mem_mergeSort

/-- **Strictly sorted**, as no two candidates have the same public id. -/
theorem scoredAbove_sorted (hids : (candidates.map key).Nodup) :
    (scoredAbove score key limits candidates).Pairwise (Before key) := by
  have hle : (scoredAbove score key limits candidates).Pairwise (AtOrBefore key) := by
    refine (List.pairwise_mergeSort ?_ ?_ (above score limits candidates)).imp isLE_iff.mp
    · intro a b c hab hbc
      exact isLE_iff.mpr ((isLE_iff.mp hab).trans (isLE_iff.mp hbc))
    · intro a b
      rw [Bool.or_eq_true, isLE_iff, isLE_iff]
      exact AtOrBefore.total a b
  have hkeys : (scoredAbove score key limits candidates).Pairwise fun a b => key a.item ≠ key b.item := by
    have hperm : (scoredAbove score key limits candidates).Perm (above score limits candidates) :=
      List.mergeSort_perm ..
    rw [← List.pairwise_map (R := fun a b => a ≠ b) (f := fun scored : Scored T => key scored.item)]
    exact (hperm.map _).nodup_iff.mpr (above_keys_nodup hids)
  refine (hle.and hkeys).imp ?_
  rintro a b ⟨h | ⟨hscore, hkey⟩, hne⟩
  · exact Or.inl h
  · exact Or.inr ⟨hscore, lt_of_le_of_ne hkey hne⟩

/-- **A permutation of the candidates** has the same order. -/
theorem scoredAbove_perm (hperm : candidates.Perm candidates') (hids : (candidates.map key).Nodup) :
    scoredAbove score key limits candidates = scoredAbove score key limits candidates' := by
  have hids' : (candidates'.map key).Nodup := (hperm.map key).nodup_iff.mp hids
  have hsame : (scoredAbove score key limits candidates).Perm (scoredAbove score key limits candidates') :=
    (List.mergeSort_perm ..).trans
      (((hperm.map _).filter _).trans (List.mergeSort_perm ..).symm)
  exact List.Perm.eq_of_pairwise (fun a b _ _ hab hba => (hab.not_flip hba).elim) (scoredAbove_sorted hids)
    (scoredAbove_sorted hids') hsame

end Order

/-! ## What is kept -/

section Kept

variable {T : Type} (score : T → ℚ) (key : T → String) (limits : RetrievalLimits)

def entryOf (candidate : T) : Scored T where
  item := candidate
  score := score candidate

/-- `capped` are the groups that diversity is about, if it is on. -/
structure Ranked (capped : Option (T → Uuid)) (candidates : List T) (result : List (Scored T)) : Prop where
  sorted : result.Pairwise (Before key)
  above : ∀ entry ∈ result, entry.item ∈ candidates ∧ entry.score = score entry.item ∧
    limits.minimumScore < entry.score
  atMost : result.length ≤ limits.maximumResults
  perGroup : ∀ group ∈ capped, ∀ g, result.countP (group ·.item = g) ≤ limits.maximumPerGroup
  leftOut : ∀ candidate ∈ candidates, limits.minimumScore < score candidate →
    (∀ entry ∈ result, entry.item ≠ candidate) →
      (∃ group ∈ capped, limits.maximumPerGroup ≤ candidates.countP fun other =>
        group other = group candidate ∧ limits.minimumScore < score other ∧
          Before key (entryOf score other) (entryOf score candidate)) ∨
      (result.length = limits.maximumResults ∧ ∀ entry ∈ result, Before key entry (entryOf score candidate))

variable {score key limits} {candidates : List T}

theorem entryOf_mem {candidate : T} (hmem : candidate ∈ candidates)
    (habove : limits.minimumScore < score candidate) :
    entryOf score candidate ∈ scoredAbove score key limits candidates :=
  mem_scoredAbove.mpr ⟨hmem, rfl, habove⟩

theorem above_of_sublist {result : List (Scored T)}
    (h : result.Sublist (scoredAbove score key limits candidates)) : ∀ entry ∈ result,
      entry.item ∈ candidates ∧ entry.score = score entry.item ∧ limits.minimumScore < entry.score :=
  fun _ hentry => mem_scoredAbove.mp (h.subset hentry)

theorem countP_scoredAbove (p : Scored T → Bool) : (scoredAbove score key limits candidates).countP p =
    candidates.countP fun other => decide (limits.minimumScore < score other) && p (entryOf score other) := by
  have hperm : (scoredAbove score key limits candidates).Perm (above score limits candidates) :=
    List.mergeSort_perm ..
  rw [hperm.countP_eq]
  unfold above
  rw [List.countP_filter, List.countP_map]
  refine List.countP_congr fun other _ => ?_
  simp [entryOf, Bool.and_comm]

theorem ranked_take (hids : (candidates.map key).Nodup) :
    Ranked score key limits none candidates
      ((scoredAbove score key limits candidates).take limits.maximumResults) where
  sorted := (scoredAbove_sorted hids).sublist (List.take_sublist ..)
  above := above_of_sublist (List.take_sublist ..)
  atMost := List.length_take_le ..
  perGroup _ hgroup := (nomatch hgroup)
  leftOut candidate hmem habove hout := by
    have hnot : entryOf score candidate ∉
        (scoredAbove score key limits candidates).take limits.maximumResults := fun h => hout _ h rfl
    exact Or.inr (Rows.behind_of_not_mem_take (scoredAbove_sorted hids) (entryOf_mem hmem habove) hnot)

theorem ranked_retainCapped (hids : (candidates.map key).Nodup) (group : T → Uuid) :
    Ranked score key limits (some group) candidates
      ((Rows.retainCapped (fun entry : Scored T => group entry.item) limits.maximumPerGroup (fun _ => 0)
        (scoredAbove score key limits candidates)).take limits.maximumResults) where
  sorted := (scoredAbove_sorted hids).sublist ((List.take_sublist ..).trans Rows.retainCapped_sublist)
  above := above_of_sublist ((List.take_sublist ..).trans Rows.retainCapped_sublist)
  atMost := List.length_take_le ..
  perGroup _ hgroup g := by
    obtain rfl := Option.mem_some.mp hgroup
    exact Nat.le_trans ((List.take_sublist ..).countP_le ..) (Rows.countP_retainCapped_le g)
  leftOut candidate hmem habove hout := by
    have hnot : entryOf score candidate ∉ (Rows.retainCapped (fun entry : Scored T => group entry.item)
        limits.maximumPerGroup (fun _ => 0) (scoredAbove score key limits candidates)).take
          limits.maximumResults := fun h => hout _ h rfl
    rcases Rows.full_or_behind (scoredAbove_sorted hids) (entryOf_mem hmem habove) hnot with hfull | hbehind
    · rw [countP_scoredAbove] at hfull
      refine Or.inl ⟨group, rfl, Nat.le_trans hfull (Nat.le_of_eq ?_)⟩
      refine List.countP_congr fun other _ => ?_
      show _ = true ↔ decide (group other = group candidate ∧ limits.minimumScore < score other ∧
        Before key (entryOf score other) (entryOf score candidate)) = true
      rw [Bool.and_eq_true, Bool.and_eq_true, decide_eq_true_iff, decide_eq_true_iff, decide_eq_true_iff,
        decide_eq_true_iff]
      exact and_left_comm
    · exact Or.inr hbehind

end Kept

/-! ## Memories and chunks -/

variable (letters : Letters) (query : String) (weights : RetrievalWeights) (limits : RetrievalLimits)

/-- The groups that a ranking of chunks caps. -/
def cappedBy : Option (RagChunkCandidate → Uuid) :=
  if limits.diversityEnabled && limits.maximumPerGroup > 0 then some RagChunkCandidate.documentUuid else none

theorem ranked_memories {candidates : List MemoryCandidate}
    (hids : (candidates.map MemoryCandidate.publicId).Nodup) :
    Ranked (memoryScore letters query weights) MemoryCandidate.publicId limits none candidates
      (rankMemories letters query weights candidates limits) :=
  ranked_take hids

theorem ranked_chunks {candidates : List RagChunkCandidate}
    (hids : (candidates.map RagChunkCandidate.publicId).Nodup) :
    Ranked (chunkScore letters query weights) RagChunkCandidate.publicId limits (cappedBy limits) candidates
      (rankChunks letters query weights candidates limits) := by
  unfold rankChunks cappedBy
  split
  · exact ranked_retainCapped hids RagChunkCandidate.documentUuid
  · exact ranked_take hids

/-- **A ranking does not depend on the order of the candidates**, and what it leaves out it has to.
-/
theorem rank_order_independent {memories : List MemoryCandidate} {chunks : List RagChunkCandidate}
    (hmemories : (memories.map MemoryCandidate.publicId).Nodup)
    (hchunks : (chunks.map RagChunkCandidate.publicId).Nodup) :
    (∀ memories', memories.Perm memories' →
      rankMemories letters query weights memories limits = rankMemories letters query weights memories' limits) ∧
    Ranked (memoryScore letters query weights) MemoryCandidate.publicId limits none memories
      (rankMemories letters query weights memories limits) ∧
    (∀ chunks', chunks.Perm chunks' →
      rankChunks letters query weights chunks limits = rankChunks letters query weights chunks' limits) ∧
    Ranked (chunkScore letters query weights) RagChunkCandidate.publicId limits (cappedBy limits) chunks
      (rankChunks letters query weights chunks limits) := by
  refine ⟨fun memories' hperm => ?_, ranked_memories letters query weights limits hmemories,
    fun chunks' hperm => ?_, ranked_chunks letters query weights limits hchunks⟩
  · unfold rankMemories
    rw [scoredAbove_perm hperm hmemories]
  · unfold rankChunks
    rw [scoredAbove_perm hperm hchunks]

namespace Sample

def ascii : Letters where
  isAlphanumeric := Char.isAlphanum
  toLowercase := List.map Char.toLower

def semanticOnly : RetrievalWeights where
  semantic := 1
  keyword := 0
  recency := 0
  importance := 0

def onePerDocument : RetrievalLimits where
  maximumResults := 2
  minimumScore := 0
  maximumPerGroup := 1
  diversityEnabled := true

def chunkAt (publicId : String) (documentUuid : Uuid) (distance : ℚ) : RagChunkCandidate where
  publicId := publicId
  documentUuid := documentUuid
  text := some "retention"
  distance := some distance
  ageSeconds := some 0

end Sample

open Sample in
theorem rank_order_independent_swapped :
    rankChunks ascii "retention" semanticOnly [chunkAt "chunk_a" 1 0, chunkAt "chunk_b" 2 1] onePerDocument =
      rankChunks ascii "retention" semanticOnly [chunkAt "chunk_b" 2 1, chunkAt "chunk_a" 1 0] onePerDocument :=
  (rank_order_independent ascii "retention" semanticOnly onePerDocument
    (by simp : (([] : List MemoryCandidate).map MemoryCandidate.publicId).Nodup) (by decide)).2.2.1 _
    (List.Perm.swap ..)

end Moira.Retrieval
