import Moira.Conversations.Properties.StoredForm

/-!
# Memories that extractions write

- **`extraction_writes_no_duplicate`** — over the runs that meet `LookupKept`
-/

namespace Moira.Conversations

open Prog Transition

/-! ## Extracted memories -/

/-- Only an extraction gives a memory a conversation. -/
def MemoryRow.extracted (row : MemoryRow) : Bool :=
  row.conversationId.isSome

/-- Not deleted, and of a status that suppresses a duplicate. -/
def MemoryRow.live (row : MemoryRow) : Bool :=
  row.deletedAt.isNone && row.status.dedupes

/-- The scope stands for the owner. -/
def RetrievalScope.covers (scope : RetrievalScope) (owner : Owner) : Bool :=
  owner.applicationId = scope.applicationId && sameText owner.externalTenantId scope.externalTenantId &&
    sameText owner.externalUserId scope.externalUserId

/--
No other call has looked up the text in a scope that stands for the owner, and not inserted it yet;
and a patch of an extracted memory leaves its text alone and does not make it live.
-/
def lookupKept (i : Nat) (w : World) : ConversationOp → Bool
  | .statement (.memory (.insertExtractedMemory insert)) =>
    w.lookups.all fun (j, scope, contentHash) =>
      j = i || contentHash ≠ insert.contentHash || !scope.covers insert.owner
  | .statement (.memory (.patchMemory id request content)) =>
    (Rows.find MemoryRow.id w.tables.memory.memories id).all fun row =>
      !row.extracted || content.isNone && (row.status.dedupes || request.status.all fun status => !status.dedupes)
  | _ => true

/-- No two calls are between their lookups and their inserts of one text in one scope, and no patch
gives an extracted memory another text or makes it live. -/
abbrev LookupKept (i : Nat) (w : World) (o : ConversationOp) : Prop :=
  lookupKept i w o = true

/-- The memories of a table that extractions have inserted. -/
structure Extractions (t : MemoryTables) : Prop where
  scopes : ∀ row ∈ t.memories, row.extracted = true → row.scope = .userApplication ∨
      row.scope = .conversation
  unique : ∀ row ∈ t.memories, ∀ other ∈ t.memories, row.extracted = true → other.extracted = true →
    row.live = true → other.live = true → (scopeOf other.owner).covers row.owner = true →
    row.contentHash = other.contentHash → row = other

/-- What a call has looked up is not there yet. -/
def Unmatched (t : MemoryTables) (seen : Seen) : Prop :=
  ∀ scope contentHash, seen.looked = some (scope, contentHash) → ∀ row ∈ t.memories,
    row.extracted = true → row.live = true → scope.covers row.owner = true → row.contentHash ≠ contentHash

/-- The lookups of all calls. -/
def Listed (w : World) : Prop :=
  ∀ j looked, (w.seen j).looked = some looked → (j, looked) ∈ w.lookups

section Statements

variable {t t' : MemoryTables} {w : World} {i : Nat} {request : Request} {s : MemoryStatement} {a : s.Value}
  {distance : List Float8 → List Float8 → Float8} {row row' : MemoryRow}

theorem covers_symm {owner other : Owner} (h : (scopeOf other).covers owner = true) :
    (scopeOf owner).covers other = true := by
  unfold RetrievalScope.covers scopeOf sameText at h ⊢
  rw [Bool.and_eq_true, Bool.and_eq_true] at h ⊢
  exact ⟨⟨decide_eq_true (of_decide_eq_true h.1.1).symm, decide_eq_true (of_decide_eq_true h.1.2).symm⟩,
    decide_eq_true (of_decide_eq_true h.2).symm⟩

theorem sees_of_covers {scope : RetrievalScope}
    (hscope : row.scope = .userApplication ∨ row.scope = .conversation)
    (h : scope.covers row.owner = true) : scope.sees row = true := by
  simp only [RetrievalScope.covers, Bool.and_eq_true, decide_eq_true_eq] at h
  unfold RetrievalScope.sees
  rcases hscope with hscope | hscope <;> simp [hscope, h.1.1, h.1.2, h.2]

theorem found_of_live {scope : RetrievalScope} (hrow : row ∈ t.memories) (hlive : row.live = true)
    (hsees : scope.sees row = true) : t.findMemoryByContentHash scope row.contentHash ≠ none := by
  have hmem : row ∈ t.dedupes scope fun other => other.contentHash = row.contentHash := by
    refine List.mem_filter.mpr ⟨hrow, ?_⟩
    unfold MemoryRow.live at hlive
    simp only [Bool.and_eq_true] at hlive
    simp [hlive.1, hlive.2, hsees]
  have htop : ∃ found, (Rows.top MemoryRow.createdAt (0 + 1)
      (t.dedupes scope fun other => other.contentHash = row.contentHash)).head? = some found :=
    Rows.exists_mem_top hmem
  obtain ⟨found, hfound⟩ := htop
  unfold MemoryTables.findMemoryByContentHash
  rw [hfound]
  exact Option.some_ne_none found.id

section

variable (hids : (w.tables.memory.memories.map MemoryRow.id).Nodup)
include hids

theorem live_of_changed (hrow : row ∈ w.tables.memory.memories)
    (hguard : LookupKept i w (.statement (.memory s)))
    (hchanged : MemoryTables.Changed w.moment row s row') (hextracted : row.extracted = true)
    (hlive : row'.live = true) : row.live = true ∧ row'.contentHash = row.contentHash := by
  cases hchanged with
  | same => exact ⟨hlive, rfl⟩
  | deleted => exact absurd hlive (by simp [MemoryRow.live])
  | confirmed => exact ⟨hlive, rfl⟩
  | @patched patch content _ hdeletedAt hpatched =>
    have hmet : ((Rows.find MemoryRow.id w.tables.memory.memories row.id).all fun row' =>
      !row'.extracted || content.isNone &&
        (row'.status.dedupes || patch.status.all fun status => !status.dedupes)) = true := hguard
    rw [Rows.find_of_mem hids hrow] at hmet
    simp only [Option.all_some, hextracted, Bool.not_true, Bool.false_or, Bool.and_eq_true, Bool.or_eq_true,
      Option.isNone_iff_eq_none] at hmet
    obtain ⟨rfl, hstatus⟩ := hmet
    cases hpatched
    refine ⟨?_, rfl⟩
    have hstatusLive : (patch.status.getD row.status).dedupes = true := by
      unfold MemoryRow.live at hlive
      rw [Bool.and_eq_true] at hlive
      exact hlive.2
    unfold MemoryRow.live
    rw [hdeletedAt, Option.isNone_none, Bool.true_and]
    cases hpatch : patch.status with
    | none =>
      rw [hpatch] at hstatusLive
      exact hstatusLive
    | some status =>
      rw [hpatch] at hstatus hstatusLive
      refine hstatus.resolve_right fun hnone => ?_
      rw [Option.all_some, show status.dedupes = true from hstatusLive] at hnone
      cases hnone

theorem live_split (hguard : LookupKept i w (.statement (.memory s)))
    (hrun : s.run distance w.moment w.tables.memory = .ok (a, t')) (hrow' : row' ∈ t'.memories)
    (hextracted' : row'.extracted = true) (hlive' : row'.live = true) :
    (∃ row ∈ w.tables.memory.memories, row.extracted = true ∧ row.live = true ∧ row'.id = row.id ∧
      row'.owner = row.owner ∧ row'.contentHash = row.contentHash) ∨
      ∃ insert, s = .insertExtractedMemory insert ∧ MemoryTables.ExtractedMemory w.moment insert row' := by
  rcases MemoryTables.mem_memories_run hids hrun hrow' with ⟨row, hrow, hchanged⟩ | ⟨hinserted, -⟩
  · have hextracted : row.extracted = true := by
      unfold MemoryRow.extracted at hextracted' ⊢
      rw [← hchanged.keeps.conversationId]
      exact hextracted'
    obtain ⟨hlive, hhash⟩ := live_of_changed hids hrow hguard hchanged hextracted hlive'
    exact .inl ⟨row, hrow, hextracted, hlive, hchanged.keeps.id, hchanged.keeps.owner, hhash⟩
  · cases hinserted with
    | created hcreated =>
      unfold MemoryRow.extracted at hextracted'
      rw [hcreated.conversationId] at hextracted'
      cases hextracted'
    | extracted hinsert => exact .inr ⟨_, rfl, hinsert⟩

theorem Unmatched.others (hlisted : Listed w) {j : Nat} (hij : j ≠ i)
    (hguard : LookupKept i w (.statement (.memory s)))
    (hrun : s.run distance w.moment w.tables.memory = .ok (a, t'))
    (h : Unmatched w.tables.memory (w.seen j)) : Unmatched t' (w.seen j) := by
  intro scope contentHash hlooked row' hrow' hextracted' hlive' hcovers hhash
  rcases live_split hids hguard hrun hrow' hextracted' hlive' with
    ⟨row, hrow, hextracted, hlive, -, howner, hrowHash⟩ | ⟨insert, rfl, hinsert⟩
  · rw [howner] at hcovers
    exact h scope contentHash hlooked row hrow hextracted hlive hcovers (hrowHash.symm.trans hhash)
  · -- the lookup of the other call is on the list
    have hmet : (w.lookups.all fun (j, scope, contentHash) =>
      j = i || contentHash ≠ insert.contentHash || !scope.covers insert.owner) = true := hguard
    have hlookup := List.all_eq_true.mp hmet _ (hlisted j _ hlooked)
    rw [hinsert.owner] at hcovers
    rw [hinsert.contentHash] at hhash
    simp [hij, hhash, hcovers] at hlookup

theorem Unmatched.own
    (hscopes : ∀ row ∈ w.tables.memory.memories, row.extracted = true →
      row.scope = .userApplication ∨ row.scope = .conversation)
    (hguard : LookupKept i w (.statement (.memory s)))
    (hrun : s.run distance w.moment w.tables.memory = .ok (a, t'))
    (h : Unmatched w.tables.memory (w.seen i)) : Unmatched t' ((w.seen i).recordMemory s a) := by
  -- what is looked up is what the call has seen before, or the lookup has just found nothing
  intro scope contentHash hlooked row' hrow' hextracted' hlive' hcovers hhash
  have hbefore : (w.seen i).looked = some (scope, contentHash) →
      (∀ insert, s ≠ .insertExtractedMemory insert) → False := by
    intro hseen hnew
    rcases live_split hids hguard hrun hrow' hextracted' hlive' with
      ⟨row, hrow, hextracted, hlive, -, howner, hrowHash⟩ | ⟨insert, heq, -⟩
    · rw [howner] at hcovers
      exact h scope contentHash hseen row hrow hextracted hlive hcovers (hrowHash.symm.trans hhash)
    · exact hnew insert heq
  cases s with
  | insertExtractedMemory insert => cases hlooked
  | confirmMemory id => cases hlooked
  | findMemoryByContentHash scope' contentHash' =>
    obtain ⟨hfound, rfl⟩ := Prod.mk.inj (Except.ok.inj hrun)
    cases a with
    | some existing => cases hlooked
    | none =>
      obtain ⟨rfl, rfl⟩ := Prod.mk.inj (Option.some.inj hlooked)
      refine found_of_live hrow' hlive' (sees_of_covers (hscopes row' hrow' hextracted') hcovers) ?_
      rw [hhash]
      exact hfound
  | createMemory insert => exact hbefore hlooked fun _ heq => (nomatch heq)
  | patchMemory id request content => exact hbefore hlooked fun _ heq => (nomatch heq)
  | deleteMemory id => exact hbefore hlooked fun _ heq => (nomatch heq)
  | insertMemoryEmbedding embedding => exact hbefore hlooked fun _ heq => (nomatch heq)
  | findMemoryAuthorized id access => exact hbefore hlooked fun _ heq => (nomatch heq)
  | listMemoriesAuthorized access query => exact hbefore hlooked fun _ heq => (nomatch heq)
  | findMemoryCandidates scope' vector limit => exact hbefore hlooked fun _ heq => (nomatch heq)
  | findNearestMemory scope' vector => exact hbefore hlooked fun _ heq => (nomatch heq)
  | findMemoryByKey scope' memoryKey => exact hbefore hlooked fun _ heq => (nomatch heq)

theorem scopes_run
    (hscopes : ∀ row ∈ w.tables.memory.memories, row.extracted = true →
      row.scope = .userApplication ∨ row.scope = .conversation)
    (hdoes : DoesMemory request (w.seen i) s)
    (hrun : s.run distance w.moment w.tables.memory = .ok (a, t')) :
    ∀ row ∈ t'.memories, row.extracted = true → row.scope = .userApplication ∨
    row.scope = .conversation := by
  intro row' hrow' hextracted'
  rcases MemoryTables.mem_memories_run hids hrun hrow' with ⟨row, hrow, hchanged⟩ | ⟨hinserted, -⟩
  · rw [hchanged.keeps.scope]
    refine hscopes row hrow ?_
    unfold MemoryRow.extracted at hextracted' ⊢
    rw [← hchanged.keeps.conversationId]
    exact hextracted'
  · cases hinserted with
    | created hcreated =>
      unfold MemoryRow.extracted at hextracted'
      rw [hcreated.conversationId] at hextracted'
      cases hextracted'
    | extracted hinsert =>
      rw [hinsert.scope]
      exact hdoes.2.2.2

theorem unique_run (h : Extractions w.tables.memory)
    (hunmatched : Unmatched w.tables.memory (w.seen i))
    (hguard : LookupKept i w (.statement (.memory s))) (hdoes : DoesMemory request (w.seen i) s)
    (hrun : s.run distance w.moment w.tables.memory = .ok (a, t')) :
    ∀ row' ∈ t'.memories, ∀ other' ∈ t'.memories, row'.extracted = true → other'.extracted = true →
      row'.live = true → other'.live = true → (scopeOf other'.owner).covers row'.owner = true →
      row'.contentHash = other'.contentHash → row' = other' := by
  have hids' := MemoryTables.nodup_memories hids hrun
  -- what is new is no duplicate of what was there: the call has looked it up
  have hnew : ∀ insert row' row, s = .insertExtractedMemory insert →
      MemoryTables.ExtractedMemory w.moment insert row' → row ∈ w.tables.memory.memories →
          row.extracted = true →
      row.live = true → (scopeOf row'.owner).covers row.owner = true →
          row.contentHash ≠ row'.contentHash := by
    rintro insert row' row rfl hinsert hrow hextracted hlive hcovers
    rw [hinsert.owner] at hcovers
    rw [hinsert.contentHash]
    exact hunmatched _ _ hdoes.2.2.1 row hrow hextracted hlive hcovers
  intro row' hrow' other' hother' hextracted' hotherExtracted' hlive' hotherLive' hcovers hhash
  rcases live_split hids hguard hrun hrow' hextracted' hlive' with
    ⟨row, hrow, hextracted, hlive, hid, howner, hrowHash⟩ | ⟨insert, hs, hinsert⟩
  · rcases live_split hids hguard hrun hother' hotherExtracted' hotherLive' with
      ⟨other, hother, hotherExtracted, hotherLive, hotherId, hotherOwner, hotherHash⟩ | ⟨insert, hs, hinsert⟩
    · rw [howner, hotherOwner] at hcovers
      rw [hrowHash, hotherHash] at hhash
      have hsame := h.unique row hrow other hother hextracted hotherExtracted hlive hotherLive hcovers hhash
      exact Rows.eq_of_key hids' hrow' hother' (by rw [hid, hotherId, hsame])
    · rw [howner] at hcovers
      rw [hrowHash] at hhash
      exact absurd hhash (hnew insert other' row hs hinsert hrow hextracted hlive hcovers)
  · rcases live_split hids hguard hrun hother' hotherExtracted' hotherLive' with
      ⟨other, hother, hotherExtracted, hotherLive, hotherId, hotherOwner, hotherHash⟩ |
          ⟨other, hs', hotherInsert⟩
    · rw [hotherOwner] at hcovers
      rw [hotherHash] at hhash
      exact absurd hhash.symm (hnew insert row' other hs hinsert hother hotherExtracted hotherLive
          (covers_symm hcovers))
    · rw [hs] at hs'
      cases hs'
      exact Rows.eq_of_key hids' hrow' hother' (by rw [hinsert.id, hotherInsert.id])

end

end Statements

/-! ## Runs -/

section Runs

variable {deployment : Deployment} {requests : Nat → Request}

theorem listed_lookupsWith {w w' : World} {i : Nat} {seen : Seen} (h : Listed w)
    (hseen : w'.seen = Function.update w.seen i seen)
    (hlookups : w'.lookups = w.lookupsWith i seen) : Listed w' := by
  intro j looked hlooked
  rw [hseen] at hlooked
  rw [hlookups]
  by_cases hij : j = i
  · subst hij
    rw [Function.update_self] at hlooked
    refine List.mem_append_left _ ?_
    rw [hlooked]
    exact List.mem_singleton_self _
  · rw [Function.update_of_ne hij] at hlooked
    exact List.mem_append_right _ (List.mem_filter.mpr ⟨h j looked hlooked, decide_eq_true hij⟩)

theorem preserved_listed (guard : Nat → World → ConversationOp → Prop) :
    Preserved deployment requests guard Listed where
  statement hlisted _ _ hstep := listed_lookupsWith hlisted hstep.seen hstep.lookups
  idle hlisted hstep := listed_lookupsWith hlisted hstep.seen hstep.lookups
  nature hlisted := hlisted

/-- The ids of memories, and the scopes of those that extractions have inserted. -/
structure MemoryScopes (t : Tables) : Prop where
  ids : (t.memory.memories.map MemoryRow.id).Nodup
  scopes : ∀ row ∈ t.memory.memories, row.extracted = true → row.scope = .userApplication ∨
      row.scope = .conversation

theorem preserved_unmatched : Preserved deployment requests LookupKept fun w =>
    (Listed w ∧ MemoryScopes w.tables) ∧ ∀ j, Unmatched w.tables.memory (w.seen j) := by
  have hbase : Preserved deployment requests LookupKept fun w => Listed w ∧ MemoryScopes w.tables := by
    refine (preserved_listed LookupKept).with_tables (J := MemoryScopes) ?_
    intro i w w' s a _ hscopes _ hdoes hstep
    cases s with
    | memory s =>
      obtain ⟨tables, hrun, ht⟩ := Statement.run_memory hstep.run
      rw [ht]
      exact ⟨MemoryTables.nodup_memories hscopes.ids hrun, scopes_run hscopes.ids hscopes.scopes hdoes hrun⟩
    | conversation s | document s | policy s =>
      have hkept := Statement.memory_kept hstep.run (by simp)
      exact ⟨hkept ▸ hscopes.ids, hkept ▸ hscopes.scopes⟩
  refine hbase.with_seen (P := fun _ t seen => Unmatched t.memory seen) ?_ ?_ ?_
  · intro i w w' s a j hI hij hguard _ hstep hunmatched
    cases s with
    | memory s =>
      obtain ⟨tables, hrun, ht⟩ := Statement.run_memory hstep.run
      rw [ht]
      exact hunmatched.others hI.2.ids hI.1 hij hguard hrun
    | conversation s | document s | policy s =>
      rw [Statement.memory_kept hstep.run (by simp)]
      exact hunmatched
  · intro i w w' s a hI hguard _ hstep hunmatched
    cases s with
    | memory s =>
      obtain ⟨tables, hrun, ht⟩ := Statement.run_memory hstep.run
      rw [ht]
      exact hunmatched.own hI.2.ids hI.2.scopes hguard hrun
    | conversation s | policy s =>
      rw [Statement.memory_kept hstep.run (by simp)]
      cases s <;> exact hunmatched
    | document s =>
      obtain ⟨place, target, collection, heq⟩ := recordDocument_eq (w.seen i) s a
      rw [Statement.memory_kept hstep.run (by simp)]
      show Unmatched _ ((w.seen i).recordDocument s a)
      rw [heq]
      exact hunmatched
  · intro j t seen seen' hunmatched hidles
    cases hidles with
    | rest | asked => exact hunmatched
    | answered => exact fun _ _ hlooked => (nomatch hlooked)

theorem preserved_extractions : Preserved deployment requests LookupKept fun w =>
    ((Listed w ∧ MemoryScopes w.tables) ∧ ∀ j, Unmatched w.tables.memory (w.seen j)) ∧
      Extractions w.tables.memory := by
  refine preserved_unmatched.with_tables (J := fun t => Extractions t.memory) ?_
  rintro i w w' s a ⟨⟨-, hscopes⟩, hunmatched⟩ hextractions hguard hdoes hstep
  cases s with
  | memory s =>
    obtain ⟨tables, hrun, ht⟩ := Statement.run_memory hstep.run
    rw [ht]
    exact ⟨scopes_run hscopes.ids hscopes.scopes hdoes hrun,
      unique_run hscopes.ids hextractions (hunmatched i) hguard hdoes hrun⟩
  | conversation s | document s | policy s =>
    rw [Statement.memory_kept hstep.run (by simp)]
    exact hextractions

/-- No two live memories that extractions have inserted in one scope are of the same text. -/
def NoDuplicates (t : MemoryTables) : Prop :=
  ∀ row ∈ t.memories, ∀ other ∈ t.memories, row.extracted = true → other.extracted = true →
    row.live = true → other.live = true → (scopeOf other.owner).covers row.owner = true →
    row.contentHash = other.contentHash → row = other

variable {s : (conversations deployment requests).State} {moves : List (conversations deployment requests).Move}

/-- **Extraction writes no duplicate memory**, in every run that meets `LookupKept`. -/
theorem extraction_writes_no_duplicate
    (hmeets : Meets (conversations deployment requests).step (System.Guarded LookupKept)
      (conversationsInitial deployment requests) moves)
    (hrun : runFrom (conversations deployment requests).step (conversationsInitial deployment requests) moves =
      some s) : NoDuplicates s.world.tables.memory :=
  (preserved_extractions.run onProtocol_initial
    ⟨⟨⟨fun _ _ hlooked => (nomatch hlooked), List.nodup_nil, fun _ hrow => absurd hrow List.not_mem_nil⟩,
      fun _ _ _ hlooked => (nomatch hlooked)⟩,
      ⟨fun _ hrow => absurd hrow List.not_mem_nil, fun _ hrow => absurd hrow List.not_mem_nil⟩⟩ hmeets hrun).2.2.unique

end Runs

/-! ### Samples -/

namespace Sample

/-- Two turns of one conversation, with extraction on. -/
def turnCalls : List Call :=
  [.putMemoryPolicy 1 { enabled := some true, automaticExtractionEnabled := some true },
    .putConversationPolicy 1 { memoryEnabled := some true, memoryExtractionEnabled := some true },
    .createConversation none (.obj []),
    .recordAssistantResponse 1 100 101 (some "you like tea"),
    .recordAssistantResponse 1 102 103 (some "you like tea")]

/-- A model that finds the same twice. -/
def repeating : Backend where
  candidates := [{ content := "tea" }, { content := "tea" }]

/-- The turns move so many steps in turn. -/
def turns (first second third : Nat) : List Nat :=
  List.replicate 3 0 ++ List.replicate 3 1 ++ List.replicate 5 2 ++ List.replicate first 3 ++
    List.replicate second 4 ++ List.replicate third 3

instance instDecidableLookupKeptMove (calls : List Call) (s : (system calls).State)
    (m : (system calls).Move) :
    Decidable (System.Guarded (M := system calls) LookupKept s m) :=
  decidableGuarded calls lookupKept s m

end Sample

open Sample in
/-- One turn after the other. -/
theorem extraction_writes_no_duplicate_inTurn :
    ∃ s : (system turnCalls).State,
      s.world.tables.memory.memories.map (fun row => (row.extracted, row.contentHash.text)) = [(true, "tea")] ∧
        NoDuplicates s.world.tables.memory := by
  have hsummary : (after repeating turnCalls (turns 23 23 0)).map (fun s =>
      s.world.tables.memory.memories.map fun row => (row.extracted, row.contentHash.text)) =
        some [(true, "tea")] := by
    decide +kernel
  have hmeets : Meets (system turnCalls).step (System.Guarded LookupKept)
      (conversationsInitial deployment (requestsOf turnCalls)) (scheduled repeating turnCalls (turns 23 23 0)) := by
    decide +kernel
  obtain ⟨s, hrun, hmemories⟩ := Option.map_eq_some_iff.mp hsummary
  exact ⟨s, hmemories, extraction_writes_no_duplicate hmeets hrun⟩

open Sample in
/-- Both turns look up the text before either inserts it. -/
theorem overlapping_extractions_write_a_duplicate :
    ¬∀ (moves : List (system turnCalls).Move) (s : (system turnCalls).State),
      runFrom (system turnCalls).step (conversationsInitial deployment (requestsOf turnCalls)) moves = some s →
        NoDuplicates s.world.tables.memory := by
  intro hall
  have hsummary : (after repeating turnCalls (turns 11 14 3)).map
      (fun s => s.world.tables.memory.memories.map fun row =>
      (row.id, row.extracted, row.live, scopeOf row.owner, row.contentHash)) =
        some [(4, true, true, callerScope, ⟨"tea"⟩), (5, true, true, callerScope, ⟨"tea"⟩)] := by
    decide +kernel
  obtain ⟨s, hrun, hmemories⟩ := Option.map_eq_some_iff.mp hsummary
  obtain ⟨row, hrow, heq⟩ := List.mem_map.mp (hmemories ▸ List.mem_cons_self)
  obtain ⟨other, hother, hotherEq⟩ := List.mem_map.mp
    (hmemories ▸ List.mem_cons_of_mem _ (List.mem_singleton_self (5, true, true, callerScope, (⟨"tea"⟩ : Digest))))
  simp only [Prod.mk.injEq] at heq hotherEq
  obtain ⟨hid, hextracted, hlive, hscope, hhash⟩ := heq
  obtain ⟨hotherId, hotherExtracted, hotherLive, hotherScope, hotherHash⟩ := hotherEq
  have hcovers : (scopeOf other.owner).covers row.owner = true := by
    rw [hotherScope, ← hscope]
    simp [RetrievalScope.covers, scopeOf, sameText]
  have hsame := hall _ s hrun row hrow other hother hextracted hotherExtracted hlive hotherLive hcovers
    (hhash.trans hotherHash.symm)
  rw [hsame, hotherId] at hid
  cases hid

end Moira.Conversations
