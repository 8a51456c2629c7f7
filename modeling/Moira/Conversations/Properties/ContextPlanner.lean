import Moira.Conversations.ContextPlanner
import Mathlib.Data.List.Infix

/-!
# What the context planner keeps, and what it reports

- `keep_survives` — what the drop loop leaves is the most the budget allows, section by section
-/

namespace Moira.ContextPlanner

open Conversations (budgetTokens charsPerToken countWords trimEnd)

variable {required maximum : Int}

/-! ## Sums -/

theorem fits_iff {s : ContextSections} :
    fits required s maximum = true ↔ storedTokens required s ≤ maximum := by
  simp [fits]

theorem fits_dropChunks {s : ContextSections} (h : fits required s maximum) :
    fits required { s with chunks := [] } maximum := by
  rw [fits_iff] at h ⊢
  simp only [storedTokens, List.map_nil, List.sum_nil] at h ⊢
  omega

theorem fits_dropMemories {s : ContextSections} (h : fits required s maximum) :
    fits required { s with memories := [] } maximum := by
  rw [fits_iff] at h ⊢
  simp only [storedTokens, List.map_nil, List.sum_nil] at h ⊢
  omega

/-! ## The thinned history -/

/-- The longest end of the history that fits with the other sections. -/
def newestThatFit (required maximum : Int) (s : ContextSections) :
    List HistoryMessage → List HistoryMessage
  | [] => []
  | message :: rest =>
    if fits required { s with history := message :: rest } maximum then message :: rest
    else newestThatFit required maximum s rest

theorem newestThatFit_suffix (required maximum : Int) (s : ContextSections)
    (messages : List HistoryMessage) :
    newestThatFit required maximum s messages <:+ messages := by
  induction messages with
  | nil => exact List.suffix_refl []
  | cons message rest ih =>
    rw [newestThatFit]
    split
    · exact List.suffix_refl _
    · exact ih.trans (List.suffix_cons message rest)

theorem newestThatFit_longest {s : ContextSections} {messages newest : List HistoryMessage}
    (hsuffix : newest <:+ messages)
    (hfits : fits required { s with history := newest } maximum) :
    newest.length ≤ (newestThatFit required maximum s messages).length := by
  induction messages with
  | nil => simp [List.suffix_nil.mp hsuffix]
  | cons message rest ih =>
    rw [newestThatFit]
    split
    · exact hsuffix.length_le
    · next hover =>
      rcases List.suffix_cons_iff.mp hsuffix with rfl | hrest
      · exact absurd hfits hover
      · exact ih hrest

theorem newestThatFit_fits {s : ContextSections} (messages : List HistoryMessage)
    (h : fits required { s with history := [] } maximum) :
    fits required { s with history := newestThatFit required maximum s messages } maximum := by
  induction messages with
  | nil => exact h
  | cons message rest ih =>
    rw [newestThatFit]
    split
    · next hfits => exact hfits
    · exact ih

theorem newestThatFit_of_fits {s : ContextSections} {messages : List HistoryMessage}
    (h : fits required { s with history := messages } maximum) :
    newestThatFit required maximum s messages = messages := by
  cases messages with
  | nil => rfl
  | cons message rest => rw [newestThatFit, if_pos h]

theorem newestThatFit_history (s : ContextSections) (history messages : List HistoryMessage) :
    newestThatFit required maximum { s with history } messages =
      newestThatFit required maximum s messages := by
  induction messages with
  | nil => rfl
  | cons message rest ih => simp only [newestThatFit, ih]

theorem thinHistory_eq (required maximum : Int) (messages : List HistoryMessage) : ∀ d : Dropping,
    d.sections.history = messages →
    (thinHistory required maximum messages d).sections =
        { d.sections with history := newestThatFit required maximum d.sections messages } ∧
      (thinHistory required maximum messages d).excluded =
        { d.excluded with
          messages := d.excluded.messages +
            (messages.length - (newestThatFit required maximum d.sections messages).length) } ∧
      (thinHistory required maximum messages d).truncationReason =
        if (newestThatFit required maximum d.sections messages).length < messages.length then
          some "recent_messages_truncated"
        else d.truncationReason := by
  induction messages with
  | nil =>
    intro d hd
    simp [thinHistory, newestThatFit, ← hd]
  | cons message rest ih =>
    intro d hd
    have hsame : { d.sections with history := message :: rest } = d.sections := by rw [← hd]
    by_cases hfits : fits required d.sections maximum = true
    · rw [thinHistory, if_pos hfits, newestThatFit_of_fits (by rw [hsame]; exact hfits)]
      simp [hsame]
    · have hshort := (newestThatFit_suffix required maximum d.sections rest).length_le
      obtain ⟨hsections, hexcluded, hreason⟩ := ih
        { sections := { d.sections with history := rest }
          excluded := { d.excluded with messages := d.excluded.messages + 1 }
          truncationReason := some "recent_messages_truncated" } rfl
      rw [newestThatFit_history] at hsections hexcluded hreason
      rw [thinHistory, if_neg hfits, newestThatFit, if_neg (by rw [hsame]; exact hfits)]
      refine ⟨hsections, hexcluded.trans ?_, hreason.trans ?_⟩
      · simp only [List.length_cons]
        congr 1
        omega
      · simp only [List.length_cons, ite_self]
        rw [if_pos (by omega)]

/-! ## What survives -/

/-- What is left when the chunks are gone. -/
def ContextSections.withoutChunks (s : ContextSections) : ContextSections :=
  { s with chunks := [] }

/-- What is left when the memories are gone as well. -/
def ContextSections.withoutMemories (s : ContextSections) : ContextSections :=
  { s with chunks := [], memories := [] }

/-- Only the history is left. -/
def ContextSections.withoutSummary (s : ContextSections) : ContextSections :=
  { s with chunks := [], memories := [], summary := none }

section Steps

variable (s : ContextSections)

/-- After the first step of the drop loop. -/
def chunksDropped : Dropping where
  sections := s.withoutChunks
  excluded := { ragChunks := s.chunks.length }
  truncationReason := some "retrieved_rag_dropped"

/-- After the second. -/
def memoriesDropped : Dropping where
  sections := s.withoutMemories
  excluded := { ragChunks := s.chunks.length, memories := s.memories.length }
  truncationReason := some "retrieved_memory_dropped"

/-- After the third, which says nothing where there is no summary. -/
def summaryDropped : Dropping where
  sections := s.withoutSummary
  excluded := { ragChunks := s.chunks.length, memories := s.memories.length
                summaries := s.summary.toList.length }
  truncationReason :=
    if s.summary.isSome then some "conversation_summary_dropped" else some "retrieved_memory_dropped"

theorem dropSection_rag :
    dropSection required maximum { sections := s } .retrievedRag = chunksDropped s := by
  simp [dropSection, chunksDropped, ContextSections.withoutChunks]

theorem dropSection_memory :
    dropSection required maximum (chunksDropped s) .retrievedMemory = memoriesDropped s := by
  simp [dropSection, chunksDropped, memoriesDropped, ContextSections.withoutChunks,
    ContextSections.withoutMemories]

theorem dropSection_summary :
    dropSection required maximum (memoriesDropped s) .conversationSummary = summaryDropped s := by
  cases hsummary : s.summary <;>
    simp [dropSection, memoriesDropped, summaryDropped, ContextSections.withoutMemories,
      ContextSections.withoutSummary, hsummary]

theorem keep_eq :
    keep required maximum s =
      if fits required s maximum then { sections := s }
      else if fits required s.withoutChunks maximum then chunksDropped s
      else if fits required s.withoutMemories maximum then memoriesDropped s
      else if fits required s.withoutSummary maximum then summaryDropped s
      else thinHistory required maximum s.history (summaryDropped s) := by
  simp only [keep, optionalDropOrder, dropUntilFits, dropSection_rag, dropSection_memory,
    dropSection_summary]
  rfl

end Steps

/-- What the sections come to, from what the budget allows. -/
structure Survives (required maximum : Int) (s kept : ContextSections) : Prop where
  /-- The chunks stay exactly if everything fits. -/
  chunks : kept.chunks = if fits required s maximum then s.chunks else []
  /-- The memories stay exactly if the rest without the chunks fits. -/
  memories : kept.memories = if fits required s.withoutChunks maximum then s.memories else []
  /-- The summary stays exactly if it fits with the history alone. -/
  summary : kept.summary = if fits required s.withoutMemories maximum then s.summary else none
  suffix : kept.history <:+ s.history
  fits : fits required kept maximum
  longest : ∀ newest, newest <:+ s.history →
    ContextPlanner.fits required { kept with history := newest } maximum →
      newest.length ≤ kept.history.length

/-- The reason the counts call for: the last section from which something was dropped. -/
def lastDropped (excluded : ExcludedCounts) : Option String :=
  if excluded.messages ≠ 0 then some "recent_messages_truncated"
  else if excluded.summaries ≠ 0 then some "conversation_summary_dropped"
  else if excluded.memories ≠ 0 then some "retrieved_memory_dropped"
  else if excluded.ragChunks ≠ 0 then some "retrieved_rag_dropped"
  else none

/-- What is excluded and what is kept add up, section by section. -/
structure Accounts (s kept : ContextSections) (excluded : ExcludedCounts) : Prop where
  messages : excluded.messages + kept.history.length = s.history.length
  summaries : excluded.summaries + kept.summary.toList.length = s.summary.toList.length
  memories : excluded.memories + kept.memories.length = s.memories.length
  ragChunks : excluded.ragChunks + kept.chunks.length = s.chunks.length

theorem fits_of_required (hrequired : required ≤ maximum) (s : ContextSections) :
    fits required { s.withoutSummary with history := [] } maximum := by
  rw [fits_iff]
  simpa [storedTokens, textTokens, ContextSections.withoutSummary] using hrequired

/-! ### A step that was needed dropped something -/

theorem fits_withoutChunks {s : ContextSections} (h : fits required s maximum) :
    fits required s.withoutChunks maximum :=
  fits_dropChunks h

theorem fits_withoutMemories {s : ContextSections} (h : fits required s.withoutChunks maximum) :
    fits required s.withoutMemories maximum :=
  fits_dropMemories h

theorem chunks_ne_nil {s : ContextSections} (hover : ¬fits required s maximum)
    (h : fits required s.withoutChunks maximum) : s.chunks.length ≠ 0 := by
  intro hnil
  rw [List.length_eq_zero_iff] at hnil
  have hsame : s.withoutChunks = s := by rw [ContextSections.withoutChunks, ← hnil]
  exact hover (hsame ▸ h)

theorem memories_ne_nil {s : ContextSections} (hover : ¬fits required s.withoutChunks maximum)
    (h : fits required s.withoutMemories maximum) : s.memories.length ≠ 0 := by
  intro hnil
  rw [List.length_eq_zero_iff] at hnil
  have hsame : s.withoutMemories = s.withoutChunks := by
    rw [ContextSections.withoutMemories, ContextSections.withoutChunks, ← hnil]
  exact hover (hsame ▸ h)

theorem summary_isSome {s : ContextSections} (hover : ¬fits required s.withoutMemories maximum)
    (h : fits required s.withoutSummary maximum) : s.summary.isSome := by
  by_contra hnone
  rw [Option.not_isSome_iff_eq_none] at hnone
  have hsame : s.withoutSummary = s.withoutMemories := by
    rw [ContextSections.withoutSummary, ContextSections.withoutMemories, ← hnone]
  exact hover (hsame ▸ h)

theorem newestThatFit_lt {s : ContextSections}
    (hover : ¬fits required s.withoutSummary maximum) (hrequired : required ≤ maximum) :
    (newestThatFit required maximum s.withoutSummary s.history).length < s.history.length := by
  have hsuffix := newestThatFit_suffix required maximum s.withoutSummary s.history
  rcases Nat.lt_or_ge (newestThatFit required maximum s.withoutSummary s.history).length
    s.history.length with hlt | hge
  · exact hlt
  · exfalso
    have hwhole := hsuffix.eq_of_length_le hge
    have hfits := newestThatFit_fits s.history (fits_of_required hrequired s)
    rw [hwhole] at hfits
    exact hover hfits

/-- **What the drop loop leaves.** -/
theorem keep_spec (hrequired : required ≤ maximum) (s : ContextSections) :
    Survives required maximum s (keep required maximum s).sections ∧
      Accounts s (keep required maximum s).sections (keep required maximum s).excluded ∧
      (keep required maximum s).truncationReason = lastDropped (keep required maximum s).excluded := by
  rw [keep_eq]
  by_cases hall : fits required s maximum = true
  · rw [if_pos hall]
    have hchunks := fits_withoutChunks hall
    have hmemories := fits_withoutMemories hchunks
    refine ⟨⟨?_, ?_, ?_, List.suffix_refl _, hall, fun _ hsuffix _ => hsuffix.length_le⟩, ?_, rfl⟩
    · rw [if_pos hall]
    · rw [if_pos hchunks]
    · rw [if_pos hmemories]
    · constructor <;> simp
  rw [if_neg hall]
  by_cases hchunks : fits required s.withoutChunks maximum = true
  · rw [if_pos hchunks]
    have hmemories := fits_withoutMemories hchunks
    refine ⟨⟨?_, ?_, ?_, List.suffix_refl _, hchunks, fun _ hsuffix _ => hsuffix.length_le⟩, ?_, ?_⟩
    · rw [if_neg hall]; rfl
    · rw [if_pos hchunks]; rfl
    · rw [if_pos hmemories]; rfl
    · constructor <;> simp [chunksDropped, ContextSections.withoutChunks]
    · simp [chunksDropped, lastDropped, chunks_ne_nil hall hchunks]
  rw [if_neg hchunks]
  by_cases hmemories : fits required s.withoutMemories maximum = true
  · rw [if_pos hmemories]
    refine ⟨⟨?_, ?_, ?_, List.suffix_refl _, hmemories, fun _ hsuffix _ => hsuffix.length_le⟩, ?_, ?_⟩
    · rw [if_neg hall]; rfl
    · rw [if_neg hchunks]; rfl
    · rw [if_pos hmemories]; rfl
    · constructor <;> simp [memoriesDropped, ContextSections.withoutMemories]
    · simp [memoriesDropped, lastDropped, memories_ne_nil hchunks hmemories]
  rw [if_neg hmemories]
  by_cases hsummary : fits required s.withoutSummary maximum = true
  · rw [if_pos hsummary]
    have hsome := summary_isSome hmemories hsummary
    refine ⟨⟨?_, ?_, ?_, List.suffix_refl _, hsummary, fun _ hsuffix _ => hsuffix.length_le⟩, ?_, ?_⟩
    · rw [if_neg hall]; rfl
    · rw [if_neg hchunks]; rfl
    · rw [if_neg hmemories]; rfl
    · constructor <;> simp [summaryDropped, ContextSections.withoutSummary]
    · obtain ⟨summary, hsummary⟩ := Option.isSome_iff_exists.mp hsome
      simp [summaryDropped, lastDropped, hsummary]
  -- only the history is left, and it does not fit whole
  rw [if_neg hsummary]
  have hshort := newestThatFit_lt hsummary hrequired
  obtain ⟨hsections, hexcluded, hreason⟩ := thinHistory_eq required maximum s.history
    (summaryDropped s) rfl
  have hdropped : (summaryDropped s).sections = s.withoutSummary := rfl
  rw [hdropped] at hsections hexcluded hreason
  rw [if_pos hshort] at hreason
  rw [hsections, hexcluded, hreason]
  refine ⟨⟨?_, ?_, ?_, newestThatFit_suffix _ _ _ _,
    newestThatFit_fits s.history (fits_of_required hrequired s),
    fun newest hsuffix hfits => newestThatFit_longest (s := s.withoutSummary) hsuffix hfits⟩, ?_, ?_⟩
  · rw [if_neg hall]; rfl
  · rw [if_neg hchunks]; rfl
  · rw [if_neg hmemories]; rfl
  · constructor
    · show 0 + (s.history.length -
          (newestThatFit required maximum s.withoutSummary s.history).length) +
        (newestThatFit required maximum s.withoutSummary s.history).length = s.history.length
      omega
    · rfl
    · rfl
    · rfl
  · have hdrops : 0 + (s.history.length -
        (newestThatFit required maximum s.withoutSummary s.history).length) ≠ 0 := by omega
    exact (if_pos hdrops).symm

/-! ## What is written -/

/-- The entries that have text. -/
def withText {α : Type} (text : α → Option String) (entries : List α) : List α :=
  entries.filter fun entry => (text entry).isSome

/-- The block of a retrieved section: a line for each entry that has text. -/
def blockOf {α : Type} (text : α → Option String) (source : α → String) : List α → String
  | [] => ""
  | entry :: rest =>
    match text entry with
    | some body => blockLine (source entry) body ++ blockOf text source rest
    | none => blockOf text source rest

/-- The message of a block, if anything is in it. -/
def blockMessages (block : String) : List DomainMessage :=
  if block.isEmpty then [] else [labelledUserMessage retrievedContextLabel block]

theorem wireSummary_eq (a : AssembledContext) (summary : Option (Uuid × String)) :
    a.wireSummary summary =
      { a with
        estimatedInputTokens := a.estimatedInputTokens + textTokens (summary.map (·.2))
        includedSummaryId := (summary.map (·.1)).or a.includedSummaryId
        messages := a.messages ++
          summary.toList.map fun s => labelledUserMessage summaryContextLabel s.2 } := by
  cases summary <;> simp [AssembledContext.wireSummary, AssembledContext.push, textTokens]

/-- The message of a turn that has text. -/
def HistoryMessage.replayed (message : HistoryMessage) : DomainMessage :=
  historyMessage message.role (message.content.getD "")

theorem foldl_wireTurn (messages : List HistoryMessage) : ∀ a : AssembledContext,
    messages.foldl AssembledContext.wireTurn a =
      { a with
        estimatedInputTokens := a.estimatedInputTokens +
          (messages.map fun message => textTokens message.content).sum
        includedMessageIds := a.includedMessageIds ++
          (withText HistoryMessage.content messages).map HistoryMessage.messageUuid
        messages := a.messages ++
          (withText HistoryMessage.content messages).map HistoryMessage.replayed } := by
  induction messages with
  | nil => intro a; simp [withText]
  | cons message rest ih =>
    intro a
    rw [List.foldl_cons, ih]
    cases hcontent : message.content <;>
      simp [AssembledContext.wireTurn, AssembledContext.push, withText, textTokens,
        HistoryMessage.replayed, hcontent]
    omega

variable {α : Type}

variable (text : α → Option String) (source : α → String)

theorem foldl_wireEntry (note : AssembledContext → α → AssembledContext) (entries : List α) :
    ∀ (a : AssembledContext) (block : String),
      entries.foldl (wireEntry text source note) (a, block) =
        ((withText text entries).foldl note a, block ++ blockOf text source entries) := by
  induction entries with
  | nil => intro a block; simp [withText, blockOf]
  | cons entry rest ih =>
    intro a block
    cases htext : text entry <;>
      simp [wireEntry, withText, blockOf, htext, ih, String.append_assoc]

theorem wireRetrieved_eq (note : AssembledContext → α → AssembledContext) (entries : List α)
    (a : AssembledContext) :
    wireRetrieved text source note entries a =
      { (withText text entries).foldl note a with
        estimatedInputTokens := ((withText text entries).foldl note a).estimatedInputTokens +
          budgetTokens (blockOf text source entries)
        messages := ((withText text entries).foldl note a).messages ++
          blockMessages (blockOf text source entries) } := by
  unfold wireRetrieved
  cases entries with
  | nil => simp [withText, blockOf, blockMessages, budgetTokens]
  | cons entry rest =>
    rw [if_neg (by simp), foldl_wireEntry]
    simp only [String.empty_append]
    by_cases hblock : (blockOf text source (entry :: rest)).isEmpty = true
    · rw [if_pos hblock]
      simp [blockMessages, budgetTokens, hblock]
    · rw [if_neg hblock]
      simp [blockMessages, AssembledContext.push, hblock]

theorem foldl_noteMemory (memories : List MemoryCandidate) : ∀ a : AssembledContext,
    memories.foldl AssembledContext.noteMemory a =
      { a with
        includedMemoryIds := a.includedMemoryIds ++ memories.map MemoryCandidate.memoryUuid
        citations := a.citations ++ memories.map MemoryCandidate.citation } := by
  induction memories with
  | nil => intro a; simp
  | cons memory rest ih =>
    intro a
    rw [List.foldl_cons, ih]
    simp [AssembledContext.noteMemory]

theorem foldl_noteChunk (chunks : List RagChunkCandidate) : ∀ a : AssembledContext,
    chunks.foldl AssembledContext.noteChunk a =
      { a with
        includedChunkIds := a.includedChunkIds ++ chunks.map RagChunkCandidate.chunkUuid
        citations := a.citations ++ chunks.map RagChunkCandidate.citation } := by
  induction chunks with
  | nil => intro a; simp
  | cons chunk rest ih =>
    intro a
    rw [List.foldl_cons, ih]
    simp [AssembledContext.noteChunk]

def memoryBlock : List MemoryCandidate → String :=
  blockOf MemoryCandidate.content MemoryCandidate.memoryType

def chunkBlock : List RagChunkCandidate → String :=
  blockOf RagChunkCandidate.text RagChunkCandidate.source

/-- The sum the result reports: the retrieved sections count as the blocks they are written as. -/
def writtenTokens (requiredTokens : Int) (s : ContextSections) : Int :=
  requiredTokens + textTokens (s.summary.map (·.2)) +
    (s.history.map fun message => textTokens message.content).sum +
    budgetTokens (memoryBlock s.memories) + budgetTokens (chunkBlock s.chunks)

/-- The assembled context, field by field, from the sections that survived. -/
theorem assemble_eq (required : Int) (d : Dropping) :
    assemble required d =
      { messages := (d.sections.summary.toList.map fun s =>
            labelledUserMessage summaryContextLabel s.2) ++
          (withText HistoryMessage.content d.sections.history).map HistoryMessage.replayed ++
          blockMessages (memoryBlock d.sections.memories) ++
          blockMessages (chunkBlock d.sections.chunks)
        citations :=
          (withText MemoryCandidate.content d.sections.memories).map MemoryCandidate.citation ++
          (withText RagChunkCandidate.text d.sections.chunks).map RagChunkCandidate.citation
        includedMessageIds :=
          (withText HistoryMessage.content d.sections.history).map HistoryMessage.messageUuid
        includedSummaryId := d.sections.summary.map (·.1)
        includedMemoryIds :=
          (withText MemoryCandidate.content d.sections.memories).map MemoryCandidate.memoryUuid
        includedChunkIds :=
          (withText RagChunkCandidate.text d.sections.chunks).map RagChunkCandidate.chunkUuid
        excludedCounts := d.excluded.toValue
        truncationReason := d.truncationReason
        estimatedInputTokens := writtenTokens required d.sections } := by
  simp only [assemble, wireOrder, List.foldl_cons, List.foldl_nil, wireSection, wireSummary_eq,
    foldl_wireTurn, wireMemories, wireChunks, wireRetrieved_eq, foldl_noteMemory, foldl_noteChunk]
  simp [writtenTokens, memoryBlock, chunkBlock]

theorem assembleContext_eq_ok {s : ContextSections} {a : AssembledContext}
    (h : assembleContext s required maximum = .ok a) :
    required ≤ maximum ∧ a = assemble required (keep required maximum s) := by
  unfold assembleContext at h
  split at h
  · cases h
  · next hrequired =>
    injection h with ha
    exact ⟨by omega, ha.symm⟩

/-- What is written of the sections that were kept: their messages in order, and their provenance.
-/
structure Written (kept : ContextSections) (a : AssembledContext) : Prop where
  messages : a.messages =
    (kept.summary.toList.map fun s => labelledUserMessage summaryContextLabel s.2) ++
      (withText HistoryMessage.content kept.history).map HistoryMessage.replayed ++
      blockMessages (memoryBlock kept.memories) ++ blockMessages (chunkBlock kept.chunks)
  messageIds : a.includedMessageIds =
    (withText HistoryMessage.content kept.history).map HistoryMessage.messageUuid
  summaryId : a.includedSummaryId = kept.summary.map (·.1)
  memoryIds : a.includedMemoryIds =
    (withText MemoryCandidate.content kept.memories).map MemoryCandidate.memoryUuid
  chunkIds : a.includedChunkIds =
    (withText RagChunkCandidate.text kept.chunks).map RagChunkCandidate.chunkUuid
  citations : a.citations =
    (withText MemoryCandidate.content kept.memories).map MemoryCandidate.citation ++
      (withText RagChunkCandidate.text kept.chunks).map RagChunkCandidate.citation

/-- The words of a line: the dash, what it names between brackets, and its text. -/
def lineWords (line : String × String) : Nat :=
  1 + countWords false ('(' :: line.1.toList ++ [')']) + countWords false line.2.toList

/-- The characters of a line: what it names, its text, and six around them. -/
def lineLength (line : String × String) : Nat :=
  line.1.length + line.2.length + 6

/-- What the entries that have text are written as: what each names, and its text. -/
def linesOf {α : Type} (text : α → Option String) (source : α → String) (entries : List α) :
    List (String × String) :=
  entries.filterMap fun entry => (text entry).map fun body => (source entry, body)

/-- The larger of the words of some lines and a quarter of their characters. -/
def linesCost (lines : List (String × String)) : Nat :=
  max (lines.map lineWords).sum
    (((lines.map lineLength).sum + charsPerToken - 1) / charsPerToken)

/-- Words do not reach over a blank. -/
theorem countWords_append_blank {c : Char} (hc : isWhiteSpace c = true) (back : List Char) :
    ∀ (inWord : Bool) (front : List Char),
      countWords inWord (front ++ c :: back) = countWords inWord front + countWords false back
  | _, [] => by simp [countWords, hc]
  | inWord, d :: front => by
    simp only [List.cons_append, countWords, countWords_append_blank hc back _ front]
    split <;> omega

theorem countWords_blockLine (source text : String) (rest : List Char) :
    countWords false ((blockLine source text).toList ++ rest) =
      lineWords (source, text) + countWords false rest := by
  have hblank : isWhiteSpace ' ' = true := by decide
  have hline : isWhiteSpace '\n' = true := by decide
  have hdash : countWords false ['-'] = 1 := by decide
  have hsplit : (blockLine source text).toList ++ rest =
      ['-'] ++ ' ' :: (('(' :: source.toList ++ [')']) ++ ' ' :: (text.toList ++ '\n' :: rest)) := by
    simp [blockLine]
  rw [hsplit, countWords_append_blank hblank, countWords_append_blank hblank,
    countWords_append_blank hline, hdash]
  simp only [lineWords]
  omega

theorem length_blockLine (source text : String) :
    (blockLine source text).length = lineLength (source, text) := by
  have hopen : "- (".length = 3 := by decide
  have hclose : ") ".length = 2 := by decide
  have hline : "\n".length = 1 := by decide
  simp only [blockLine, lineLength, String.length_append, hopen, hclose, hline]
  omega

theorem blockOf_counts (entries : List α) :
    countWords false (blockOf text source entries).toList =
        ((linesOf text source entries).map lineWords).sum ∧
      (blockOf text source entries).length =
        ((linesOf text source entries).map lineLength).sum := by
  induction entries with
  | nil => exact ⟨rfl, rfl⟩
  | cons entry rest ih =>
    obtain ⟨hwords, hlength⟩ := ih
    cases htext : text entry with
    | none => simpa [blockOf, linesOf, htext] using And.intro hwords hlength
    | some body =>
      have hlines : linesOf text source (entry :: rest) =
          (source entry, body) :: linesOf text source rest := by
        simp [linesOf, htext]
      simp only [blockOf, htext, hlines, List.map_cons, List.sum_cons]
      rw [String.toList_append, countWords_blockLine, hwords, String.length_append,
        length_blockLine, hlength]
      exact ⟨rfl, rfl⟩

/-- **What a block counts.** -/
theorem budgetTokens_blockOf (entries : List α) :
    budgetTokens (blockOf text source entries) = linesCost (linesOf text source entries) := by
  obtain ⟨hwords, hlength⟩ := blockOf_counts text source entries
  unfold budgetTokens linesCost
  rw [hwords, hlength]
  cases hlines : linesOf text source entries with
  | nil =>
    have hempty : (blockOf text source entries).isEmpty = true := by
      rw [String.isEmpty_iff, ← String.length_eq_zero_iff, hlength, hlines]
      rfl
    rw [if_pos hempty]
    rfl
  | cons line rest =>
    have hone : 1 ≤ (List.map lineWords (line :: rest)).sum := by
      simp only [List.map_cons, List.sum_cons, lineWords]
      omega
    have hfilled : ¬(blockOf text source entries).isEmpty = true := by
      rw [String.isEmpty_iff, ← String.length_eq_zero_iff, hlength, hlines]
      simp only [List.map_cons, List.sum_cons, lineLength]
      omega
    rw [if_neg hfilled]
    omega

/-- What the lines of the memories cost beyond their texts. -/
def memoryOverhead (memories : List MemoryCandidate) : Int :=
  linesCost (linesOf MemoryCandidate.content MemoryCandidate.memoryType memories) -
    (memories.map fun memory => textTokens memory.content).sum

/-- What the lines of the chunks cost beyond their texts. -/
def chunkOverhead (chunks : List RagChunkCandidate) : Int :=
  linesCost (linesOf RagChunkCandidate.text RagChunkCandidate.source chunks) -
    (chunks.map fun chunk => textTokens chunk.text).sum

/-- What the budget leaves over the stored texts. -/
def room (required maximum : Int) (s : ContextSections) : Int :=
  maximum - storedTokens required s

/-- The lines that are written cost no more than the room: those of both sections if everything
fits, those of the memories if the rest without the chunks is what fits. -/
structure RoomForLines (required maximum : Int) (s : ContextSections) : Prop where
  whole : fits required s maximum →
    memoryOverhead s.memories + chunkOverhead s.chunks ≤ room required maximum s
  withoutChunks : ¬fits required s maximum → fits required s.withoutChunks maximum →
    memoryOverhead s.memories ≤ room required maximum s.withoutChunks

theorem writtenTokens_le_iff (s : ContextSections) :
    writtenTokens required s ≤ maximum ↔
      memoryOverhead s.memories + chunkOverhead s.chunks ≤ room required maximum s := by
  unfold writtenTokens memoryOverhead chunkOverhead room storedTokens memoryBlock chunkBlock
  rw [budgetTokens_blockOf, budgetTokens_blockOf]
  omega

theorem memoryOverhead_nil : memoryOverhead [] = 0 := rfl

theorem chunkOverhead_nil : chunkOverhead [] = 0 := rfl

/-- **When the estimate is within the budget.** -/
theorem estimate_within_budget {s : ContextSections} {a : AssembledContext}
    (h : assembleContext s required maximum = .ok a) :
    a.estimatedInputTokens ≤ maximum ↔ RoomForLines required maximum s := by
  obtain ⟨hrequired, rfl⟩ := assembleContext_eq_ok h
  rw [assemble_eq]
  show writtenTokens required (keep required maximum s).sections ≤ maximum ↔ _
  rw [writtenTokens_le_iff]
  by_cases hall : fits required s maximum = true
  · rw [keep_eq, if_pos hall]
    exact ⟨fun hroom => ⟨fun _ => hroom, fun hover => absurd hall hover⟩, fun hroom => hroom.whole hall⟩
  by_cases hchunks : fits required s.withoutChunks maximum = true
  · rw [keep_eq, if_neg hall, if_pos hchunks]
    show memoryOverhead s.memories + chunkOverhead [] ≤ room required maximum s.withoutChunks ↔ _
    rw [chunkOverhead_nil, Int.add_zero]
    exact ⟨fun hroom => ⟨fun h => absurd h hall, fun _ _ => hroom⟩,
      fun hroom => hroom.withoutChunks hall hchunks⟩
  · -- no retrieved section is left, and the other texts count as they are stored
    obtain ⟨hsurvives, -, -⟩ := keep_spec hrequired s
    have hmemories := hsurvives.memories
    have hnone := hsurvives.chunks
    rw [if_neg hchunks] at hmemories
    rw [if_neg hall] at hnone
    rw [hmemories, hnone, memoryOverhead_nil, chunkOverhead_nil]
    have hfits := fits_iff.mp hsurvives.fits
    refine ⟨fun _ => ⟨fun h => absurd h hall, fun _ h => absurd h hchunks⟩, fun _ => ?_⟩
    unfold room
    omega

namespace Sample

def theme : MemoryCandidate where
  memoryUuid := 1
  publicId := "mem_1"
  memoryType := "preference"
  memoryKey := some "theme"
  content := some "dark"

end Sample

/-- One memory in a wide budget. -/
theorem estimate_within_budget_wide :
    ∃ a, assembleContext { memories := [Sample.theme] } 1 100 = .ok a ∧
      (a.estimatedInputTokens ≤ 100 ↔ RoomForLines 1 100 { memories := [Sample.theme] }) := by
  have h : assembleContext { memories := [Sample.theme] } 1 100 =
    .ok (assemble 1 (keep 1 100 { memories := [Sample.theme] })) := rfl
  exact ⟨_, h, estimate_within_budget h⟩

/-- **The estimate over the budget.** A memory of four letters fits a budget of one token; the line
it is written as counts five. -/
theorem estimate_over_budget :
    ¬∀ (s : ContextSections) (required maximum : Int), 0 ≤ required → ∀ a,
      assembleContext s required maximum = .ok a → a.estimatedInputTokens ≤ maximum := by
  intro hall
  have hle := hall { memories := [Sample.theme] } 0 1 (by decide) _ rfl
  exact absurd hle (by decide +kernel)

end Moira.ContextPlanner
