import Moira.Conversations.Calls
import Moira.Lib.Fallible

/-!
# When a summary is planned

A plan is made of three reads. The messages are counted all, and read up to the limit of a
transcript: their tokens are summed over what is read.

- `planned`, `run_planned` — what the reads of one state lead to
-/

namespace Moira.Conversations

open Prog Service

/-! ## One state -/

/-- Conversation statements are answered from the tables as they stand. -/
def reading (t : ConversationTables) : Contract conversationSig Unit where
  may _ _ := True
  answers _ o x :=
    match o, x with
    | .statement (.conversation s), x => x = (s.run {} {} t).map Prod.fst
    | _, _ => True
  next _ _ _ := ()

/-- The program ends in `q` when it runs on these tables. -/
def EndsOn {α : Type} (t : ConversationTables) (p q : Service α) : Prop :=
  ∃ tr, After p tr q ∧ (reading t).Honest () tr

variable {α : Type} {t : ConversationTables}

section Ends

variable {q : Service α}

theorem endsOn_refl (q : Service α) : EndsOn t q q :=
  ⟨[], .refl q, trivial⟩

theorem endsOn_conversation {s : ConversationStatement} {k : s.Value → Service α} (value : s.Value)
    (hs : s.run {} {} t = .ok (value, t)) (hk : EndsOn t (k value) q) :
    EndsOn t (conversation s >>= k) q := by
  obtain ⟨tr, hafter, hhonest⟩ := hk
  have hanswer : (s.run {} {} t).map Prod.fst = .ok value := by
    rw [hs]
    rfl
  exact ⟨⟨ConversationOp.statement (.conversation s), .ok value⟩ :: tr, .step _ hafter, hanswer.symm, hhonest⟩

end Ends

/-! ## The plan of one state -/

/-- What a plan extends. -/
def boundaryOf (previous : Option ConversationSummary) : Nat :=
  (previous.map ConversationSummary.coversThroughSequence).getD 0

/-- The tokens of the stored texts. -/
def tokensOf (messages : List HistoryMessage) : Nat :=
  ((messages.filterMap HistoryMessage.content).map budgetTokens).sum

/-- The plan from what has been read. -/
def planFrom (policy : ConversationPolicy) (force : Bool) (previous : Option ConversationSummary)
    (messagesSinceSummary : Nat) (messages : List HistoryMessage) : Except AppError SummarizationPlan :=
  match decideSummarization policy { messagesSinceSummary, tokensSinceSummary := tokensOf messages } force with
  | .error skip => .error (summarizationSkipError skip)
  | .ok _ =>
    if (turnsOf messages).isEmpty then .error noPersistedContent
    else
      .ok { previousSummary := previous.bind ConversationSummary.summaryText, turns := turnsOf messages
            coversThroughSequence :=
              ((messages.map HistoryMessage.sequenceNumber).max?).getD (boundaryOf previous)
            targetTokens := policy.summaryTargetTokens }

/-- The messages that a plan is made of. -/
def transcriptOf (t : ConversationTables) (conversationId : Uuid) (previous : Option ConversationSummary) :
    Except AppError (List HistoryMessage) :=
  (t.findMessagesAfterSequence conversationId (boundaryOf previous) summaryTranscriptMessages).mapM
    MessageRow.history

/-- What the reads of one state lead to. -/
def planned (t : ConversationTables) (conversationId : Uuid) (policy : ConversationPolicy) (force : Bool) :
    Except AppError SummarizationPlan := do
  let previous ← (t.findActiveConversationSummary conversationId).mapM SummaryRow.summary
  let messages ← transcriptOf t conversationId previous
  planFrom policy force previous (t.countMessagesAfterSequence conversationId (boundaryOf previous)) messages

theorem run_planned (t : ConversationTables) (conversationId : Uuid) (policy : ConversationPolicy)
    (force : Bool) : EndsOn t (planSummarization conversationId policy force)
      (ofExcept (planned t conversationId policy force)) := by
  unfold planSummarization planned
  refine endsOn_conversation (t.findActiveConversationSummary conversationId) rfl ?_
  cases (t.findActiveConversationSummary conversationId).mapM SummaryRow.summary with
  | error e => exact endsOn_refl _
  | ok previous =>
    refine endsOn_conversation (t.countMessagesAfterSequence conversationId (boundaryOf previous)) rfl ?_
    refine endsOn_conversation
      (t.findMessagesAfterSequence conversationId (boundaryOf previous) summaryTranscriptMessages) rfl ?_
    show EndsOn t (orFail (transcriptOf t conversationId previous) >>= _)
      (ofExcept (transcriptOf t conversationId previous >>= _))
    cases transcriptOf t conversationId previous with
    | error e => exact endsOn_refl _
    | ok messages =>
      show EndsOn t (match decideSummarization policy _ force with
        | .error skip => _
        | .ok _ => _) (ofExcept (planFrom policy force previous _ messages))
      unfold planFrom tokensOf
      cases decideSummarization policy _ force with
      | error skip => exact endsOn_refl _
      | ok _ =>
        by_cases hturns : (turnsOf messages).isEmpty = true
        · simp only [hturns, if_true]
          exact endsOn_refl _
        · simp only [hturns]
          exact endsOn_refl _

/-! ## Due summaries -/

theorem exists_of_mapM {β ε : Type} {f : α → Except ε β} {b : β} : ∀ {as : List α} {bs : List β},
    as.mapM f = .ok bs → b ∈ bs → ∃ a ∈ as, f a = .ok b
  | [], bs, h, hmem => by
    obtain rfl : [] = bs := Except.ok.inj h
    cases hmem
  | a :: as, bs, h, hmem => by
    rw [List.mapM_cons] at h
    obtain ⟨first, hfirst, h⟩ := Fallible.bind_eq_ok.mp h
    obtain ⟨rest, hrest, h⟩ := Fallible.bind_eq_ok.mp h
    obtain rfl : first :: rest = bs := Except.ok.inj h
    rcases List.mem_cons.mp hmem with rfl | hmem
    · exact ⟨a, List.mem_cons_self, hfirst⟩
    · obtain ⟨a', hmem', ha'⟩ := exists_of_mapM hrest hmem
      exact ⟨a', List.mem_cons_of_mem _ hmem', ha'⟩

theorem sequenceNumber_history {row : MessageRow} {message : HistoryMessage}
    (h : row.history = .ok message) :
    message.sequenceNumber = row.sequenceNumber := by
  unfold MessageRow.history at h
  obtain ⟨content, -, hmessage⟩ := Fallible.bind_eq_ok.mp h
  rw [← Except.ok.inj hmessage]

section Due

variable {conversationId : Uuid} {policy : ConversationPolicy} {force : Bool}
  {previous : Option ConversationSummary} {messages : List HistoryMessage}

theorem beyond_of_mem (h : transcriptOf t conversationId previous = .ok messages) {message : HistoryMessage}
    (hmem : message ∈ messages) : boundaryOf previous < message.sequenceNumber ∧
      0 < t.countMessagesAfterSequence conversationId (boundaryOf previous) := by
  obtain ⟨row, hrow, hread⟩ := exists_of_mapM h hmem
  have hfilter := Rows.mem_of_mem_top hrow
  rw [sequenceNumber_history hread]
  refine ⟨by simpa using (List.mem_filter.mp hfilter).2, ?_⟩
  exact List.length_pos_of_mem hfilter

/-- The thresholds, over the messages that a plan reads; `force` leaves the stored text. -/
def Due (policy : ConversationPolicy) (force : Bool) (messagesSinceSummary : Nat)
    (messages : List HistoryMessage) : Prop :=
  if force then ∃ message ∈ messages, message.content.isSome = true
  else policy.minimumMessagesSinceSummary ≤ messagesSinceSummary ∧
    policy.summaryTriggerTokens ≤ tokensOf messages

theorem exists_content (htrigger : 0 < policy.summaryTriggerTokens) {count : Nat}
    (h : Due policy force count messages) : ∃ message ∈ messages, message.content.isSome = true := by
  unfold Due at h
  by_cases hforce : force = true
  · rwa [if_pos hforce] at h
  · rw [if_neg hforce] at h
    by_contra hnone
    have hempty : messages.filterMap HistoryMessage.content = [] := by
      refine List.filterMap_eq_nil_iff.mpr fun message hmem => ?_
      by_contra hsome
      exact hnone ⟨message, hmem, Option.isSome_iff_ne_none.mpr hsome⟩
    have hzero : tokensOf messages = 0 := by
      rw [tokensOf, hempty]
      rfl
    omega

/--
**A due summary is planned**, when what is stored can be read. The count is of all messages beyond
the boundary; the text is that of the messages a run reads, which are the first 200.
-/
theorem due_is_planned (henabled : policy.summarizationEnabled = true)
    (htrigger : 0 < policy.summaryTriggerTokens)
    (hprevious : (t.findActiveConversationSummary conversationId).mapM SummaryRow.summary = .ok previous)
    (hmessages : transcriptOf t conversationId previous = .ok messages)
    (hdue : Due policy force (t.countMessagesAfterSequence conversationId (boundaryOf previous)) messages) :
    ∃ plan, EndsOn t (planSummarization conversationId policy force) (.ret plan) ∧
      boundaryOf previous < plan.coversThroughSequence := by
  obtain ⟨message, hmem, hcontent⟩ := exists_content htrigger hdue
  obtain ⟨hbeyond, hcount⟩ := beyond_of_mem hmessages hmem
  have hdecide : decideSummarization policy
      { messagesSinceSummary := t.countMessagesAfterSequence conversationId (boundaryOf previous)
        tokensSinceSummary := tokensOf messages } force = .ok () := by
    unfold decideSummarization
    rw [if_neg (by simp [henabled]), if_neg (by simp; omega)]
    unfold Due at hdue
    by_cases hforce : force = true
    · rw [if_pos hforce]
    · rw [if_neg hforce] at hdue ⊢
      rw [if_neg (by simp; omega), if_neg (by simp; omega)]
  have hturns : ¬(turnsOf messages).isEmpty = true := by
    obtain ⟨content, hsome⟩ := Option.isSome_iff_exists.mp hcontent
    have hturn : (message.role, content) ∈ turnsOf messages :=
      List.mem_filterMap.mpr ⟨message, hmem, by rw [hsome]; rfl⟩
    rw [List.isEmpty_iff]
    exact List.ne_nil_of_mem hturn
  have hplanned : planned t conversationId policy force = .ok
      { previousSummary := previous.bind ConversationSummary.summaryText, turns := turnsOf messages
        coversThroughSequence := ((messages.map HistoryMessage.sequenceNumber).max?).getD (boundaryOf previous)
        targetTokens := policy.summaryTargetTokens } := by
    unfold planned
    rw [hprevious]
    show (transcriptOf t conversationId previous >>= _) = _
    rw [hmessages]
    show planFrom policy force previous _ messages = _
    unfold planFrom
    simp only [hdecide, if_neg hturns]
  have hrun := run_planned t conversationId policy force
  rw [hplanned] at hrun
  refine ⟨_, hrun, ?_⟩
  -- the newest of what is read is beyond the boundary, as all of it is
  have hsequence : message.sequenceNumber ∈ messages.map HistoryMessage.sequenceNumber :=
    List.mem_map.mpr ⟨message, hmem, rfl⟩
  obtain ⟨newest, hnewest⟩ : ∃ newest, (messages.map HistoryMessage.sequenceNumber).max? = some newest :=
    Option.ne_none_iff_exists'.mp fun hnone => by
      rw [List.max?_eq_none_iff] at hnone
      rw [hnone] at hsequence
      cases hsequence
  have hle := (List.max?_eq_some_iff.mp hnewest).2 _ hsequence
  simp only [hnewest, Option.getD_some]
  omega

end Due

/-! ## A backlog that never gets there -/

theorem ofExcept_of_map_error {x : Except AppError α} {e : AppError}
    (h : x.map (fun _ => ()) = .error e) : (ofExcept x : Service α) = .fail e := by
  cases x with
  | error e' =>
    obtain rfl : e' = e := Except.error.inj h
    rfl
  | ok a => cases h

namespace Sample

/-- A message whose text was not kept, or was. -/
def message (n : Nat) (text : Option String) : MessageRow where
  id := n
  conversationId := 1
  role := .user
  sequenceNumber := n
  columns := { plain := text }
  contentHash := ⟨""⟩
  contentSizeBytes := 0
  tokenCount := none
  persistence := .plainContent

/-- Two hundred messages without a text, and then one with ten tokens. -/
def backlog : ConversationTables where
  messages := (List.range' 1 200).map (message · none) ++
    [message 201 (some "forty characters make about ten tokens !")]

def due : ConversationPolicy where
  summarizationEnabled := true
  summaryTriggerTokens := 10

/-- The stored texts beyond the boundary, all of them. -/
def storedTexts (t : ConversationTables) : List String :=
  t.messages.filterMap fun row => row.columns.plain

end Sample

/-- A summary of one short message is planned when the tokens are reached. -/
theorem due_is_planned_once : ∃ plan,
    EndsOn { messages := [Sample.message 1 (some "forty characters make about ten tokens !")] }
      (planSummarization 1 { Sample.due with minimumMessagesSinceSummary := 1 } false) (.ret plan) ∧
      0 < plan.coversThroughSequence := by
  have hdue : Due { Sample.due with minimumMessagesSinceSummary := 1 } false 1
      [⟨1, .user, some "forty characters make about ten tokens !", 1⟩] := ⟨by decide, by decide +kernel⟩
  exact @due_is_planned _ _ _ _ none _ rfl (by decide) rfl rfl hdue

/-- The thresholds are reached over all messages, and there is stored text: no summary is planned,
forced or not. -/
theorem due_is_withheld :
    Sample.due.minimumMessagesSinceSummary ≤ Sample.backlog.countMessagesAfterSequence 1 0 ∧
      Sample.due.summaryTriggerTokens ≤ ((Sample.storedTexts Sample.backlog).map budgetTokens).sum ∧
      EndsOn Sample.backlog (planSummarization 1 Sample.due false)
        (.fail (summarizationSkipError .belowTokenThreshold)) ∧
      EndsOn Sample.backlog (planSummarization 1 Sample.due true) (.fail noPersistedContent) := by
  have hunforced : (planned Sample.backlog 1 Sample.due false).map (fun _ => ()) =
      .error (summarizationSkipError .belowTokenThreshold) := by
    decide +kernel
  have hforced : (planned Sample.backlog 1 Sample.due true).map (fun _ => ()) = .error noPersistedContent := by
    decide +kernel
  refine ⟨by decide +kernel, by decide +kernel, ?_, ?_⟩
  · rw [← ofExcept_of_map_error hunforced]
    exact run_planned _ _ _ _
  · rw [← ofExcept_of_map_error hforced]
    exact run_planned _ _ _ _

end Moira.Conversations
