import Moira.Conversations.Properties.Steps

/-!
# The messages of a conversation

- `Log` — the messages of a conversation are numbered as they were added, and counted
- **`message_log`** — over the runs that meet `StillOpen`, for each step
-/

namespace Moira.Conversations

open Prog Transition

/-! ## The tables -/

structure Log (t : ConversationTables) : Prop where
  ids : (t.conversations.map ConversationRow.id).Nodup
  owned : ∀ row ∈ t.messages, ∃ conversation ∈ t.conversations, conversation.id = row.conversationId
  numbered : ∀ id, Rows.Numbered MessageRow.sequenceNumber (t.messagesOf id)
  counted : ∀ row ∈ t.conversations, row.messageCount = (t.messagesOf row.id).length
  deleted : ∀ row ∈ t.conversations, row.status = .deleted ↔ row.deletedAt.isSome = true

variable {row : MessageRow} {policies : PolicyTables} {moment : Moment} {messageId : Uuid}
  {insert : ConversationMessageInsert}

namespace Log

variable {t t' : ConversationTables} {id : Uuid} {f : ConversationRow → ConversationRow}

theorem empty : Log {} where
  ids := List.nodup_nil
  owned _ hrow := absurd hrow List.not_mem_nil
  numbered _ := Rows.numbered_nil
  counted _ hrow := absurd hrow List.not_mem_nil
  deleted _ hrow := absurd hrow List.not_mem_nil

theorem owned_modify (h : Log t) (hid : ∀ row, (f row).id = row.id) (hrow : row ∈ t.messages) :
    ∃ conversation ∈ Rows.modify ConversationRow.id t.conversations id f,
    conversation.id = row.conversationId := by
  obtain ⟨conversation, hmem, howner⟩ := h.owned row hrow
  by_cases hkey : conversation.id = id
  · exact ⟨f conversation, Rows.mem_modify_of_eq hmem hkey, (hid conversation).trans howner⟩
  · exact ⟨conversation, Rows.mem_modify_of_ne hmem hkey, howner⟩

theorem modify (h : Log t) (hid : ∀ row, (f row).id = row.id)
    (hcount : ∀ row, (f row).messageCount = row.messageCount)
    (hdeleted : ∀ row ∈ t.conversations, (f row).status = .deleted ↔ (f row).deletedAt.isSome = true) :
    Log { t with conversations := Rows.modify ConversationRow.id t.conversations id f } where
  ids := by
    show ((Rows.modify _ _ _ _).map _).Nodup
    rw [Rows.map_modify hid]
    exact h.ids
  owned row hrow := h.owned_modify hid hrow
  numbered := h.numbered
  counted := Rows.forall_modify h.counted fun row hrow _ => by
    rw [hcount, hid]
    exact h.counted row hrow
  deleted := Rows.forall_modify h.deleted fun row hrow _ => hdeleted row hrow

theorem createConversation (h : Log t) {insert : ConversationInsert} {row : ConversationRow}
    (hrun : t.createConversation insert = .ok (row, t')) : Log t' := by
  obtain ⟨rfl, hnew, rfl⟩ := ConversationTables.createConversation_ok hrun
  -- no message belongs to a conversation that is not there
  have hnone : t.messagesOf insert.id = [] := by
    refine List.filter_eq_nil_iff.mpr fun message hmessage => ?_
    obtain ⟨conversation, hmem, howner⟩ := h.owned message hmessage
    simpa [← howner] using hnew conversation hmem
  refine ⟨?_, fun message hmessage => ?_, h.numbered, fun conversation hmem => ?_, fun conversation hmem => ?_⟩
  · show ((t.conversations ++ [_]).map ConversationRow.id).Nodup
    rw [List.map_append, List.map_singleton]
    refine List.Nodup.append h.ids (List.nodup_singleton _) ?_
    rintro id hid hid'
    obtain ⟨conversation, hmem, rfl⟩ := List.mem_map.mp hid
    exact hnew conversation hmem (List.mem_singleton.mp hid')
  · obtain ⟨conversation, hmem, howner⟩ := h.owned message hmessage
    exact ⟨conversation, List.mem_append_left _ hmem, howner⟩
  · rcases List.mem_append.mp hmem with hmem | hmem
    · exact h.counted conversation hmem
    · obtain rfl := List.mem_singleton.mp hmem
      show 0 = (t.messagesOf insert.id).length
      rw [hnone, List.length_nil]
  · rcases List.mem_append.mp hmem with hmem | hmem
    · exact h.deleted conversation hmem
    · obtain rfl := List.mem_singleton.mp hmem
      exact ⟨fun hstatus => (nomatch hstatus), fun hsome => (nomatch hsome)⟩

theorem messagesOf_append (row : MessageRow) (conversations : List ConversationRow) (id : Uuid) :
    ConversationTables.messagesOf { t with messages := t.messages ++ [row], conversations } id =
      if row.conversationId = id then t.messagesOf id ++ [row] else t.messagesOf id := by
  unfold ConversationTables.messagesOf
  rw [List.filter_append]
  by_cases hid : row.conversationId = id
  · simp [hid]
  · simp [hid]

theorem addMessage (h : Log t)
    (hrun : t.addMessage policies moment messageId insert = .ok (row, t')) : Log t' := by
  obtain ⟨conversation, hadded, rfl⟩ := ConversationTables.addMessage_ok hrun
  obtain ⟨hfind, hlive⟩ := ConversationTables.liveConversation_ok hadded.live
  have hmem := (Rows.find_some hfind).1
  refine ⟨?_, fun message hmessage => ?_, fun id => ?_, ?_, ?_⟩
  · show ((Rows.modify _ _ _ _).map _).Nodup
    rw [Rows.map_modify (f := ConversationTables.counted moment.now) fun _ => rfl]
    exact h.ids
  · rcases List.mem_append.mp hmessage with hmessage | hmessage
    · exact h.owned_modify (f := ConversationTables.counted moment.now) (fun _ => rfl) hmessage
    · obtain rfl := List.mem_singleton.mp hmessage
      exact ⟨_, Rows.mem_modify_of_eq hmem rfl, hadded.conversationId.symm⟩
  · rw [messagesOf_append]
    split
    · next hid =>
      subst hid
      refine Rows.numbered_concat (h.numbered _) ?_
      rw [hadded.sequenceNumber, hadded.conversationId]
    · exact h.numbered id
  · intro other hother
    obtain ⟨before, hbefore, rfl⟩ := Rows.mem_modify.mp hother
    rw [messagesOf_append, hadded.conversationId]
    by_cases hkey : before.id = conversation.id
    · rw [if_pos hkey]
      show before.messageCount + 1 = (if conversation.id = before.id then t.messagesOf before.id ++ [row]
        else t.messagesOf before.id).length
      rw [if_pos hkey.symm, List.length_append, h.counted before hbefore, List.length_singleton]
    · rw [if_neg hkey, if_neg (Ne.symm hkey)]
      exact h.counted before hbefore
  · exact Rows.forall_modify h.deleted fun other hother _ => h.deleted other hother

/-- **Every statement keeps the log.** -/
theorem run (h : Log t) {s : ConversationStatement} {a : s.Value}
    (hrun : s.run policies moment t = .ok (a, t')) : Log t' := by
  cases s with
  | createConversation insert => exact h.createConversation hrun
  | patchConversation id request =>
    obtain ⟨-, rfl⟩ := ConversationTables.patchConversation_ok hrun
    exact h.modify (fun _ => rfl) (fun _ => rfl) h.deleted
  | setConversationStatus id status =>
    obtain ⟨-, rfl⟩ := ConversationTables.setConversationStatus_ok hrun
    refine h.modify (fun _ => rfl) (fun _ => rfl) fun row _ => ?_
    show status = .deleted ↔ (if status = .deleted then row.deletedAt <|> some moment.now else none).isSome = true
    by_cases hstatus : status = .deleted
    · cases hdeleted : row.deletedAt <;> simp [hstatus]
    · simp [hstatus]
  | addMessage messageId insert => exact h.addMessage hrun
  | insertConversationSummary summaryId insert =>
    obtain ⟨-, rfl⟩ := ConversationTables.insertConversationSummary_ok hrun
    exact ⟨h.ids, h.owned, h.numbered, h.counted, h.deleted⟩
  | findConversationAuthorized _ _ | listMessages _ _ _ | findRecentMessages _ _ _
  | findConversationContextAnchor _ | findActiveConversationSummary _ | countMessagesAfterSequence _ _
  | findMessagesAfterSequence _ _ _ =>
    rw [ConversationStatement.tables_of_isRead rfl hrun]
    exact h

end Log

/-! ## What is added -/

/-- The access read of a call that does not look at what it has found. -/
def createsMessage (request : Request) : Bool :=
  match request.call with
  | .createMessage .. => true
  | _ => false

/--
What a call has read of its conversation is not out of date when it adds a user message, and
`create_message` does not read an archived conversation.
-/
def stillOpen (requests : Nat → Request) (i : Nat) (w : World) : ConversationOp → Bool
  | .statement (.conversation (.addMessage _ insert)) =>
    insert.role ≠ .user ||
      (Rows.find ConversationRow.id w.tables.conversation.conversations insert.conversationId).all fun row =>
        row.status ≠ .archived || (w.seen i).found.any fun found => found.status = .archived
  | .statement (.conversation (.findConversationAuthorized id _)) =>
    !createsMessage (requests i) ||
      (Rows.find ConversationRow.id w.tables.conversation.conversations id).all fun row => row.status ≠ .archived
  | _ => true

/-- A user message finds its conversation archived only where its call has read it as archived, and
`create_message` does not read an archived one. -/
abbrev StillOpen (requests : Nat → Request) (i : Nat) (w : World) (o : ConversationOp) : Prop :=
  stillOpen requests i w o = true

/-- What `create_message` has found is not archived. -/
def FoundOpen (requests : Nat → Request) (seen : Nat → Seen) : Prop :=
  ∀ i, createsMessage (requests i) = true → ∀ found, (seen i).found = some found → found.status ≠ .archived

section Runs

variable {deployment : Deployment} {requests : Nat → Request}

theorem found_recordStatement {seen : Seen} {s : Statement} {a : s.Value} {found : ConversationRow}
    (h : (seen.recordStatement s a).found = some found) : seen.found = some found ∨
      (∃ insert, (⟨s, a⟩ : (s : Statement) × s.Value) = ⟨.conversation (.createConversation insert), found⟩) ∨
        ∃ id access, (⟨s, a⟩ : (s : Statement) × s.Value) =
          ⟨.conversation (.findConversationAuthorized id access), found⟩ := by
  cases s with
  | conversation s =>
    cases s with
    | createConversation insert => exact .inr (.inl ⟨insert, by rw [Option.some.inj h]⟩)
    | findConversationAuthorized id access => exact .inr (.inr ⟨id, access, by rw [Option.some.inj h]⟩)
    | _ => exact .inl h
  | memory s =>
    obtain ⟨_, _, heq⟩ := recordMemory_eq seen s a
    exact .inl (by rwa [Seen.recordStatement, heq] at h)
  | document s =>
    obtain ⟨_, _, _, heq⟩ := recordDocument_eq seen s a
    exact .inl (by rwa [Seen.recordStatement, heq] at h)
  | policy s =>
    obtain ⟨_, _, _, _, heq⟩ := recordPolicy_eq seen s a
    exact .inl (by rwa [Seen.recordStatement, heq] at h)

theorem preserved_foundOpen : Preserved deployment requests (StillOpen requests)
    fun w => FoundOpen requests w.seen := by
  refine .of_seen (J := fun _ seen => FoundOpen requests seen) ?_ ?_
  · intro i w w' s a hopen hguard _ hstep j hcreates found hfound
    rw [hstep.seen] at hfound
    by_cases hij : j = i
    · subst hij
      rw [Function.update_self] at hfound
      rcases found_recordStatement hfound with hfound | ⟨insert, heq⟩ | ⟨id, access, heq⟩
      · exact hopen j hcreates found hfound
      · cases heq
        obtain ⟨tables, hrun, -⟩ := Statement.run_conversation hstep.run
        obtain ⟨rfl, -⟩ := ConversationTables.createConversation_ok hrun
        exact fun hstatus => (nomatch hstatus)
      · cases heq
        obtain ⟨tables, hrun, -⟩ := Statement.run_conversation hstep.run
        obtain ⟨row, hrow, hread⟩ := Fallible.bind_eq_ok.mp hrun
        cases hread
        obtain ⟨hlive, -⟩ := ConversationTables.findConversationAuthorized_ok hrow
        have hmet : stillOpen requests j w _ = true := hguard
        simpa [stillOpen, hcreates, (ConversationTables.liveConversation_ok hlive).1] using hmet
    · rw [Function.update_of_ne hij] at hfound
      exact hopen j hcreates found hfound
  · intro t seen i seen' hopen hidles j hcreates found hfound
    by_cases hij : j = i
    · subst hij
      rw [Function.update_self] at hfound
      cases hidles with
      | rest => exact hopen j hcreates found hfound
      | asked messages => exact hopen j hcreates found hfound
      | answered => cases hfound
    · rw [Function.update_of_ne hij] at hfound
      exact hopen j hcreates found hfound

theorem preserved_log (guard : Nat → World → ConversationOp → Prop) :
    Preserved deployment requests guard fun w => Log w.tables.conversation :=
  .of_conversation fun hlog _ _ hrun => hlog.run hrun

/-- The conversation of an insert is missing, or its body cannot be sealed. -/
def CannotAdd (w : World) (insert : ConversationMessageInsert) : Prop :=
  match w.tables.conversation.liveConversation insert.conversationId with
  | .error _ => True
  | .ok row =>
    w.tables.policies.contentPersistence row.owner.applicationId = .encryptedContent ∧
      insert.content.plaintext.isSome = true ∧ w.moment.sealing.isOk = false

theorem not_added {w : World} {t' : ConversationTables} (h : CannotAdd w insert) :
    w.tables.conversation.addMessage w.tables.policies w.moment messageId insert ≠ .ok (row, t') := by
  intro hadd
  obtain ⟨conversation, hadded, -⟩ := ConversationTables.addMessage_ok hadd
  unfold CannotAdd at h
  rw [hadded.live] at h
  obtain ⟨hencrypted, hplaintext, hsealing⟩ := h
  obtain ⟨text, htext⟩ := Option.isSome_iff_exists.mp hplaintext
  have hcolumns := hadded.columns
  rw [hadded.persistence, hencrypted, ConversationTables.storedForm, htext] at hcolumns
  obtain ⟨_, hok, -⟩ := Fallible.map_eq_ok.mp hcolumns
  rw [hok] at hsealing
  cases hsealing

/-- What is said of the messages of a state, and of a step out of it. -/
structure MessageLog (s t : (conversations deployment requests).State)
    (m : (conversations deployment requests).Move) : Prop where
  /-- The sequence numbers are 1 to n in the order in which the messages were added. -/
  numbered : ∀ id, (s.world.tables.conversation.messagesOf id).map MessageRow.sequenceNumber =
    List.range' 1 (s.world.tables.conversation.messagesOf id).length
  counted : ∀ row ∈ s.world.tables.conversation.conversations,
    row.messageCount = (s.world.tables.conversation.messagesOf row.id).length
  appended : s.world.tables.conversation.messages <+: t.world.tables.conversation.messages
  /-- A user message is added to a conversation that is active. -/
  active : ∀ row ∈ t.world.tables.conversation.messages, row ∉ s.world.tables.conversation.messages →
    row.role = .user → ∃ conversation ∈ s.world.tables.conversation.conversations,
      conversation.id = row.conversationId ∧ conversation.status = .active ∧ conversation.deletedAt = none
  /-- An `add_message` that fails changes nothing. -/
  failed : ∀ i answer messageId insert k, m = .act i answer →
    s.proc i = .op (.statement (.conversation (.addMessage messageId insert))) k →
    (CannotAdd s.world insert ∨
      (answer (.statement (.conversation (.addMessage messageId insert)))).isOk = false) →
    t.world.tables = s.world.tables

variable {s t : (conversations deployment requests).State} {moves : List (conversations deployment requests).Move}
  {m : (conversations deployment requests).Move}

theorem failed_step (hstep : (conversations deployment requests).step s m = some t) {i : Nat}
    {answer : (o : ConversationOp) → o.Ans}
    {k : (ConversationOp.statement (.conversation (.addMessage messageId insert))).Ans →
      (conversations deployment requests).Proc i}
    (hm : m = .act i answer)
    (hproc : s.proc i = .op (.statement (.conversation (.addMessage messageId insert))) k)
    (hfail : CannotAdd s.world insert ∨
      (answer (.statement (.conversation (.addMessage messageId insert)))).isOk = false) :
    t.world.tables = s.world.tables := by
  subst hm
  simp only [System.step, hproc] at hstep
  obtain ⟨w, hgrant, rfl⟩ := Option.map_eq_some_iff.mp hstep
  rcases grant_statement hgrant with ⟨a, hok, hmade⟩ | ⟨-, hsame⟩
  · rcases hfail with hcannot | hfailed
    · obtain ⟨tables, hadd, -⟩ := Statement.run_conversation hmade
      exact absurd hadd (not_added hcannot)
    · rw [hok] at hfailed
      cases hfailed
  · exact hsame

theorem active_of_added (hlog : Log s.world.tables.conversation)
    (hopen : FoundOpen requests s.world.seen) {i : Nat} {conversation : ConversationRow}
    (hadds : AddsMessage (requests i) (s.world.seen i) insert)
    (hguard : StillOpen requests i s.world (.statement (.conversation (.addMessage messageId insert))))
    (hadded : s.world.tables.conversation.AddedMessage policies moment messageId insert conversation row)
    (hrole : row.role = .user) :
    conversation ∈ s.world.tables.conversation.conversations ∧ conversation.status = .active ∧
      conversation.deletedAt = none := by
  obtain ⟨hfind, hlive⟩ := ConversationTables.liveConversation_ok hadded.live
  have hmem := (Rows.find_some hfind).1
  refine ⟨hmem, ?_, hlive⟩
  rw [hadded.role] at hrole
  obtain ⟨found, hfound, -, hlooks⟩ := hadds.found hrole
  have hfoundOpen : found.status ≠ .archived := by
    by_cases hcreates : createsMessage (requests i) = true
    · exact hopen i hcreates found hfound
    · refine hlooks fun id message hcall => hcreates ?_
      unfold createsMessage
      rw [hcall]
  cases hstatus : conversation.status with
  | active => rfl
  | archived =>
    have hread : stillOpen requests i s.world _ = true := hguard
    refine absurd ?_ hfoundOpen
    simpa [stillOpen, hrole, hfind, hstatus, hfound] using hread
  | deleted =>
    have hdeleted := (hlog.deleted conversation hmem).mp hstatus
    rw [hlive] at hdeleted
    cases hdeleted

/-- **The message log**, in every run that meets `StillOpen`, and for each step of it. -/
theorem message_log
    (hmeets : Meets (conversations deployment requests).step (System.Guarded (StillOpen requests))
      (conversationsInitial deployment requests) moves)
    (hrun : runFrom (conversations deployment requests).step (conversationsInitial deployment requests) moves =
      some s)
    (hguard : System.Guarded (StillOpen requests) s m)
    (hstep : (conversations deployment requests).step s m = some t) : MessageLog s t m := by
  obtain ⟨hprotocol, hlog, hopen⟩ := ((preserved_log (StillOpen requests)).and preserved_foundOpen).run
    onProtocol_initial ⟨Log.empty, fun _ _ _ hfound => (nomatch hfound)⟩ hmeets hrun
  -- the messages stay, or one is added
  have hmessages : t.world.tables.conversation.messages = s.world.tables.conversation.messages ∨
      ∃ i messageId insert row conversation, AddsMessage (requests i) (s.world.seen i) insert ∧
        StillOpen requests i s.world (.statement (.conversation (.addMessage messageId insert))) ∧
        t.world.tables.conversation.messages = s.world.tables.conversation.messages ++ [row] ∧
        s.world.tables.conversation.AddedMessage s.world.tables.policies s.world.moment messageId insert
          conversation row := by
    have hcases := @step_made _ _ (StillOpen requests) _ _ _ hprotocol hstep
    rcases hcases with hsame | ⟨i, st, a, hmade, hmet⟩
    · exact .inl (by rw [hsame])
    have hrun := hmade.step.run
    have hdoes := hmade.does
    cases st with
    | conversation st =>
      obtain ⟨tables, hrun, ht⟩ := Statement.run_conversation hrun
      rw [ht]
      rcases ConversationTables.messages_run hrun with hsame |
          ⟨messageId, insert, row, conversation, rfl, happend, hadded⟩
      · exact .inl hsame
      · exact .inr ⟨i, messageId, insert, row, conversation, hdoes, hmet hguard, happend, hadded⟩
    | memory st | document st | policy st => exact .inl (by rw [Statement.conversation_kept hrun (by simp)])
  refine ⟨hlog.numbered, hlog.counted, ?_, fun row hrow hnew hrole => ?_, fun _ _ _ _ _ => failed_step hstep⟩
  · rcases hmessages with hsame | ⟨_, _, _, row, _, _, _, happend, -⟩
    · rewrite [hsame]
      exact List.prefix_rfl
    · rw [happend]
      exact List.prefix_append _ _
  · rcases hmessages with hsame | ⟨i, messageId, insert, added, conversation, hadds, hmet, happend, hadded⟩
    · rw [hsame] at hrow
      exact absurd hrow hnew
    · rw [happend, List.mem_append, List.mem_singleton] at hrow
      obtain rfl := hrow.resolve_left hnew
      obtain ⟨hmem, hactive, hlive⟩ := active_of_added hlog hopen hadds hmet hadded hrole
      exact ⟨conversation, hmem, hadded.conversationId.symm, hactive, hlive⟩

end Runs

/-! ### Samples -/

namespace Sample

/-- A message to a conversation, which may have been archived before. -/
def messageCalls : List Call :=
  [.createConversation none (.obj []), .setConversationStatus 1 .archived, .createMessage 1 { content := "hello" }]

/-- The conversation is made, and a message is on its way. -/
def createFirst : List Nat :=
  List.replicate 5 0 ++ List.replicate 2 2

/-- The conversation is archived before. -/
def archiveFirst : List Nat :=
  List.replicate 5 0 ++ List.replicate 4 1 ++ List.replicate 2 2

/-- The conversations before a step, and the messages before and after it. -/
def messageSummary (calls : List Call)
    (p : (system calls).State × (system calls).Move × (system calls).State) :
    List (Uuid × ConversationStatus) × List Nat × List (ConversationMessageRole × Nat) :=
  (p.1.world.tables.conversation.conversations.map fun row => (row.id, row.status),
    p.1.world.tables.conversation.messages.map MessageRow.sequenceNumber,
    p.2.2.world.tables.conversation.messages.map fun row => (row.role, row.sequenceNumber))

instance instDecidableStillOpenMove (calls : List Call) (s : (system calls).State)
    (m : (system calls).Move) :
    Decidable (System.Guarded (M := system calls) (StillOpen (requestsOf calls)) s m) :=
  decidableGuarded calls (stillOpen (requestsOf calls)) s m

end Sample

open Sample in
theorem message_log_createFirst :
    ∃ (s t : (system messageCalls).State) (m : (system messageCalls).Move),
      messageSummary messageCalls (s, m, t) = ([(1, .active)], [], [(.user, 1)]) ∧ MessageLog s t m := by
  have hsummary : (lastStep {} messageCalls createFirst 2).map (messageSummary messageCalls) =
      some ([(1, .active)], [], [(.user, 1)]) := by
    decide +kernel
  have hmeets : Meets (system messageCalls).step (System.Guarded (StillOpen (requestsOf messageCalls)))
      (conversationsInitial deployment (requestsOf messageCalls)) (scheduled {} messageCalls createFirst) := by
    decide +kernel
  have hlast : (lastStep {} messageCalls createFirst 2).all
      (fun p => decide (System.Guarded (StillOpen (requestsOf messageCalls)) p.1 p.2.1)) = true := by
    decide +kernel
  obtain ⟨⟨s, m, t⟩, hstep, hsummary⟩ := Option.map_eq_some_iff.mp hsummary
  obtain ⟨hrun, hmove⟩ := lastStep_some hstep
  rw [hstep] at hlast
  exact ⟨s, t, m, hsummary, message_log hmeets hrun (of_decide_eq_true hlast) hmove⟩

open Sample in
/-- `create_message` does not look at the status that it has read. -/
theorem message_is_added_to_archived_conversation :
    ¬∀ (moves : List (system messageCalls).Move) (m : (system messageCalls).Move)
      (s t : (system messageCalls).State),
      runFrom (system messageCalls).step (conversationsInitial deployment (requestsOf messageCalls)) moves =
        some s → (system messageCalls).step s m = some t → MessageLog s t m := by
  intro hall
  have hsummary : (lastStep {} messageCalls archiveFirst 2).map (messageSummary messageCalls) =
      some ([(1, .archived)], [], [(.user, 1)]) := by
    decide +kernel
  obtain ⟨⟨s, m, t⟩, hstep, hsummary⟩ := Option.map_eq_some_iff.mp hsummary
  obtain ⟨hrun, hmove⟩ := lastStep_some hstep
  simp only [messageSummary, Prod.mk.injEq, List.map_eq_nil_iff] at hsummary
  obtain ⟨hconversations, hbefore, hafter⟩ := hsummary
  obtain ⟨row, hrow, hrole⟩ :=
      List.mem_map.mp (hafter ▸ List.mem_singleton_self (ConversationMessageRole.user, 1))
  have hnew : row ∉ s.world.tables.conversation.messages := by
    rw [hbefore]
    exact List.not_mem_nil
  obtain ⟨conversation, hmem, -, hactive, -⟩ :=
    (hall _ m s t hrun hmove).active row hrow hnew (Prod.mk.inj hrole).1
  have hstatus := List.mem_map_of_mem (f := fun row : ConversationRow => (row.id, row.status)) hmem
  rw [hconversations, List.mem_singleton, hactive] at hstatus
  cases (Prod.mk.inj hstatus).2

end Moira.Conversations
