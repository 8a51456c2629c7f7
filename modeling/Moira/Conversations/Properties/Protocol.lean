import Moira.Conversations.System
import Moira.Lib.Fallible

/-!
# What a conversation call does

- `Does`, `protocol` — what a call has seen when it writes or compares
-/

namespace Moira

namespace Conversations

open Prog Service

-- no rule looks into the texts of a request
seal trim Actor.require validateContent validateMetadata

/-! ## The protocol -/

/-- A body is handed over as it is, with what was measured on it. -/
structure AddsMessage (request : Request) (seen : Seen) (insert : ConversationMessageInsert) : Prop where
  text : ∃ text, insert = messageInsert insert.conversationId insert.responseId insert.executionId insert.role
    insert.messageType text insert.metadata
  /-- Only `create_message` does not look at what it has found. -/
  found : insert.role = .user → ∃ row, seen.found = some row ∧ row.id = insert.conversationId ∧
    ((∀ id message, request.call ≠ .createMessage id message) → row.status ≠ .archived)

def coverage (summary : Option ConversationSummary) : Nat :=
  (summary.map ConversationSummary.coversThroughSequence).getD 0

/-- A summary as it was planned. -/
structure Planned (seen : Seen) (insert : ConversationSummaryInsert) (active : Option SummaryRow)
    (previous : Option ConversationSummary) (rows : List MessageRow) (history : List HistoryMessage) :
    Prop where
  summary : seen.active = some (insert.conversationId, active)
  opened : active.mapM SummaryRow.summary = .ok previous
  backlog : seen.backlog = some (insert.conversationId, coverage previous, rows)
  read : rows.mapM MessageRow.history = .ok history
  turns : turnsOf history ≠ []
  covers : insert.coversThroughSequence =
    ((history.map HistoryMessage.sequenceNumber).max?).getD (coverage previous)
  asked : ∃ targetTokens, insert.asked = summarizationMessages
    (previous.bind ConversationSummary.summaryText) (renderTranscript (turnsOf history)) targetTokens
  /-- It is the last that the model was asked. -/
  last : seen.asked = some insert.asked

/-- The storage form of a text under the policy of the application, as the call has read it. -/
def Stores (seen : Seen) (applicationId : Uuid) (content : ContentWrite)
    (persistence : ConversationContentPersistence) (text : String) : Prop :=
  content = .underPolicy persistence text ∧
    ∃ policy, seen.policy = some (applicationId, policy) ∧
        persistence = policy.conversationContentPersistence

/-- The vectors of a plan come out of one model, which the policy of the application has named. -/
structure WellPlanned (seen : Seen) (place : IngestionPlace) (plan : RagIngestionPlan) : Prop where
  indices : plan.chunks.map PreparedChunk.chunkIndex = List.range plan.chunks.length
  chunks : ∀ chunk ∈ plan.chunks,
    chunk.chunkHash = ⟨chunk.text⟩ ∧ chunk.tokenEstimate = estimateChunkTokens chunk.text
  whole : (∀ chunk ∈ plan.chunks, chunk.embedding.isSome = true) ∨
    ∀ chunk ∈ plan.chunks, chunk.embedding = none
  model : ∀ chunk ∈ plan.chunks, ∀ embedding, chunk.embedding = some embedding →
    plan.embeddingModelId = some embedding.model ∧ embedding.text = chunk.text ∧
      ∃ applicationId, seen.place = some (place, applicationId) ∧
        seen.target = some (applicationId, embedding.model)

def DoesConversation (request : Request) (seen : Seen) : ConversationStatement → Prop
  | .addMessage _ insert => AddsMessage request seen insert
  | .insertConversationSummary _ insert =>
    (∃ active previous rows history, Planned seen insert active previous rows history) ∧
      (∃ row, seen.found = some row ∧ row.id = insert.conversationId ∧
        Stores seen row.owner.applicationId insert.summaryText insert.persistence insert.summaryHash.text) ∧
      insert.tokenCount = some (budgetTokens insert.summaryHash.text)
  | _ => True

/-- The memory policy of an application, as the call has read it, is on. -/
def MemoryEnabled (seen : Seen) (applicationId : Uuid) : Prop :=
  ∃ policy, seen.memoryPolicy = some (applicationId, policy) ∧ policy.enabled = true

/-- A turn retrieves memories where both policies that it has read want them. -/
def WantsMemories (seen : Seen) : Prop :=
  ∃ applicationId retrieval policy, seen.retrieval = some (applicationId, retrieval) ∧
    seen.policy = some (applicationId, policy) ∧ retrieval.enabled = true ∧
        retrieval.memoryRetrievalEnabled = true ∧ policy.memoryRetrievalEnabled = true

/-- The scope of an owner. -/
def scopeOf (owner : Owner) : RetrievalScope where
  applicationId := owner.applicationId
  externalTenantId := owner.externalTenantId
  externalUserId := owner.externalUserId

/-- The calls that begin with the access read of a memory. -/
def Call.readsMemory : Call → Bool
  | getMemory _ | patchMemory .. | deleteMemory _ => true
  | _ => false

def DoesMemory (request : Request) (seen : Seen) : MemoryStatement → Prop
  | .createMemory insert =>
    Stores seen insert.owner.applicationId insert.content insert.persistence insert.request.content ∧
      MemoryEnabled seen insert.owner.applicationId
  | .findMemoryAuthorized .. => request.call.readsMemory = true
  | .listMemoriesAuthorized .. => ∃ applicationId policy, seen.memoryPolicy = some (applicationId, policy) ∧
      policy.enabled = true ∧ policy.userCanList = true
  | .patchMemory id patch none => request.call = .patchMemory id patch ∧ patch.content = none
  | .patchMemory id patch (some (content, persistence)) =>
    request.call = .patchMemory id patch ∧ ∃ text applicationId, patch.content = some text ∧
      request.actor.internalApplicationId = some applicationId ∧
          Stores seen applicationId content persistence text
  | .deleteMemory id => request.call = .deleteMemory id
  | .insertExtractedMemory insert =>
    Stores seen insert.owner.applicationId insert.content insert.persistence insert.contentHash.text ∧
      MemoryEnabled seen insert.owner.applicationId ∧
      seen.looked = some (scopeOf insert.owner, insert.contentHash) ∧
      (insert.scope = .userApplication ∨ insert.scope = .conversation)
  | .confirmMemory _ => ∃ applicationId, MemoryEnabled seen applicationId
  | .insertMemoryEmbedding row => row.embeddingModelId = some row.embedding.model ∧
      ∃ memory, seen.written = some memory ∧ row.memoryId = memory.id ∧
        seen.target = some (memory.owner.applicationId, row.embedding.model) ∧
        row.embedding.text = memory.contentHash.text ∧ MemoryEnabled seen memory.owner.applicationId
  | .findMemoryCandidates scope vector _ => seen.target = some (scope.applicationId, vector.model) ∧
      (∃ input parts, request.call = .prepareResponse input parts) ∧ WantsMemories seen
  | .findNearestMemory scope vector => seen.target = some (scope.applicationId, vector.model)
  | .findMemoryByContentHash .. | .findMemoryByKey .. => True

def DoesDocument (seen : Seen) : DocumentStatement → Prop
  | .insertRagDocument target _ request contentHash plan =>
    seen.collection = some target ∧ contentHash = request.content.map Digest.mk ∧
      WellPlanned seen (.collection target.collectionId) plan
  | .ingestRagDocument documentId _ _ request contentHash plan =>
    request.content = some contentHash.text ∧ WellPlanned seen (.document documentId) plan
  | .findRagChunkCandidates scope vector _ _ => seen.target = some (scope.applicationId, vector.model)
  | _ => True

def Does (request : Request) (seen : Seen) : ConversationOp → Prop
  | .statement (.conversation s) => DoesConversation request seen s
  | .statement (.memory s) => DoesMemory request seen s
  | .statement (.document s) => DoesDocument seen s
  | _ => True

/-- What a call can tell of a value without the tables. -/
def Gives : (s : Statement) → s.Value → Prop
  | .conversation (.findConversationAuthorized id access), row => row.id = id ∧ access.sees row.owner = true
  | .conversation (.findConversationContextAnchor id), anchor => ∀ a, anchor = some a → a.conversationId = id
  | .memory (.createMemory insert), row =>
    row.id = insert.id ∧ row.owner = insert.owner ∧ row.contentHash.text = insert.request.content
  | .memory (.insertExtractedMemory insert), row =>
    row.id = insert.id ∧ row.owner = insert.owner ∧ row.contentHash = insert.contentHash
  | .document (.findCollectionTarget id), target => target.collectionId = id
  | _, _ => True

def Answers : (o : ConversationOp) → o.Ans → Prop
  | .statement s, .ok a => Gives s a
  | .memoryContentHash content, .ok contentHash => contentHash.text = content
  | .embedTexts modelId texts, .ok vectors => (∀ vector ∈ vectors, vector.model = modelId) ∧
    ∀ pair ∈ vectors.zip texts, pair.1.text = pair.2
  | _, _ => True

def protocol (request : Request) : Contract conversationSig Seen where
  may := Does request
  answers _ := Answers
  next := Seen.record

/-- A failure has nothing to keep: an answer may always be given. -/
abbrev Keeps {α : Type} (request : Request) (p : Service α) (seen : Seen) (Q : Seen → α → Prop) : Prop :=
  wp (protocol request) p seen Q fun _ _ => True

/-! ## Rules -/

variable {actor : Actor} {seen : Seen}

variable {α : Type}

section Rules

variable {deployment : Deployment} {request : Request} {β : Type} {Q : Seen → β → Prop}

theorem keeps_bind {p : Service α} {f : α → Service β} {P : Seen → α → Prop}
    (hp : Keeps request p seen P) (hf : ∀ seen a, P seen a → Keeps request (f a) seen Q) :
    Keeps request (p >>= f) seen Q :=
  wp_bind_mono hp hf

theorem keeps_ask_bind {o : ConversationOp} {f : o.Ans → Service β} (hdoes : Does request seen o)
    (hf : ∀ x, Answers o x → Keeps request (f x) (seen.record o x) Q) :
    Keeps request (Service.ask o >>= f) seen Q :=
  ⟨hdoes, hf⟩

theorem keeps_query_bind {s : Statement} {f : s.Value → Service β} (hdoes : Does request seen (.statement s))
    (hf : ∀ a, Gives s a → Keeps request (f a) (seen.recordStatement s a) Q) :
    Keeps request (query s >>= f) seen Q := by
  refine ⟨hdoes, fun x hx => ?_⟩
  cases x with
  | ok a => exact hf a hx
  | error err => trivial

theorem keeps_query {s : Statement} {Q : Seen → s.Value → Prop} (hdoes : Does request seen (.statement s))
    (hQ : ∀ a, Gives s a → Q (seen.recordStatement s a) a) : Keeps request (query s) seen Q := by
  refine ⟨hdoes, fun x hx => ?_⟩
  cases x with
  | ok a => exact hQ a hx
  | error err => trivial

theorem keeps_orFail_bind {result : Except AppError α} {f : α → Service β}
    (hf : ∀ a, result = .ok a → Keeps request (f a) seen Q) :
    Keeps request (Service.orFail result >>= f) seen Q :=
  wp_ofExcept_bind hf fun _ _ => trivial

theorem keeps_orFail {result : Except AppError β} (hQ : ∀ b, result = .ok b → Q seen b) :
    Keeps request (Service.orFail result) seen Q :=
  wp_ofExcept hQ fun _ _ => trivial

theorem keeps_audit_bind {action : String} {f : Unit → Service β} (hf : Keeps request (f ()) seen Q) :
    Keeps request (Service.audit action >>= f) seen Q := by
  refine ⟨trivial, fun x _ => ?_⟩
  cases x with
  | ok _ => exact hf
  | error err => trivial

theorem keeps_audit {action : String} {Q : Seen → Unit → Prop} (hQ : Q seen ()) :
    Keeps request (Service.audit action) seen Q := by
  refine ⟨trivial, fun x _ => ?_⟩
  cases x with
  | ok _ => exact hQ
  | error err => trivial

end Rules

/-! ## Conversations -/

variable {id : Uuid}

section Conversations

variable {deployment : Deployment} {request : Request}

/-- What is asserted of a call that nothing goes on from. -/
abbrev Over {α : Type} (_ : Seen) (_ : α) : Prop := True

theorem requiredApplicationId_ok {applicationId : Uuid}
    (h : requiredApplicationId actor = .ok applicationId) :
    actor.internalApplicationId = some applicationId := by
  unfold requiredApplicationId at h
  split at h
  · next found hfound =>
    cases h
    exact hfound
  · cases h

/-- A caller without privileges sees what is of its application. -/
theorem application_of_sees {access : ConversationAccess} {owner : Owner}
    (haccess : conversationAccess actor false = .ok access) (hsees : access.sees owner = true) :
    actor.internalApplicationId = some owner.applicationId := by
  obtain ⟨-, haccess⟩ := Fallible.ite_error_eq_ok.mp haccess
  cases haccess
  simp only [ConversationAccess.sees, Bool.false_or, Bool.and_eq_true, decide_eq_true_eq] at hsees
  exact hsees.1.1

theorem keeps_ensureConversationWrite (id : Uuid) :
    Keeps request (ensureConversationWrite actor id) seen fun seen row =>
      seen.found = some row ∧ row.id = id ∧ actor.internalApplicationId = some row.owner.applicationId := by
  unfold ensureConversationWrite
  refine keeps_orFail_bind fun access haccess => ?_
  exact keeps_query trivial fun row hrow => ⟨rfl, hrow.1, application_of_sees haccess hrow.2⟩

theorem keeps_createConversation (title : Option String) (metadata : Json) :
    Keeps request (createConversation actor title metadata) seen fun seen row => seen.found = some row := by
  unfold createConversation
  refine keeps_orFail_bind fun _ _ => keeps_orFail_bind fun applicationId _ => ?_
  refine keeps_orFail_bind fun _ _ => keeps_orFail_bind fun _ _ => ?_
  refine keeps_query_bind trivial fun policy _ => ?_
  refine wp_ite (fun _ => trivial) fun _ => ?_
  refine keeps_ask_bind (o := .newId) trivial fun id _ => ?_
  refine keeps_query_bind trivial fun row _ => ?_
  exact keeps_audit_bind rfl

theorem keeps_getConversation (id : Uuid) :
    Keeps request (getConversation actor id) seen fun seen row => seen.found = some row := by
  unfold getConversation
  refine keeps_orFail_bind fun _ _ => keeps_orFail_bind fun access _ => ?_
  refine keeps_query_bind trivial fun row _ => ?_
  exact keeps_audit_bind rfl

theorem keeps_patchConversation (id : Uuid) (patch : ConversationPatchRequest) :
    Keeps request (patchConversation actor id patch) seen Over := by
  unfold patchConversation
  refine keeps_orFail_bind fun _ _ => keeps_orFail_bind fun _ _ => keeps_orFail_bind fun _ _ => ?_
  refine keeps_bind (keeps_ensureConversationWrite id) fun seen row _ => ?_
  refine keeps_query_bind trivial fun row _ => ?_
  exact keeps_audit_bind trivial

theorem keeps_setConversationStatus (id : Uuid) (status : ConversationStatus) :
    Keeps request (setConversationStatus actor id status) seen Over := by
  unfold setConversationStatus
  refine keeps_orFail_bind fun _ _ => ?_
  refine keeps_bind (keeps_ensureConversationWrite id) fun seen row _ => ?_
  refine keeps_query_bind trivial fun row _ => ?_
  exact keeps_audit_bind trivial

theorem keeps_listMessages (id : Uuid) (after limit : Nat) :
    Keeps request (listMessages actor id after limit) seen Over := by
  unfold listMessages
  refine keeps_orFail_bind fun _ _ => keeps_orFail_bind fun access _ => ?_
  refine keeps_query_bind trivial fun row _ => ?_
  refine keeps_query_bind trivial fun rows _ => ?_
  exact keeps_orFail fun _ _ => trivial

theorem keeps_addMessage {insert : ConversationMessageInsert} (hadds : AddsMessage request seen insert) :
    Keeps request (addMessage insert) seen Over := by
  unfold addMessage
  refine keeps_ask_bind (o := .newId) trivial fun messageId _ => ?_
  refine keeps_query_bind (s := .conversation (.addMessage messageId insert)) hadds fun row _ => ?_
  exact keeps_orFail fun _ _ => trivial

theorem keeps_createMessage {message : ConversationMessageCreateRequest}
    (hcall : request.call = .createMessage id message) :
    Keeps request (createMessage actor id message) seen Over := by
  unfold createMessage
  refine keeps_orFail_bind fun _ _ => ?_
  refine keeps_bind (keeps_ensureConversationWrite id) fun seen row hfound => ?_
  refine wp_ite (fun _ => trivial) fun _ => ?_
  refine keeps_orFail_bind fun _ _ => keeps_orFail_bind fun _ _ => ?_
  refine keeps_bind (keeps_addMessage ⟨⟨_, rfl⟩, fun _ => ⟨row, hfound.1, hfound.2.1, ?_⟩⟩) fun seen record _ => ?_
  · intro hother
    exact absurd hcall (hother id message)
  · exact keeps_audit_bind trivial

end Conversations

/-! ## Embeddings and retrieval -/

variable {scope : RetrievalScope}

variable (applicationId conversationId : Uuid)

section Embeddings

variable {deployment : Deployment} {request : Request}

/-- A vector of a text in the application's model, as the call has read it. -/
def Embedded (seen : Seen) (applicationId : Uuid) (text : String) (embedding : QueryEmbedding) : Prop :=
  seen.target = some (applicationId, embedding.vector.model) ∧ embedding.modelId = embedding.vector.model ∧
    embedding.vector.text = text

/-- Nothing but the target is written down. -/
def OnlyTarget (seen seen' : Seen) : Prop :=
  ∃ target, seen' = { seen with target }

theorem OnlyTarget.refl (seen : Seen) : OnlyTarget seen seen :=
  ⟨seen.target, rfl⟩

variable {a b : Seen}

theorem OnlyTarget.trans {c : Seen} (h : OnlyTarget a b) (h' : OnlyTarget b c) :
    OnlyTarget a c := by
  obtain ⟨target, rfl⟩ := h
  obtain ⟨target', rfl⟩ := h'
  exact ⟨target', rfl⟩

theorem OnlyTarget.written (h : OnlyTarget a b) : b.written = a.written := by
  obtain ⟨target, rfl⟩ := h
  rfl

theorem OnlyTarget.memoryPolicy (h : OnlyTarget a b) : b.memoryPolicy = a.memoryPolicy := by
  obtain ⟨target, rfl⟩ := h
  rfl

theorem keeps_embedQuery (text : String) :
    Keeps request (embedQuery applicationId text) seen fun seen' result =>
      OnlyTarget seen seen' ∧ ∀ embedding, result = .ok embedding →
          Embedded seen' applicationId text embedding := by
  have herr : ∀ seen' failure, OnlyTarget seen seen' → OnlyTarget seen seen' ∧
      ∀ embedding, (Except.error failure : Except String QueryEmbedding) = .ok embedding →
        Embedded seen' applicationId text embedding :=
    fun seen' failure honly => ⟨honly, fun _ h => (nomatch h)⟩
  unfold embedQuery
  refine keeps_ask_bind (o := .statement (.policy (.findApplicationEmbeddingTarget applicationId))) trivial
    fun answer _ => ?_
  cases answer with
  | error err => exact herr _ _ (.refl seen)
  | ok found =>
    cases found with
    | none => exact herr _ _ ⟨_, rfl⟩
    | some target =>
      obtain ⟨providerId, modelId, declaredDimension⟩ := target
      cases providerId with
      | none => exact herr _ _ ⟨_, rfl⟩
      | some providerId =>
        cases modelId with
        | none => exact herr _ _ ⟨_, rfl⟩
        | some modelId =>
          refine wp_ite (fun _ => herr _ _ ⟨_, rfl⟩) fun _ => ?_
          refine keeps_ask_bind (o := .buildEmbeddingModel providerId modelId applicationId) trivial
            fun state _ => ?_
          cases state with
          | unavailable err => exact herr _ _ ⟨_, rfl⟩
          | notConfigured => exact herr _ _ ⟨_, rfl⟩
          | ready =>
            refine keeps_ask_bind (o := .embedTexts modelId [text]) trivial fun vectors hvectors => ?_
            -- one vector is what one text gives
            rcases vectors with err | (_ | ⟨vector, _ | ⟨other, rest⟩⟩)
            · exact herr _ _ ⟨_, rfl⟩
            · exact herr _ _ ⟨_, rfl⟩
            · refine ⟨⟨_, rfl⟩, fun embedding hembedding => ?_⟩
              obtain rfl := Except.ok.inj hembedding
              have hmodel : vector.model = modelId := hvectors.1 vector List.mem_cons_self
              have htext : vector.text = text := hvectors.2 (vector, text) List.mem_cons_self
              subst hmodel
              exact ⟨rfl, rfl, htext⟩
            · exact herr _ _ ⟨_, rfl⟩

theorem keeps_embedMemoryContent (content : String) :
    Keeps request (embedMemoryContent applicationId content) seen fun seen' result =>
      OnlyTarget seen seen' ∧ ∀ embedding, result = some embedding →
          Embedded seen' applicationId content embedding := by
  have hnone : ∀ seen', OnlyTarget seen seen' → OnlyTarget seen seen' ∧
      ∀ embedding, (none : Option QueryEmbedding) = some embedding →
          Embedded seen' applicationId content embedding :=
    fun seen' honly => ⟨honly, fun _ h => (nomatch h)⟩
  unfold embedMemoryContent
  refine keeps_ask_bind (o := .statement (.policy (.getEmbeddingPolicy applicationId))) trivial
    fun answer _ => ?_
  cases answer with
  | error err => exact hnone _ (.refl seen)
  | ok policy =>
    refine wp_ite (fun _ => ?_) fun _ => hnone _ ⟨_, rfl⟩
    refine keeps_bind (keeps_embedQuery applicationId content) fun seen' result hresult => ?_
    have honly : OnlyTarget seen seen' := OnlyTarget.trans ⟨_, rfl⟩ hresult.1
    cases result with
    | error failure => exact hnone _ honly
    | ok embedding =>
      refine ⟨honly, fun other hother => ?_⟩
      obtain rfl := Option.some.inj hother
      exact hresult.2 _ rfl

theorem keeps_indexMemory {memory : MemoryRow} {text : String} {embedding : QueryEmbedding}
    (hembedded : Embedded seen memory.owner.applicationId text embedding)
    (hwritten : seen.written = some memory)
    (htext : memory.contentHash.text = text) (henabled : MemoryEnabled seen memory.owner.applicationId) :
    Keeps request (indexMemory memory.id embedding) seen fun seen' _ => seen' = seen := by
  unfold indexMemory
  have hdoes : Does request seen (.statement (.memory (.insertMemoryEmbedding
      { memoryId := memory.id, embeddingModelId := some embedding.modelId, embedding := embedding.vector }))) :=
    ⟨congrArg some hembedded.2.1, memory, hwritten, rfl, hembedded.1, hembedded.2.2.trans htext.symm, henabled⟩
  refine keeps_ask_bind hdoes fun answer _ => ?_
  cases answer <;> exact rfl

variable (query : String) (policy : RetrievalPolicy)

theorem keeps_retrieveMemories {vector : Embedding}
    (htarget : seen.target = some (scope.applicationId, vector.model))
    (hcall : ∃ input parts, request.call = .prepareResponse input parts)
    (hwants : WantsMemories seen) :
    Keeps request (retrieveMemories deployment scope query vector policy) seen fun seen' _ => seen' = seen := by
  unfold retrieveMemories
  refine keeps_ask_bind (o := .statement (.memory (.findMemoryCandidates scope vector _)))
    ⟨htarget, hcall, hwants⟩ fun answer _ => ?_
  cases answer with
  | error err => exact rfl
  | ok found =>
    dsimp only
    cases found.mapM MemoryMatch.candidate <;> exact rfl

theorem keeps_retrieveChunks {vector : Embedding}
    (htarget : seen.target = some (scope.applicationId, vector.model)) :
    Keeps request (retrieveChunks deployment scope query vector policy) seen fun seen' _ => seen' = seen := by
  unfold retrieveChunks
  refine keeps_ask_bind (o := .statement (.document (.findRagChunkCandidates scope vector _ _))) htarget
    fun answer _ => ?_
  cases answer with
  | error err => exact rfl
  | ok found =>
    dsimp only
    cases found.mapM ChunkMatch.candidate <;> exact rfl

theorem keeps_armIf {wanted : Bool} {arm : Service (Except String (Nat × List α))}
    (harm : wanted = true → Keeps request arm seen fun seen' _ => seen' = seen) :
    Keeps request (armIf wanted arm) seen fun seen' _ => seen' = seen := by
  cases wanted with
  | true => exact harm rfl
  | false => exact rfl

theorem WantsMemories.of_onlyTarget {seen' : Seen} (h : WantsMemories seen) (honly : OnlyTarget seen seen') :
    WantsMemories seen' := by
  obtain ⟨target, rfl⟩ := honly
  exact h

theorem keeps_retrieve {wantMemory : Bool} (wantRag : Bool)
    (hcall : ∃ input parts, request.call = .prepareResponse input parts)
    (hwants : wantMemory = true → WantsMemories seen) :
    Keeps request (retrieve deployment actor applicationId query policy wantMemory wantRag) seen Over := by
  unfold retrieve
  refine keeps_bind (keeps_embedQuery applicationId query) fun seen' result hresult => ?_
  cases result with
  | error failure => trivial
  | ok embedding =>
    have htarget := (hresult.2 embedding rfl).1
    refine keeps_bind (keeps_armIf fun hwanted => keeps_retrieveMemories query policy htarget hcall
      ((hwants hwanted).of_onlyTarget hresult.1)) fun seen'' memories hsame => ?_
    subst hsame
    cases memories with
    | error failure => trivial
    | ok memories =>
      refine keeps_bind (keeps_armIf fun _ => keeps_retrieveChunks query policy htarget) fun seen' chunks _ => ?_
      cases chunks <;> trivial

theorem keeps_retrieveIfWanted {wantMemory : Bool} (wantRag : Bool)
    (hcall : ∃ input parts, request.call = .prepareResponse input parts)
    (hwants : wantMemory = true → WantsMemories seen) :
    Keeps request (retrieveIfWanted deployment actor applicationId conversationId query policy wantMemory
      wantRag) seen Over := by
  unfold retrieveIfWanted
  refine wp_ite (fun _ => ?_) fun _ => trivial
  refine keeps_bind (keeps_retrieve applicationId query policy wantRag hcall hwants) fun seen outcome _ => ?_
  refine keeps_ask_bind (o := .insertRetrievalRun _) trivial fun answer _ => ?_
  refine keeps_orFail_bind fun _ _ => ?_
  cases outcome with
  | ok outcome => trivial
  | error failure =>
    refine keeps_query_bind trivial fun embeddingPolicy _ => ?_
    exact wp_ite (fun _ => trivial) fun _ => trivial

theorem keeps_planContext (currentSequence : Nat) (currentInput : String)
    (hcall : ∃ input parts, request.call = .prepareResponse input parts) :
    Keeps request (planContext deployment actor conversationId currentSequence currentInput) seen Over := by
  unfold planContext
  cases actor.internalApplicationId with
  | none => trivial
  | some applicationId =>
    refine keeps_query_bind trivial fun conversationPolicy _ => ?_
    refine keeps_query_bind trivial fun retrievalPolicy _ => ?_
    refine keeps_query_bind trivial fun found _ => ?_
    cases found with
    | none => trivial
    | some anchor =>
      refine keeps_orFail_bind fun summary _ => ?_
      refine keeps_query_bind trivial fun rows _ => ?_
      refine keeps_orFail_bind fun history _ => ?_
      refine keeps_bind (keeps_retrieveIfWanted applicationId _ currentInput retrievalPolicy _ hcall ?_)
        fun seen outcome _ => ?_
      · intro hwanted
        simp only [Bool.and_eq_true] at hwanted
        exact ⟨applicationId, retrievalPolicy, conversationPolicy, rfl, rfl, hwanted.1.1, hwanted.1.2, hwanted.2⟩
      refine keeps_orFail_bind fun planned _ => ?_
      refine wp_ite (fun _ => ?_) fun _ => trivial
      refine keeps_ask_bind (o := .insertContextPlan _) trivial fun answer _ => ?_
      exact keeps_orFail fun _ _ => trivial

theorem keeps_responseConversation (input : ResponseConversationInput) :
    Keeps request (responseConversation actor input) seen fun seen row => seen.found = some row := by
  unfold responseConversation
  refine wp_ite (fun _ => keeps_createConversation _ _) fun _ => ?_
  cases input.id with
  | some id => exact keeps_getConversation id
  | none => trivial

theorem keeps_prepareResponse {input : ResponseConversationInput} {parts : List PublicContentPart}
    (hcall : request.call = .prepareResponse input parts) :
    Keeps request (prepareResponse deployment actor input parts) seen Over := by
  unfold prepareResponse
  refine keeps_bind (keeps_responseConversation input) fun seen row hfound => ?_
  refine wp_ite (fun _ => trivial) fun hactive => ?_
  refine keeps_orFail_bind fun _ _ => ?_
  refine keeps_bind (keeps_addMessage ⟨⟨_, rfl⟩, fun _ => ⟨row, hfound, rfl, fun _ => hactive⟩⟩)
    fun seen record _ => ?_
  refine keeps_audit_bind ?_
  refine keeps_bind (keeps_planContext row.id record.sequenceNumber _ ⟨input, parts, hcall⟩) fun seen _ _ => ?_
  trivial

end Embeddings

/-! ## Extraction -/

section Extraction

variable {deployment : Deployment} {request : Request} {extraction : Extraction}

/-- A run stores its memories under the policies that the call has read. -/
def UnderPolicy (seen : Seen) (extraction : Extraction) : Prop :=
  (∃ policy, seen.policy = some (extraction.applicationId, policy) ∧
      extraction.persistence = policy.conversationContentPersistence) ∧
    MemoryEnabled seen extraction.applicationId

theorem keeps_nearDuplicate {embedding : Option QueryEmbedding} {text : String}
    (hembedded : ∀ e, embedding = some e → Embedded seen scope.applicationId text e) :
    Keeps request (nearDuplicate deployment scope embedding) seen fun seen' _ => seen' = seen := by
  cases embedding with
  | none => exact rfl
  | some embedding =>
    refine keeps_ask_bind (o := .statement (.memory (.findNearestMemory scope embedding.vector)))
      (hembedded embedding rfl).1 fun answer _ => ?_
    rcases answer with err | (_ | ⟨existing, distance⟩) <;> exact rfl

theorem keeps_contradicted (scope : RetrievalScope) (contentHash : Digest) (memoryKey : Option String) :
    Keeps request (contradicted scope contentHash memoryKey) seen fun seen' _ => seen' = seen := by
  cases memoryKey with
  | none => exact rfl
  | some memoryKey =>
    refine keeps_ask_bind (o := .statement (.memory (.findMemoryByKey scope memoryKey))) trivial
      fun answer _ => ?_
    rcases answer with err | (_ | ⟨existing, existingHash⟩) <;> exact rfl

theorem keeps_confirmed (memoryId : Uuid) (hpolicy : UnderPolicy seen extraction) :
    Keeps request (confirmed memoryId) seen fun seen' _ => UnderPolicy seen' extraction := by
  refine keeps_ask_bind (o := .statement (.memory (.confirmMemory memoryId))) ⟨_, hpolicy.2⟩ fun answer _ => ?_
  cases answer <;> exact hpolicy

theorem keeps_storeCandidate {candidate : AcceptedCandidate} {contentHash : Digest}
    {embedding : Option QueryEmbedding} (hpolicy : UnderPolicy seen extraction)
    (hhash : contentHash.text = candidate.content)
    (hlooked : seen.looked = some (scopeOf (ownedBy extraction.applicationId actor), contentHash))
    (hembedded : ∀ e, embedding = some e → Embedded seen extraction.applicationId candidate.content e) :
    Keeps request (storeCandidate actor extraction candidate contentHash embedding) seen
      fun seen' _ => UnderPolicy seen' extraction := by
  unfold storeCandidate
  refine keeps_bind (keeps_contradicted _ _ _) fun seen' contradicts hsame => ?_
  subst hsame
  refine keeps_ask_bind (o := .newId) trivial fun id _ => ?_
  refine keeps_ask_bind (o := .statement (.memory (.insertExtractedMemory _))) ?_ fun answer hanswer => ?_
  · obtain ⟨⟨policy, hseen, hpersistence⟩, henabled⟩ := hpolicy
    refine ⟨⟨by rw [hhash], policy, hseen, hpersistence⟩, henabled, hlooked, ?_⟩
    show extractedScope actor = _ ∨ extractedScope actor = _
    unfold extractedScope
    split
    · exact .inl rfl
    · exact .inr rfl
  cases answer with
  | error err => exact hpolicy
  | ok row =>
    obtain ⟨hid, howner, hcontent⟩ : row.id = id ∧ row.owner = ownedBy extraction.applicationId actor ∧
      row.contentHash = contentHash := hanswer
    cases embedding with
    | none => exact hpolicy
    | some embedding =>
      have happlication : row.owner.applicationId = extraction.applicationId := by
        rw [howner]
        rfl
      have hindexed : Embedded seen' row.owner.applicationId candidate.content embedding := by
        rw [happlication]
        exact hembedded embedding rfl
      have henabled : MemoryEnabled seen' row.owner.applicationId := by
        rw [happlication]
        exact hpolicy.2
      have htext : row.contentHash.text = candidate.content := by rw [hcontent, hhash]
      rw [← hid]
      refine keeps_bind (keeps_indexMemory hindexed rfl htext henabled) fun next _ hsame => ?_
      subst hsame
      exact hpolicy

theorem keeps_extractCandidate (candidate : AcceptedCandidate) (hpolicy : UnderPolicy seen extraction) :
    Keeps request (extractCandidate deployment actor extraction candidate) seen
      fun seen' _ => UnderPolicy seen' extraction := by
  unfold extractCandidate
  refine keeps_ask_bind (o := .memoryContentHash candidate.content) trivial fun answer hhash => ?_
  cases answer with
  | error err => exact hpolicy
  | ok contentHash =>
    refine keeps_ask_bind (o := .statement (.memory (.findMemoryByContentHash _ contentHash))) trivial
      fun answer _ => ?_
    rcases answer with err | (_ | existing)
    · exact hpolicy
    · refine keeps_bind (keeps_embedMemoryContent extraction.applicationId candidate.content)
        fun seen' embedding hembedding => ?_
      have hlooked : seen'.looked = some (scopeOf (ownedBy extraction.applicationId actor), contentHash) := by
        obtain ⟨target, rfl⟩ := hembedding.1
        rfl
      have hpolicy' : UnderPolicy seen' extraction := by
        obtain ⟨target, rfl⟩ := hembedding.1
        exact hpolicy
      refine keeps_bind (keeps_nearDuplicate hembedding.2) fun seen'' duplicate hsame => ?_
      subst hsame
      cases duplicate with
      | some existing => exact keeps_confirmed existing hpolicy'
      | none => exact keeps_storeCandidate hpolicy' hhash hlooked hembedding.2
    · exact keeps_confirmed existing hpolicy

theorem keeps_extractCandidates (left : Nat) (candidates : List (Except String AcceptedCandidate))
    (outcome : MemoryExtractionRunOutcome) (hpolicy : UnderPolicy seen extraction) :
    Keeps request (extractCandidates deployment actor extraction left candidates outcome) seen Over := by
  induction candidates generalizing left outcome seen with
  | nil => cases left <;> trivial
  | cons candidate rest ih =>
    cases left with
    | zero =>
      rw [extractCandidates]
      exact ih 0 _ hpolicy
    | succ left =>
      cases candidate with
      | error reason =>
        rw [extractCandidates]
        exact ih left _ hpolicy
      | ok candidate =>
        rw [extractCandidates]
        refine keeps_bind (keeps_extractCandidate candidate hpolicy) fun seen' decision hpolicy' => ?_
        exact ih left _ hpolicy'

theorem keeps_readTurns (id : Uuid) :
    Keeps request (readTurns id) seen fun seen' _ => seen' = seen := by
  unfold readTurns
  refine keeps_ask_bind (o := .statement (.conversation (.findRecentMessages id none _))) trivial
    fun answer _ => ?_
  cases answer with
  | error err => exact rfl
  | ok rows =>
    dsimp only
    cases rows.mapM MessageRow.history <;> exact rfl

theorem keeps_extractMemories (id : Uuid) :
    Keeps request (extractMemories deployment actor id) seen Over := by
  unfold extractMemories
  cases actor.internalApplicationId with
  | none => trivial
  | some applicationId =>
    refine keeps_ask_bind (o := .statement (.policy (.getMemoryPolicy applicationId))) trivial
      fun memoryAnswer _ => ?_
    refine keeps_ask_bind (o := .statement (.policy (.getConversationPolicy applicationId))) trivial
      fun policyAnswer _ => ?_
    rcases memoryAnswer with err | memoryPolicy
    · trivial
    rcases policyAnswer with err | conversationPolicy
    · trivial
    refine wp_ite (fun _ => trivial) fun henabled => ?_
    have henabled : memoryPolicy.enabled = true := by
      cases hpolicy : memoryPolicy.enabled with
      | true => rfl
      | false => simp [hpolicy] at henabled
    cases effectiveExtractionStatus conversationPolicy.memoryConsentMode memoryPolicy.consentMode with
    | none => trivial
    | some status =>
      refine keeps_ask_bind (o := .statement (.conversation (.findConversationContextAnchor id))) trivial
        fun answer _ => ?_
      rcases answer with err | (_ | anchor)
      · trivial
      · trivial
      refine keeps_bind (keeps_readTurns id) fun seen' turns hsame => ?_
      subst hsame
      refine wp_ite (fun _ => trivial) fun _ => ?_
      refine keeps_ask_bind (o := .openExtractionRun _) trivial fun answer _ => ?_
      cases answer with
      | error err => trivial
      | ok _ =>
        refine keeps_bind (P := Over) ?_ fun seen outcome _ => ?_
        · unfold runExtraction
          refine keeps_ask_bind (o := .extract _) trivial fun answer _ => ?_
          cases answer with
          | error failure => trivial
          | ok candidates =>
            exact keeps_extractCandidates _ candidates _
              ⟨⟨conversationPolicy, rfl, rfl⟩, memoryPolicy, rfl, henabled⟩
        · refine keeps_ask_bind (o := .completeExtractionRun outcome) trivial fun _ _ => ?_
          refine keeps_ask_bind (o := .audit _) trivial fun answer _ => ?_
          cases answer <;> trivial

end Extraction

/-! ## Summarization -/

section Summarization

variable {deployment : Deployment} {request : Request}

/-- What a plan has been made of. -/
structure Draft (seen : Seen) (conversationId : Uuid) (plan : SummarizationPlan) (active : Option SummaryRow)
    (previous : Option ConversationSummary) (rows : List MessageRow) (history : List HistoryMessage) :
    Prop where
  summary : seen.active = some (conversationId, active)
  opened : active.mapM SummaryRow.summary = .ok previous
  backlog : seen.backlog = some (conversationId, coverage previous, rows)
  read : rows.mapM MessageRow.history = .ok history
  turns : turnsOf history ≠ []
  covers : plan.coversThroughSequence =
    ((history.map HistoryMessage.sequenceNumber).max?).getD (coverage previous)
  messages : plan.messages = summarizationMessages (previous.bind ConversationSummary.summaryText)
    (renderTranscript (turnsOf history)) plan.targetTokens

def Drafted (seen : Seen) (conversationId : Uuid) (plan : SummarizationPlan) : Prop :=
  ∃ active previous rows history, Draft seen conversationId plan active previous rows history

theorem keeps_planSummarization (policy : ConversationPolicy) (force : Bool) :
    Keeps request (planSummarization conversationId policy force) seen fun seen' plan =>
      seen'.policy = seen.policy ∧ seen'.found = seen.found ∧ Drafted seen' conversationId plan := by
  unfold planSummarization
  refine keeps_query_bind trivial fun active _ => ?_
  refine keeps_orFail_bind fun previous hopened => ?_
  refine keeps_query_bind trivial fun messagesSinceSummary _ => ?_
  refine keeps_query_bind trivial fun rows _ => ?_
  refine keeps_orFail_bind fun history hread => ?_
  dsimp only
  split
  · trivial
  · refine wp_ite (fun _ => trivial) fun hturns => ?_
    exact ⟨rfl, rfl, active, previous, rows, history, rfl, hopened, rfl, hread,
      fun hnil => hturns (by rw [hnil]; rfl), rfl, rfl⟩

theorem keeps_runSummarization {conversationId : Uuid} {policy : ConversationPolicy}
    {plan : SummarizationPlan}
    {row : ConversationRow} (hfound : seen.found = some row) (hid : row.id = conversationId)
    (hpolicy : seen.policy = some (row.owner.applicationId, policy))
    (hplan : Drafted seen conversationId plan) :
    Keeps request (runSummarization conversationId policy plan) seen Over := by
  unfold runSummarization
  refine keeps_ask_bind (o := .execute plan.messages) trivial fun reply _ => ?_
  cases reply with
  | none => trivial
  | some raw =>
    dsimp only
    cases parseSummary raw with
    | error reason => trivial
    | ok text =>
      refine keeps_ask_bind (o := .newId) trivial fun summaryId _ => ?_
      refine keeps_query_bind (s := .conversation (.insertConversationSummary summaryId _)) ?_
        fun row _ => keeps_orFail fun _ _ => trivial
      obtain ⟨active, previous, rows, history, hdraft⟩ := hplan
      refine ⟨⟨active, previous, rows, history, ?_⟩, ⟨row, hfound, hid, rfl, policy, hpolicy, rfl⟩, rfl⟩
      exact
        { summary := hdraft.summary
          opened := hdraft.opened
          backlog := hdraft.backlog
          read := hdraft.read
          turns := hdraft.turns
          covers := hdraft.covers
          asked := ⟨plan.targetTokens, hdraft.messages⟩
          last := rfl }

theorem keeps_summarizeConversationUnscoped (id : Uuid) (force : Bool) :
    Keeps request (summarizeConversationUnscoped actor id force) seen Over := by
  unfold summarizeConversationUnscoped
  refine keeps_bind (keeps_ensureConversationWrite id) fun seen row ⟨hfound, hid, hactor⟩ => ?_
  refine wp_ite (fun _ => trivial) fun _ => ?_
  refine keeps_orFail_bind fun applicationId happlication => ?_
  obtain rfl := Option.some.inj (hactor.symm.trans (requiredApplicationId_ok happlication))
  refine keeps_query_bind trivial fun policy _ => ?_
  refine keeps_query_bind trivial fun found hanchor => ?_
  cases found with
  | none => trivial
  | some anchor =>
    have hsame : row.id = anchor.conversationId := hid.trans (hanchor anchor rfl).symm
    refine keeps_orFail_bind fun _ _ => ?_
    refine wp_ite (fun _ => trivial) fun _ => ?_
    refine keeps_bind (keeps_planSummarization anchor.conversationId policy force)
      fun seen' plan hplan => ?_
    refine keeps_ask_bind (o := .tryLock anchor.conversationId) trivial fun answer _ => ?_
    refine keeps_orFail_bind fun acquired _ => ?_
    refine wp_ite (fun _ => ?_) fun _ => trivial
    -- the lock is given back whatever the run comes to
    have hrest : ∀ seen (outcome : Except AppError ConversationSummary), Keeps request
        (do
          ask (.unlock anchor.conversationId)
          let summary ← Service.orFail outcome
          audit "conversation.summary.created"
          pure (SummarizationOutcome.summarized summary)) seen Over := by
      intro seen outcome
      refine keeps_ask_bind (o := .unlock anchor.conversationId) trivial fun _ _ => ?_
      exact keeps_orFail_bind fun summary _ => keeps_audit_bind trivial
    have hrun : Keeps request (runSummarization anchor.conversationId policy plan)
        (seen'.record (.tryLock anchor.conversationId) answer) Over :=
      keeps_runSummarization (hplan.2.1.trans hfound) hsame hplan.1 hplan.2.2
    show Keeps request ((runSummarization anchor.conversationId policy plan).attempt >>= _) _ _
    rw [Keeps, wp_bind, wp_attempt]
    exact wp_mono hrun (fun seen summary _ => hrest seen (.ok summary)) fun seen err _ => hrest seen (.error err)

theorem keeps_recordAssistantResponse (id responseId executionId : Uuid) (output : Option String) :
    Keeps request (recordAssistantResponse deployment actor id responseId executionId output) seen Over := by
  cases output with
  | none => trivial
  | some output =>
    unfold recordAssistantResponse
    refine keeps_bind (keeps_addMessage ⟨⟨_, rfl⟩, fun hrole => (nomatch hrole)⟩) fun seen record _ => ?_
    refine keeps_audit_bind ?_
    refine keeps_bind (keeps_extractMemories id) fun seen _ _ => ?_
    have hsummary : Keeps request (summarizeConversationUnscoped actor id false) seen Over :=
      keeps_summarizeConversationUnscoped id false
    show Keeps request ((summarizeConversationUnscoped actor id false).attempt >>= _) _ _
    rw [Keeps, wp_bind, wp_attempt]
    exact wp_mono hsummary (fun _ _ _ => trivial) fun _ _ _ => trivial

end Summarization

/-! ## Memories -/

section Memories

variable {request : Request}

theorem keeps_ensureMemoryWrite (id : Uuid) (hcall : request.call.readsMemory = true) :
    Keeps request (ensureMemoryWrite actor id) seen Over := by
  unfold ensureMemoryWrite
  refine keeps_orFail_bind fun access _ => ?_
  exact keeps_query hcall fun _ _ => trivial

theorem enabled_of_passed {policy : MemoryPolicy} {other : Bool} (h : ¬(!policy.enabled || !other) = true) :
    policy.enabled = true ∧ other = true := by
  simpa using h

theorem keeps_createMemory (memory : MemoryCreateRequest) :
    Keeps request (createMemory actor memory) seen Over := by
  unfold createMemory
  refine keeps_orFail_bind fun _ _ => keeps_orFail_bind fun applicationId _ => ?_
  refine keeps_query_bind trivial fun memoryPolicy _ => ?_
  refine wp_ite (fun _ => trivial) fun hpassed => wp_ite (fun _ => trivial) fun _ => ?_
  have henabled : memoryPolicy.enabled = true := (enabled_of_passed hpassed).1
  refine keeps_orFail_bind fun _ _ => keeps_orFail_bind fun _ _ => ?_
  refine keeps_ask_bind (o := .newId) trivial fun id _ => ?_
  refine keeps_query_bind trivial fun policy _ => ?_
  refine keeps_query_bind (s := .memory (.createMemory _)) ⟨⟨rfl, policy, rfl, rfl⟩, memoryPolicy, rfl, henabled⟩
    fun row hrow => ?_
  obtain ⟨hid, howner, htext⟩ : row.id = id ∧ row.owner = ownedBy applicationId actor ∧
    row.contentHash.text = memory.content := hrow
  have happlication : row.owner.applicationId = applicationId := by
    rw [howner]
    rfl
  refine keeps_orFail_bind fun record _ => ?_
  refine keeps_bind (keeps_embedMemoryContent applicationId memory.content) fun seen' embedding hembedding => ?_
  cases embedding with
  | none => exact keeps_audit_bind trivial
  | some embedding =>
    have hindexed : Embedded seen' row.owner.applicationId memory.content embedding := by
      rw [happlication]
      exact hembedding.2 embedding rfl
    have hmemory : MemoryEnabled seen' row.owner.applicationId :=
      ⟨memoryPolicy, by rw [hembedding.1.memoryPolicy, happlication]; rfl, henabled⟩
    rw [← hid]
    refine keeps_bind (keeps_indexMemory hindexed (hembedding.1.written.trans rfl) htext hmemory) fun seen _ _ => ?_
    exact keeps_audit_bind trivial

theorem keeps_listMemories (query : MemoryQuery) : Keeps request (listMemories actor query) seen Over := by
  unfold listMemories
  refine keeps_orFail_bind fun _ _ => keeps_orFail_bind fun applicationId _ => ?_
  refine keeps_query_bind trivial fun policy _ => ?_
  refine wp_ite (fun _ => trivial) fun hpassed => ?_
  obtain ⟨henabled, hlist⟩ := enabled_of_passed hpassed
  refine keeps_orFail_bind fun access _ => ?_
  refine keeps_query_bind (s := .memory (.listMemoriesAuthorized access query))
    ⟨applicationId, policy, rfl, henabled, hlist⟩ fun rows _ => ?_
  exact keeps_orFail fun _ _ => trivial

theorem keeps_getMemory (hcall : request.call = .getMemory id) :
    Keeps request (getMemory actor id) seen Over := by
  unfold getMemory
  refine keeps_orFail_bind fun _ _ => keeps_orFail_bind fun access _ => ?_
  refine keeps_query_bind (s := .memory (.findMemoryAuthorized id access)) ?_ fun row _ => ?_
  · show request.call.readsMemory = true
    rw [hcall]
    rfl
  · exact keeps_orFail fun _ _ => trivial

theorem keeps_patchedContent {patch : MemoryPatchRequest}
    (hcall : request.call = .patchMemory id patch) {content : Option String}
    (hcontent : patch.content = content) :
    Keeps request (patchedContent request.actor content) seen fun seen' stored =>
      DoesMemory request seen' (.patchMemory id patch stored) := by
  cases content with
  | none => exact ⟨hcall, hcontent⟩
  | some content =>
    refine keeps_orFail_bind fun applicationId happlication => ?_
    refine keeps_query_bind trivial fun policy _ => ?_
    exact ⟨hcall, content, applicationId, hcontent, requiredApplicationId_ok happlication, rfl, policy, rfl, rfl⟩

theorem keeps_patchMemory {patch : MemoryPatchRequest}
    (hcall : request.call = .patchMemory id patch) :
    Keeps request (patchMemory request.actor id patch) seen Over := by
  have hreads : request.call.readsMemory = true := by
    rw [hcall]
    rfl
  unfold patchMemory
  refine keeps_orFail_bind fun _ _ => ?_
  refine keeps_bind (keeps_ensureMemoryWrite id hreads) fun seen _ _ => ?_
  refine keeps_orFail_bind fun _ _ => keeps_orFail_bind fun _ _ => ?_
  refine keeps_bind (keeps_patchedContent hcall rfl) fun seen stored hstored => ?_
  refine keeps_query_bind (s := .memory (.patchMemory id patch stored)) hstored fun row _ => ?_
  exact keeps_orFail_bind fun record _ => keeps_audit_bind trivial

theorem keeps_deleteMemory (hcall : request.call = .deleteMemory id) :
    Keeps request (deleteMemory actor id) seen Over := by
  have hreads : request.call.readsMemory = true := by
    rw [hcall]
    rfl
  unfold deleteMemory
  refine keeps_orFail_bind fun _ _ => ?_
  refine keeps_bind (keeps_ensureMemoryWrite id hreads) fun seen _ _ => ?_
  exact keeps_query_bind (s := .memory (.deleteMemory id)) hcall fun _ _ => keeps_audit trivial

end Memories

/-! ## Documents -/

section Documents

variable {deployment : Deployment} {request : Request}

theorem keeps_claimed {operation : String} {rest : Service (Option α)}
    (hrest : Keeps request rest seen Over) :
    Keeps request (do if ← Service.orFail (← ask (.claimCommand operation)) then pure none else rest) seen
      Over := by
  refine keeps_ask_bind (o := .claimCommand operation) trivial fun answer _ => ?_
  refine keeps_orFail_bind fun replayed _ => ?_
  exact wp_ite (fun _ => trivial) fun _ => hrest

theorem keeps_createRagCollection (collection : RagCollectionCreateRequest) :
    Keeps request (createRagCollection actor collection) seen Over := by
  unfold createRagCollection
  refine keeps_orFail_bind fun _ _ => keeps_orFail_bind fun _ _ => keeps_claimed ?_
  refine keeps_ask_bind (o := .newId) trivial fun id _ => ?_
  exact keeps_query_bind trivial fun row _ => keeps_audit_bind trivial

theorem keeps_getRagCollection (id : Uuid) : Keeps request (getRagCollection actor id) seen Over := by
  unfold getRagCollection
  exact keeps_orFail_bind fun _ _ => keeps_query trivial fun _ _ => trivial

theorem keeps_patchRagCollection (id : Uuid) (patch : RagCollectionPatchRequest) :
    Keeps request (patchRagCollection actor id patch) seen Over := by
  unfold patchRagCollection
  refine keeps_orFail_bind fun _ _ => keeps_orFail_bind fun _ _ => ?_
  exact keeps_query_bind trivial fun row _ => keeps_audit_bind trivial

theorem keeps_setRagCollectionStatus (id : Uuid) (status : RagCollectionStatus) :
    Keeps request (setRagCollectionStatus actor id status) seen Over := by
  unfold setRagCollectionStatus
  refine keeps_orFail_bind fun _ _ => ?_
  exact keeps_query_bind trivial fun row _ => keeps_audit_bind trivial

/-- Chunks that are numbered, with their addresses, and have no vectors yet. -/
structure Prepared (chunks : List PreparedChunk) : Prop where
  indices : chunks.map PreparedChunk.chunkIndex = List.range chunks.length
  addresses : ∀ chunk ∈ chunks, chunk.chunkHash = ⟨chunk.text⟩ ∧
    chunk.tokenEstimate = estimateChunkTokens chunk.text
  bare : ∀ chunk ∈ chunks, chunk.embedding = none

variable {chunks : List PreparedChunk}

theorem prepared_prepareChunks {content : String} {strategy : ChunkStrategy}
    (h : prepareChunks deployment content strategy = .ok chunks) : Prepared chunks := by
  unfold prepareChunks at h
  cases hchunk : deployment.chunk strategy content with
  | error err =>
    rw [hchunk] at h
    cases h
  | ok found =>
    rw [hchunk] at h
    obtain rfl := Except.ok.inj h
    refine ⟨?_, fun chunk hchunk => ?_, fun chunk hchunk => ?_⟩
    · rw [List.map_map, List.length_map, List.length_zipIdx, List.range_eq_range', ← List.zipIdx_map_snd 0 found]
      rfl
    · obtain ⟨pair, -, rfl⟩ := List.mem_map.mp hchunk
      exact ⟨rfl, rfl⟩
    · obtain ⟨pair, -, rfl⟩ := List.mem_map.mp hchunk
      rfl

theorem wellPlanned_of_prepared (plan : RagIngestionPlan) (h : Prepared plan.chunks)
    (place : IngestionPlace) :
    WellPlanned seen place plan where
  indices := h.indices
  chunks := h.addresses
  whole := .inr h.bare
  model chunk hchunk embedding hembedding := by
    rw [h.bare chunk hchunk] at hembedding
    cases hembedding

theorem mem_withEmbeddings {vectors : List Embedding} {chunk : PreparedChunk}
    (h : chunk ∈ withEmbeddings chunks vectors) : ∃ bare ∈ chunks, ∃ vector ∈ vectors,
      (vector, bare.text) ∈ vectors.zip (chunks.map PreparedChunk.text) ∧
        chunk = { bare with embedding := some vector } := by
  obtain ⟨position, hposition, rfl⟩ := List.getElem_of_mem h
  have hlength := hposition
  unfold withEmbeddings at hlength
  rw [List.length_zipWith] at hlength
  refine ⟨chunks[position], List.getElem_mem _, vectors[position], List.getElem_mem _, ?_, List.getElem_zipWith⟩
  have hzip : position < (vectors.zip (chunks.map PreparedChunk.text)).length := by
    rw [List.length_zip, List.length_map]
    omega
  have hpair : (vectors.zip (chunks.map PreparedChunk.text))[position] =
      (vectors[position], chunks[position].text) := by
    rw [List.getElem_zip, List.getElem_map]
  rw [← hpair]
  exact List.getElem_mem hzip

theorem Prepared.withEmbeddings (h : Prepared chunks) {vectors : List Embedding}
    {strategy : String} {modelId applicationId : Uuid} {place : IngestionPlace}
    (hlength : vectors.length = chunks.length)
    (hmodel : ∀ vector ∈ vectors, vector.model = modelId)
    (htexts : ∀ pair ∈ vectors.zip (chunks.map PreparedChunk.text), pair.1.text = pair.2)
    (hplace : seen.place = some (place, applicationId))
    (htarget : seen.target = some (applicationId, modelId)) :
    WellPlanned seen place
      { chunks := withEmbeddings chunks vectors, strategy, embeddingModelId := some modelId } where
  indices := by
    show (List.zipWith _ chunks vectors).map _ = List.range (List.zipWith _ chunks vectors).length
    rw [List.map_zipWith, List.length_zipWith, hlength, min_self, ← h.indices]
    refine List.ext_getElem ?_ fun position _ _ => ?_
    · simp [hlength]
    · simp
  chunks chunk hchunk := by
    obtain ⟨bare, hbare, vector, -, -, rfl⟩ := mem_withEmbeddings hchunk
    exact h.addresses bare hbare
  whole := .inl fun chunk hchunk => by
    obtain ⟨bare, -, vector, -, -, rfl⟩ := mem_withEmbeddings hchunk
    rfl
  model chunk hchunk embedding hembedding := by
    obtain ⟨bare, -, vector, hvector, hpair, rfl⟩ := mem_withEmbeddings hchunk
    obtain rfl := Option.some.inj hembedding
    rw [hmodel vector hvector]
    exact ⟨rfl, htexts _ hpair, applicationId, hplace, htarget⟩

/-- What an ingestion knows of its context. -/
structure InContext (seen : Seen) (place : IngestionPlace) (context : RagIngestionContext) : Prop where
  place : seen.place = some (place, context.applicationId)
  target : ∀ target modelId, context.embedding = some target → target.modelId = some modelId →
    seen.target = some (context.applicationId, modelId)

theorem inContext_planned (seen : Seen) (place : IngestionPlace) (context : RagIngestionContext) :
    InContext (seen.planned place (some context)) place context where
  place := rfl
  target target modelId htarget hmodel := by
    show ((context.embedding.bind RagEmbeddingTarget.modelId).map _) = _
    rw [htarget, Option.bind_some, hmodel]
    rfl

theorem keeps_embedChunks {place : IngestionPlace} {context : RagIngestionContext}
    {target : RagEmbeddingTarget} (strategy : String) (hcontext : InContext seen place context)
    (htarget : context.embedding = some target) (hchunks : Prepared chunks) :
    Keeps request (embedChunks context.applicationId target chunks strategy) seen
      fun seen' plan => WellPlanned seen' place plan := by
  have hfailed : ∀ seen' failure, WellPlanned seen' place (.failed chunks strategy failure) :=
    fun seen' failure => wellPlanned_of_prepared (.failed chunks strategy failure) hchunks place
  unfold embedChunks
  rcases hprovider : target.providerId with _ | providerId
  · exact hfailed _ _
  rcases hmodel : target.modelId with _ | modelId
  · exact hfailed _ _
  refine wp_ite (fun _ => hfailed _ _) fun _ => ?_
  refine keeps_ask_bind (o := .buildEmbeddingModel providerId modelId _) trivial fun state _ => ?_
  cases state with
  | unavailable err => trivial
  | notConfigured => exact hfailed _ _
  | ready =>
    refine keeps_ask_bind (o := .embedTexts modelId _) trivial fun answer hvectors => ?_
    cases answer with
    | error err => exact hfailed _ _
    | ok vectors =>
      refine wp_ite (fun _ => hfailed _ _) fun hlength => ?_
      exact hchunks.withEmbeddings (not_not.mp hlength) hvectors.1 hvectors.2 hcontext.place
        (hcontext.target target modelId htarget hmodel)

theorem keeps_planRagIngestion (place : IngestionPlace) {context : Option RagIngestionContext}
    (content mimeTypeHint : Option String) (hcontext : ∀ c, context = some c → InContext seen place c) :
    Keeps request (planRagIngestion deployment context content mimeTypeHint) seen
      fun seen' plan => WellPlanned seen' place plan := by
  have hempty : ∀ seen', WellPlanned seen' place .empty := fun seen' =>
    wellPlanned_of_prepared .empty
      ⟨rfl, fun _ h => absurd h List.not_mem_nil, fun _ h => absurd h List.not_mem_nil⟩ place
  unfold planRagIngestion
  rcases content.filter (fun content => !(trim content).isEmpty) with _ | content
  · exact hempty _
  rcases context with _ | context
  · exact hempty _
  refine keeps_orFail_bind fun chunks hchunks => ?_
  refine wp_ite (fun _ => hempty _) fun _ => ?_
  rcases htarget : context.embedding with _ | target
  · exact wellPlanned_of_prepared { chunks, strategy := _ } (prepared_prepareChunks hchunks) place
  · exact keeps_embedChunks _ (hcontext context rfl) htarget (prepared_prepareChunks hchunks)

theorem keeps_createRagDocument (collectionId : Uuid) (create : RagDocumentCreateRequest) :
    Keeps request (createRagDocument deployment actor collectionId create) seen Over := by
  unfold createRagDocument
  refine keeps_orFail_bind fun _ _ => keeps_orFail_bind fun _ _ => keeps_orFail_bind fun _ _ => ?_
  refine keeps_query_bind trivial fun context _ => ?_
  refine keeps_bind (keeps_planRagIngestion (.collection collectionId) _ _ ?_) fun seen plan hplan => ?_
  · rintro context rfl
    exact inContext_planned seen _ context
  refine keeps_claimed ?_
  refine keeps_ask_bind (o := .newIds) trivial fun ids _ => ?_
  refine keeps_query_bind trivial fun target htarget => ?_
  refine keeps_query_bind (s := .document (.insertRagDocument target ids create _ plan)) ?_ fun row _ => ?_
  · have hid : target.collectionId = collectionId := htarget
    refine ⟨rfl, rfl, ?_⟩
    rw [hid]
    exact ⟨hplan.indices, hplan.chunks, hplan.whole, hplan.model⟩
  · exact keeps_audit_bind trivial

theorem keeps_getRagDocument (id : Uuid) : Keeps request (getRagDocument actor id) seen Over := by
  unfold getRagDocument
  exact keeps_orFail_bind fun _ _ => keeps_query trivial fun _ _ => trivial

theorem keeps_deleteRagDocument (id : Uuid) : Keeps request (deleteRagDocument actor id) seen Over := by
  unfold deleteRagDocument
  refine keeps_orFail_bind fun _ _ => ?_
  exact keeps_query_bind trivial fun _ _ => keeps_audit trivial

theorem keeps_ingestRagDocument (id : Uuid) (ingest : RagDocumentIngestRequest) :
    Keeps request (ingestRagDocument deployment actor id ingest) seen Over := by
  unfold ingestRagDocument
  refine keeps_orFail_bind fun _ _ => ?_
  rcases hcontent : ingest.content with _ | content
  · trivial
  refine keeps_orFail_bind fun _ _ => keeps_orFail_bind fun _ _ => ?_
  refine keeps_query_bind trivial fun context _ => ?_
  refine keeps_bind (keeps_planRagIngestion (.document id) _ _ ?_) fun seen plan hplan => ?_
  · rintro context rfl
    exact inContext_planned seen _ context
  refine keeps_claimed ?_
  refine keeps_ask_bind (o := .newIds) trivial fun ids _ => ?_
  refine keeps_query_bind (s := .document (.ingestRagDocument id ids.version ids.chunk ingest ⟨content⟩ plan)) ?_
    fun row _ => keeps_audit_bind trivial
  exact ⟨hcontent, hplan.indices, hplan.chunks, hplan.whole, hplan.model⟩

end Documents

/-! ## All calls -/

section Calls

variable {deployment : Deployment} {request : Request}

theorem keeps_putConversationPolicy (put : ConversationPolicyPutRequest) :
    Keeps request (putConversationPolicy actor applicationId put) seen Over := by
  unfold putConversationPolicy
  refine keeps_orFail_bind fun _ _ => ?_
  refine keeps_ask_bind (o := .canSeal) trivial fun sealable _ => ?_
  refine wp_ite (fun _ => trivial) fun _ => ?_
  exact keeps_query_bind trivial fun policy _ => keeps_audit_bind trivial

theorem keeps_putMemoryPolicy (put : MemoryPolicyPutRequest) :
    Keeps request (putMemoryPolicy actor applicationId put) seen Over := by
  unfold putMemoryPolicy
  refine keeps_orFail_bind fun _ _ => keeps_orFail_bind fun _ _ => ?_
  exact keeps_query_bind trivial fun policy _ => keeps_audit_bind trivial

theorem keeps_putRetrievalPolicy (put : RetrievalPolicyPutRequest) :
    Keeps request (putRetrievalPolicy actor applicationId put) seen Over := by
  unfold putRetrievalPolicy
  refine keeps_orFail_bind fun _ _ => keeps_orFail_bind fun _ _ => ?_
  exact keeps_query_bind trivial fun policy _ => keeps_audit_bind trivial

theorem keeps_putEmbeddingPolicy (put : EmbeddingPolicyPutRequest) :
    Keeps request (putEmbeddingPolicy actor applicationId put) seen Over := by
  unfold putEmbeddingPolicy
  refine keeps_orFail_bind fun _ _ => ?_
  exact keeps_query_bind trivial fun policy _ => keeps_audit_bind trivial

theorem keeps_run : Keeps request (run deployment request) seen Over := by
  have hreply : ∀ {α : Type} {p : Service α} (reply : α → Reply) {Q : Seen → α → Prop},
      Keeps request p seen Q → Keeps request (p >>= fun a => pure (reply a)) seen Over :=
    fun reply _ hp => keeps_bind hp fun _ _ _ => trivial
  unfold run
  cases hcall : request.call with
  | createConversation title metadata => exact hreply _ (keeps_createConversation title metadata)
  | getConversation id => exact hreply _ (keeps_getConversation id)
  | patchConversation id patch => exact hreply _ (keeps_patchConversation id patch)
  | setConversationStatus id status => exact hreply _ (keeps_setConversationStatus id status)
  | listMessages id after limit => exact hreply _ (keeps_listMessages id after limit)
  | createMessage id message => exact hreply _ (keeps_createMessage hcall)
  | prepareResponse input parts => exact hreply _ (keeps_prepareResponse hcall)
  | recordAssistantResponse id responseId executionId output =>
    refine keeps_bind (keeps_recordAssistantResponse id responseId executionId output) fun seen record _ => ?_
    cases record <;> trivial
  | summarizeConversation id force =>
    refine keeps_bind (P := Over) ?_ fun seen outcome _ => ?_
    · exact keeps_orFail_bind fun _ _ => keeps_summarizeConversationUnscoped id force
    · cases outcome <;> trivial
  | createMemory memory => exact hreply _ (keeps_createMemory memory)
  | listMemories query => exact hreply _ (keeps_listMemories query)
  | getMemory id => exact hreply _ (keeps_getMemory hcall)
  | patchMemory id patch => exact hreply _ (keeps_patchMemory hcall)
  | deleteMemory id => exact hreply _ (keeps_deleteMemory hcall)
  | createRagCollection collection => exact hreply _ (keeps_createRagCollection collection)
  | getRagCollection id => exact hreply _ (keeps_getRagCollection id)
  | patchRagCollection id patch => exact hreply _ (keeps_patchRagCollection id patch)
  | setRagCollectionStatus id status => exact hreply _ (keeps_setRagCollectionStatus id status)
  | createRagDocument collectionId document => exact hreply _ (keeps_createRagDocument collectionId document)
  | getRagDocument id => exact hreply _ (keeps_getRagDocument id)
  | ingestRagDocument id ingest => exact hreply _ (keeps_ingestRagDocument id ingest)
  | deleteRagDocument id => exact hreply _ (keeps_deleteRagDocument id)
  | putConversationPolicy applicationId put => exact hreply _ (keeps_putConversationPolicy applicationId put)
  | putMemoryPolicy applicationId put => exact hreply _ (keeps_putMemoryPolicy applicationId put)
  | putRetrievalPolicy applicationId put => exact hreply _ (keeps_putRetrievalPolicy applicationId put)
  | putEmbeddingPolicy applicationId put => exact hreply _ (keeps_putEmbeddingPolicy applicationId put)

variable (deployment request) in
/-- **A call keeps the protocol.** -/
theorem wp_code (seen : Seen) :
    wp (protocol request) (code deployment request ()) seen (fun _ next => next = none) fun _ _ => True := by
  unfold code
  rw [wp_bind, wp_attempt]
  have hanswer : ∀ (seen : Seen) (result : Except AppError Reply),
      wp (protocol request) (Prog.ask (S := conversationSig) (.answer result) >>= fun _ => pure none :
        Prog conversationSig Empty (Option Unit)) seen (fun _ next => next = none) fun _ _ => True :=
    fun _ _ => ⟨trivial, fun _ _ => rfl⟩
  exact wp_mono keeps_run (fun seen reply _ => hanswer seen (.ok reply))
    fun seen err _ => hanswer seen (.error err)

end Calls

end Conversations

end Moira
