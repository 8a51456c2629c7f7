import Mathlib.Algebra.GroupWithZero.Nat
import Moira.Conversations.Service

/-!
# The conversation service

The calls on conversations, memories, RAG collections and documents, and on the two policies that
decide how they are stored and embedded.

- `prepareResponse`, `recordAssistantResponse` — a turn, with its context before and its memories
  after
-/

namespace Moira.Conversations

open Service

variable (deployment : Deployment) (actor : Actor)

/-! ## Conversations -/

def ensureConversationWrite (id : Uuid) : Service ConversationRow := do
  let access ← orFail (conversationAccess actor false)
  conversation (.findConversationAuthorized id access)

def createConversation (title : Option String) (metadata : Json) : Service ConversationRow := do
  orFail (actor.require "moira:conversations:create")
  let applicationId ← orFail (requiredApplicationId actor)
  orFail (validateTitle title)
  orFail (validateMetadata metadata)
  let policy ← policy (.getConversationPolicy applicationId)
  if !policy.conversationsEnabled || !policy.callerCanCreateConversations then
    orFail (.error (.coded 403 "conversation_policy_disabled" "conversation creation is disabled"))
  else
    let id ← ask .newId
    let row ← conversation (.createConversation { id, owner := ownedBy applicationId actor, title, metadata })
    audit "conversation.created"
    pure row

def getConversation (id : Uuid) : Service ConversationRow := do
  orFail (actor.require "moira:conversations:read")
  let access ← orFail (conversationAccess actor (canReadAll actor "moira:conversations:read"))
  let row ← conversation (.findConversationAuthorized id access)
  audit "conversation.read"
  pure row

def patchConversation (id : Uuid) (request : ConversationPatchRequest) : Service ConversationRow := do
  orFail (actor.require "moira:conversations:write")
  orFail (validateTitle request.title)
  orFail (validateMetadataOption request.metadata)
  let _ ← ensureConversationWrite actor id
  let row ← conversation (.patchConversation id request)
  audit "conversation.updated"
  pure row

def statusScope : ConversationStatus → String
  | .deleted => "moira:conversations:delete"
  | _ => "moira:conversations:write"

def statusAction : ConversationStatus → String
  | .active => "conversation.restored"
  | .archived => "conversation.archived"
  | .deleted => "conversation.deleted"

def setConversationStatus (id : Uuid) (status : ConversationStatus) : Service ConversationRow := do
  orFail (actor.require (statusScope status))
  let _ ← ensureConversationWrite actor id
  let row ← conversation (.setConversationStatus id status)
  audit (statusAction status)
  pure row

def listMessages (id : Uuid) (after limit : Nat) : Service (List ConversationMessageRecord) := do
  orFail (actor.require "moira:conversations:read")
  let access ← orFail (conversationAccess actor (canReadAll actor "moira:conversations:read"))
  let _ ← conversation (.findConversationAuthorized id access)
  let rows ← conversation (.listMessages id after limit)
  orFail (rows.mapM MessageRow.record)

/-- The insert of a body that the caller has. -/
def messageInsert (conversationId : Uuid) (responseId executionId : Option Uuid)
    (role : ConversationMessageRole) (messageType : ConversationMessageType) (content : String)
    (metadata : Json) : ConversationMessageInsert where
  conversationId := conversationId
  responseId := responseId
  executionId := executionId
  role := role
  messageType := messageType
  content := .plain content
  contentHash := ⟨content⟩
  contentSizeBytes := content.utf8ByteSize
  tokenCount := some (estimateTokens content)
  metadata := metadata

def addMessage (insert : ConversationMessageInsert) : Service ConversationMessageRecord := do
  let messageId ← ask .newId
  let row ← conversation (.addMessage messageId insert)
  orFail row.record

/-- The row that the access check gives is not looked at. -/
def createMessage (id : Uuid) (request : ConversationMessageCreateRequest) :
    Service ConversationMessageRecord := do
  orFail (actor.require "moira:conversations:write")
  let _ ← ensureConversationWrite actor id
  if request.role ≠ .user ∧ (actor.actorType = .consumerKey ∨ ¬actor.hasScope "moira:admin") then
    orFail (.error (.coded 403 "message_role_invalid" "ordinary callers may only create user messages"))
  else
    orFail (validateMetadata request.metadata)
    orFail (validateContent request.content)
    let record ← addMessage
      (messageInsert id none none request.role .input request.content request.metadata)
    audit "conversation.message.created"
    pure record

/-! ## Embeddings -/

def supportedEmbeddingDimension : Nat := 1536

def failureRetrievalBackend : String := "retrieval_backend_failed"

def failureEmbeddingNotConfigured : String := "embedding_not_configured"

def failureEmbeddingFailed : String := "embedding_failed"

def failureEmbeddingDimensionUnsupported : String := "embedding_dimension_unsupported"

/-- A vector and the model that the target names. -/
structure QueryEmbedding where
  vector : Embedding
  modelId : Uuid

/-- With the application's configured model, as it is now. -/
def embedQuery (applicationId : Uuid) (text : String) : Service (Except String QueryEmbedding) := do
  match ← ask (.statement (.policy (.findApplicationEmbeddingTarget applicationId))) with
  | .error _ => pure (.error failureRetrievalBackend)
  | .ok none => pure (.error failureEmbeddingNotConfigured)
  | .ok (some target) =>
    match target.providerId, target.modelId with
    | some providerId, some modelId =>
      if target.declaredDimension.any (· ≠ supportedEmbeddingDimension) then
        pure (.error failureEmbeddingDimensionUnsupported)
      else
        match ← ask (.buildEmbeddingModel providerId modelId applicationId) with
        | .unavailable _ => pure (.error failureRetrievalBackend)
        | .notConfigured => pure (.error failureEmbeddingNotConfigured)
        | .ready =>
          match ← ask (.embedTexts modelId [text]) with
          | .ok [vector] => pure (.ok { vector, modelId })
          | _ => pure (.error failureEmbeddingFailed)
    | _, _ => pure (.error failureEmbeddingNotConfigured)

/-- None where the application has not asked for it, and where it has failed. -/
def embedMemoryContent (applicationId : Uuid) (content : String) : Service (Option QueryEmbedding) := do
  match ← ask (.statement (.policy (.getEmbeddingPolicy applicationId))) with
  | .error _ => pure none
  | .ok policy =>
    if policy.memoryEmbeddingsEnabled then
      match ← embedQuery applicationId content with
      | .ok embedding => pure (some embedding)
      | .error _ => pure none
    else pure none

/-- What comes back is not looked at. -/
def indexMemory (memoryId : Uuid) (embedding : QueryEmbedding) : Service Unit := do
  let _ ← ask (.statement (.memory (.insertMemoryEmbedding
    { memoryId, embeddingModelId := some embedding.modelId, embedding := embedding.vector })))
  pure ()

/-! ## Context -/

structure RetrievalOutcome where
  embeddingModelId : Option Uuid := none
  memoryCandidateCount : Nat := 0
  chunkCandidateCount : Nat := 0
  memories : List MemoryCandidate := []
  chunks : List RagChunkCandidate := []

def candidateOverfetch : Nat := 4

def maxCandidateRows : Nat := 512

def candidateLimit (maximumResults : Nat) : Nat :=
  min (max maximumResults 1 * candidateOverfetch) maxCandidateRows

def maxHistoryMessages : Nat := 200

def historyMessageLimit (policy : ConversationPolicy) : Nat :=
  let recent := max policy.maximumRecentMessages 1
  match policy.historyStrategy with
  | .fullUntilLimit => min (recent * 4) maxHistoryMessages
  | .recentMessages | .summaryPlusRecent => recent

/-- The arm of the memories: how many candidates there were, and what is kept of them. -/
def retrieveMemories (scope : RetrievalScope) (query : String) (vector : Embedding)
    (policy : RetrievalPolicy) : Service (Except String (Nat × List MemoryCandidate)) := do
  match ← ask (.statement (.memory
    (.findMemoryCandidates scope vector (candidateLimit policy.maximumMemoryResults)))) with
  | .error _ => pure (.error failureRetrievalBackend)
  | .ok found =>
    match found.mapM MemoryMatch.candidate with
    | .error _ => pure (.error failureRetrievalBackend)
    | .ok candidates => pure (.ok (candidates.length, deployment.rankMemories query policy candidates))

def retrieveChunks (scope : RetrievalScope) (query : String) (vector : Embedding)
    (policy : RetrievalPolicy) :
    Service (Except String (Nat × List RagChunkCandidate)) := do
  match ← ask (.statement (.document (.findRagChunkCandidates scope vector policy.allowedCollectionIds
    (candidateLimit policy.maximumChunkResults)))) with
  | .error _ => pure (.error failureRetrievalBackend)
  | .ok found =>
    match found.mapM ChunkMatch.candidate with
    | .error _ => pure (.error failureRetrievalBackend)
    | .ok candidates => pure (.ok (candidates.length, deployment.rankChunks query policy candidates))

/-- An arm that is not wanted finds nothing. -/
def armIf {α : Type} (wanted : Bool) (arm : Service (Except String (Nat × List α))) :
    Service (Except String (Nat × List α)) :=
  if wanted then arm else pure (.ok (0, []))

def retrieve (applicationId : Uuid) (query : String) (policy : RetrievalPolicy) (wantMemory wantRag : Bool) :
    Service (Except String RetrievalOutcome) := do
  match ← embedQuery applicationId query with
  | .error failure => pure (.error failure)
  | .ok embedding =>
    let scope := retrievalScope applicationId actor
    match ← armIf wantMemory (retrieveMemories deployment scope query embedding.vector policy) with
    | .error failure => pure (.error failure)
    | .ok (memoryCount, memories) =>
      match ← armIf wantRag (retrieveChunks deployment scope query embedding.vector policy) with
      | .error failure => pure (.error failure)
      | .ok (chunkCount, chunks) =>
        pure (.ok { embeddingModelId := some embedding.modelId, memoryCandidateCount := memoryCount
                    chunkCandidateCount := chunkCount, memories, chunks })

/-- The provenance of a retrieval. -/
def retrievalRun (conversationId : Uuid) : Except String RetrievalOutcome → RetrievalRun
  | .ok outcome =>
    { conversationId, embeddingModelId := outcome.embeddingModelId
      memoryCandidateCount := outcome.memoryCandidateCount, memoryReturnedCount := outcome.memories.length
      chunkCandidateCount := outcome.chunkCandidateCount, chunkReturnedCount := outcome.chunks.length }
  | .error failure => { conversationId, failureClass := some failure }

def retrievalUnavailable : AppError :=
  .coded 503 "retrieval_unavailable" "retrieval is required for this application but could not be served"

/-- A retrieval that fails is a failure of the call only where the application says so. -/
def retrieveIfWanted (applicationId conversationId : Uuid) (query : String) (policy : RetrievalPolicy)
    (wantMemory wantRag : Bool) : Service RetrievalOutcome := do
  if wantMemory || wantRag then
    let outcome ← retrieve deployment actor applicationId query policy wantMemory wantRag
    orFail (← ask (.insertRetrievalRun (retrievalRun conversationId outcome)))
    match outcome with
    | .ok outcome => pure outcome
    | .error _ =>
      let embeddingPolicy ← Service.policy (.getEmbeddingPolicy applicationId)
      if embeddingPolicy.failureBehavior = "fail_request" then orFail (.error retrievalUnavailable)
      else pure {}
  else pure {}

/-- The active summary, opened. -/
def ContextAnchor.openSummary (anchor : ContextAnchor) : Except AppError (Option ConversationSummary) :=
  match anchor.summary with
  | none => .ok none
  | some row => row.summary.map some

/-- The text of the active summary, where the strategy has one. -/
def summarySection (policy : ConversationPolicy) (summary : Option ConversationSummary) :
    Option (Uuid × String) :=
  if policy.historyStrategy = .recentMessages then none
  else summary.bind fun summary => summary.summaryText.map fun text => (summary.id, text)

def planContext (conversationId : Uuid) (currentSequence : Nat) (currentInput : String) : Service Unit := do
  match actor.internalApplicationId with
  | none => pure ()
  | some applicationId =>
    let conversationPolicy ← policy (.getConversationPolicy applicationId)
    let retrievalPolicy ← policy (.getRetrievalPolicy applicationId)
    match ← conversation (.findConversationContextAnchor conversationId) with
    | none => pure ()
    | some anchor =>
      let summary ← orFail anchor.openSummary
      let rows ← conversation (.findRecentMessages conversationId (some currentSequence)
        (historyMessageLimit conversationPolicy))
      let history ← orFail (rows.mapM MessageRow.history)
      let outcome ← retrieveIfWanted deployment actor applicationId anchor.conversationId currentInput
        retrievalPolicy
        (retrievalPolicy.enabled && retrievalPolicy.memoryRetrievalEnabled &&
          conversationPolicy.memoryRetrievalEnabled)
        (retrievalPolicy.enabled && retrievalPolicy.ragRetrievalEnabled)
      if ← orFail (deployment.assembleContext
          { summary := summarySection conversationPolicy summary, history
            memories := outcome.memories, chunks := outcome.chunks }
          (budgetTokens currentInput) conversationPolicy.maximumHistoryTokens) then
        orFail (← ask (.insertContextPlan anchor.conversationId))
      else pure ()

/-- The conversation of a turn, made or read. -/
def responseConversation (input : ResponseConversationInput) : Service ConversationRow :=
  if input.create then createConversation actor input.title input.metadata
  else
    match input.id with
    | some id => getConversation actor id
    | none =>
      orFail (.error (unprocessable "conversation_not_found"
        "conversation.id is required unless conversation.create is true"))

def prepareResponse (input : ResponseConversationInput) (parts : List PublicContentPart) :
    Service ConversationMessageRecord := do
  let row ← responseConversation actor input
  if row.status = .archived then orFail (.error conversationArchived)
  else
    let content := userTextFromPublicInput parts
    orFail (validateContent content)
    let record ← addMessage
      (messageInsert row.id none none .user .input content (.obj [("source", .str "response_request")]))
    audit "conversation.message.created"
    planContext deployment actor row.id record.sequenceNumber content
    pure record

/-! ## Extraction -/

def extractionTranscriptMessages : Nat := 8

def maximumCandidatesPerRun : Nat := 16

/-- What becomes of a candidate. -/
inductive CandidateDecision
  | rejected
  | duplicate («of» : Uuid)
  | accepted (contradicts : Option Uuid)

/-- What a run stores its memories under. -/
structure Extraction where
  applicationId : Uuid
  conversationId : Uuid
  status : MemoryStatus
  persistence : ConversationContentPersistence

/-- The turns that have a stored body. -/
def turnsOf (history : List HistoryMessage) : List (ConversationMessageRole × String) :=
  history.filterMap fun message => message.content.map fun content => (message.role, content)

/-- The narrowest scope that the actor can stand for. -/
def extractedScope : MemoryScope :=
  if (effectiveUser actor).isSome then .userApplication else .conversation

/-- The memory that is as near as a duplicate. -/
def nearDuplicate (scope : RetrievalScope) : Option QueryEmbedding → Service (Option Uuid)
  | none => pure none
  | some embedding => do
    match ← ask (.statement (.memory (.findNearestMemory scope embedding.vector))) with
    | .ok (some (existing, distance)) =>
      pure (if distance ≤ deployment.nearDuplicateMaxDistance then some existing else none)
    | _ => pure none

/-- The memory of the same subject that says something else. -/
def contradicted (scope : RetrievalScope) (contentHash : Digest) : Option String → Service (Option Uuid)
  | none => pure none
  | some memoryKey => do
    match ← ask (.statement (.memory (.findMemoryByKey scope memoryKey))) with
    | .ok (some (existing, existingHash)) => pure (if existingHash = contentHash then none else some existing)
    | _ => pure none

def confirmed (memoryId : Uuid) : Service CandidateDecision := do
  let _ ← ask (.statement (.memory (.confirmMemory memoryId)))
  pure (.duplicate memoryId)

def storeCandidate (extraction : Extraction) (candidate : AcceptedCandidate) (contentHash : Digest)
    (embedding : Option QueryEmbedding) : Service CandidateDecision := do
  let contradicts ← contradicted (retrievalScope extraction.applicationId actor) contentHash candidate.memoryKey
  let id ← ask .newId
  match ← ask (.statement (.memory (.insertExtractedMemory
    { id, owner := ownedBy extraction.applicationId actor, conversationId := extraction.conversationId
      scope := extractedScope actor, memoryKey := candidate.memoryKey
      content := .underPolicy extraction.persistence candidate.content, contentHash
      status := extraction.status, contradictsMemoryId := contradicts
      persistence := extraction.persistence }))) with
  | .error _ => pure .rejected
  | .ok _ =>
    match embedding with
    | some embedding =>
      indexMemory id embedding
      pure (.accepted contradicts)
    | none => pure (.accepted contradicts)

/-- The exact duplicate goes first: it needs no embedding. -/
def extractCandidate (extraction : Extraction) (candidate : AcceptedCandidate) :
    Service CandidateDecision := do
  let scope := retrievalScope extraction.applicationId actor
  match ← ask (.memoryContentHash candidate.content) with
  | .error _ => pure .rejected
  | .ok contentHash =>
    match ← ask (.statement (.memory (.findMemoryByContentHash scope contentHash))) with
    | .error _ => pure .rejected
    | .ok (some existing) => confirmed existing
    | .ok none =>
      let embedding ← embedMemoryContent extraction.applicationId candidate.content
      match ← nearDuplicate deployment scope embedding with
      | some existing => confirmed existing
      | none => storeCandidate actor extraction candidate contentHash embedding

def MemoryExtractionRunOutcome.tally (outcome : MemoryExtractionRunOutcome) :
    CandidateDecision → MemoryExtractionRunOutcome
  | .rejected => { outcome with rejectedCount := outcome.rejectedCount + 1 }
  | .duplicate _ => { outcome with duplicates := outcome.duplicates + 1 }
  | .accepted none => { outcome with acceptedCount := outcome.acceptedCount + 1 }
  | .accepted (some _) =>
    { outcome with
      acceptedCount := outcome.acceptedCount + 1, contradictions := outcome.contradictions + 1 }

/-- `left` candidates are looked at, and the rest are rejected. -/
def extractCandidates (extraction : Extraction) : Nat → List (Except String AcceptedCandidate) →
    MemoryExtractionRunOutcome → Service MemoryExtractionRunOutcome
  | _, [], outcome => pure outcome
  | 0, _ :: rest, outcome => extractCandidates extraction 0 rest (outcome.tally .rejected)
  | left + 1, .error _ :: rest, outcome => extractCandidates extraction left rest (outcome.tally .rejected)
  | left + 1, .ok candidate :: rest, outcome => do
    let decision ← extractCandidate deployment actor extraction candidate
    extractCandidates extraction left rest (outcome.tally decision)

def runExtraction (extraction : Extraction) (turns : List (ConversationMessageRole × String)) :
    Service MemoryExtractionRunOutcome := do
  match ← ask (.extract (renderTranscript turns)) with
  | .error failure => pure { failureClass := some failure }
  | .ok candidates =>
    extractCandidates deployment actor extraction maximumCandidatesPerRun candidates
      { candidateCount := candidates.length }

/-- The messages of a page, where all of them can be read. -/
def readTurns (id : Uuid) : Service (List (ConversationMessageRole × String)) := do
  match ← ask (.statement (.conversation (.findRecentMessages id none extractionTranscriptMessages))) with
  | .error _ => pure []
  | .ok rows =>
    match rows.mapM MessageRow.history with
    | .error _ => pure []
    | .ok history => pure (turnsOf history)

def extractMemories (id : Uuid) : Service Unit := do
  match actor.internalApplicationId with
  | none => pure ()
  | some applicationId =>
    match ← ask (.statement (.policy (.getMemoryPolicy applicationId))),
        ← ask (.statement (.policy (.getConversationPolicy applicationId))) with
    | .ok memoryPolicy, .ok conversationPolicy =>
      if !memoryPolicy.enabled || !memoryPolicy.automaticExtractionEnabled ||
          !conversationPolicy.memoryEnabled || !conversationPolicy.memoryExtractionEnabled then pure ()
      else
        match effectiveExtractionStatus conversationPolicy.memoryConsentMode memoryPolicy.consentMode with
        | none => pure ()
        | some status =>
          match ← ask (.statement (.conversation (.findConversationContextAnchor id))) with
          | .ok (some anchor) =>
            let turns ← readTurns id
            if !anchor.openSummary.isOk || turns.isEmpty then pure ()
            else
              match ← ask (.openExtractionRun anchor.conversationId) with
              | .error _ => pure ()
              | .ok _ =>
                let outcome ← runExtraction deployment actor
                  { applicationId, conversationId := anchor.conversationId, status
                    persistence := conversationPolicy.conversationContentPersistence } turns
                ask (.completeExtractionRun outcome)
                let _ ← ask (.audit "memory.extraction.completed")
                pure ()
          | _ => pure ()
    | _, _ => pure ()

/-! ## Summarization -/

inductive SummarizationOutcome
  | summarized (summary : ConversationSummary)
  | alreadyRunning

structure SummarizationPlan where
  previousSummary : Option String
  turns : List (ConversationMessageRole × String)
  coversThroughSequence : Nat
  targetTokens : Nat

/-- What a run asks the model. -/
def SummarizationPlan.messages (plan : SummarizationPlan) : List DomainMessage :=
  summarizationMessages plan.previousSummary (renderTranscript plan.turns) plan.targetTokens

def noPersistedContent : AppError :=
  .api 409 "summarization_not_needed" "the messages awaiting summarization carry no stored content"
    (some (.obj [("reason", .str "no_persisted_content")]))

/-- The active summary and the backlog after it, as two reads find them. -/
def planSummarization (conversationId : Uuid) (policy : ConversationPolicy) (force : Bool) :
    Service SummarizationPlan := do
  let active ← conversation (.findActiveConversationSummary conversationId)
  let previous ← orFail (active.mapM SummaryRow.summary)
  let boundary := (previous.map ConversationSummary.coversThroughSequence).getD 0
  let messagesSinceSummary ← conversation (.countMessagesAfterSequence conversationId boundary)
  let rows ← conversation (.findMessagesAfterSequence conversationId boundary summaryTranscriptMessages)
  let messages ← orFail (rows.mapM MessageRow.history)
  let tokensSinceSummary := ((messages.filterMap HistoryMessage.content).map budgetTokens).sum
  match decideSummarization policy { messagesSinceSummary, tokensSinceSummary } force with
  | .error skip => orFail (.error (summarizationSkipError skip))
  | .ok _ =>
    if (turnsOf messages).isEmpty then orFail (.error noPersistedContent)
    else
      pure { previousSummary := previous.bind ConversationSummary.summaryText, turns := turnsOf messages
             coversThroughSequence := ((messages.map HistoryMessage.sequenceNumber).max?).getD boundary
             targetTokens := policy.summaryTargetTokens }

def runSummarization (conversationId : Uuid) (policy : ConversationPolicy) (plan : SummarizationPlan) :
    Service ConversationSummary := do
  match ← ask (.execute plan.messages) with
  | none => orFail (.error (summarizationFailed "summarization_call_failed"))
  | some raw =>
    match parseSummary raw with
    | .error reason => orFail (.error (summarizationFailed reason))
    | .ok text =>
      let summaryId ← ask .newId
      let row ← conversation (.insertConversationSummary summaryId
        { conversationId, coversThroughSequence := plan.coversThroughSequence
          summaryText := .underPolicy policy.conversationContentPersistence text, summaryHash := ⟨text⟩
          tokenCount := some (budgetTokens text), persistence := policy.conversationContentPersistence
          asked := plan.messages })
      orFail row.summary

/-- The scope of the endpoint is not asked for: a turn summarizes with whatever key it has. -/
def summarizeConversationUnscoped (id : Uuid) (force : Bool) : Service SummarizationOutcome := do
  let row ← ensureConversationWrite actor id
  if row.status = .archived then orFail (.error conversationArchived)
  else
    let applicationId ← orFail (requiredApplicationId actor)
    let policy ← policy (.getConversationPolicy applicationId)
    match ← conversation (.findConversationContextAnchor id) with
    | none => orFail (.error conversationNotFound)
    | some anchor =>
      let _ ← orFail anchor.openSummary
      if !policy.summarizationEnabled then orFail (.error (summarizationSkipError .disabled))
      else
        let plan ← planSummarization anchor.conversationId policy force
        if ← orFail (← ask (.tryLock anchor.conversationId)) then
          let outcome ← (runSummarization anchor.conversationId policy plan).attempt
          ask (.unlock anchor.conversationId)
          let summary ← orFail outcome
          audit "conversation.summary.created"
          pure (.summarized summary)
        else pure .alreadyRunning

def summarizeConversation (id : Uuid) (force : Bool) : Service SummarizationOutcome := do
  orFail (actor.require "moira:conversations:write")
  summarizeConversationUnscoped actor id force

/-- The memories and the summary of a turn cannot fail it. -/
def recordAssistantResponse (id responseId executionId : Uuid) :
    Option String → Service (Option ConversationMessageRecord)
  | none => pure none
  | some output => do
    let record ← addMessage
      (messageInsert id (some responseId) (some executionId) .assistant .output output
        (.obj [("source", .str "response_completion")]))
    audit "conversation.message.created"
    extractMemories deployment actor id
    let _ ← (summarizeConversationUnscoped actor id false).attempt
    pure (some record)

/-! ## Memories -/

def memoryDisabled (message : String) : AppError :=
  .coded 403 "memory_disabled" message

def ensureMemoryWrite (id : Uuid) : Service MemoryRow := do
  let access ← orFail (conversationAccess actor (actsForSystem actor))
  memory (.findMemoryAuthorized id access)

def createMemory (request : MemoryCreateRequest) : Service MemoryRecord := do
  orFail (actor.require "moira:memories:create")
  let applicationId ← orFail (requiredApplicationId actor)
  let memoryPolicy ← policy (.getMemoryPolicy applicationId)
  if !memoryPolicy.enabled || !memoryPolicy.manualMemoryEnabled then
    orFail (.error (memoryDisabled "manual memory is disabled for this application"))
  else if memoryPolicy.consentMode = .disabled then
    orFail (.error (.coded 403 "memory_consent_required" "memory consent is disabled"))
  else
    orFail (validateContent request.content)
    orFail (validateMetadata request.metadata)
    let id ← ask .newId
    let policy ← policy (.getConversationPolicy applicationId)
    let row ← memory (.createMemory
      { id, owner := ownedBy applicationId actor, scope := .userApplication, request
        content := .underPolicy policy.conversationContentPersistence request.content
        persistence := policy.conversationContentPersistence })
    let record ← orFail row.record
    match ← embedMemoryContent applicationId request.content with
    | some embedding => indexMemory id embedding
    | none => pure ()
    audit "memory.created"
    pure record

def listMemories (query : MemoryQuery) : Service (List MemoryRecord) := do
  orFail (actor.require "moira:memories:read")
  let applicationId ← orFail (requiredApplicationId actor)
  let policy ← policy (.getMemoryPolicy applicationId)
  if !policy.enabled || !policy.userCanList then
    orFail (.error (memoryDisabled "memory listing is disabled"))
  else
    let access ← orFail (conversationAccess actor (canReadAll actor "moira:memories:read"))
    let rows ← memory (.listMemoriesAuthorized access query)
    orFail (rows.mapM MemoryRow.record)

/-- The policy is not looked at. -/
def getMemory (id : Uuid) : Service MemoryRecord := do
  orFail (actor.require "moira:memories:read")
  let access ← orFail (conversationAccess actor (canReadAll actor "moira:memories:read"))
  let row ← memory (.findMemoryAuthorized id access)
  orFail row.record

/-- The storage form of a body that is patched, with the policy it was made under. -/
def patchedContent : Option String → Service (Option (ContentWrite × ConversationContentPersistence))
  | none => pure none
  | some content => do
    let applicationId ← orFail (requiredApplicationId actor)
    let policy ← policy (.getConversationPolicy applicationId)
    pure (some (.underPolicy policy.conversationContentPersistence content,
      policy.conversationContentPersistence))

def validateContentOption : Option String → Except AppError Unit
  | some content => validateContent content
  | none => .ok ()

def patchMemory (id : Uuid) (request : MemoryPatchRequest) : Service MemoryRecord := do
  orFail (actor.require "moira:memories:write")
  let _ ← ensureMemoryWrite actor id
  orFail (validateContentOption request.content)
  orFail (validateMetadataOption request.metadata)
  let content ← patchedContent actor request.content
  let row ← memory (.patchMemory id request content)
  let record ← orFail row.record
  audit (if request.status = some .deleted then "memory.deleted" else "memory.updated")
  pure record

def deleteMemory (id : Uuid) : Service Unit := do
  orFail (actor.require "moira:memories:delete")
  let _ ← ensureMemoryWrite actor id
  memory (.deleteMemory id)
  audit "memory.deleted"

/-! ## Collections -/

def createRagCollection (request : RagCollectionCreateRequest) : Service (Option CollectionRow) := do
  orFail (actor.require "moira:rag-collections:write")
  orFail (validateMetadata request.metadata)
  if ← orFail (← ask (.claimCommand "rag.collection.create")) then pure none
  else
    let id ← ask .newId
    let row ← document (.createRagCollection id request)
    audit "rag.collection.created"
    pure (some row)

def getRagCollection (id : Uuid) : Service CollectionRow := do
  orFail (actor.require "moira:rag-collections:read")
  document (.getRagCollection id)

def patchRagCollection (id : Uuid) (request : RagCollectionPatchRequest) : Service CollectionRow := do
  orFail (actor.require "moira:rag-collections:write")
  orFail (validateMetadataOption request.metadata)
  let row ← document (.patchRagCollection id request)
  audit "rag.collection.updated"
  pure row

def collectionScope : RagCollectionStatus → String
  | .deleted => "moira:rag-collections:delete"
  | _ => "moira:rag-collections:write"

def collectionAction : RagCollectionStatus → String
  | .active => "rag.collection.updated"
  | .disabled => "rag.collection.disabled"
  | .deleted => "rag.collection.deleted"

/-- Nothing is read before the write. -/
def setRagCollectionStatus (id : Uuid) (status : RagCollectionStatus) : Service CollectionRow := do
  orFail (actor.require (collectionScope status))
  let row ← document (.setRagCollectionStatus id status)
  audit (collectionAction status)
  pure row

/-! ## Documents -/

/-- A chunk with its address, not embedded yet. -/
def preparedChunk (index : Nat) (chunk : ChunkCandidate) : PreparedChunk where
  chunkIndex := index
  text := chunk.text
  chunkHash := ⟨chunk.text⟩
  tokenEstimate := estimateChunkTokens chunk.text
  sectionTitle := chunk.sectionTitle

def prepareChunks (content : String) (strategy : ChunkStrategy) : Except AppError (List PreparedChunk) := do
  let chunks ← deployment.chunk strategy content
  return chunks.zipIdx.map fun (chunk, index) => preparedChunk index chunk

/-- Each chunk with the vector at its place. -/
def withEmbeddings (chunks : List PreparedChunk) (vectors : List Embedding) : List PreparedChunk :=
  List.zipWith (fun chunk vector => { chunk with embedding := some vector }) chunks vectors

/-- The vectors of chunks that are to be indexed, or the failure that the run records. -/
def embedChunks (applicationId : Uuid) (target : RagEmbeddingTarget) (chunks : List PreparedChunk)
    (strategy : String) : Service RagIngestionPlan := do
  match target.providerId, target.modelId with
  | some providerId, some modelId =>
    if target.declaredDimension.any (· ≠ supportedEmbeddingDimension) then
      pure (.failed chunks strategy failureEmbeddingDimensionUnsupported)
    else
      match ← ask (.buildEmbeddingModel providerId modelId applicationId) with
      | .unavailable error => orFail (.error error)
      | .notConfigured => pure (.failed chunks strategy failureEmbeddingNotConfigured)
      | .ready =>
        match ← ask (.embedTexts modelId (chunks.map PreparedChunk.text)) with
        | .error _ => pure (.failed chunks strategy failureEmbeddingFailed)
        | .ok vectors =>
          if vectors.length ≠ chunks.length then pure (.failed chunks strategy failureEmbeddingFailed)
          else
            pure { chunks := withEmbeddings chunks vectors, strategy, embeddingModelId := some modelId }
  | _, _ => pure (.failed chunks strategy failureEmbeddingNotConfigured)

/-- A document or a collection that is not there is left to the transaction. -/
def planRagIngestion (context : Option RagIngestionContext) (content : Option String)
    (mimeTypeHint : Option String) : Service RagIngestionPlan := do
  match content.filter (fun content => !(trim content).isEmpty), context with
  | some content, some context =>
    let strategy := ChunkStrategy.forMimeType (context.mimeType <|> mimeTypeHint)
    let chunks ← orFail (prepareChunks deployment content strategy)
    if chunks.isEmpty then pure .empty
    else
      match context.embedding with
      | none => pure { chunks, strategy := strategy.asStr }
      | some target => embedChunks context.applicationId target chunks strategy.asStr
  | _, _ => pure .empty

def createRagDocument (collectionId : Uuid) (request : RagDocumentCreateRequest) :
    Service (Option DocumentRow) := do
  orFail (actor.require "moira:rag-documents:write")
  orFail (validateMetadata request.metadata)
  orFail (validateDocument request)
  let context ← document (.findCollectionIngestionContext collectionId)
  let plan ← planRagIngestion deployment context request.content (some request.mimeType)
  if ← orFail (← ask (.claimCommand "rag.document.create")) then pure none
  else
    let ids ← ask .newIds
    let target ← document (.findCollectionTarget collectionId)
    let row ← document (.insertRagDocument target ids request (request.content.map Digest.mk) plan)
    audit "rag.document.created"
    pure (some row)

def getRagDocument (id : Uuid) : Service DocumentRow := do
  orFail (actor.require "moira:rag-documents:read")
  document (.getRagDocument id)

def deleteRagDocument (id : Uuid) : Service Unit := do
  orFail (actor.require "moira:rag-documents:delete")
  document (.deleteRagDocument id)
  audit "rag.document.deleted"

def ingestRagDocument (id : Uuid) (request : RagDocumentIngestRequest) : Service (Option DocumentRow) := do
  orFail (actor.require "moira:rag-documents:ingest")
  match request.content with
  | none =>
    orFail (.error (unprocessable "rag_document_parse_failed"
      "direct text content is required for synchronous ingestion"))
  | some content =>
    orFail (validateContent content)
    orFail (validateMetadata request.metadata)
    let context ← document (.findDocumentIngestionContext id)
    let plan ← planRagIngestion deployment context (some content) none
    if ← orFail (← ask (.claimCommand "rag.document.ingest")) then pure none
    else
      let ids ← ask .newIds
      let row ← document (.ingestRagDocument id ids.version ids.chunk request ⟨content⟩ plan)
      audit "rag.document.ingested"
      pure (some row)

/-! ## Policies -/

def persistenceUnsupported : AppError :=
  .api 422 "conversation_content_persistence_unsupported"
    ("encrypted_content cannot be honoured: this deployment has no usable content " ++
      "encryption key, so Moira would be unable to store conversation content at all " ++
      "under this policy. Restore the content keyring, or use metadata_only or none to " ++
      "withhold plaintext.")
    (some (.obj [("conversation_content_persistence", .str "encrypted_content")]))

/-- A policy that could not be honoured now is refused. -/
def putConversationPolicy (applicationId : Uuid) (request : ConversationPolicyPutRequest) :
    Service ConversationPolicy := do
  orFail (actor.require "moira:conversation-policies:write")
  let sealable ← ask .canSeal
  if request.conversationContentPersistence.any (·.persistsCiphertext) && !sealable then
    orFail (.error persistenceUnsupported)
  else
    let policy ← policy (.putConversationPolicy applicationId request)
    audit "conversation_policy.upsert"
    pure policy

def putMemoryPolicy (applicationId : Uuid) (request : MemoryPolicyPutRequest) : Service MemoryPolicy := do
  orFail (actor.require "moira:memory-policies:write")
  orFail (validateMetadataOption request.metadata)
  let policy ← policy (.putMemoryPolicy applicationId request)
  audit "memory_policy.upsert"
  pure policy

def putRetrievalPolicy (applicationId : Uuid) (request : RetrievalPolicyPutRequest) :
    Service RetrievalPolicy := do
  orFail (actor.require "moira:retrieval-policies:write")
  orFail (validateMetadataOption request.metadata)
  let policy ← policy (.putRetrievalPolicy applicationId request)
  audit "retrieval_policy.upsert"
  pure policy

def putEmbeddingPolicy (applicationId : Uuid) (request : EmbeddingPolicyPutRequest) :
    Service EmbeddingPolicy := do
  orFail (actor.require "moira:embedding-policies:write")
  let policy ← policy (.putEmbeddingPolicy applicationId request)
  audit "embedding_policy.upsert"
  pure policy

/-! ## All calls -/

/-- A command that is replayed is answered with what it was answered before. -/
def Reply.ofCommand {α : Type} (reply : α → Reply) : Option α → Reply
  | some a => reply a
  | none => .replayed

def run (request : Request) : Service Reply :=
  match request.call with
  | .createConversation title metadata => do
    pure (.conversation (← createConversation request.actor title metadata))
  | .getConversation id => do pure (.conversation (← getConversation request.actor id))
  | .patchConversation id patch => do pure (.conversation (← patchConversation request.actor id patch))
  | .setConversationStatus id status => do
    pure (.conversation (← setConversationStatus request.actor id status))
  | .listMessages id after limit => do pure (.messages (← listMessages request.actor id after limit))
  | .createMessage id message => do pure (.message (← createMessage request.actor id message))
  | .prepareResponse input parts => do
    pure (.message (← prepareResponse deployment request.actor input parts))
  | .recordAssistantResponse id responseId executionId output => do
    match ← recordAssistantResponse deployment request.actor id responseId executionId output with
    | some record => pure (.message record)
    | none => pure .done
  | .summarizeConversation id force => do
    match ← summarizeConversation request.actor id force with
    | .summarized summary => pure (.summary summary)
    | .alreadyRunning => pure .alreadyRunning
  | .createMemory memory => do pure (.memory (← createMemory request.actor memory))
  | .listMemories query => do pure (.memories (← listMemories request.actor query))
  | .getMemory id => do pure (.memory (← getMemory request.actor id))
  | .patchMemory id patch => do pure (.memory (← patchMemory request.actor id patch))
  | .deleteMemory id => do
    deleteMemory request.actor id
    pure .done
  | .createRagCollection collection => do
    pure (.ofCommand .collection (← createRagCollection request.actor collection))
  | .getRagCollection id => do pure (.collection (← getRagCollection request.actor id))
  | .patchRagCollection id patch => do pure (.collection (← patchRagCollection request.actor id patch))
  | .setRagCollectionStatus id status => do
    pure (.collection (← setRagCollectionStatus request.actor id status))
  | .createRagDocument collectionId document => do
    pure (.ofCommand .document (← createRagDocument deployment request.actor collectionId document))
  | .getRagDocument id => do pure (.document (← getRagDocument request.actor id))
  | .ingestRagDocument id ingest => do
    pure (.ofCommand .document (← ingestRagDocument deployment request.actor id ingest))
  | .deleteRagDocument id => do
    deleteRagDocument request.actor id
    pure .done
  | .putConversationPolicy applicationId put => do
    pure (.conversationPolicy (← putConversationPolicy request.actor applicationId put))
  | .putMemoryPolicy applicationId put => do
    pure (.memoryPolicy (← putMemoryPolicy request.actor applicationId put))
  | .putRetrievalPolicy applicationId put => do
    pure (.retrievalPolicy (← putRetrievalPolicy request.actor applicationId put))
  | .putEmbeddingPolicy applicationId put => do
    pure (.embeddingPolicy (← putEmbeddingPolicy request.actor applicationId put))

/-- A call and its answer. -/
def code (request : Request) : Unit → Prog conversationSig Empty (Option Unit) := fun _ => do
  let result ← (run deployment request).attempt
  Prog.ask (S := conversationSig) (.answer result)
  pure none

end Moira.Conversations
