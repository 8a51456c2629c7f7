import Mathlib.Logic.Function.Basic
import Moira.Conversations.Content

/-!
# The policies of an application

- `ConversationPolicy`, `EmbeddingPolicy`, `MemoryPolicy`, `RetrievalPolicy` — the columns that are
  read here, with the defaults of their tables
- `put` — a column that a request leaves out stays as it is
-/

namespace Moira.Conversations

/-! ## Consent -/

inductive MemoryConsentMode
  | disabled
  | explicitOnly
  | applicationManaged
  | automaticWithUserControls
  deriving DecidableEq

inductive MemoryStatus
  | candidate
  | active
  | rejected
  | superseded
  | expired
  | deleted
  deriving DecidableEq

def MemoryConsentMode.permissiveness : MemoryConsentMode → Nat
  | disabled => 0
  | explicitOnly => 1
  | automaticWithUserControls | applicationManaged => 2

/-- The memory's where both permit the same. -/
def MemoryConsentMode.stricterOf (conversation memory : MemoryConsentMode) : MemoryConsentMode :=
  if conversation.permissiveness < memory.permissiveness then conversation else memory

def statusForConsentMode : MemoryConsentMode → Option MemoryStatus
  | .disabled => none
  | .explicitOnly => some .candidate
  | .automaticWithUserControls | .applicationManaged => some .active

def effectiveExtractionStatus (conversationMode memoryMode : MemoryConsentMode) : Option MemoryStatus :=
  statusForConsentMode (conversationMode.stricterOf memoryMode)

/-! ## Conversations -/

inductive HistoryStrategy
  | recentMessages
  | summaryPlusRecent
  | fullUntilLimit
  deriving DecidableEq

structure ConversationPolicy where
  conversationsEnabled : Bool := true
  historyStrategy : HistoryStrategy := .summaryPlusRecent
  maximumRecentMessages : Nat := 24
  maximumHistoryTokens : Nat := 12000
  conversationContentPersistence : ConversationContentPersistence := .plainContent
  summarizationEnabled : Bool := false
  summaryTriggerTokens : Nat := 8000
  summaryTargetTokens : Nat := 1000
  minimumMessagesSinceSummary : Nat := 8
  memoryEnabled : Bool := false
  memoryExtractionEnabled : Bool := false
  memoryRetrievalEnabled : Bool := false
  memoryConsentMode : MemoryConsentMode := .explicitOnly
  callerCanCreateConversations : Bool := true
  deriving DecidableEq

structure ConversationPolicyPutRequest where
  conversationsEnabled : Option Bool := none
  historyStrategy : Option HistoryStrategy := none
  maximumRecentMessages : Option Nat := none
  maximumHistoryTokens : Option Nat := none
  conversationContentPersistence : Option ConversationContentPersistence := none
  summarizationEnabled : Option Bool := none
  summaryTriggerTokens : Option Nat := none
  summaryTargetTokens : Option Nat := none
  minimumMessagesSinceSummary : Option Nat := none
  memoryEnabled : Option Bool := none
  memoryExtractionEnabled : Option Bool := none
  memoryRetrievalEnabled : Option Bool := none
  memoryConsentMode : Option MemoryConsentMode := none
  callerCanCreateConversations : Option Bool := none

def ConversationPolicy.put (policy : ConversationPolicy) (request : ConversationPolicyPutRequest) :
    ConversationPolicy where
  conversationsEnabled := request.conversationsEnabled.getD policy.conversationsEnabled
  historyStrategy := request.historyStrategy.getD policy.historyStrategy
  maximumRecentMessages := request.maximumRecentMessages.getD policy.maximumRecentMessages
  maximumHistoryTokens := request.maximumHistoryTokens.getD policy.maximumHistoryTokens
  conversationContentPersistence :=
    request.conversationContentPersistence.getD policy.conversationContentPersistence
  summarizationEnabled := request.summarizationEnabled.getD policy.summarizationEnabled
  summaryTriggerTokens := request.summaryTriggerTokens.getD policy.summaryTriggerTokens
  summaryTargetTokens := request.summaryTargetTokens.getD policy.summaryTargetTokens
  minimumMessagesSinceSummary := request.minimumMessagesSinceSummary.getD policy.minimumMessagesSinceSummary
  memoryEnabled := request.memoryEnabled.getD policy.memoryEnabled
  memoryExtractionEnabled := request.memoryExtractionEnabled.getD policy.memoryExtractionEnabled
  memoryRetrievalEnabled := request.memoryRetrievalEnabled.getD policy.memoryRetrievalEnabled
  memoryConsentMode := request.memoryConsentMode.getD policy.memoryConsentMode
  callerCanCreateConversations :=
    request.callerCanCreateConversations.getD policy.callerCanCreateConversations

/-! ## Embeddings -/

structure EmbeddingPolicy where
  embeddingProviderId : Option Uuid := none
  embeddingModelId : Option Uuid := none
  embeddingDimension : Option Nat := none
  memoryEmbeddingsEnabled : Bool := false
  ragEmbeddingsEnabled : Bool := false
  failureBehavior : String := "continue_without_semantic_retrieval"
  deriving DecidableEq

structure EmbeddingPolicyPutRequest where
  embeddingProviderId : Option Uuid := none
  embeddingModelId : Option Uuid := none
  embeddingDimension : Option Nat := none
  memoryEmbeddingsEnabled : Option Bool := none
  ragEmbeddingsEnabled : Option Bool := none
  failureBehavior : Option String := none

def EmbeddingPolicy.put (policy : EmbeddingPolicy) (request : EmbeddingPolicyPutRequest) :
    EmbeddingPolicy where
  embeddingProviderId := request.embeddingProviderId <|> policy.embeddingProviderId
  embeddingModelId := request.embeddingModelId <|> policy.embeddingModelId
  embeddingDimension := request.embeddingDimension <|> policy.embeddingDimension
  memoryEmbeddingsEnabled := request.memoryEmbeddingsEnabled.getD policy.memoryEmbeddingsEnabled
  ragEmbeddingsEnabled := request.ragEmbeddingsEnabled.getD policy.ragEmbeddingsEnabled
  failureBehavior := request.failureBehavior.getD policy.failureBehavior

/-! ## Memories and retrieval -/

structure MemoryPolicy where
  enabled : Bool := false
  consentMode : MemoryConsentMode := .explicitOnly
  automaticExtractionEnabled : Bool := false
  manualMemoryEnabled : Bool := false
  userCanList : Bool := true
  userCanEdit : Bool := true
  userCanDelete : Bool := true
  deriving DecidableEq

structure MemoryPolicyPutRequest where
  enabled : Option Bool := none
  consentMode : Option MemoryConsentMode := none
  automaticExtractionEnabled : Option Bool := none
  manualMemoryEnabled : Option Bool := none
  userCanList : Option Bool := none
  userCanEdit : Option Bool := none
  userCanDelete : Option Bool := none
  metadata : Option Json := none

def MemoryPolicy.put (policy : MemoryPolicy) (request : MemoryPolicyPutRequest) : MemoryPolicy where
  enabled := request.enabled.getD policy.enabled
  consentMode := request.consentMode.getD policy.consentMode
  automaticExtractionEnabled := request.automaticExtractionEnabled.getD policy.automaticExtractionEnabled
  manualMemoryEnabled := request.manualMemoryEnabled.getD policy.manualMemoryEnabled
  userCanList := request.userCanList.getD policy.userCanList
  userCanEdit := request.userCanEdit.getD policy.userCanEdit
  userCanDelete := request.userCanDelete.getD policy.userCanDelete

structure RetrievalPolicy where
  enabled : Bool := false
  memoryRetrievalEnabled : Bool := false
  ragRetrievalEnabled : Bool := false
  allowedCollectionIds : List Uuid := []
  maximumMemoryResults : Nat := 10
  maximumChunkResults : Nat := 8
  deriving DecidableEq

structure RetrievalPolicyPutRequest where
  enabled : Option Bool := none
  memoryRetrievalEnabled : Option Bool := none
  ragRetrievalEnabled : Option Bool := none
  allowedCollectionIds : Option (List Uuid) := none
  maximumMemoryResults : Option Nat := none
  maximumChunkResults : Option Nat := none
  metadata : Option Json := none

def RetrievalPolicy.put (policy : RetrievalPolicy) (request : RetrievalPolicyPutRequest) :
    RetrievalPolicy where
  enabled := request.enabled.getD policy.enabled
  memoryRetrievalEnabled := request.memoryRetrievalEnabled.getD policy.memoryRetrievalEnabled
  ragRetrievalEnabled := request.ragRetrievalEnabled.getD policy.ragRetrievalEnabled
  allowedCollectionIds := request.allowedCollectionIds.getD policy.allowedCollectionIds
  maximumMemoryResults := request.maximumMemoryResults.getD policy.maximumMemoryResults
  maximumChunkResults := request.maximumChunkResults.getD policy.maximumChunkResults

/-! ## Tables -/

/-- A row that is missing is read as one with the defaults: the first read inserts it. -/
structure PolicyTables where
  conversation : Uuid → Option ConversationPolicy := fun _ => none
  embedding : Uuid → Option EmbeddingPolicy := fun _ => none
  memory : Uuid → Option MemoryPolicy := fun _ => none
  retrieval : Uuid → Option RetrievalPolicy := fun _ => none

namespace PolicyTables

variable (t : PolicyTables) (applicationId : Uuid)

def conversationPolicy : ConversationPolicy :=
  (t.conversation applicationId).getD {}

def embeddingPolicy : EmbeddingPolicy :=
  (t.embedding applicationId).getD {}

def memoryPolicy : MemoryPolicy :=
  (t.memory applicationId).getD {}

def retrievalPolicy : RetrievalPolicy :=
  (t.retrieval applicationId).getD {}

/-- The persistence that a join with the policies finds. -/
def contentPersistence : ConversationContentPersistence :=
  (t.conversationPolicy applicationId).conversationContentPersistence

def putConversationPolicy (request : ConversationPolicyPutRequest) : PolicyTables :=
  { t with conversation :=
      Function.update t.conversation applicationId (some ((t.conversationPolicy applicationId).put request)) }

def putEmbeddingPolicy (request : EmbeddingPolicyPutRequest) : PolicyTables :=
  { t with embedding :=
      Function.update t.embedding applicationId (some ((t.embeddingPolicy applicationId).put request)) }

def putMemoryPolicy (request : MemoryPolicyPutRequest) : PolicyTables :=
  { t with memory := Function.update t.memory applicationId (some ((t.memoryPolicy applicationId).put request)) }

def putRetrievalPolicy (request : RetrievalPolicyPutRequest) : PolicyTables :=
  { t with retrieval :=
      Function.update t.retrieval applicationId (some ((t.retrievalPolicy applicationId).put request)) }

end PolicyTables

end Moira.Conversations
