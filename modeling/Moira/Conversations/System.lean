import Moira.Conversations.Calls
import Moira.Lib.System

/-!
# Conversation calls over one database

Any number of calls over the tables. A call that is cancelled, or never hears of its commit, takes
no further step.

- a transaction is one step: the row that it writes is locked from its read on
- any statement may come back with an error, and has then changed nothing
- models and ids are answered freely; a vector comes out of the model that was asked for it and
  stands for its text, and a digest is of the text it was made of
- time passes, and the keyring comes and goes
-/

namespace Moira.Conversations

/-! ## What a call has seen -/

/-- What an ingestion is planned for. -/
inductive IngestionPlace
  | collection (id : Uuid)
  | document (id : Uuid)

structure Seen where
  /-- The conversation that the call has found or made last. -/
  found : Option ConversationRow := none
  /-- The conversation policy that the call has read last, with its application. -/
  policy : Option (Uuid × ConversationPolicy) := none
  /-- The active summary of a conversation. -/
  active : Option (Uuid × Option SummaryRow) := none
  /-- The messages of a conversation after a boundary. -/
  backlog : Option (Uuid × Nat × List MessageRow) := none
  /-- What the model was asked last. -/
  asked : Option (List DomainMessage) := none
  /-- What an ingestion is planned for, and the application of it. -/
  place : Option (IngestionPlace × Uuid) := none
  /-- The application whose embedding model the call has read, with the model. -/
  target : Option (Uuid × Uuid) := none
  collection : Option CollectionTarget := none
  /-- The memory policy that the call has read last, with its application. -/
  memoryPolicy : Option (Uuid × MemoryPolicy) := none
  retrieval : Option (Uuid × RetrievalPolicy) := none
  /-- The memory that the call has made last. -/
  written : Option MemoryRow := none
  /-- The digest that an extraction has found no memory with. -/
  looked : Option (RetrievalScope × Digest) := none

namespace Seen

def recordConversation (seen : Seen) : (s : ConversationStatement) → s.Value → Seen
  | .createConversation _, row | .findConversationAuthorized .., row => { seen with found := some row }
  | .findActiveConversationSummary id, active => { seen with active := some (id, active) }
  | .findMessagesAfterSequence id after _, rows => { seen with backlog := some (id, after, rows) }
  | _, _ => seen

def recordMemory (seen : Seen) : (s : MemoryStatement) → s.Value → Seen
  | .createMemory _, row => { seen with written := some row }
  | .insertExtractedMemory _, row => { seen with written := some row, looked := none }
  | .findMemoryByContentHash scope contentHash, none => { seen with looked := some (scope, contentHash) }
  | .findMemoryByContentHash .., some _ | .confirmMemory _, _ => { seen with looked := none }
  | _, _ => seen

/-- The context of an ingestion: its application, and the model that vectors are asked of. -/
def planned (seen : Seen) (place : IngestionPlace) (context : Option RagIngestionContext) : Seen :=
  { seen with
    place := context.map fun context => (place, context.applicationId)
    target := context.bind fun context => (context.embedding.bind RagEmbeddingTarget.modelId).map fun model =>
      (context.applicationId, model) }

def recordDocument (seen : Seen) : (s : DocumentStatement) → s.Value → Seen
  | .findCollectionIngestionContext id, context => seen.planned (.collection id) context
  | .findDocumentIngestionContext id, context => seen.planned (.document id) context
  | .findCollectionTarget _, target => { seen with collection := some target }
  | _, _ => seen

def recordPolicy (seen : Seen) : (s : PolicyStatement) → s.Value → Seen
  | .getConversationPolicy applicationId, policy => { seen with policy := some (applicationId, policy) }
  | .getMemoryPolicy applicationId, policy => { seen with memoryPolicy := some (applicationId, policy) }
  | .getRetrievalPolicy applicationId, policy => { seen with retrieval := some (applicationId, policy) }
  | .findApplicationEmbeddingTarget applicationId, target =>
    { seen with target := (target.bind RagEmbeddingTarget.modelId).map fun model => (applicationId, model) }
  | _, _ => seen

def recordStatement (seen : Seen) : (s : Statement) → s.Value → Seen
  | .conversation s, a => seen.recordConversation s a
  | .memory s, a => seen.recordMemory s a
  | .document s, a => seen.recordDocument s a
  | .policy s, a => seen.recordPolicy s a

/-- A call that is answered has nothing in hand. -/
def record (seen : Seen) : (o : ConversationOp) → o.Ans → Seen
  | .statement s, .ok a => seen.recordStatement s a
  | .execute messages, _ => { seen with asked := some messages }
  | .answer _, _ => {}
  | _, _ => seen

end Seen

/-! ## The world -/

structure World where
  tables : Tables := {}
  moment : Moment := {}
  /-- The summarization locks that are held, with the calls that hold them. -/
  locks : List (Nat × Nat) := []
  seen : Nat → Seen := fun _ => {}
  /-- The policies as they were when a call made its first step. -/
  opened : Nat → Option PolicyTables := fun _ => none
  /-- The lookups that have found no memory and whose extraction has not inserted one yet, with
  their calls. -/
  lookups : List (Nat × RetrievalScope × Digest) := []

/-- `summarization_lock_object`: the last four bytes of the id. -/
def summarizationLockObject (conversationId : Uuid) : Nat :=
  conversationId % 2 ^ 32

variable (deployment : Deployment)

namespace World

variable (w : World) (i : Nat)

/-- A statement is made, or comes back with an error. -/
def perform (s : Statement) : Except AppError s.Value → Option World
  | .ok a =>
    match s.run deployment.distance w.moment w.tables with
    | .ok (b, tables) => if a = b then some { w with tables } else none
    | .error _ => none
  | .error _ => some w

/-- `pg_try_advisory_lock` -/
def tryLock (conversationId : Uuid) (acquired : Bool) : Option World :=
  let object := summarizationLockObject conversationId
  if acquired = w.locks.all fun lock => lock.1 ≠ object then
    some (if acquired then { w with locks := (object, i) :: w.locks } else w)
  else none

def unlock (conversationId : Uuid) : World :=
  { w with locks := w.locks.filter fun lock => lock ≠ (summarizationLockObject conversationId, i) }

def respond : (o : ConversationOp) → o.Ans → Option World
  | .statement s, x => w.perform deployment s x
  | .tryLock conversationId, .ok acquired => w.tryLock i conversationId acquired
  | .unlock conversationId, _ => some (w.unlock i conversationId)
  | .memoryContentHash content, .ok contentHash => if contentHash.text = content then some w else none
  | .canSeal, sealable => if sealable = w.moment.sealing.isOk then some w else none
  | .embedTexts modelId texts, .ok vectors =>
    if (vectors.all fun vector => vector.model = modelId) ∧
        ((vectors.zip texts).all fun pair => pair.1.text = pair.2) then some w
    else none
  | _, _ => some w

/-- The lookups where a call has seen this. -/
def lookupsWith (seen : Seen) : List (Nat × RetrievalScope × Digest) :=
  seen.looked.toList.map (fun looked => (i, looked)) ++ w.lookups.filter fun lookup => lookup.1 ≠ i

/-- The call writes down what it was answered. -/
def see (o : ConversationOp) (x : o.Ans) : World :=
  { w with
    seen := Function.update w.seen i ((w.seen i).record o x)
    lookups := w.lookupsWith i ((w.seen i).record o x) }

/-- The first step of a call is when it begins. -/
def begin : World :=
  { w with opened :=
      if (w.opened i).isSome then w.opened else Function.update w.opened i (some w.tables.policies) }

end World

def grant (i : Nat) (w : World) (o : ConversationOp) (x : o.Ans) : Option World :=
  ((w.begin i).respond deployment i o x).map fun w' => w'.see i o x

/-- The clock goes on, and the keyring is as it is now. -/
def nature (w : World) (moment : Moment) : Option World :=
  if w.moment.now ≤ moment.now then some { w with moment } else none

variable (requests : Nat → Request)

def conversations : System Nat where
  sig _ := conversationSig
  Point _ := Unit
  code i := code deployment (requests i)
  World := World
  Event := Moment
  grant := grant deployment
  nature := nature

/-- No call has made a step yet, and the tables are empty. -/
def conversationsInitial : (conversations deployment requests).State where
  world := {}
  proc i := code deployment (requests i) ()

end Moira.Conversations
