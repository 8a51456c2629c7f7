import Moira.Execution.Types
import Moira.Lib.Program

/-!
# The tool loop

A model with tools is called turn after turn. A reply that asks for tools is followed by the
results, and the model is called again with both in the history.

The provider and the tools are the environment: a completion and a dispatch are the two operations.
`render` is the compact text of a JSON value.
-/

namespace Moira.ToolLoop

/-! ## Guards -/

structure GuardPolicy where
  allowedSkillKeys : Option (List String) := none
  deniedSkillKeys : List String := []
  requiredScopes : List String := []

inductive GuardPolicyError
  | missing
  | malformed

inductive GuardDenialReason
  | skillNotAllowed
  | skillDenied
  | missingScope
  | policyUnreadable
  deriving DecidableEq

def GuardDenialReason.asStr : GuardDenialReason → String
  | .skillNotAllowed => "skill_not_allowed"
  | .skillDenied => "skill_denied"
  | .missingScope => "missing_scope"
  | .policyUnreadable => "policy_unreadable"

inductive GuardVerdict
  | allow
  | deny (guardKey : String) (reason : GuardDenialReason)
  deriving DecidableEq

structure SkillGuard where
  guardKey : String
  policy : Except GuardPolicyError GuardPolicy

/-- Every guard in order; the first denial wins. -/
def evaluateGuards (skillKey : String) (callerScopes : List String) : List SkillGuard → GuardVerdict
  | [] => .allow
  | guard :: guards =>
    match guard.policy with
    | .error _ => .deny guard.guardKey .policyUnreadable
    | .ok policy =>
      if policy.allowedSkillKeys.any fun allowed => !allowed.contains skillKey then
        .deny guard.guardKey .skillNotAllowed
      else if policy.deniedSkillKeys.contains skillKey then .deny guard.guardKey .skillDenied
      else if policy.requiredScopes.any fun required => !callerScopes.contains required then
        .deny guard.guardKey .missingScope
      else evaluateGuards skillKey callerScopes guards

/-! ## Messages -/

/-- A sequence with at least one element. -/
structure OneOrMany (α : Type) where
  first : α
  rest : List α

namespace OneOrMany

variable {α : Type}

def one (a : α) : OneOrMany α :=
  ⟨a, []⟩

def toList (items : OneOrMany α) : List α :=
  items.first :: items.rest

/-- `OneOrMany::many`: refuses the empty list. -/
def many : List α → Option (OneOrMany α)
  | [] => none
  | a :: rest => some ⟨a, rest⟩

theorem toList_of_many {items : List α} {content : OneOrMany α} (h : many items = some content) :
    content.toList = items := by
  cases items with
  | nil => simp [many] at h
  | cons a rest =>
    simp only [many, Option.some.injEq] at h
    rw [← h]
    rfl

theorem many_eq_some {items : List α} (h : items ≠ []) : ∃ content, many items = some content := by
  obtain ⟨a, rest, rfl⟩ := List.exists_cons_of_ne_nil h
  exact ⟨_, rfl⟩

end OneOrMany

/-- A call the model asks for. -/
structure ToolCall where
  id : String
  callId : Option String
  name : String
  arguments : Json

inductive AssistantContent
  | toolCall (call : ToolCall)
  | other (content : Json)

inductive UserContent
  | toolResult (id : String) (callId : Option String) (content : OneOrMany String)
  | other (content : Json)

inductive Message
  | system (content : String)
  | user (content : OneOrMany UserContent)
  | assistant (id : Option String) (content : OneOrMany AssistantContent)

structure ToolDefinition where
  name : String
  description : String
  parameters : Json

/-- A request; `settings` is all of it that the loop leaves alone. -/
structure CompletionRequest where
  chatHistory : OneOrMany Message
  tools : List ToolDefinition
  settings : Json

structure RuntimeCompletionOutput where
  text : String
  usage : UsageSummary
  providerRequestId : Option String
  toolCalls : List ToolCall

/-- What a dispatched call came back with. -/
structure ToolExecution where
  outcome : String
  failureKind : Option String
  modelOutput : String

/-! ## The environment -/

inductive Op
  | completion (request : CompletionRequest)
  | callStructured (toolName : String) (arguments : String)

def sig : Sig where
  Op := Op
  Ans
    | .completion _ => Except ExecutionFailure RuntimeCompletionOutput
    | .callStructured _ _ => ToolExecution

/-! ## Records and outcomes -/

structure ToolCallRecord where
  toolName : String
  outcome : String
  failureKind : Option String
  guardKey : Option String
  guardReason : Option String

structure ToolLoopOutcome where
  text : String
  usage : UsageSummary
  providerRequestId : Option String
  turns : Nat
  toolCalls : List ToolCallRecord

structure ToolLoopFailure where
  failure : ExecutionFailure
  usage : UsageSummary
  toolCalls : List ToolCallRecord

def ToolLoopFailure.new (failureClass : ExecutionFailureClass) (message : String) (usage : UsageSummary)
    (toolCalls : List ToolCallRecord) : ToolLoopFailure where
  failure := .new failureClass message
  usage := usage
  toolCalls := toolCalls

abbrev Loop := Prog sig ToolLoopFailure

/-- One count of `accumulateUsage`. -/
def addCount (total turn : Option Nat) : Option Nat :=
  match turn with
  | some value => some (min (total.getD 0 + value) u64Max)
  | none => total

/-- Folds the counts of one turn into the running total. -/
def accumulateUsage (total turn : UsageSummary) : UsageSummary where
  inputTokens := addCount total.inputTokens turn.inputTokens
  outputTokens := addCount total.outputTokens turn.outputTokens
  cachedInputTokens := addCount total.cachedInputTokens turn.cachedInputTokens
  reasoningTokens := addCount total.reasoningTokens turn.reasoningTokens
  totalTokens := addCount total.totalTokens turn.totalTokens

/-! ## One call -/

/-- Everything the loop needs besides the request it re-issues. -/
structure ToolLoopContext where
  render : Json → String
  definitions : List ToolDefinition
  guards : List SkillGuard
  callerScopes : List String
  maximumToolTurns : Nat

/-- The verdict of the guards on a call. -/
def ToolLoopContext.verdict (context : ToolLoopContext) (call : ToolCall) : GuardVerdict :=
  evaluateGuards call.name context.callerScopes context.guards

/-- What the model reads of a denied call. -/
def denial (reason : GuardDenialReason) : Json :=
  .obj [("error", .obj [("code", .str "skill_guard_denied"),
      ("message_key", .str "moira.error.skill_guard_denied"), ("reason", .str reason.asStr)]),
    ("status", .str "denied")]

def deniedRecord (toolName guardKey : String) (reason : GuardDenialReason) : ToolCallRecord where
  toolName := toolName
  outcome := "denied"
  failureKind := none
  guardKey := some guardKey
  guardReason := some reason.asStr

def completedRecord (toolName : String) (execution : ToolExecution) : ToolCallRecord where
  toolName := toolName
  outcome := execution.outcome
  failureKind := execution.failureKind
  guardKey := none
  guardReason := none

/-- Guards first, then the dispatch. -/
def executeOneToolCall (context : ToolLoopContext) (call : ToolCall) : Loop (String × ToolCallRecord) :=
  match context.verdict call with
  | .deny guardKey reason =>
    return (context.render (denial reason), deniedRecord call.name guardKey reason)
  | .allow => do
    let execution ← Prog.ask (S := sig) (.callStructured call.name (context.render call.arguments))
    return (execution.modelOutput, completedRecord call.name execution)

/-- The result of a call, under the ids of the call. -/
def toolResult (call : ToolCall) (text : String) : UserContent :=
  .toolResult call.id call.callId (.one text)

/-- Every call of one reply, in order. -/
def executeToolCalls (context : ToolLoopContext) : List ToolCall → List UserContent → List ToolCallRecord →
    Loop (List UserContent × List ToolCallRecord)
  | [], results, records => return (results, records)
  | call :: calls, results, records => do
    let (text, record) ← executeOneToolCall context call
    executeToolCalls context calls (results ++ [toolResult call text]) (records ++ [record])

/-! ## The loop -/

def exhausted (spent : UsageSummary) (records : List ToolCallRecord) : ToolLoopFailure :=
  .new .deadlineExceeded "execution exceeded the configured tool turn budget" spent records

/-- The turns from `turn` on, of which `left` may still be made. -/
def runTurns (context : ToolLoopContext) : Nat → Nat → CompletionRequest → List Message → UsageSummary →
    List ToolCallRecord → Loop ToolLoopOutcome
  | 0, _, _, _, spent, records => .fail (exhausted spent records)
  | left + 1, turn, request, history, spent, records =>
    match OneOrMany.many history with
    | none =>
      .fail (.new .invalidExecutionRequest "execution command must contain at least one message" spent records)
    | some chatHistory => do
      let request := { request with tools := context.definitions, chatHistory := chatHistory }
      match ← Prog.ask (S := sig) (.completion request) with
      | .error failure => .fail { failure := failure, usage := spent, toolCalls := records }
      | .ok output =>
        let spent := accumulateUsage spent output.usage
        if output.toolCalls.isEmpty then
          return { text := output.text, usage := spent, providerRequestId := output.providerRequestId,
                   turns := turn, toolCalls := records }
        -- no result of a call on the last turn would ever be read
        else if turn = context.maximumToolTurns then .fail (exhausted spent records)
        else
          match OneOrMany.many (output.toolCalls.map .toolCall) with
          | none =>
            .fail (.new .providerInvalidResponse "provider returned an empty assistant turn" spent records)
          | some content =>
            let history := history ++ [.assistant output.providerRequestId content]
            let (results, records) ← executeToolCalls context output.toolCalls [] records
            match OneOrMany.many results with
            | none => .fail (.new .internalError "tool execution produced no tool results" spent records)
            | some content =>
              runTurns context left (turn + 1) request (history ++ [.user content]) spent records

/-- Drives the model until it answers without asking for a tool. -/
def runToolLoop (context : ToolLoopContext) (request : CompletionRequest) : Loop ToolLoopOutcome :=
  if context.maximumToolTurns = 0 then
    .fail (.new .invalidExecutionRequest "tool turn budget must be at least one" {} [])
  else runTurns context context.maximumToolTurns 1 request request.chatHistory.toList {} []

end Moira.ToolLoop
