import Mathlib.Algebra.GroupWithZero.Nat
import Mathlib.Data.List.Basic
import Mathlib.Data.List.Chain
import Mathlib.Data.List.ReduceOption
import Moira.Orchestration.ToolLoop

/-!
# What a run of the tool loop leaves behind

The trace of a run is read as a list of turns: a provider call with the calls dispatched after it.

- `Turn`, `Turn.exchanges` — a turn and its part of the trace
- **`toolLoop_disciplined`** — every run of the loop is orderly, and closed when it is over
-/

namespace Moira.ToolLoop

open Prog

/-! ## Turns -/

/-- A provider call with its answer, and the calls dispatched before the next one. -/
structure Turn where
  request : CompletionRequest
  answer : Except ExecutionFailure RuntimeCompletionOutput
  dispatched : List ((String × String) × ToolExecution)

namespace Turn

/-- The exchanges of a turn. -/
def exchanges (turn : Turn) : List (Exchange sig) :=
  ⟨.completion turn.request, turn.answer⟩ ::
    turn.dispatched.map fun d => ⟨.callStructured d.1.1 d.1.2, d.2⟩

/-- The history sent on a turn. -/
def history (turn : Turn) : List Message :=
  turn.request.chatHistory.toList

/-- The calls its reply asks for. -/
def calls (turn : Turn) : List ToolCall :=
  match turn.answer with
  | .ok output => output.toolCalls
  | .error _ => []

/-- The counts of the reply, when there was one. -/
def usage (turn : Turn) : Option UsageSummary :=
  match turn.answer with
  | .ok output => some output.usage
  | .error _ => none

/-- What was dispatched, without the outcome. -/
def requests (turn : Turn) : List (String × String) :=
  turn.dispatched.map Prod.fst

def executions (turn : Turn) : List ToolExecution :=
  turn.dispatched.map Prod.snd

end Turn

/-- What the allowed ones of these calls put on the wire, in order. -/
def dispatches (context : ToolLoopContext) (calls : List ToolCall) : List (String × String) :=
  (calls.filter fun call => context.verdict call = .allow).map fun call =>
    (call.name, context.render call.arguments)

/-- The text and the record of every call, from the executions of those that were dispatched. -/
def settle (context : ToolLoopContext) : List ToolCall → List ToolExecution → List (String × ToolCallRecord)
  | [], _ => []
  | call :: calls, executions =>
    match context.verdict call with
    | .deny guardKey reason =>
      (context.render (denial reason), deniedRecord call.name guardKey reason) ::
        settle context calls executions
    | .allow =>
      match executions with
      | [] => []
      | execution :: executions =>
        (execution.modelOutput, completedRecord call.name execution) :: settle context calls executions

/-- The records of a turn. -/
def Turn.records (context : ToolLoopContext) (turn : Turn) : List ToolCallRecord :=
  (settle context turn.calls turn.executions).map Prod.snd

/-- The results of a turn, one for each call under its ids. -/
def Turn.results (context : ToolLoopContext) (turn : Turn) : List UserContent :=
  List.zipWith toolResult turn.calls ((settle context turn.calls turn.executions).map Prod.fst)

/-- `content` is a result of `call`. -/
def Answers (call : ToolCall) (content : UserContent) : Prop :=
  ∃ text, content = .toolResult call.id call.callId (.one text)

/--
The next history after a turn: the old one, one assistant message with the calls of the reply, and
one user message with their results. All that was allowed has been dispatched.
-/
def Turn.LeadsTo (context : ToolLoopContext) (turn : Turn) (history : List Message) : Prop :=
  ∃ output content results, turn.answer = .ok output ∧
    history = turn.history ++ [.assistant output.providerRequestId content, .user results] ∧
    content.toList = output.toolCalls.map .toolCall ∧
    List.Forall₂ Answers output.toolCalls results.toList ∧
    results.toList = turn.results context ∧
    turn.requests = dispatches context output.toolCalls

/-- What holds of the turns of every run. -/
structure Orderly (context : ToolLoopContext) (history : List Message) (turns : List Turn) : Prop where
  budget : turns.length ≤ context.maximumToolTurns
  opening : ∀ turn, turns.head? = some turn → turn.history = history
  grows : turns.IsChain fun turn next => turn.LeadsTo context next.history
  /-- a denied call is never dispatched -/
  allowed : ∀ turn ∈ turns, turn.requests <+: dispatches context turn.calls
  /-- the last turn of the budget dispatches nothing -/
  idle : turns.length = context.maximumToolTurns → ∀ turn, turns.getLast? = some turn → turn.dispatched = []

/-! ## Usage -/

/-- The saturating sum of the counts that were reported, absent when none was. -/
def saturatingTotal (counts : List (Option Nat)) : Option Nat :=
  if counts.all Option.isNone then none else some (min counts.reduceOption.sum u64Max)

/-- The total of every field. -/
def totalUsage (usages : List UsageSummary) : UsageSummary where
  inputTokens := saturatingTotal (usages.map (·.inputTokens))
  outputTokens := saturatingTotal (usages.map (·.outputTokens))
  cachedInputTokens := saturatingTotal (usages.map (·.cachedInputTokens))
  reasoningTokens := saturatingTotal (usages.map (·.reasoningTokens))
  totalTokens := saturatingTotal (usages.map (·.totalTokens))

theorem saturatingTotal_concat (counts : List (Option Nat)) (count : Option Nat) :
    saturatingTotal (counts ++ [count]) = addCount (saturatingTotal counts) count := by
  cases count with
  | none => simp [saturatingTotal, addCount, List.reduceOption]
  | some value =>
    have hsome : (counts ++ [some value]).all Option.isNone = false := by simp
    have hsum : (counts ++ [some value]).reduceOption.sum = counts.reduceOption.sum + value := by
      simp [List.reduceOption]
    rw [saturatingTotal, hsome, hsum]
    by_cases hnone : counts.all Option.isNone
    · -- nothing was reported before, so the sum starts here
      have hzero : counts.reduceOption = [] := by
        simpa [List.reduceOption, List.filterMap_eq_nil_iff] using hnone
      simp [saturatingTotal, hnone, addCount, hzero]
    · simp only [saturatingTotal, hnone, addCount, Option.getD_some, Bool.false_eq_true, if_false]
      congr 1
      omega

theorem totalUsage_concat (usages : List UsageSummary) (usage : UsageSummary) :
    totalUsage (usages ++ [usage]) = accumulateUsage (totalUsage usages) usage := by
  simp only [totalUsage, accumulateUsage, List.map_append, List.map_cons, List.map_nil,
    saturatingTotal_concat]

/-- The usage of the turns that were answered. -/
def spentOn (turns : List Turn) : UsageSummary :=
  totalUsage (turns.filterMap Turn.usage)

/-- What holds at an exit: nothing was dispatched on the last turn, and what is reported is
complete. -/
structure Closed (context : ToolLoopContext) (turns : List Turn) (usage : UsageSummary)
    (records : List ToolCallRecord) : Prop where
  idle : ∀ turn, turns.getLast? = some turn → turn.dispatched = []
  usage_eq : usage = spentOn turns
  records_eq : records = turns.dropLast.flatMap (Turn.records context)
  named : records.map (·.toolName) = (turns.dropLast.flatMap Turn.calls).map (·.name)

/-- The loop is over, with these counts and records. -/
def Exits (q : Loop ToolLoopOutcome) (usage : UsageSummary) (records : List ToolCallRecord) : Prop :=
  (∃ outcome, q = .ret outcome ∧ outcome.usage = usage ∧ outcome.toolCalls = records) ∨
    ∃ failure, q = .fail failure ∧ failure.usage = usage ∧ failure.toolCalls = records

/-! ## The calls of one reply -/

section Calls

variable {context : ToolLoopContext} {call : ToolCall} {calls : List ToolCall}

theorem dispatches_cons_deny {guardKey : String} {reason : GuardDenialReason}
    (h : context.verdict call = .deny guardKey reason) :
    dispatches context (call :: calls) = dispatches context calls := by
  simp [dispatches, h]

theorem dispatches_cons_allow (h : context.verdict call = .allow) :
    dispatches context (call :: calls) =
      (call.name, context.render call.arguments) :: dispatches context calls := by
  simp [dispatches, h]

theorem settle_cons_deny {guardKey : String} {reason : GuardDenialReason}
    (h : context.verdict call = .deny guardKey reason) (executions : List ToolExecution) :
    settle context (call :: calls) executions =
      (context.render (denial reason), deniedRecord call.name guardKey reason) ::
        settle context calls executions := by
  simp [settle, h]

theorem settle_cons_allow (h : context.verdict call = .allow) (execution : ToolExecution)
    (executions : List ToolExecution) :
    settle context (call :: calls) (execution :: executions) =
      (execution.modelOutput, completedRecord call.name execution) :: settle context calls executions := by
  simp [settle, h]

theorem settle_names : ∀ (calls : List ToolCall) (executions : List ToolExecution),
    executions.length = (dispatches context calls).length →
    (settle context calls executions).map (·.2.toolName) = calls.map (·.name)
  | [], _, _ => rfl
  | call :: calls, executions, hlen => by
    cases hverdict : context.verdict call with
    | deny guardKey reason =>
      rw [dispatches_cons_deny hverdict] at hlen
      rw [settle_cons_deny hverdict, List.map_cons, settle_names calls executions hlen]
      rfl
    | allow =>
      rw [dispatches_cons_allow hverdict] at hlen
      cases executions with
      | nil => simp at hlen
      | cons execution executions =>
        have hlen' : executions.length = (dispatches context calls).length := by simpa using hlen
        rw [settle_cons_allow hverdict, List.map_cons, settle_names calls executions hlen']
        rfl

theorem length_settle {executions : List ToolExecution}
    (h : executions.length = (dispatches context calls).length) :
    (settle context calls executions).length = calls.length := by
  simpa using congrArg List.length (settle_names calls executions h)

theorem answers_zipWith : ∀ {calls : List ToolCall} {texts : List String}, texts.length = calls.length →
    List.Forall₂ Answers calls (List.zipWith toolResult calls texts)
  | [], _, _ => .nil
  | call :: calls, [], h => by simp at h
  | call :: calls, text :: texts, h => .cons ⟨text, rfl⟩ (answers_zipWith (by simpa using h))

end Calls

/-! ## One exchange -/

namespace Turn

/-- The turn with more calls dispatched. -/
def dispatch (turn : Turn) (more : List ((String × String) × ToolExecution)) : Turn :=
  { turn with dispatched := turn.dispatched ++ more }

@[simp] theorem dispatch_nil (turn : Turn) : turn.dispatch [] = turn := by
  simp [dispatch]

@[simp] theorem dispatch_dispatch (turn : Turn) (more more' : List ((String × String) × ToolExecution)) :
    (turn.dispatch more).dispatch more' = turn.dispatch (more ++ more') := by
  simp [dispatch]

@[simp] theorem calls_dispatch (turn : Turn) (more : List ((String × String) × ToolExecution)) :
    (turn.dispatch more).calls = turn.calls := rfl

@[simp] theorem requests_dispatch (turn : Turn) (more : List ((String × String) × ToolExecution)) :
    (turn.dispatch more).requests = turn.requests ++ more.map Prod.fst := by
  simp [dispatch, requests]

/-- A turn just answered. -/
def answered (request : CompletionRequest) (answer : Except ExecutionFailure RuntimeCompletionOutput) :
    Turn where
  request := request
  answer := answer
  dispatched := []

end Turn

section Orderly

variable {context : ToolLoopContext} {history : List Message} {turns : List Turn} {turn : Turn}

theorem orderly_nil : Orderly context history [] where
  budget := Nat.zero_le _
  opening _ h := nomatch h
  grows := .nil
  allowed _ h := nomatch h
  idle _ _ h := nomatch h

theorem Orderly.ask (h : Orderly context history turns) (hbudget : turns.length < context.maximumToolTurns)
    (request : CompletionRequest) (hopening : turns = [] → request.chatHistory.toList = history)
    (hgrows : ∀ turn, turns.getLast? = some turn → turn.LeadsTo context request.chatHistory.toList)
    (answer : Except ExecutionFailure RuntimeCompletionOutput) :
    Orderly context history (turns ++ [.answered request answer]) where
  budget := by
    rw [List.length_append, List.length_singleton]
    exact hbudget
  opening := by
    intro turn hturn
    cases turns with
    | nil =>
      obtain rfl : Turn.answered request answer = turn := by simpa using hturn
      exact hopening rfl
    | cons first rest => exact h.opening turn (by simpa using hturn)
  grows := by
    rw [List.isChain_append]
    refine ⟨h.grows, List.isChain_singleton _, fun last hlast next hnext => ?_⟩
    obtain rfl : Turn.answered request answer = next := by simpa using hnext
    exact hgrows last hlast
  allowed := by
    intro turn hturn
    rcases List.mem_append.mp hturn with hold | hnew
    · exact h.allowed turn hold
    · obtain rfl := List.mem_singleton.mp hnew
      exact List.nil_prefix
  idle := by
    intro _ turn hturn
    obtain rfl : Turn.answered request answer = turn := by simpa using hturn
    rfl

theorem Orderly.dispatch (h : Orderly context history (turns ++ [turn]))
    (hbudget : turns.length + 1 < context.maximumToolTurns)
    (more : List ((String × String) × ToolExecution))
    (hallowed : turn.requests ++ more.map Prod.fst <+: dispatches context turn.calls) :
    Orderly context history (turns ++ [turn.dispatch more]) where
  budget := by simpa using h.budget
  opening := by
    intro first hfirst
    cases turns with
    | nil =>
      obtain rfl : turn.dispatch more = first := by simpa using hfirst
      exact h.opening turn rfl
    | cons first rest => exact h.opening _ (by simpa using hfirst)
  grows := by
    have hgrows := h.grows
    rw [List.isChain_append] at hgrows ⊢
    refine ⟨hgrows.1, List.isChain_singleton _, fun last hlast next hnext => ?_⟩
    obtain rfl : turn.dispatch more = next := by simpa using hnext
    exact hgrows.2.2 last hlast turn rfl
  allowed := by
    intro turn' hturn
    rcases List.mem_append.mp hturn with hold | hnew
    · exact h.allowed turn' (List.mem_append_left _ hold)
    · obtain rfl := List.mem_singleton.mp hnew
      rwa [Turn.requests_dispatch]
  idle := by
    intro hlen
    rw [List.length_append, List.length_singleton] at hlen
    omega

end Orderly

/-- The trace is that of orderly turns. -/
def Kept (context : ToolLoopContext) (history : List Message) (tr : List (Exchange sig)) : Prop :=
  ∃ turns, tr = turns.flatMap Turn.exchanges ∧ Orderly context history turns

theorem flatMap_answered (turns : List Turn) (request : CompletionRequest)
    (answer : Except ExecutionFailure RuntimeCompletionOutput) :
    (turns ++ [Turn.answered request answer]).flatMap Turn.exchanges =
      turns.flatMap Turn.exchanges ++ [⟨.completion request, answer⟩] := by
  simp [Turn.exchanges, Turn.answered]

theorem flatMap_dispatch (turns : List Turn) (turn : Turn) (toolName arguments : String)
    (execution : ToolExecution) :
    (turns ++ [turn.dispatch [((toolName, arguments), execution)]]).flatMap Turn.exchanges =
      (turns ++ [turn]).flatMap Turn.exchanges ++ [⟨.callStructured toolName arguments, execution⟩] := by
  simp [Turn.exchanges, Turn.dispatch]

/-! ## Serving a reply -/

section Serving

variable (context : ToolLoopContext) (history : List Message)

/-- What the calls of a reply leave behind: everything allowed dispatched, every call settled. -/
structure Served (turns : List Turn) (turn : Turn) (calls : List ToolCall) (results : List UserContent)
    (records : List ToolCallRecord) (tr : List (Exchange sig))
    (served : List UserContent × List ToolCallRecord)
    (more : List ((String × String) × ToolExecution)) : Prop where
  requests : more.map Prod.fst = dispatches context calls
  trace : tr = (turns ++ [turn.dispatch more]).flatMap Turn.exchanges
  orderly : Orderly context history (turns ++ [turn.dispatch more])
  results_eq : served.1 = results ++
    List.zipWith toolResult calls ((settle context calls (more.map Prod.snd)).map Prod.fst)
  records_eq : served.2 = records ++ (settle context calls (more.map Prod.snd)).map Prod.snd

variable {context history}

theorem wp_executeToolCalls {turns : List Turn} (hbudget : turns.length + 1 < context.maximumToolTurns) :
    ∀ (calls : List ToolCall) (turn : Turn) (results : List UserContent) (records : List ToolCallRecord),
      Orderly context history (turns ++ [turn]) →
      turn.requests ++ dispatches context calls <+: dispatches context turn.calls →
      wp (Contract.keeping (Kept context history)) (executeToolCalls context calls results records)
        ((turns ++ [turn]).flatMap Turn.exchanges)
        (fun tr served => ∃ more, Served context history turns turn calls results records tr served more)
        (fun _ _ => False)
  | [], turn, results, records, horderly, _ => by
    refine ⟨[], rfl, ?_, ?_, ?_, ?_⟩
    · rw [Turn.dispatch_nil]
    · rwa [Turn.dispatch_nil]
    · exact (List.append_nil _).symm
    · exact (List.append_nil _).symm
  | call :: calls, turn, results, records, horderly, hallowed => by
    rw [executeToolCalls]
    cases hverdict : context.verdict call with
    | deny guardKey reason =>
      rw [dispatches_cons_deny hverdict] at hallowed
      simp only [executeOneToolCall, hverdict, pure_def, ret_bind]
      refine wp_mono (wp_executeToolCalls hbudget calls turn _ _ horderly hallowed) ?_ fun _ _ h => h
      rintro tr served ⟨more, hserved⟩
      refine ⟨more, ?_, hserved.trace, hserved.orderly, ?_, ?_⟩
      · rw [dispatches_cons_deny hverdict, hserved.requests]
      · rw [hserved.results_eq, settle_cons_deny hverdict]
        simp
      · rw [hserved.records_eq, settle_cons_deny hverdict]
        simp
    | allow =>
      rw [dispatches_cons_allow hverdict] at hallowed
      simp only [executeOneToolCall, hverdict, pure_def]
      -- the call itself is the next one allowed
      have hnext : turn.requests ++ [(call.name, context.render call.arguments)] <+:
          dispatches context turn.calls := by
        refine List.IsPrefix.trans ?_ hallowed
        exact ⟨dispatches context calls, by simp⟩
      have hdispatch := fun execution =>
        horderly.dispatch hbudget [((call.name, context.render call.arguments), execution)] hnext
      refine ⟨fun execution => ⟨_, (flatMap_dispatch ..).symm, hdispatch execution⟩,
        fun (execution : ToolExecution) _ => ?_⟩
      have hallowed' : (turn.dispatch [((call.name, context.render call.arguments), execution)]).requests ++
          dispatches context calls <+: dispatches context turn.calls := by
        simpa using hallowed
      have hrest := wp_executeToolCalls hbudget calls _
        (results ++ [toolResult call execution.modelOutput])
        (records ++ [completedRecord call.name execution]) (hdispatch execution) hallowed'
      rw [flatMap_dispatch] at hrest
      refine wp_mono hrest ?_ fun _ _ h => h
      rintro tr served ⟨more, hserved⟩
      refine ⟨((call.name, context.render call.arguments), execution) :: more, ?_, ?_, ?_, ?_, ?_⟩
      · rw [List.map_cons, hserved.requests, dispatches_cons_allow hverdict]
      · simpa using hserved.trace
      · simpa using hserved.orderly
      · rw [hserved.results_eq, List.map_cons, settle_cons_allow hverdict]
        simp
      · rw [hserved.records_eq, List.map_cons, settle_cons_allow hverdict]
        simp

end Serving

/-! ## The loop -/

section Run

variable {context : ToolLoopContext} {first history : List Message} {turns : List Turn}
  {spent : UsageSummary} {records : List ToolCallRecord}

variable (context first turns history spent records) in
/-- The loop is about to call the provider. -/
structure Ready : Prop where
  orderly : Orderly context first turns
  budget : turns.length < context.maximumToolTurns
  opening : turns = [] → history = first
  grows : ∀ turn, turns.getLast? = some turn → turn.LeadsTo context history
  nonempty : history ≠ []
  spent_eq : spent = spentOn turns
  records_eq : records = turns.flatMap (Turn.records context)
  named : records.map (·.toolName) = (turns.flatMap Turn.calls).map (·.name)

/-- The exits of the loop, as a postcondition. -/
def Over (context : ToolLoopContext) (first : List Message) (usage : UsageSummary)
    (records : List ToolCallRecord) (tr : List (Exchange sig)) : Prop :=
  ∃ turns, tr = turns.flatMap Turn.exchanges ∧ Orderly context first turns ∧
    Closed context turns usage records

theorem spentOn_error (request : CompletionRequest) (failure : ExecutionFailure) :
    spentOn (turns ++ [.answered request (.error failure)]) = spentOn turns := by
  rw [spentOn, List.filterMap_append]
  exact congrArg totalUsage (List.append_nil _)

theorem spentOn_ok (request : CompletionRequest) (output : RuntimeCompletionOutput) :
    spentOn (turns ++ [.answered request (.ok output)]) = accumulateUsage (spentOn turns) output.usage := by
  rw [spentOn, List.filterMap_append]
  exact totalUsage_concat _ _

theorem Ready.closed (h : Ready context first history turns spent records) (request : CompletionRequest)
    (answer : Except ExecutionFailure RuntimeCompletionOutput) :
    Closed context (turns ++ [.answered request answer]) (spentOn (turns ++ [.answered request answer]))
      records where
  idle := by
    intro turn hturn
    obtain rfl : Turn.answered request answer = turn := by simpa using hturn
    rfl
  usage_eq := rfl
  records_eq := by rw [List.dropLast_concat, h.records_eq]
  named := by rw [List.dropLast_concat, h.named]

theorem Ready.next (h : Ready context first history turns spent records) {request : CompletionRequest}
    {output : RuntimeCompletionOutput} (hrequest : request.chatHistory.toList = history)
    (hbudget : turns.length + 1 < context.maximumToolTurns) {content : OneOrMany AssistantContent}
    (hcontent : content.toList = output.toolCalls.map .toolCall)
    {tr : List (Exchange sig)} {served : List UserContent × List ToolCallRecord}
    {more : List ((String × String) × ToolExecution)}
    (hserved : Served context first turns (.answered request (.ok output)) output.toolCalls [] records tr
      served more)
    {results : OneOrMany UserContent} (hresults : results.toList = served.1) :
    Ready context first
      (history ++ [.assistant output.providerRequestId content] ++ [.user results])
      (turns ++ [(Turn.answered request (.ok output)).dispatch more])
      (accumulateUsage spent output.usage) served.2 := by
  have hlen : (more.map Prod.snd).length = (dispatches context output.toolCalls).length := by
    rw [← hserved.requests, List.length_map, List.length_map]
  have hrecords : (Turn.dispatch (.answered request (.ok output)) more).records context =
      (settle context output.toolCalls (more.map Prod.snd)).map Prod.snd := rfl
  constructor
  case orderly => exact hserved.orderly
  case budget => simpa using hbudget
  case opening => simp
  case grows =>
    intro turn hturn
    obtain rfl : (Turn.answered request (.ok output)).dispatch more = turn := by simpa using hturn
    refine ⟨output, content, results, rfl, ?_, hcontent, ?_, ?_, hserved.requests⟩
    · rw [← hrequest, List.append_assoc]
      rfl
    · rw [hresults, hserved.results_eq]
      exact answers_zipWith (by rw [List.length_map, length_settle hlen])
    · rw [hresults, hserved.results_eq]
      rfl
  case nonempty => simp
  case spent_eq =>
    rw [h.spent_eq, ← spentOn_ok request output, spentOn, spentOn, List.filterMap_append,
      List.filterMap_append]
    rfl
  case records_eq =>
    rw [hserved.records_eq, h.records_eq, List.flatMap_append, List.flatMap_singleton, hrecords]
  case named =>
    rw [hserved.records_eq, List.map_append, h.named, List.flatMap_append, List.flatMap_singleton,
      List.map_append, List.map_map]
    exact congrArg _ (settle_names _ _ hlen)

theorem wp_runTurns : ∀ (left turn : Nat) (request : CompletionRequest) (history : List Message)
    (spent : UsageSummary) (records : List ToolCallRecord) (turns : List Turn),
    Ready context first history turns spent records →
    turn = turns.length + 1 → turns.length + left = context.maximumToolTurns →
    wp (Contract.keeping (Kept context first)) (runTurns context left turn request history spent records)
      (turns.flatMap Turn.exchanges)
      (fun tr outcome => Over context first outcome.usage outcome.toolCalls tr)
      (fun tr failure => Over context first failure.usage failure.toolCalls tr)
  | 0, _, _, _, _, _, turns, hready, _, hleft => by
    have := hready.budget
    omega
  | left + 1, turn, request, history, spent, records, turns, hready, hturn, hleft => by
    obtain ⟨chatHistory, hmany⟩ := OneOrMany.many_eq_some hready.nonempty
    have hlist := OneOrMany.toList_of_many hmany
    rw [runTurns, hmany]
    have hask := fun answer => hready.orderly.ask hready.budget
      { request with tools := context.definitions, chatHistory := chatHistory }
      (fun hnil => hlist.trans (hready.opening hnil))
      (fun last hlast => by rw [hlist]; exact hready.grows last hlast) answer
    refine wp_ask_keeping (fun answer => ⟨_, (flatMap_answered ..).symm, hask answer⟩)
      fun (answer : Except ExecutionFailure RuntimeCompletionOutput) => ?_
    have hclosed := hready.closed
      { request with tools := context.definitions, chatHistory := chatHistory } answer
    -- every exit below leaves right after this answer
    have hover : ∀ usage, usage = spentOn (turns ++ [Turn.answered
        { request with tools := context.definitions, chatHistory := chatHistory } answer]) →
        Over context first usage records (turns.flatMap Turn.exchanges ++ [⟨Op.completion
          { request with tools := context.definitions, chatHistory := chatHistory }, answer⟩]) := by
      rintro usage rfl
      exact ⟨_, (flatMap_answered ..).symm, hask answer, hclosed⟩
    cases answer with
    | error failure =>
      refine hover spent ?_
      rw [spentOn_error, hready.spent_eq]
    | ok output =>
      have hspent (sent : CompletionRequest) : accumulateUsage spent output.usage =
          spentOn (turns ++ [.answered sent (.ok output)]) := by
        rw [spentOn_ok, hready.spent_eq]
      refine wp_ite (fun _ => hover _ (hspent _)) fun hcalls => ?_
      refine wp_ite (fun _ => hover _ (hspent _)) fun hlast => ?_
      have hbudget : turns.length + 1 < context.maximumToolTurns := by omega
      have hcalls' : output.toolCalls ≠ [] := by simpa using hcalls
      have hasked : output.toolCalls.map AssistantContent.toolCall ≠ [] := by simpa using hcalls'
      obtain ⟨content, hcontent⟩ := OneOrMany.many_eq_some hasked
      rw [hcontent]
      have hserve := wp_executeToolCalls hbudget output.toolCalls _ [] records (hask (.ok output))
        (List.prefix_refl _)
      rw [flatMap_answered] at hserve
      refine wp_bind.mpr (wp_mono hserve ?_ fun _ _ h => h.elim)
      rintro tr served ⟨more, hserved⟩
      have hlen : served.1.length = output.toolCalls.length := by
        have hexecutions : (more.map Prod.snd).length = (dispatches context output.toolCalls).length := by
          rw [← hserved.requests, List.length_map, List.length_map]
        rw [hserved.results_eq, List.nil_append, List.length_zipWith, List.length_map,
          length_settle hexecutions, Nat.min_self]
      have hne : served.1 ≠ [] := by
        rw [← List.length_pos_iff, hlen, List.length_pos_iff]
        exact hcalls'
      obtain ⟨results, hresults⟩ := OneOrMany.many_eq_some hne
      have hnext := hready.next hlist hbudget (OneOrMany.toList_of_many hcontent) hserved
        (OneOrMany.toList_of_many hresults)
      have hrest := wp_runTurns left (turn + 1)
        { request with tools := context.definitions, chatHistory := chatHistory } _ _ _ _ hnext
        (by simp [hturn]) (by simp; omega)
      rw [← hserved.trace] at hrest
      simpa only [hresults] using hrest

end Run

/--
**The discipline of the tool loop.** The trace of every run is that of a list of turns:

- at most `maximumToolTurns` provider calls, and nothing dispatched after the last of them
- the history of a turn is that of the turn before, with its calls and one result for each
- what is dispatched is what the guards allow, in order
- at every exit, usage and records are those of all turns
-/
theorem toolLoop_disciplined (context : ToolLoopContext) (request : CompletionRequest)
    {tr : List (Exchange sig)} {q : Loop ToolLoopOutcome} (hrun : After (runToolLoop context request) tr q) :
    ∃ turns : List Turn, tr = turns.flatMap Turn.exchanges ∧
      Orderly context request.chatHistory.toList turns ∧
      ∀ usage records, Exits q usage records → Closed context turns usage records := by
  have hwp : wp (Contract.keeping (Kept context request.chatHistory.toList)) (runToolLoop context request) []
      (fun tr outcome => Over context request.chatHistory.toList outcome.usage outcome.toolCalls tr)
      (fun tr failure => Over context request.chatHistory.toList failure.usage failure.toolCalls tr) := by
    refine wp_ite (fun _ => ?_) fun hbudget => ?_
    · exact ⟨[], rfl, orderly_nil, ⟨fun _ hlast => absurd hlast (by simp), rfl, rfl, rfl⟩⟩
    · refine wp_runTurns context.maximumToolTurns 1 request _ {} [] [] ?_ rfl (Nat.zero_add _)
      exact ⟨orderly_nil, Nat.pos_of_ne_zero hbudget, fun _ => rfl, fun _ hlast => absurd hlast (by simp),
        List.cons_ne_nil _ _, rfl, rfl, rfl⟩
  obtain ⟨⟨turns, htr, horderly⟩, hend⟩ := keeping_run hrun hwp ⟨[], rfl, orderly_nil⟩
  cases q with
  | ret outcome =>
    obtain ⟨turns, htr, horderly, hclosed⟩ := hend
    refine ⟨turns, htr, horderly, ?_⟩
    rintro usage records (⟨_, ⟨⟩, rfl, rfl⟩ | ⟨_, ⟨⟩, _⟩)
    exact hclosed
  | fail failure =>
    obtain ⟨turns, htr, horderly, hclosed⟩ := hend
    refine ⟨turns, htr, horderly, ?_⟩
    rintro usage records (⟨_, ⟨⟩, _⟩ | ⟨_, ⟨⟩, rfl, rfl⟩)
    exact hclosed
  | op o k =>
    refine ⟨turns, htr, horderly, ?_⟩
    rintro usage records (⟨_, ⟨⟩, _⟩ | ⟨_, ⟨⟩, _⟩)

namespace Sample

/-- Two turns, and a guard that refuses one of the two tools. -/
def context : ToolLoopContext where
  render _ := ""
  definitions := []
  guards := [⟨"no_refunds", .ok { deniedSkillKeys := ["refund"] }⟩]
  callerScopes := []
  maximumToolTurns := 2

def request : CompletionRequest where
  chatHistory := .one (.system "help with orders")
  tools := []
  settings := .null

def asks : RuntimeCompletionOutput where
  text := ""
  usage := { inputTokens := some 10 }
  providerRequestId := none
  toolCalls := [⟨"1", none, "order", .null⟩, ⟨"2", none, "refund", .null⟩]

def answers : RuntimeCompletionOutput where
  text := "on its way"
  usage := { inputTokens := some 25, outputTokens := some 5 }
  providerRequestId := none
  toolCalls := []

/-- Asks for both tools, then answers. -/
def env : Nat → (o : sig.Op) → sig.Ans o × Nat
  | 0, .completion _ => (.ok asks, 1)
  | turn + 1, .completion _ => (.ok answers, turn + 2)
  | turn, .callStructured _ _ => (⟨"success", none, "shipped"⟩, turn)

/-- The exit of the run: both turns are billed, and the refused call is on record. -/
example : ((runToolLoop context request).runWith env 0).2.toOption.map
    (fun outcome => (outcome.usage, outcome.toolCalls.map (·.outcome))) =
      some ({ inputTokens := some 35, outputTokens := some 5 }, ["success", "denied"]) := by
  decide +kernel

end Sample

theorem toolLoop_disciplined_two_turns :
    ((runToolLoop Sample.context Sample.request).runWith Sample.env 0).1.length = 3 ∧
      ∃ turns : List Turn, ((runToolLoop Sample.context Sample.request).runWith Sample.env 0).1 =
        turns.flatMap Turn.exchanges ∧ Orderly Sample.context Sample.request.chatHistory.toList turns ∧
        ∀ usage records, Exits (ofExcept ((runToolLoop Sample.context Sample.request).runWith Sample.env 0).2)
          usage records → Closed Sample.context turns usage records :=
  ⟨by decide +kernel, toolLoop_disciplined _ _ (after_runWith Sample.env _ 0)⟩

end Moira.ToolLoop
