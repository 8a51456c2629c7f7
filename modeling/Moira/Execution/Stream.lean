import Moira.Execution.Ops

/-!
# The provider call of one attempt

`executeRigStream` drains a provider stream into runtime events, `executeRigCompletion` and
`executeRigToolLoop` make a call that answers as a whole. All three end in an `AttemptResult`, the
three-way result of `timeout(attempt_timeout, execution)` inside the `select!`.
-/

namespace Moira

open Exec ExecutionFailureClass

/-- `Ok(Ok(output))`, `Ok(Err(failed))` and `Err(elapsed)`. -/
inductive AttemptResult
  | ok (output : ExecutionRunOutput)
  | failed (attempt : FailedAttempt)
  | elapsed

/-- The result of a call that was cut short. -/
def Interrupt.result : Interrupt → AttemptResult
  | .cancelled => .failed { failure := cancelledFailure }
  | .elapsed => .elapsed

/-- What a draining stream has accumulated. -/
structure StreamState where
  text : String := ""
  usage : UsageSummary := {}
  providerRequestId : Option String := none
  committed : Bool := false

def idleTimeoutFailure : ExecutionFailure :=
  .new providerTimeout "provider stream exceeded the idle timeout"

/-- A failure of the stream itself is clamped once output is committed. -/
def StreamState.fail (st : StreamState) (failure : ExecutionFailure) : AttemptResult :=
  .failed { failure := if st.committed then failure.clamp else failure }

/-- After the last item: parse the structured output, if one was asked for. -/
def StreamState.finish (parseJson : String → Option Json) (wantsStructured : Bool)
    (st : StreamState) : AttemptResult :=
  match structuredOutputFromText parseJson wantsStructured st.text with
  | .error failure => .failed { failure, usage := st.usage }
  | .ok structuredOutput =>
    .ok { text := st.text, structuredOutput, usage := st.usage
          providerRequestId := st.providerRequestId }

/-- The runtime event an item is announced with; final metadata is only kept. -/
def RuntimeStreamItem.event : RuntimeStreamItem → Option RuntimeEvent
  | .textDelta text => some (.outputTextDelta text)
  | .toolCallStarted internalCallId name arguments =>
    some (.toolCallStarted internalCallId name arguments)
  | .toolCallDelta id internalCallId content => some (.toolCallDelta id internalCallId content)
  | .usageUpdated usage => some (.usageUpdated usage)
  | .finalMetadata _ => none

/-- Whether an accepted item commits output: text and tool calls do, usage and metadata do not. -/
def RuntimeStreamItem.isOutput : RuntimeStreamItem → Bool
  | .textDelta _ | .toolCallStarted .. | .toolCallDelta .. => true
  | .usageUpdated _ | .finalMetadata _ => false

/-- The accumulator after an accepted item. -/
def StreamState.absorb (st : StreamState) : RuntimeStreamItem → StreamState
  | .textDelta text => { st with text := st.text ++ text, committed := true }
  | .toolCallStarted .. | .toolCallDelta .. => { st with committed := true }
  | .usageUpdated usage => { st with usage }
  | .finalMetadata providerRequestId => { st with providerRequestId }

/-- The loop of `execute_rig_stream` over the items that are still to come. -/
def drain (parseJson : String → Option Json) (wantsStructured : Bool) (idleTimeoutMs : Nat) :
    List (Except ExecutionFailure RuntimeStreamItem) → StreamState → Exec AttemptResult
  | items, st => do
    match ← ask (.nextItem idleTimeoutMs) with
    | .interrupted i => pure i.result
    | .done .idle => pure (st.fail idleTimeoutFailure)
    | .done .ready =>
      match items with
      | [] => pure (st.finish parseJson wantsStructured)
      | .error failure :: _ => pure (st.fail failure)
      | .ok item :: rest =>
        match item.event with
        | none => drain parseJson wantsStructured idleTimeoutMs rest (st.absorb item)
        | some event => do
          match ← ask (.pushStream event idleTimeoutMs) with
          | .refused failure => pure (.failed { failure })
          | .interrupted i => pure i.result
          | .accepted => do
            -- nothing is awaited between the accepted push and this mark
            when item.isOutput (ask .markOutputCommitted)
            drain parseJson wantsStructured idleTimeoutMs rest (st.absorb item)

def executeRigStream (parseJson : String → Option Json) (wantsStructured : Bool)
    (idleTimeoutMs : Nat) : Exec AttemptResult := do
  match ← ask .deliveryFailure with
  | some failure => pure (.failed { failure })
  | none =>
    match ← ask .startStream with
    | .interrupted i => pure i.result
    | .done (.error failure) => pure (.failed { failure })
    | .done (.ok items) => drain parseJson wantsStructured idleTimeoutMs items {}

def executeRigCompletion (parseJson : String → Option Json) (wantsStructured : Bool) :
    Exec AttemptResult := do
  match ← ask .completion with
  | .interrupted i => pure i.result
  | .done (.error failure) => pure (.failed { failure })
  | .done (.ok output) =>
    match structuredOutputFromText parseJson wantsStructured output.text with
    | .error failure => pure (.failed { failure, usage := output.usage })
    | .ok structuredOutput =>
      pure (.ok { text := output.text, structuredOutput, usage := output.usage
                  providerRequestId := output.providerRequestId })

def executeRigToolLoop : Exec AttemptResult := do
  match ← ask .runToolLoop with
  | .interrupted i => pure i.result
  | .done (.error attempt) => pure (.failed attempt)
  | .done (.ok outcome) => pure (.ok { outcome with structuredOutput := none })

end Moira
