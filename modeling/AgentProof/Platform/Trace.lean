import AgentProof.Platform.Schemas
import AgentProof.ToolEnvironment.Interpreter

/-!
# Platform/Trace — the ordered, append-only trace of one execution

`Trace.append` numbers a step by its position, so the sequence numbers cannot be wrong; a parent has
to be an earlier step.  `Trace.toStorage` is the list of events the store is handed.

The id of a step (`uuid4`), the measured durations and whatever shows where an object lives in memory
come from outside: `Host` supplies them.

A step keeps the value a call returned, not a copy.  One value is live: the `__dict__` of a service,
which reads as it stands when the trace is read (`Trace.settled`).
-/

open Machinery

namespace AgentProof

/-- What a run takes from the machine it runs on: fresh ids and clock readings, by the number of the
step they are for, and the answers of the methods a service inherits, whose texts and hashes tell its
address. -/
structure Host where
  stepId : ℕ → UUID
  durationMs : ℕ → ℕ
  latencyMs : ℕ
  newExecutionId : UUID
  /-- a method of a service that comes from `object`, called with keywords: the class of what it
  returns, with what pydantic makes of it, if anything -/
  objectMethod : SupportToolEnvironment → String → String → Dict String Json →
    Except TypeErrorCause (String × Option Json)

/-- `app.trace.StepPayload`: the seven payload models.  Token counts and retry numbers are natural
numbers because their fields are declared `ge=0` and `ge=1`. -/
inductive StepPayload where
  | modelRequest (messages : List (Dict String Json)) (model : String)
      (params : Dict String Json)
  | modelResponse (content : Option String) (toolCalls : List (Dict String Json))
      (finishReason : String) (inputTokens outputTokens : Option ℕ)
  | toolCall (callId service operation : String) (arguments : Dict String Json)
  | toolResult (callId : String) (result : PyValue)
  | retry (attempt : ℕ) (reason : String)
  | error (errorType message : String)
  | finalAnswer (content : String)
  deriving DecidableEq

/-- What pydantic makes of a value in JSON mode. -/
def PyValue.dump : PyValue → Except PyError Json
  | .json j => .ok j
  | .object _ (some j) | .attributes _ (some j) => .ok j
  | .object className none => .error (.serializationError className)
  | .attributes _ none => .error (.serializationError "tool_environment.services.PolicyService")

/-- A value, read again over a later environment. -/
def PyValue.settle (env : SupportToolEnvironment) : PyValue → PyValue
  | .attributes service _ => .attributes service (env.attributes service)
  | value => value

/-- An optional string, as JSON. -/
def Json.optStr : Option String → Json
  | some s => .str s
  | none => .null

/-- An optional count, as JSON. -/
def Json.optNat : Option ℕ → Json
  | some n => .int n
  | none => .null

namespace StepPayload

/-- The discriminator of a payload. -/
def eventType : StepPayload → EventType
  | .modelRequest .. => .modelRequest
  | .modelResponse .. => .modelResponse
  | .toolCall .. => .toolCall
  | .toolResult .. => .toolResult
  | .retry .. => .retry
  | .error .. => .error
  | .finalAnswer .. => .finalAnswer

/-- `payload.model_dump(mode="json", exclude={"event_type"})` -/
def dumpFields : StepPayload → Except PyError (Dict String Json)
  | .modelRequest messages model params =>
    .ok [("messages", .arr (messages.map .obj)), ("model", .str model), ("params", .obj params)]
  | .modelResponse content toolCalls finishReason inputTokens outputTokens =>
    .ok [("content", .optStr content), ("tool_calls", .arr (toolCalls.map .obj)),
      ("finish_reason", .str finishReason), ("input_tokens", .optNat inputTokens),
      ("output_tokens", .optNat outputTokens)]
  | .toolCall callId service operation arguments =>
    .ok [("call_id", .str callId), ("service", .str service), ("operation", .str operation),
      ("arguments", .obj arguments)]
  | .toolResult callId result => do
    let result ← result.dump
    return [("call_id", .str callId), ("result", result)]
  | .retry attempt reason => .ok [("attempt", .int attempt), ("reason", .str reason)]
  | .error errorType message => .ok [("error_type", .str errorType), ("message", .str message)]
  | .finalAnswer content => .ok [("content", .str content)]

/-- `payload.model_dump(mode="json")` -/
def modelDump (payload : StepPayload) : Except PyError (Dict String Json) := do
  let fields ← payload.dumpFields
  return ("event_type", .str payload.eventType.value) :: fields

/-- A payload, read again over a later environment. -/
def settle (env : SupportToolEnvironment) : StepPayload → StepPayload
  | .toolResult callId result => .toolResult callId (result.settle env)
  | payload => payload

@[simp] theorem eventType_settle (env : SupportToolEnvironment) (payload : StepPayload) :
    (payload.settle env).eventType = payload.eventType := by
  cases payload <;> rfl

/-- Only a result can be live. -/
theorem settle_of_ne (env : SupportToolEnvironment) {payload : StepPayload}
    (h : payload.eventType ≠ .toolResult) : payload.settle env = payload := by
  cases payload with
  | toolResult => exact absurd rfl h
  | _ => rfl

end StepPayload

/-- `app.trace.TraceStep` -/
structure TraceStep where
  id : UUID
  sequenceNo : ℕ
  payload : StepPayload
  parentStepId : Option UUID
  durationMs : Option ℕ
  createdAt : Option Timestamp := none
  deriving DecidableEq

/-- A step, read again over a later environment. -/
def TraceStep.settle (env : SupportToolEnvironment) (step : TraceStep) : TraceStep :=
  { step with payload := step.payload.settle env }

/-- Only a result can be live. -/
theorem TraceStep.settle_of_ne (env : SupportToolEnvironment) {step : TraceStep}
    (h : step.payload.eventType ≠ .toolResult) : step.settle env = step := by
  rw [settle, StepPayload.settle_of_ne env h]

/-- `app.trace.Trace`.  The source also keeps the set of its steps' ids. -/
structure Trace where
  executionId : UUID
  steps : List TraceStep := []
  deriving DecidableEq

namespace Trace

/-- `parent_step_id in self._step_ids` -/
def hasStep (trace : Trace) (id : UUID) : Bool := trace.steps.any fun step => step.id = id

/-- The step a payload becomes when it is appended. -/
def nextStep (host : Host) (trace : Trace) (payload : StepPayload) (parentStepId : Option UUID)
    (durationMs : Option ℕ) : TraceStep where
  id := host.stepId trace.steps.length
  sequenceNo := trace.steps.length
  payload := payload
  parentStepId := parentStepId
  durationMs := durationMs

/-- The appended step and the trace it ends. -/
def push (host : Host) (trace : Trace) (payload : StepPayload) (parentStepId : Option UUID)
    (durationMs : Option ℕ) : TraceStep × Trace :=
  (nextStep host trace payload parentStepId durationMs,
    { trace with
      steps := trace.steps ++ [nextStep host trace payload parentStepId durationMs] })

/-- `Trace.append` -/
def append (host : Host) (trace : Trace) (payload : StepPayload) (parentStepId : Option UUID)
    (durationMs : Option ℕ) : Except PyError (TraceStep × Trace) :=
  match parentStepId with
  | none => .ok (push host trace payload none durationMs)
  | some parent =>
    if trace.hasStep parent then .ok (push host trace payload (some parent) durationMs)
    else .error (.valueError s!"parent_step_id {parent} is not a step in this trace")

/-- The event a step is stored as. -/
def storedStep (step : TraceStep) : Except PyError TraceEventCreate := do
  let payload ← step.payload.dumpFields
  return {
    id := step.id
    sequenceNo := step.sequenceNo
    eventType := step.payload.eventType
    payload := payload
    parentEventId := step.parentStepId
    durationMs := step.durationMs }

/-- `Trace.to_storage` -/
def toStorage (trace : Trace) : Except PyError (List TraceEventCreate) :=
  trace.steps.mapM storedStep

/-- The trace, as it reads over an environment. -/
def settled (trace : Trace) (env : SupportToolEnvironment) : Trace :=
  { trace with steps := trace.steps.map (.settle env) }

/-- Steps numbered by their positions. -/
def Numbered (trace : Trace) : Prop := trace.steps.map (·.sequenceNo) = List.range trace.steps.length

theorem Numbered.settled {trace : Trace} (h : Numbered trace) (env : SupportToolEnvironment) :
    Numbered (trace.settled env) := by
  rw [Numbered] at h ⊢
  rw [Trace.settled, List.map_map, List.length_map, ← h]
  rfl

theorem numbered_nil (executionId : UUID) : Numbered { executionId := executionId } := rfl

theorem append_of_hasStep (host : Host) {trace : Trace} (payload : StepPayload) {parent : UUID}
    (h : trace.hasStep parent = true) (duration : Option ℕ) :
    trace.append host payload (some parent) duration =
      .ok (push host trace payload (some parent) duration) := if_pos h

/-- A step that was appended is there to be a parent. -/
theorem hasStep_push (host : Host) (trace : Trace) (payload : StepPayload) (parent : Option UUID)
    (duration : Option ℕ) :
    (push host trace payload parent duration).2.hasStep
      (push host trace payload parent duration).1.id = true := by
  simp [push, hasStep]

/-- **An append numbers its step.** -/
theorem numbered_push (host : Host) {trace : Trace} (h : Numbered trace) (payload : StepPayload)
    (parent : Option UUID) (duration : Option ℕ) :
    Numbered (push host trace payload parent duration).2 := by
  rw [Numbered] at h ⊢
  simp only [push, nextStep, List.map_append, h, List.map_cons, List.map_nil, List.length_append,
    List.length_singleton, List.range_succ]

end Trace

end AgentProof
