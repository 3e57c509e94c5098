import AgentProof.Benchmark.Schema
import AgentProof.Runner.ToolProxy

/-!
# Runner/Runner — one agent version against one task

`runTask` is `run_task`: up to `max_steps` rounds of a model request, the model's reply, and the
tool calls the reply asks for, all recorded in one trace.  The model client is any function on a
state of its own that replies, raises `TransientModelError` or raises something else.

The loops are structural on the rounds and the retries that are left.
-/

open Machinery Machinery.Raising

namespace AgentProof

/-! ## The model client -/

/-- `runner.model_client.ToolCallRequest` -/
structure ToolCallRequest where
  callId : String
  service : String
  operation : String
  arguments : Dict String Json := []
  deriving DecidableEq

/-- `vars(call)` -/
def ToolCallRequest.vars (call : ToolCallRequest) : Dict String Json :=
  [("call_id", .str call.callId), ("service", .str call.service),
    ("operation", .str call.operation), ("arguments", .obj call.arguments)]

/-- `runner.model_client.ModelReply`.  The dataclass checks nothing: a count may be negative. -/
structure ModelReply where
  finishReason : String
  content : Option String := none
  toolCalls : List ToolCallRequest := []
  inputTokens : ℤ := 0
  outputTokens : ℤ := 0
  deriving DecidableEq

/-- How a call of the model ends. -/
inductive ModelOutcome where
  | reply (reply : ModelReply)
  | transient (message : String)
  | raised (e : PyError)

/-- A conversation, as the client is handed it. -/
abbrev Messages := List (Dict String Json)

/-- `runner.model_client.ModelClient`, over a state of its own. -/
structure ModelClient (σ : Type) where
  complete : σ → Messages → String → Dict String Json → ModelOutcome × σ

/-- `runner.runner.RunnerResult` -/
structure RunnerResult where
  executionId : UUID
  trace : Trace
  finalOutput : Option String
  latencyMs : ℕ
  inputTokens : ℕ
  outputTokens : ℕ
  finalState : Dict String Json
  maxStepsExceeded : Bool
  deriving DecidableEq

/-! ## The run -/

/-- What a run mutates: the proxy, which holds the environment and the trace, and the client. -/
structure RunState (σ : Type) where
  proxy : TracedToolProxy
  client : σ

/-- A computation of the runner. -/
abbrev Run (σ α : Type) : Type := EStateM PyError (RunState σ) α

variable {σ : Type}

/-- A computation on the proxy. -/
def onProxy {α : Type} (x : EStateM PyError TracedToolProxy α) : Run σ α :=
  zoom (·.proxy) (fun s proxy => { s with proxy := proxy }) x

/-- `trace.append(payload, parent_step_id=parent)` -/
def log (host : Host) (payload : StepPayload) (parent : Option UUID) : Run σ TraceStep :=
  onProxy (TracedToolProxy.appendStep host payload parent none)

/-- `model_client.complete(…)` -/
def complete (client : ModelClient σ) (version : AgentVersion) (messages : Messages) :
    Run σ ModelOutcome := fun s =>
  let (outcome, state) := client.complete s.client messages version.model version.config
  .ok outcome { s with client := state }

/-- `_complete_with_retries`; `remaining` is `max_retries + 1 - attempt`, so that
`attempt > max_retries` is `remaining = 0`. -/
def completeWithRetries (host : Host) (client : ModelClient σ) (version : AgentVersion)
    (messages : Messages) (parentStepId : UUID) : (remaining attempt : ℕ) → Run σ ModelReply
  | remaining, attempt => do
    match ← complete client version messages with
    | .reply reply => return reply
    | .raised e => throw e
    | .transient message =>
      match remaining with
      | 0 =>
        let _ ← log host (.error "ModelError" message) (some parentStepId)
        throw (.transientModelError message)
      | remaining + 1 =>
        let _ ← log host (.retry attempt message) (some parentStepId)
        completeWithRetries host client version messages parentStepId remaining (attempt + 1)

/-- A token count of `ModelResponsePayload`, declared `ge=0`. -/
def nonNegative (field : String) : ℤ → Except PyError ℕ
  | .ofNat n => .ok n
  | .negSucc _ => .error (.validationError field)

/-- The message that repeats the model's tool calls to it. -/
def assistantMessage (calls : List ToolCallRequest) : Dict String Json :=
  [("role", .str "assistant"), ("tool_calls", .arr (calls.map fun call => .obj call.vars))]

/-- The message that answers a tool call. -/
def toolMessage (callId : String) (content : Dict String Json) : Dict String Json :=
  [("role", .str "tool"), ("call_id", .str callId), ("content", .obj content)]

/-- What the rounds leave behind. -/
structure RunTotals where
  finalOutput : Option String
  inputTokens : ℕ
  outputTokens : ℕ
  maxStepsExceeded : Bool

variable [Interpreter]

/-- `for call in reply.tool_calls: …`, with the messages the calls leave. -/
def invokeCalls (host : Host) : List ToolCallRequest → Messages → Run σ Messages
  | [], messages => return messages
  | call :: calls, messages => do
    let step ← onProxy
      (TracedToolProxy.invoke host call.callId call.service call.operation call.arguments)
    let content ← step.payload.modelDump
    invokeCalls host calls (messages ++ [toolMessage call.callId content])

/-- `for _ in range(max_steps): … else: …`; the totals are those before the remaining rounds.  A
reply with a negative count is rejected by its payload, before the totals matter. -/
def runRounds (host : Host) (client : ModelClient σ) (version : AgentVersion)
    (maxSteps maxModelRetries : ℕ) :
    (remaining : ℕ) → (messages : Messages) → (inputTokens outputTokens : ℕ) → Run σ RunTotals
  | 0, _, inputTokens, outputTokens => do
    let _ ← log host
      (.error "MaxStepsExceeded" s!"exceeded {maxSteps} steps without a final answer") none
    return { finalOutput := none, inputTokens, outputTokens, maxStepsExceeded := true }
  | remaining + 1, messages, inputTokens, outputTokens => do
    let request ← log host (.modelRequest messages version.model []) none
    let reply ← completeWithRetries host client version messages request.id maxModelRetries 1
    let replyInput ← nonNegative "input_tokens" reply.inputTokens
    let replyOutput ← nonNegative "output_tokens" reply.outputTokens
    let _ ← log host
      (.modelResponse reply.content (reply.toolCalls.map (·.vars)) reply.finishReason
        (some replyInput) (some replyOutput)) (some request.id)
    if reply.toolCalls = [] then
      let finalOutput := reply.content.getD ""
      let _ ← log host (.finalAnswer finalOutput) none
      return {
        finalOutput := some finalOutput
        inputTokens := inputTokens + replyInput
        outputTokens := outputTokens + replyOutput
        maxStepsExceeded := false }
    else
      let messages ← invokeCalls host reply.toolCalls
        (messages ++ [assistantMessage reply.toolCalls])
      runRounds host client version maxSteps maxModelRetries remaining messages
        (inputTokens + replyInput) (outputTokens + replyOutput)

/-- `DEFAULT_MAX_STEPS` -/
def defaultMaxSteps : ℕ := 20

/-- `DEFAULT_MAX_MODEL_RETRIES` -/
def defaultMaxModelRetries : ℕ := 2

/-- The conversation a run opens with. -/
def initialMessages (version : AgentVersion) (task : BenchmarkTask) : Messages :=
  [[("role", .str "system"), ("content", .str version.systemPrompt)],
    [("role", .str "user"), ("content", .str task.input)]]

/-- The proxy a run opens with. -/
def initialProxy (task : BenchmarkTask) (executionId : UUID) : TracedToolProxy where
  environment := .new task.initialState
  trace := { executionId }

/-- `runner.runner.run_task` -/
def runTask (host : Host) (version : AgentVersion) (task : BenchmarkTask) (client : ModelClient σ)
    (executionId : Option UUID) (maxSteps maxModelRetries : ℕ) :
    EStateM PyError σ RunnerResult := fun c =>
  let executionId := executionId.getD host.newExecutionId
  match runRounds host client version maxSteps maxModelRetries maxSteps
      (initialMessages version task) 0 0 ⟨initialProxy task executionId, c⟩ with
  | .error e s => .error e s.client
  | .ok totals s =>
    .ok {
      executionId
      -- what is live in it reads as it stands when the run returns
      trace := s.proxy.trace.settled s.proxy.environment
      finalOutput := totals.finalOutput
      latencyMs := host.latencyMs
      inputTokens := totals.inputTokens
      outputTokens := totals.outputTokens
      finalState := s.proxy.environment.snapshot
      maxStepsExceeded := totals.maxStepsExceeded } s.client

end AgentProof
