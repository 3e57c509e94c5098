import AgentProof.Benchmark.Tasks
import AgentProof.Judges.Contracts
import AgentProof.Runner.Exposure
import AgentProof.Runner.ModelClients
import AgentProof.Runner.Rounds

/-!
# Runner/Shape — the shape of every runner trace

`runTask_shape`: the trace of a run that returns is a list of rounds — a model request, its numbered
retries, the model response, and a tool call with its result or error for each call of the reply —
closed by one terminal step.  It follows from `RunTrace` by induction.
-/

open Machinery Machinery.Raising

namespace AgentProof

variable {σ : Type}

/-! ## The grammar -/

/-- The steps of a reply's tool calls: each call, and right after it its result or its error, as a
child of it. -/
inductive CallSteps : List ToolCallRequest → List TraceStep → Prop where
  | nil : CallSteps [] []
  | cons {call : ToolCallRequest} {calls : List ToolCallRequest} {callStep closing : TraceStep}
      {steps : List TraceStep}
      (hcall : callStep.payload =
        .toolCall call.callId call.service call.operation call.arguments)
      (hclosing : (∃ result, closing.payload = .toolResult call.callId result) ∨
        ∃ errorType message, closing.payload = .error errorType message)
      (hparent : closing.parentStepId = some callStep.id) (rest : CallSteps calls steps) :
      CallSteps (call :: calls) (callStep :: closing :: steps)

/-- The rounds of the replies the client gives from `c` to `c'`. -/
inductive Rounds (client : ModelClient σ) (version : AgentVersion) (maxModelRetries : ℕ) :
    σ → List ModelReply → List (List TraceStep) → σ → Prop where
  | nil (c : σ) : Rounds client version maxModelRetries c [] [] c
  | cons {c c₁ c' : σ} {messages : Messages} {reply : ModelReply} {replies : List ModelReply}
      {request response : TraceStep} {retries calls : List TraceStep}
      {rounds : List (List TraceStep)}
      (hopening : Opening client version maxModelRetries messages c reply c₁ request retries
        response)
      (hcalls : CallSteps reply.toolCalls calls)
      (rest : Rounds client version maxModelRetries c₁ replies rounds c') :
      Rounds client version maxModelRetries c (reply :: replies)
        ((request :: retries ++ response :: calls) :: rounds) c'

/-- The terminal step: the final answer after a reply without tool calls, or `MaxStepsExceeded`
after the last permitted round. -/
inductive Terminal (maxSteps : ℕ) (replies : List ModelReply) (terminal : TraceStep) :
    Option String → Prop where
  | finalAnswer {earlier : List ModelReply} {last : ModelReply}
      (hreplies : replies = earlier ++ [last]) (hlast : last.toolCalls = [])
      (hearlier : ∀ reply ∈ earlier, reply.toolCalls ≠ []) (hlength : replies.length ≤ maxSteps)
      (hpayload : terminal.payload = .finalAnswer (last.content.getD "")) :
      Terminal maxSteps replies terminal (some (last.content.getD ""))
  | maxStepsExceeded (hlength : replies.length = maxSteps)
      (hcalls : ∀ reply ∈ replies, reply.toolCalls ≠ [])
      (hpayload : terminal.payload =
        .error "MaxStepsExceeded" s!"exceeded {maxSteps} steps without a final answer") :
      Terminal maxSteps replies terminal none

/-! ## Read when the run is over -/

/-- A call and its result are, over a later environment too. -/
theorem CallSteps.settle {calls : List ToolCallRequest} {steps : List TraceStep}
    (h : CallSteps calls steps) (env : SupportToolEnvironment) :
    CallSteps calls (steps.map (.settle env)) := by
  induction h with
  | nil => exact .nil
  | cons hcall hclosing hparent _ ih =>
    refine .cons ?_ ?_ hparent ih
    · rw [TraceStep.settle, hcall]
      rfl
    · rcases hclosing with ⟨result, h⟩ | ⟨errorType, message, h⟩
      · exact .inl ⟨result.settle env, by rw [TraceStep.settle, h]; rfl⟩
      · exact .inr ⟨errorType, message, by rw [TraceStep.settle, h]; rfl⟩

/-- A round opens with a request, retries and a response. -/
theorem Opening.eventType {client : ModelClient σ} {version : AgentVersion} {maxModelRetries : ℕ}
    {messages : Messages} {c c' : σ} {reply : ModelReply} {request response : TraceStep}
    {retries : List TraceStep}
    (h : Opening client version maxModelRetries messages c reply c' request retries response) :
    ∀ step ∈ request :: retries ++ [response],
      step.payload.eventType ∈ [.modelRequest, .retry, .modelResponse] := by
  obtain ⟨reasons, -, -, hretries⟩ := h.exchange
  obtain ⟨_, _, -, -, hresponse⟩ := h.response_payload
  intro step hstep
  rcases List.mem_append.mp hstep with hstep | hstep
  · rcases List.mem_cons.mp hstep with rfl | hstep
    · simp [h.request_payload, StepPayload.eventType]
    · simp [eventType_of_mem_retryPayloads step.payload (hretries ▸ List.mem_map_of_mem hstep)]
  · obtain rfl := List.mem_singleton.mp hstep
    simp [hresponse, StepPayload.eventType]

/-- The steps a round opens with read the same whenever they are read. -/
theorem Opening.settle {client : ModelClient σ} {version : AgentVersion} {maxModelRetries : ℕ}
    {messages : Messages} {c c' : σ} {reply : ModelReply} {request response : TraceStep}
    {retries : List TraceStep}
    (h : Opening client version maxModelRetries messages c reply c' request retries response)
    (env : SupportToolEnvironment) (calls : List TraceStep) :
    (request :: retries ++ response :: calls).map (.settle env) =
      request :: retries ++ response :: calls.map (.settle env) := by
  have hopening : (request :: retries ++ [response]).map (.settle env) =
      request :: retries ++ [response] := by
    refine (List.map_congr_left fun step hstep => ?_).trans (List.map_id _)
    refine TraceStep.settle_of_ne env fun htype => ?_
    have hmem := h.eventType step hstep
    rw [htype] at hmem
    exact absurd hmem (by decide)
  rw [show request :: retries ++ response :: calls = (request :: retries ++ [response]) ++ calls by
    simp, List.map_append, hopening, List.append_assoc, List.singleton_append]

/-- **The rounds are rounds**, over a later environment too. -/
theorem Rounds.settle {client : ModelClient σ} {version : AgentVersion} {maxModelRetries : ℕ}
    {c c' : σ} {replies : List ModelReply} {rounds : List (List TraceStep)}
    (h : Rounds client version maxModelRetries c replies rounds c')
    (env : SupportToolEnvironment) :
    Rounds client version maxModelRetries c replies (rounds.map (·.map (.settle env))) c' := by
  induction h with
  | nil => exact .nil _
  | cons hopening hcalls _ ih =>
    rw [List.map_cons, hopening.settle env]
    exact .cons hopening (hcalls.settle env) ih

/-- A run ends with its answer, or an error. -/
theorem Terminal.eventType {maxSteps : ℕ} {replies : List ModelReply} {terminal : TraceStep}
    {finalOutput : Option String} (h : Terminal maxSteps replies terminal finalOutput) :
    terminal.payload.eventType ∈ [.finalAnswer, .error] := by
  cases h with
  | finalAnswer _ _ _ _ hpayload => simp [hpayload, StepPayload.eventType]
  | maxStepsExceeded _ _ hpayload => simp [hpayload, StepPayload.eventType]

/-! ## From the run -/

variable [Interpreter]

/-- A call is closed by a result or an error. -/
theorem Closing.payload_eq {host : Host} {call : ToolCallRequest} {env env' : SupportToolEnvironment}
    {payload : StepPayload} (h : Closing host call env payload env') :
    (∃ result, payload = .toolResult call.callId result) ∨
      ∃ errorType message, payload = .error errorType message := by
  cases h with
  | result => exact .inl ⟨_, rfl⟩
  | error => exact .inr ⟨_, _, rfl⟩

theorem CallsRun.callSteps {host : Host} {calls : List ToolCallRequest}
    {env env' : SupportToolEnvironment} {steps : List TraceStep} {answers : Messages}
    (h : CallsRun host calls env steps answers env') :
    CallSteps calls steps := by
  induction h with
  | nil => exact .nil
  | cons hcall _ hclosing hparent _ _ ih => exact .cons hcall hclosing.payload_eq hparent ih

/-- **A run is its rounds and one terminal step.** -/
theorem RunTrace.rounds {host : Host} {client : ModelClient σ} {version : AgentVersion}
    {maxSteps maxModelRetries remaining : ℕ} {messages : Messages} {c c' : σ}
    {env env' : SupportToolEnvironment} {replies : List ModelReply} {steps : List TraceStep}
    {finalOutput : Option String}
    (h : RunTrace host client version maxSteps maxModelRetries remaining messages c env replies steps
      finalOutput c' env') :
    ∃ rounds terminal, steps = rounds.flatten ++ [terminal] ∧
      Rounds client version maxModelRetries c replies rounds c' ∧
      terminal.parentStepId = none ∧
      ((finalOutput = none ∧ replies.length = remaining ∧
          (∀ reply ∈ replies, reply.toolCalls ≠ []) ∧
          terminal.payload =
            .error "MaxStepsExceeded" s!"exceeded {maxSteps} steps without a final answer") ∨
        ∃ earlier last, replies = earlier ++ [last] ∧ last.toolCalls = [] ∧
          (∀ reply ∈ earlier, reply.toolCalls ≠ []) ∧ replies.length ≤ remaining ∧
          terminal.payload = .finalAnswer (last.content.getD "") ∧
          finalOutput = some (last.content.getD "")) := by
  induction h with
  | exceeded hterminal hparent =>
    exact ⟨[], _, rfl, .nil _, hparent, .inl ⟨rfl, rfl, by simp, hterminal⟩⟩
  | @answered remaining _ _ _ _ reply request response terminal retries hopening hcalls hterminal
      hparent =>
    refine ⟨[request :: retries ++ [response]], terminal, by simp, ?_, hparent,
      .inr ⟨[], reply, rfl, hcalls, by simp, by simp, hterminal, rfl⟩⟩
    exact .cons hopening (hcalls ▸ .nil) (.nil _)
  | @round remaining _ _ _ _ _ _ _ _ reply replies request response retries calls steps _ hopening
      hne hcalls _ ih =>
    obtain ⟨rounds, terminal, rfl, hrounds, hparent, hend⟩ := ih
    refine ⟨(request :: retries ++ response :: calls) :: rounds, terminal, by simp,
      .cons hopening hcalls.callSteps hrounds, hparent, ?_⟩
    rcases hend with ⟨hnone, hlength, hall, hpayload⟩ |
      ⟨earlier, last, rfl, hlast, hearlier, hlength, hpayload, hsome⟩
    · exact .inl ⟨hnone, by simp [hlength], List.forall_mem_cons.mpr ⟨hne, hall⟩, hpayload⟩
    · exact .inr ⟨reply :: earlier, last, rfl, hlast, List.forall_mem_cons.mpr ⟨hne, hearlier⟩,
        by simpa using hlength, hpayload, hsome⟩

/-- The call a request makes. -/
def ToolCallRequest.toolCall (call : ToolCallRequest) : ToolCall where
  service := call.service
  operation := call.operation
  arguments := call.arguments

/-- The tool calls of a list of steps. -/
def stepCalls (steps : List TraceStep) : List ToolCall := steps.filterMap (·.toolCall?)

omit [Interpreter] in
/-- The tool calls are there whenever the steps are read. -/
@[simp] theorem stepCalls_settle (env : SupportToolEnvironment) (steps : List TraceStep) :
    stepCalls (steps.map (.settle env)) = stepCalls steps := by
  refine (List.filterMap_map ..).trans (List.filterMap_congr fun step _ => ?_)
  rw [Function.comp_apply, TraceStep.toolCall?, TraceStep.toolCall?, TraceStep.settle]
  cases step.payload <;> rfl

omit [Interpreter] in
theorem extractToolCalls_eq (trace : Trace) : extractToolCalls trace = stepCalls trace.steps := rfl

omit [Interpreter] in
theorem CallSteps.stepCalls {calls : List ToolCallRequest} {steps : List TraceStep}
    (h : CallSteps calls steps) :
    AgentProof.stepCalls steps = calls.map (·.toolCall) := by
  induction h with
  | nil => rfl
  | @cons call calls callStep closing steps hcall hclosing _ _ ih =>
    have hclosing' : closing.toolCall? = none := by
      rcases hclosing with ⟨_, h⟩ | ⟨_, _, h⟩ <;> rw [TraceStep.toolCall?, h]
    have hcall' : callStep.toolCall? = some call.toolCall := by rw [TraceStep.toolCall?, hcall]; rfl
    rw [AgentProof.stepCalls] at ih
    simp [AgentProof.stepCalls, hcall', hclosing', ih]

omit [Interpreter] in
/-- The steps a round opens with make no tool call. -/
theorem Opening.stepCalls {client : ModelClient σ} {version : AgentVersion} {maxModelRetries : ℕ}
    {messages : Messages} {c c' : σ} {reply : ModelReply} {request response : TraceStep}
    {retries : List TraceStep}
    (h : Opening client version maxModelRetries messages c reply c' request retries response) :
    AgentProof.stepCalls (request :: retries ++ [response]) = [] := by
  refine List.filterMap_eq_nil_iff.mpr fun step hstep => TraceStep.toolCall?_eq_none fun htype => ?_
  have hmem := h.eventType step hstep
  rw [htype] at hmem
  exact absurd hmem (by decide)

omit [Interpreter] in
/-- **The tool calls of the rounds are those of the replies, in order.** -/
theorem Rounds.stepCalls {client : ModelClient σ} {version : AgentVersion} {maxModelRetries : ℕ}
    {c c' : σ} {replies : List ModelReply} {rounds : List (List TraceStep)}
    (h : Rounds client version maxModelRetries c replies rounds c') :
    AgentProof.stepCalls rounds.flatten =
      (replies.flatMap (·.toolCalls)).map (·.toolCall) := by
  induction h with
  | nil => rfl
  | @cons _ _ _ _ reply replies request response retries calls rounds hopening hcalls _ ih =>
    have hopen := hopening.stepCalls
    have hround := hcalls.stepCalls
    rw [AgentProof.stepCalls] at hopen hround ih ⊢
    rw [List.flatten_cons, List.filterMap_append, ih,
      show request :: retries ++ response :: calls = (request :: retries ++ [response]) ++ calls by
        simp, List.filterMap_append, hopen, hround, List.nil_append, List.flatMap_cons,
      List.map_append]

/-- The rounds of a run that returned, as its trace reads. -/
theorem runTask_rounds {host : Host} {version : AgentVersion} {task : BenchmarkTask}
    {client : ModelClient σ} {executionId : Option UUID} {maxSteps maxModelRetries : ℕ} {c c' : σ}
    {result : RunnerResult}
    (h : runTask host version task client executionId maxSteps maxModelRetries c = .ok result c') :
    ∃ replies rounds terminal,
      result.trace.steps = rounds.flatten ++ [terminal] ∧
      Rounds client version maxModelRetries c replies rounds c' ∧
      Terminal maxSteps replies terminal result.finalOutput ∧ terminal.parentStepId = none ∧
      result.trace.Numbered ∧ result.maxStepsExceeded = result.finalOutput.isNone ∧
      (result.inputTokens : ℤ) = (replies.map (·.inputTokens)).sum ∧
      (result.outputTokens : ℤ) = (replies.map (·.outputTokens)).sum := by
  obtain ⟨totals, s, hrun, rfl, rfl⟩ := runRounds_of_runTask h
  obtain ⟨replies, steps, htrace, hextends, hin, hout, hexceeded⟩ :=
    runRounds_trace _ client version maxSteps maxModelRetries hrun
  obtain ⟨rounds, terminal, rfl, hrounds, hparent, hend⟩ := htrace.rounds
  have hterminal : Terminal maxSteps replies terminal totals.finalOutput := by
    rcases hend with ⟨hnone, hlength, hall, hpayload⟩ |
      ⟨earlier, last, hreplies, hlast, hearlier, hlength, hpayload, hsome⟩
    · exact hnone ▸ .maxStepsExceeded hlength hall hpayload
    · exact hsome ▸ .finalAnswer hreplies hlast hearlier hlength hpayload
  have hsame : terminal.settle s.proxy.environment = terminal := by
    have htype := hterminal.eventType
    refine TraceStep.settle_of_ne _ fun hresult => ?_
    rw [hresult] at htype
    exact absurd htype (by decide)
  refine ⟨replies, rounds.map (·.map (.settle s.proxy.environment)), terminal, ?_,
    hrounds.settle _, hterminal, hparent, (hextends.numbered (Trace.numbered_nil _)).settled _,
    hexceeded, by simpa using hin, by simpa using hout⟩
  rw [Trace.settled, hextends.eq]
  simp [initialProxy, List.map_flatten, hsame]

/-- **Every runner trace has this shape.** -/
theorem runTask_shape {host : Host} {version : AgentVersion} {task : BenchmarkTask}
    {client : ModelClient σ} {executionId : Option UUID} {maxSteps maxModelRetries : ℕ} {c c' : σ}
    {result : RunnerResult}
    (h : runTask host version task client executionId maxSteps maxModelRetries c = .ok result c') :
    ∃ replies rounds terminal,
      result.trace.steps = rounds.flatten ++ [terminal] ∧
      Rounds client version maxModelRetries c replies rounds c' ∧
      Terminal maxSteps replies terminal result.finalOutput ∧
      terminal.parentStepId = none ∧
      result.trace.steps.map (·.sequenceNo) = List.range result.trace.steps.length ∧
      (result.finalOutput = none ↔ result.maxStepsExceeded = true) ∧
      (result.inputTokens : ℤ) = (replies.map (·.inputTokens)).sum ∧
      (result.outputTokens : ℤ) = (replies.map (·.outputTokens)).sum ∧
      extractToolCalls result.trace = (replies.flatMap (·.toolCalls)).map (·.toolCall) := by
  obtain ⟨replies, rounds, terminal, hsteps, hrounds, hterminal, hparent, hnumbered, hexceeded, hin,
    hout⟩ := runTask_rounds h
  refine ⟨replies, rounds, terminal, hsteps, hrounds, hterminal, hparent, hnumbered,
    by simp [hexceeded], hin, hout, ?_⟩
  have hcall : terminal.toolCall? = none := by
    have htype := hterminal.eventType
    refine TraceStep.toolCall?_eq_none fun htool => ?_
    rw [htool] at htype
    exact absurd htype (by decide)
  have hcalls := hrounds.stepCalls
  rw [stepCalls] at hcalls
  rw [extractToolCalls, hsteps, List.filterMap_append, hcalls]
  simp [hcall]

/-- An agent version to run. -/
def supportAgent : AgentVersion where
  id := "version"
  name := "support"
  gitSha := "0000000"
  model := "reference"
  systemPrompt := "You are a support agent."
  toolSchemaHash := "0000000"
  contentHash := "0000000"
  createdAt := 0

/-- A model that fails once, makes a call that succeeds and one that is refused, and answers. -/
def retryingScript : List ModelOutcome :=
  [.transient "rate limited",
    .reply {
      finishReason := "tool_calls"
      toolCalls := [⟨"c1", "order", "get_order", [("order_id", .str "ORD-1001")]⟩,
        ⟨"c2", "order", "delete_order", []⟩]
      inputTokens := 3 },
    .reply { finishReason := "stop", content := some "Done." }]

omit [Interpreter] in
theorem runTask_shape_scripted :
    ∃ result c', @runTask _ cpython plainHost supportAgent customerRefundWithinPolicy
        scriptedModelClient none 20 2 retryingScript = .ok result c' ∧
      ∃ replies : List ModelReply, extractToolCalls result.trace =
        (replies.flatMap (·.toolCalls)).map (·.toolCall) := by
  obtain ⟨result, c', hrun⟩ := exists_of_returned (show returned (@runTask _ cpython plainHost
    supportAgent customerRefundWithinPolicy scriptedModelClient none 20 2 retryingScript) = true by
      decide +kernel)
  obtain ⟨replies, -, -, -, -, -, -, -, -, -, -, hcalls⟩ := @runTask_shape _ cpython plainHost
    supportAgent customerRefundWithinPolicy scriptedModelClient none 20 2 retryingScript c' result
    hrun
  exact ⟨result, c', hrun, replies, hcalls⟩

end AgentProof
