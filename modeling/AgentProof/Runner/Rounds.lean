import AgentProof.Runner.Runner

/-!
# Runner/Rounds — what a run that returns did

`RunTrace` is the big-step meaning of a run, without the machinery of the trace: the replies the
client gave, the steps they left, and how the environment moved.  `runRounds_trace` says that every
run of the runner that returns is one; what holds of all runs is proved by induction on `RunTrace`.
-/

open Machinery Machinery.Raising

namespace AgentProof

/-! ## Appending -/

/-- A trace grows by these steps, and stays numbered. -/
structure Trace.Extends (trace trace' : Trace) (steps : List TraceStep) : Prop where
  eq : trace' = { trace with steps := trace.steps ++ steps }
  numbered : Trace.Numbered trace → Trace.Numbered trace'

namespace Trace.Extends

theorem refl (trace : Trace) : Extends trace trace [] := ⟨by simp, id⟩

theorem trans {t t' t'' : Trace} {steps steps' : List TraceStep} (h : Extends t t' steps)
    (h' : Extends t' t'' steps') : Extends t t'' (steps ++ steps') := by
  refine ⟨?_, fun hn => h'.numbered (h.numbered hn)⟩
  rw [h'.eq, h.eq, List.append_assoc]

end Trace.Extends

/-- **What an append that returns does.** -/
theorem TracedToolProxy.appendStep_eq_ok {host : Host} {payload : StepPayload}
    {parent : Option UUID} {duration : Option ℕ} {proxy proxy' : TracedToolProxy}
    {step : TraceStep} (h : appendStep host payload parent duration proxy = .ok step proxy') :
    step.payload = payload ∧ step.parentStepId = parent ∧
      proxy.trace.Extends proxy'.trace [step] ∧ proxy'.environment = proxy.environment := by
  have hpush : step = proxy.trace.nextStep host payload parent duration ∧
      proxy' = { proxy with trace := (proxy.trace.push host payload parent duration).2 } := by
    rw [appendStep] at h
    cases parent with
    | none =>
      obtain ⟨rfl, rfl⟩ := EStateM.Result.ok.inj h
      exact ⟨rfl, rfl⟩
    | some parent =>
      cases hparent : proxy.trace.hasStep parent with
      | true =>
        rw [Trace.append_of_hasStep host payload hparent] at h
        obtain ⟨rfl, rfl⟩ := EStateM.Result.ok.inj h
        exact ⟨rfl, rfl⟩
      | false => simp [Trace.append, hparent] at h
  obtain ⟨rfl, rfl⟩ := hpush
  exact ⟨rfl, rfl, ⟨rfl, fun hn => Trace.numbered_push host hn _ _ _⟩, rfl⟩

variable {σ : Type}

theorem onProxy_eq_ok {α : Type} {x : EStateM PyError TracedToolProxy α} {s s' : RunState σ}
    {a : α} (h : onProxy x s = .ok a s') : x s.proxy = .ok a s'.proxy ∧ s'.client = s.client := by
  obtain ⟨proxy, hx, rfl⟩ := zoom_eq_ok.mp h
  exact ⟨hx, rfl⟩

/-- A step was logged, and nothing else happened. -/
structure Logged (payload : StepPayload) (parent : Option UUID) (s : RunState σ)
    (step : TraceStep) (s' : RunState σ) : Prop where
  payload : step.payload = payload
  parent : step.parentStepId = parent
  trace : s.proxy.trace.Extends s'.proxy.trace [step]
  environment : s'.proxy.environment = s.proxy.environment
  client : s'.client = s.client

theorem log_eq_ok {host : Host} {payload : StepPayload} {parent : Option UUID} {s s' : RunState σ}
    {step : TraceStep} (h : log host payload parent s = .ok step s') :
    Logged payload parent s step s' := by
  obtain ⟨hstep, hclient⟩ := onProxy_eq_ok h
  obtain ⟨hpayload, hparent, htrace, henv⟩ := TracedToolProxy.appendStep_eq_ok hstep
  exact ⟨hpayload, hparent, htrace, henv, hclient⟩

/-! ## The exchange with the model -/

section Exchange

variable (client : ModelClient σ) (version : AgentVersion)

/-- The client is asked again and again, raises a transient error for each of the reasons, and then
replies. -/
inductive Exchange (messages : Messages) : σ → List String → ModelReply → σ → Prop where
  | reply {c c' : σ} {reply : ModelReply}
      (h : client.complete c messages version.model version.config = (.reply reply, c')) :
      Exchange messages c [] reply c'
  | retry {c c₁ c' : σ} {message : String} {reasons : List String} {reply : ModelReply}
      (h : client.complete c messages version.model version.config = (.transient message, c₁))
      (rest : Exchange messages c₁ reasons reply c') :
      Exchange messages c (message :: reasons) reply c'

/-- The payloads of retries numbered from `attempt`. -/
def retryPayloads : (attempt : ℕ) → (reasons : List String) → List StepPayload
  | _, [] => []
  | attempt, reason :: reasons => .retry attempt reason :: retryPayloads (attempt + 1) reasons

/-- The payloads of retries are retries. -/
theorem eventType_of_mem_retryPayloads {reasons : List String} : ∀ {attempt : ℕ},
    ∀ payload ∈ retryPayloads attempt reasons, payload.eventType = .retry := by
  induction reasons with
  | nil => simp [retryPayloads]
  | cons reason reasons ih =>
    intro attempt
    exact List.forall_mem_cons.mpr ⟨rfl, ih⟩

/-- One request asks the client once, and leaves the proxy alone. -/
theorem complete_eq_ok {messages : Messages} {outcome : ModelOutcome} {s s' : RunState σ}
    (h : complete client version messages s = .ok outcome s') :
    client.complete s.client messages version.model version.config = (outcome, s'.client) ∧
      s'.proxy = s.proxy := by
  obtain ⟨rfl, rfl⟩ := EStateM.Result.ok.inj h
  exact ⟨rfl, rfl⟩

theorem completeWithRetries_eq_ok {host : Host} {messages : Messages} {parentStepId : UUID}
    {reply : ModelReply} {s' : RunState σ} :
    ∀ {remaining attempt : ℕ} {s : RunState σ},
      completeWithRetries host client version messages parentStepId remaining attempt s =
        .ok reply s' →
      ∃ reasons retries, Exchange client version messages s.client reasons reply s'.client ∧
        reasons.length ≤ remaining ∧ retries.map (·.payload) = retryPayloads attempt reasons ∧
        (∀ step ∈ retries, step.parentStepId = some parentStepId) ∧
        s.proxy.trace.Extends s'.proxy.trace retries ∧
        s'.proxy.environment = s.proxy.environment := by
  intro remaining
  induction remaining with
  | zero =>
    intro attempt s h
    rw [completeWithRetries, bind_eq_ok] at h
    obtain ⟨outcome, s₁, hcomplete, h⟩ := h
    obtain ⟨hc, hproxy⟩ := complete_eq_ok client version hcomplete
    cases outcome with
    | reply r =>
      obtain ⟨rfl, rfl⟩ := EStateM.Result.ok.inj h
      rw [hproxy]
      exact ⟨[], [], .reply hc, le_rfl, rfl, by simp, .refl _, rfl⟩
    | raised e => exact absurd h (by simp)
    | transient message =>
      obtain ⟨_, _, -, h⟩ := bind_eq_ok.mp h
      exact absurd h (by simp)
  | succ remaining ih =>
    intro attempt s h
    rw [completeWithRetries, bind_eq_ok] at h
    obtain ⟨outcome, s₁, hcomplete, h⟩ := h
    obtain ⟨hc, hproxy⟩ := complete_eq_ok client version hcomplete
    cases outcome with
    | reply r =>
      obtain ⟨rfl, rfl⟩ := EStateM.Result.ok.inj h
      rw [hproxy]
      exact ⟨[], [], .reply hc, Nat.zero_le _, rfl, by simp, .refl _, rfl⟩
    | raised e => exact absurd h (by simp)
    | transient message =>
      obtain ⟨step, s₂, hlog, h⟩ := bind_eq_ok.mp h
      have hlogged := log_eq_ok hlog
      obtain ⟨reasons, retries, hexchange, hlength, hpayloads, hparents, htrace, henv⟩ := ih h
      rw [hlogged.client] at hexchange
      rw [← hproxy]
      refine ⟨message :: reasons, step :: retries, .retry hc hexchange, Nat.succ_le_succ hlength,
        ?_, ?_, hlogged.trace.trans htrace, henv.trans hlogged.environment⟩
      · rw [List.map_cons, hlogged.payload, hpayloads, retryPayloads]
      · rintro step' (_ | ⟨_, hmem⟩)
        · exact hlogged.parent
        · exact hparents step' hmem

end Exchange

variable [Interpreter]

/-! ## The tool calls of a reply -/

/-- How a requested call ends: the payload it is closed with, and the environment after it. -/
inductive Closing (host : Host) (call : ToolCallRequest) (env : SupportToolEnvironment) :
    StepPayload → SupportToolEnvironment → Prop where
  | result {value : PyValue} {env' : SupportToolEnvironment}
      (h : execute host call.service call.operation call.arguments env = .ok value env') :
      Closing host call env (.toolResult call.callId value) env'
  | error {e : PyError} {env' : SupportToolEnvironment}
      (h : execute host call.service call.operation call.arguments env = .error e env')
      (hcaught : e.caughtByProxy = true) :
      Closing host call env (.error e.className e.text) env'

/-- The requested calls, one after the other: the steps they leave, the messages that answer them,
and the environment after them. -/
inductive CallsRun (host : Host) : List ToolCallRequest → SupportToolEnvironment →
    List TraceStep → Messages → SupportToolEnvironment → Prop where
  | nil (env : SupportToolEnvironment) : CallsRun host [] env [] [] env
  | cons {call : ToolCallRequest} {calls : List ToolCallRequest}
      {env env₁ env' : SupportToolEnvironment} {callStep closing : TraceStep}
      {steps : List TraceStep} {content : Dict String Json} {answers : Messages}
      (hcall : callStep.payload =
        .toolCall call.callId call.service call.operation call.arguments)
      (hroot : callStep.parentStepId = none)
      (hclosing : Closing host call env closing.payload env₁)
      (hparent : closing.parentStepId = some callStep.id)
      (hcontent : closing.payload.modelDump = .ok content)
      (rest : CallsRun host calls env₁ steps answers env') :
      CallsRun host (call :: calls) env (callStep :: closing :: steps)
        (toolMessage call.callId content :: answers) env'

/-- An invocation that returns, as the two steps it appends. -/
theorem TracedToolProxy.invoke_eq_ok_steps {host : Host} {call : ToolCallRequest}
    {proxy proxy' : TracedToolProxy} {step : TraceStep}
    (h : invoke host call.callId call.service call.operation call.arguments proxy =
      .ok step proxy') :
    ∃ callStep, callStep.payload =
        .toolCall call.callId call.service call.operation call.arguments ∧
      callStep.parentStepId = none ∧
      Closing host call proxy.environment step.payload proxy'.environment ∧
      step.parentStepId = some callStep.id ∧
      proxy.trace.Extends proxy'.trace [callStep, step] := by
  obtain ⟨payload, env, -, rfl, rfl, hclosing⟩ := invoke_eq_ok h
  refine ⟨callStep host proxy.trace call.callId call.service call.operation call.arguments, rfl,
    rfl, ?_, rfl, rfl, fun hn => ?_⟩
  · rcases hclosing with ⟨value, hvalue, rfl⟩ | ⟨e, he, hcaught, rfl⟩
    · exact .result hvalue
    · exact .error he hcaught
  · have hpush := Trace.numbered_push host
      (Trace.numbered_push host hn
        (.toolCall call.callId call.service call.operation call.arguments) none none) payload
      (some (callStep host proxy.trace call.callId call.service call.operation call.arguments).id)
      (some (host.durationMs (proxy.trace.steps.length + 1)))
    simpa [Trace.push, invoked, closingStep, callStep] using hpush

theorem invokeCalls_eq_ok {host : Host} {messages' : Messages} {s' : RunState σ} :
    ∀ {calls : List ToolCallRequest} {messages : Messages} {s : RunState σ},
      invokeCalls host calls messages s = .ok messages' s' →
      ∃ steps answers, CallsRun host calls s.proxy.environment steps answers s'.proxy.environment ∧
        messages' = messages ++ answers ∧ s.proxy.trace.Extends s'.proxy.trace steps ∧
        s'.client = s.client := by
  intro calls
  induction calls with
  | nil =>
    intro messages s h
    obtain ⟨rfl, rfl⟩ := EStateM.Result.ok.inj h
    exact ⟨[], [], .nil _, by simp, .refl _, rfl⟩
  | cons call calls ih =>
    intro messages s h
    rw [invokeCalls, bind_eq_ok] at h
    obtain ⟨step, s₁, hinvoke, h⟩ := h
    obtain ⟨content, s₂, hcontent, h⟩ := bind_eq_ok.mp h
    obtain ⟨hdump, rfl⟩ := lift_eq_ok.mp hcontent
    obtain ⟨hstep, hclient⟩ := onProxy_eq_ok hinvoke
    obtain ⟨callStep, hcall, hroot, hclosing, hparent, htrace⟩ :=
      TracedToolProxy.invoke_eq_ok_steps hstep
    obtain ⟨steps, answers, hrest, rfl, htrace', hclient'⟩ := ih h
    exact ⟨_, _, .cons hcall hroot hclosing hparent hdump hrest, by simp, htrace.trans htrace',
      hclient'.trans hclient⟩

/-! ## The rounds -/

section Rounds

variable (host : Host) (client : ModelClient σ) (version : AgentVersion)
  (maxSteps maxModelRetries : ℕ)

/-- A round up to its reply: the request, a numbered retry for every transient error, and the
response. -/
structure Opening (messages : Messages) (c : σ) (reply : ModelReply) (c' : σ)
    (request : TraceStep) (retries : List TraceStep) (response : TraceStep) : Prop where
  request_payload : request.payload = .modelRequest messages version.model []
  request_parent : request.parentStepId = none
  exchange : ∃ reasons, Exchange client version messages c reasons reply c' ∧
    reasons.length ≤ maxModelRetries ∧ retries.map (·.payload) = retryPayloads 1 reasons
  retry_parent : ∀ step ∈ retries, step.parentStepId = some request.id
  response_payload : ∃ inputTokens outputTokens : ℕ, reply.inputTokens = inputTokens ∧
    reply.outputTokens = outputTokens ∧
    response.payload = .modelResponse reply.content (reply.toolCalls.map (·.vars))
      reply.finishReason (some inputTokens) (some outputTokens)
  response_parent : response.parentStepId = some request.id

/-- The rounds of a run and its terminal step, with at most this many rounds left. -/
inductive RunTrace : (remaining : ℕ) → Messages → σ → SupportToolEnvironment → List ModelReply →
    List TraceStep → Option String → σ → SupportToolEnvironment → Prop where
  | exceeded {messages : Messages} {c : σ} {env : SupportToolEnvironment} {terminal : TraceStep}
      (hterminal : terminal.payload =
        .error "MaxStepsExceeded" s!"exceeded {maxSteps} steps without a final answer")
      (hparent : terminal.parentStepId = none) :
      RunTrace 0 messages c env [] [terminal] none c env
  | answered {remaining : ℕ} {messages : Messages} {c c' : σ} {env : SupportToolEnvironment}
      {reply : ModelReply} {request response terminal : TraceStep} {retries : List TraceStep}
      (hopening : Opening client version maxModelRetries messages c reply c' request retries
        response)
      (hcalls : reply.toolCalls = [])
      (hterminal : terminal.payload = .finalAnswer (reply.content.getD ""))
      (hparent : terminal.parentStepId = none) :
      RunTrace (remaining + 1) messages c env [reply]
        (request :: retries ++ response :: [terminal]) (some (reply.content.getD "")) c' env
  | round {remaining : ℕ} {messages answers : Messages} {c c₁ c' : σ}
      {env env₁ env' : SupportToolEnvironment} {reply : ModelReply} {replies : List ModelReply}
      {request response : TraceStep} {retries calls steps : List TraceStep}
      {finalOutput : Option String}
      (hopening : Opening client version maxModelRetries messages c reply c₁ request retries
        response)
      (hne : reply.toolCalls ≠ [])
      (hcalls : CallsRun host reply.toolCalls env calls answers env₁)
      (rest : RunTrace remaining (messages ++ [assistantMessage reply.toolCalls] ++ answers) c₁
        env₁ replies steps finalOutput c' env') :
      RunTrace (remaining + 1) messages c env (reply :: replies)
        (request :: retries ++ response :: (calls ++ steps)) finalOutput c' env'

omit [Interpreter] in
theorem nonNegative_eq_ok {field : String} {n : ℤ} {m : ℕ} (h : nonNegative field n = .ok m) :
    n = m := by
  cases n with
  | ofNat n => rw [← Except.ok.inj h]; rfl
  | negSucc n => exact absurd h (by simp [nonNegative])

/-- **Run lemma**: a run that returns is a `RunTrace`, and its totals are sums over the replies. -/
theorem runRounds_trace {totals : RunTotals} {s' : RunState σ} :
    ∀ {remaining : ℕ} {messages : Messages} {inputTokens outputTokens : ℕ} {s : RunState σ},
      runRounds host client version maxSteps maxModelRetries remaining messages inputTokens
        outputTokens s = .ok totals s' →
      ∃ replies steps,
        RunTrace host client version maxSteps maxModelRetries remaining messages s.client
          s.proxy.environment replies steps totals.finalOutput s'.client s'.proxy.environment ∧
        s.proxy.trace.Extends s'.proxy.trace steps ∧
        (totals.inputTokens : ℤ) = inputTokens + (replies.map (·.inputTokens)).sum ∧
        (totals.outputTokens : ℤ) = outputTokens + (replies.map (·.outputTokens)).sum ∧
        totals.maxStepsExceeded = totals.finalOutput.isNone := by
  intro remaining
  induction remaining with
  | zero =>
    intro messages inputTokens outputTokens s h
    rw [runRounds, bind_eq_ok] at h
    obtain ⟨terminal, s₁, hlog, h⟩ := h
    obtain ⟨rfl, rfl⟩ := EStateM.Result.ok.inj h
    have hlogged := log_eq_ok hlog
    refine ⟨[], [terminal], ?_, hlogged.trace, by simp, by simp, rfl⟩
    rw [hlogged.client, hlogged.environment]
    exact .exceeded hlogged.payload hlogged.parent
  | succ remaining ih =>
    intro messages inputTokens outputTokens s h
    rw [runRounds, bind_eq_ok] at h
    obtain ⟨request, s₁, hrequest, h⟩ := h
    obtain ⟨reply, s₂, hreply, h⟩ := bind_eq_ok.mp h
    obtain ⟨replyInput, _, hlift, h⟩ := bind_eq_ok.mp h
    obtain ⟨hvalid, rfl⟩ := lift_eq_ok.mp hlift
    have hinput := nonNegative_eq_ok hvalid
    obtain ⟨replyOutput, _, hlift', h⟩ := bind_eq_ok.mp h
    obtain ⟨hvalid', rfl⟩ := lift_eq_ok.mp hlift'
    have houtput := nonNegative_eq_ok hvalid'
    obtain ⟨response, s₃, hresponse, h⟩ := bind_eq_ok.mp h
    have hrequest := log_eq_ok hrequest
    have hresponse := log_eq_ok hresponse
    obtain ⟨reasons, retries, hexchange, hlength, hpayloads, hparents, htrace, henv⟩ :=
      completeWithRetries_eq_ok client version hreply
    rw [hrequest.client, ← hresponse.client] at hexchange
    have hopening : Opening client version maxModelRetries messages s.client reply s₃.client request
        retries response :=
      ⟨hrequest.payload, hrequest.parent, ⟨reasons, hexchange, hlength, hpayloads⟩, hparents,
        ⟨replyInput, replyOutput, hinput, houtput, hresponse.payload⟩, hresponse.parent⟩
    have henv₃ : s₃.proxy.environment = s.proxy.environment :=
      hresponse.environment.trans (henv.trans hrequest.environment)
    have htrace₃ := (hrequest.trace.trans htrace).trans hresponse.trace
    by_cases hcalls : reply.toolCalls = []
    · simp only [hcalls, if_true] at h
      obtain ⟨terminal, s₄, hterminal, h⟩ := bind_eq_ok.mp h
      obtain ⟨rfl, rfl⟩ := EStateM.Result.ok.inj h
      have hterminal := log_eq_ok hterminal
      refine ⟨[reply], request :: retries ++ response :: [terminal], ?_, ?_, ?_, ?_, rfl⟩
      · rw [hterminal.client, hterminal.environment, henv₃]
        exact .answered hopening hcalls hterminal.payload hterminal.parent
      · simpa using htrace₃.trans hterminal.trace
      · simp [hinput]
      · simp [houtput]
    · simp only [hcalls, if_false] at h
      obtain ⟨messages', s₄, hinvoke, h⟩ := bind_eq_ok.mp h
      obtain ⟨calls, answers, hrun, rfl, htrace₄, hclient⟩ := invokeCalls_eq_ok hinvoke
      obtain ⟨replies, steps, hrest, htrace', hin, hout, hexceeded⟩ := ih h
      rw [hclient] at hrest
      rw [henv₃] at hrun
      refine ⟨reply :: replies, request :: retries ++ response :: (calls ++ steps),
        .round hopening hcalls hrun hrest, ?_, ?_, ?_, hexceeded⟩
      · simpa using (htrace₃.trans htrace₄).trans htrace'
      · simp [hin, hinput, add_assoc]
      · simp [hout, houtput, add_assoc]

end Rounds

/-- A task run that returned ran its rounds, and its result is what they left. -/
theorem runRounds_of_runTask {host : Host} {version : AgentVersion} {task : BenchmarkTask}
    {client : ModelClient σ} {executionId : Option UUID} {maxSteps maxModelRetries : ℕ} {c c' : σ}
    {result : RunnerResult}
    (h : runTask host version task client executionId maxSteps maxModelRetries c = .ok result c') :
    ∃ totals s, runRounds host client version maxSteps maxModelRetries maxSteps
        (initialMessages version task) 0 0
        ⟨initialProxy task (executionId.getD host.newExecutionId), c⟩ = .ok totals s ∧
      result = {
        executionId := executionId.getD host.newExecutionId
        trace := s.proxy.trace.settled s.proxy.environment
        finalOutput := totals.finalOutput
        latencyMs := host.latencyMs
        inputTokens := totals.inputTokens
        outputTokens := totals.outputTokens
        finalState := s.proxy.environment.snapshot
        maxStepsExceeded := totals.maxStepsExceeded } ∧ c' = s.client := by
  rw [runTask] at h
  split at h
  · exact absurd h (by simp)
  · rename_i totals s hrun
    obtain ⟨rfl, rfl⟩ := EStateM.Result.ok.inj h
    exact ⟨totals, s, hrun, rfl, rfl⟩

end AgentProof
