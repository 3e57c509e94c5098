import AgentProof.Runner.Persistence

/-!
# Runner/Completion — when a run returns

`Completes` says what a run meets on its way, and nothing of the trace it leaves: the client answers
every request before its retries are used up, the counts it reports are not negative, and every tool
call ends in something the proxy can record.  A run returns exactly then (`runTask_returns_iff`).
-/

open Machinery Machinery.Raising

namespace AgentProof

/-! ## What a run meets -/

variable (host : Host)

/-- The requested calls all end in something that can be recorded; with the messages that answer
them and the environment after them. -/
inductive CallsComplete [Interpreter] : List ToolCallRequest → SupportToolEnvironment → Messages →
    SupportToolEnvironment → Prop where
  | nil (env : SupportToolEnvironment) : CallsComplete [] env [] env
  | cons {call : ToolCallRequest} {calls : List ToolCallRequest}
      {env env₁ env' : SupportToolEnvironment} {payload : StepPayload}
      {content : Dict String Json} {answers : Messages}
      (hclosing : Closing host call env payload env₁) (hcontent : payload.modelDump = .ok content)
      (rest : CallsComplete calls env₁ answers env') :
      CallsComplete (call :: calls) env (toolMessage call.callId content :: answers) env'

variable {σ : Type} (client : ModelClient σ) (version : AgentVersion) (maxModelRetries : ℕ)

/-- The client answers a request before its retries are used up, with counts that are not
negative. -/
structure Answers (messages : Messages) (c : σ) (reply : ModelReply) (c' : σ) : Prop where
  exchange : ∃ reasons, Exchange client version messages c reasons reply c' ∧
    reasons.length ≤ maxModelRetries
  inputTokens : 0 ≤ reply.inputTokens
  outputTokens : 0 ≤ reply.outputTokens

/-- **The rounds come to their end**, with at most this many left. -/
inductive Completes [Interpreter] :
    (remaining : ℕ) → Messages → σ → SupportToolEnvironment → Prop where
  | exceeded (messages : Messages) (c : σ) (env : SupportToolEnvironment) :
      Completes 0 messages c env
  | answered {remaining : ℕ} {messages : Messages} {c c' : σ} {env : SupportToolEnvironment}
      {reply : ModelReply} (hanswers : Answers client version maxModelRetries messages c reply c')
      (hcalls : reply.toolCalls = []) : Completes (remaining + 1) messages c env
  | round {remaining : ℕ} {messages answers : Messages} {c c' : σ}
      {env env' : SupportToolEnvironment} {reply : ModelReply}
      (hanswers : Answers client version maxModelRetries messages c reply c')
      (hne : reply.toolCalls ≠ []) (hcalls : CallsComplete host reply.toolCalls env answers env')
      (rest : Completes remaining (messages ++ [assistantMessage reply.toolCalls] ++ answers) c'
        env') :
      Completes (remaining + 1) messages c env

variable {host client version maxModelRetries}

/-! ## What a run that returned met -/

theorem Opening.answers {messages : Messages} {c c' : σ} {reply : ModelReply}
    {request response : TraceStep} {retries : List TraceStep}
    (h : Opening client version maxModelRetries messages c reply c' request retries response) :
    Answers client version maxModelRetries messages c reply c' := by
  obtain ⟨reasons, hexchange, hlength, -⟩ := h.exchange
  obtain ⟨inputTokens, outputTokens, hinput, houtput, -⟩ := h.response_payload
  exact ⟨⟨reasons, hexchange, hlength⟩, hinput ▸ Int.natCast_nonneg _,
    houtput ▸ Int.natCast_nonneg _⟩

variable [Interpreter]

theorem CallsRun.complete {calls : List ToolCallRequest} {env env' : SupportToolEnvironment}
    {steps : List TraceStep} {answers : Messages} (h : CallsRun host calls env steps answers env') :
    CallsComplete host calls env answers env' := by
  induction h with
  | nil env => exact .nil env
  | cons _ _ hclosing _ hcontent _ ih => exact .cons hclosing hcontent ih

/-- A run that returned came to its end. -/
theorem RunTrace.completes {maxSteps remaining : ℕ} {messages : Messages} {c c' : σ}
    {env env' : SupportToolEnvironment} {replies : List ModelReply} {steps : List TraceStep}
    {finalOutput : Option String}
    (h : RunTrace host client version maxSteps maxModelRetries remaining messages c env replies
      steps finalOutput c' env') :
    Completes host client version maxModelRetries remaining messages c env := by
  induction h with
  | exceeded => exact .exceeded _ _ _
  | answered hopening hcalls => exact .answered hopening.answers hcalls
  | round hopening hne hcalls _ ih => exact .round hopening.answers hne hcalls.complete ih

/-! ## What comes to its end returns -/

omit [Interpreter] in
/-- A step stays in a trace that grows. -/
theorem Trace.Extends.hasStep {trace trace' : Trace} {steps : List TraceStep}
    (h : trace.Extends trace' steps) {id : UUID} (hid : trace.hasStep id = true) :
    trace'.hasStep id = true := by
  rw [Trace.hasStep] at hid
  rw [h.eq, Trace.hasStep, List.any_append, hid, Bool.true_or]

omit [Interpreter] in
/-- A step that was logged is there to be a parent. -/
theorem Logged.hasStep {payload : StepPayload} {parent : Option UUID} {s s' : RunState σ}
    {step : TraceStep} (h : Logged payload parent s step s') :
    s'.proxy.trace.hasStep step.id = true := by
  rw [h.trace.eq, Trace.hasStep, List.any_append]
  simp

omit [Interpreter] in
/-- Logging returns where the parent is there. -/
theorem exists_log (host : Host) (payload : StepPayload) (parent : Option UUID) {s : RunState σ}
    (h : ∀ id, parent = some id → s.proxy.trace.hasStep id = true) :
    ∃ step s', log host payload parent s = .ok step s' ∧ Logged payload parent s step s' := by
  have hlog : ∃ step s', log host payload parent s = .ok step s' := by
    cases parent with
    | none => exact ⟨_, _, rfl⟩
    | some id =>
      have happend := TracedToolProxy.appendStep_of_hasStep host payload none (h id rfl)
      exact ⟨_, _, by rw [log, onProxy, zoom, happend]⟩
  obtain ⟨step, s', hlog⟩ := hlog
  exact ⟨step, s', hlog, log_eq_ok hlog⟩

omit [Interpreter] in
/-- A client that answers before its retries are used up. -/
theorem Exchange.completeWithRetries (host : Host) {messages : Messages} {parentStepId : UUID}
    {c c' : σ} {reasons : List String} {reply : ModelReply}
    (h : Exchange client version messages c reasons reply c') :
    ∀ {remaining attempt : ℕ} {s : RunState σ}, reasons.length ≤ remaining → s.client = c →
      s.proxy.trace.hasStep parentStepId = true →
      ∃ s', AgentProof.completeWithRetries host client version messages parentStepId remaining
          attempt s = .ok reply s' ∧ s'.client = c' ∧
        s'.proxy.environment = s.proxy.environment ∧
        s'.proxy.trace.hasStep parentStepId = true := by
  induction h with
  | @reply c c' reply h =>
    rintro remaining attempt s - rfl hparent
    refine ⟨{ s with client := c' }, ?_, rfl, rfl, hparent⟩
    have hcomplete : AgentProof.complete client version messages s =
        .ok (.reply reply) { s with client := c' } := by simp only [AgentProof.complete, h]
    rw [AgentProof.completeWithRetries, bind_of_ok hcomplete]
    rfl
  | @retry c c₁ c' message reasons reply h _ ih =>
    rintro remaining attempt s hlength rfl hparent
    obtain ⟨remaining, rfl⟩ : ∃ n, remaining = n + 1 :=
      Nat.exists_eq_succ_of_ne_zero (by simp at hlength; omega)
    have hcomplete : AgentProof.complete client version messages s =
        .ok (.transient message) { s with client := c₁ } := by
      simp only [AgentProof.complete, h]
    obtain ⟨step, s₁, hlog, hlogged⟩ := exists_log host (.retry attempt message)
      (some parentStepId) (s := { s with client := c₁ }) fun id hid => Option.some.inj hid ▸ hparent
    obtain ⟨s', hrest, hclient, henv, hparent'⟩ := @ih remaining (attempt + 1) s₁
      (Nat.le_of_succ_le_succ hlength) hlogged.client (hlogged.trace.hasStep hparent)
    refine ⟨s', ?_, hclient, henv.trans hlogged.environment, hparent'⟩
    rw [AgentProof.completeWithRetries, bind_of_ok hcomplete]
    exact (bind_of_ok hlog _).trans hrest

/-- Calls that end in something that can be recorded are recorded. -/
theorem CallsComplete.invokeCalls {calls : List ToolCallRequest}
    {env env' : SupportToolEnvironment} {answers : Messages}
    (h : CallsComplete host calls env answers env') :
    ∀ {messages : Messages} {s : RunState σ}, s.proxy.environment = env →
      ∃ s', AgentProof.invokeCalls host calls messages s = .ok (messages ++ answers) s' ∧
        s'.client = s.client ∧ s'.proxy.environment = env' := by
  induction h with
  | nil env =>
    rintro messages s rfl
    exact ⟨s, by rw [AgentProof.invokeCalls, List.append_nil]; rfl, rfl, rfl⟩
  | @cons call calls env env₁ env' payload content answers hclosing hcontent _ ih =>
    rintro messages s rfl
    have hinvoke : ∃ step proxy', TracedToolProxy.invoke host call.callId call.service
        call.operation call.arguments s.proxy = .ok step proxy' ∧ step.payload = payload ∧
        proxy'.environment = env₁ := by
      cases hclosing with
      | result h => exact ⟨_, _, TracedToolProxy.invoke_of_ok h, rfl, rfl⟩
      | error h hcaught => exact ⟨_, _, TracedToolProxy.invoke_of_caught h hcaught, rfl, rfl⟩
    obtain ⟨step, proxy', hinvoke, rfl, henv⟩ := hinvoke
    obtain ⟨s', hrest, hclient, henv'⟩ := @ih
      (messages ++ [toolMessage call.callId content]) { s with proxy := proxy' } henv
    refine ⟨s', ?_, hclient, henv'⟩
    have hproxy : onProxy (TracedToolProxy.invoke host call.callId call.service call.operation
        call.arguments) s = .ok step { s with proxy := proxy' } := by
      rw [onProxy, zoom, hinvoke]
    rw [AgentProof.invokeCalls, bind_of_ok hproxy, hcontent]
    rw [List.append_assoc] at hrest
    exact hrest

omit [Interpreter] in
theorem exists_nonNegative (field : String) {n : ℤ} (h : 0 ≤ n) :
    ∃ m, nonNegative field n = .ok m := by
  cases n with
  | ofNat n => exact ⟨n, rfl⟩
  | negSucc n => exact absurd h (by omega)

/-- A round whose request is answered goes on with the reply. -/
theorem Answers.runRounds {messages : Messages} {c c' : σ} {reply : ModelReply}
    (h : Answers client version maxModelRetries messages c reply c') (host : Host)
    {s : RunState σ} (hclient : s.client = c) :
    ∃ (replyInput replyOutput : ℕ) (s' : RunState σ), s'.client = c' ∧
      s'.proxy.environment = s.proxy.environment ∧
      ∀ maxSteps remaining inputTokens outputTokens,
        AgentProof.runRounds host client version maxSteps maxModelRetries (remaining + 1) messages
            inputTokens outputTokens s =
          if reply.toolCalls = [] then
            (log host (.finalAnswer (reply.content.getD "")) none >>= fun _ => pure {
              finalOutput := some (reply.content.getD "")
              inputTokens := inputTokens + replyInput
              outputTokens := outputTokens + replyOutput
              maxStepsExceeded := false }) s'
          else
            (AgentProof.invokeCalls host reply.toolCalls
                (messages ++ [assistantMessage reply.toolCalls]) >>= fun messages =>
              AgentProof.runRounds host client version maxSteps maxModelRetries remaining messages
                (inputTokens + replyInput) (outputTokens + replyOutput)) s' := by
  subst hclient
  obtain ⟨reasons, hexchange, hlength⟩ := h.exchange
  obtain ⟨replyInput, hinput⟩ := exists_nonNegative "input_tokens" h.inputTokens
  obtain ⟨replyOutput, houtput⟩ := exists_nonNegative "output_tokens" h.outputTokens
  obtain ⟨request, s₁, hrequest, hrequested⟩ := exists_log host
    (.modelRequest messages version.model []) none (s := s) (by simp)
  rw [← hrequested.client] at hexchange
  obtain ⟨s₂, hreply, hclient, henv, hparent⟩ := hexchange.completeWithRetries host
    hlength rfl hrequested.hasStep
  obtain ⟨response, s₃, hresponse, hresponded⟩ := exists_log host
    (.modelResponse reply.content (reply.toolCalls.map (·.vars)) reply.finishReason
      (some replyInput) (some replyOutput)) (some request.id) (s := s₂)
    fun id hid => Option.some.inj hid ▸ hparent
  refine ⟨replyInput, replyOutput, s₃, hresponded.client.trans hclient,
    hresponded.environment.trans (henv.trans hrequested.environment), ?_⟩
  intro maxSteps remaining inputTokens outputTokens
  rw [AgentProof.runRounds, bind_of_ok hrequest, bind_of_ok hreply, hinput, lift_ok_bind, houtput,
    lift_ok_bind, bind_of_ok hresponse]
  split <;> rfl

/-- **Rounds that come to their end return.** -/
theorem Completes.runRounds (maxSteps : ℕ) {remaining : ℕ} {messages : Messages} {c : σ}
    {env : SupportToolEnvironment}
    (h : Completes host client version maxModelRetries remaining messages c env) :
    ∀ {inputTokens outputTokens : ℕ} {s : RunState σ}, s.client = c → s.proxy.environment = env →
      ∃ totals s', AgentProof.runRounds host client version maxSteps maxModelRetries remaining
        messages inputTokens outputTokens s = .ok totals s' := by
  induction h with
  | exceeded messages c env =>
    rintro inputTokens outputTokens s - -
    obtain ⟨step, s', hlog, -⟩ := exists_log host (.error "MaxStepsExceeded"
      s!"exceeded {maxSteps} steps without a final answer") none (s := s) (by simp)
    exact ⟨_, s', by rw [AgentProof.runRounds, bind_of_ok hlog]; rfl⟩
  | answered hanswers hcalls =>
    intro inputTokens outputTokens s hclient _
    obtain ⟨replyInput, replyOutput, s₁, -, -, hround⟩ := hanswers.runRounds host hclient
    obtain ⟨step, s', hlog, -⟩ := exists_log host (.finalAnswer _) none (s := s₁) (by simp)
    exact ⟨_, s', by rw [hround, if_pos hcalls, bind_of_ok hlog]; rfl⟩
  | round hanswers hne hcalls _ ih =>
    intro inputTokens outputTokens s hclient henv
    obtain ⟨replyInput, replyOutput, s₁, hclient₁, henv₁, hround⟩ := hanswers.runRounds host hclient
    obtain ⟨s₂, hinvoke, hclient₂, henv₂⟩ := hcalls.invokeCalls (henv₁.trans henv)
    obtain ⟨totals, s', hrest⟩ := ih (hclient₂.trans hclient₁) henv₂
    exact ⟨totals, s', by rw [hround, if_neg hne, bind_of_ok hinvoke, hrest]⟩

/-- **When a run returns**: exactly when its rounds come to their end. -/
theorem runTask_returns_iff {version : AgentVersion} {task : BenchmarkTask}
    {client : ModelClient σ} {executionId : Option UUID} {maxSteps maxModelRetries : ℕ} {c : σ} :
    (∃ result c', runTask host version task client executionId maxSteps maxModelRetries c =
      .ok result c') ↔
      Completes host client version maxModelRetries maxSteps (initialMessages version task) c
        (.new task.initialState) := by
  constructor
  · rintro ⟨result, c', hrun⟩
    obtain ⟨replies, steps, env', htrace, -⟩ := runTask_eq_ok hrun
    exact htrace.completes
  · intro hcompletes
    obtain ⟨totals, s', hrun⟩ := hcompletes.runRounds maxSteps
      (s := ⟨initialProxy task (executionId.getD host.newExecutionId), c⟩) rfl rfl
    exact ⟨_, _, by rw [runTask, hrun]⟩

end AgentProof
