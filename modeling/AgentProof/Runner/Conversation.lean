import AgentProof.Runner.Expected
import AgentProof.Runner.Replay

/-!
# Runner/Conversation — the trace is what the model saw

    request ──▸ retries ──▸ response ──▸ calls, answered ──▸ request ──▸ ⋯ ──▸ terminal

`run_task` keeps the conversation in a list of its own and records a copy of it with every request.
The recorded conversations fit the rest of the trace: each continues the one before by the calls of
the response in between and the answers that were recorded for them.

What the client is handed is not in the trace, so it is asked of a client that keeps it
(`ModelClient.recorded`), and whose runs are the client's own (`runTask_recorded`).  **The client is
handed the recorded messages, at every try** (`runTask_conversation`), as long as no call hands out
a service: what such a call returned is recorded as it stands at the end of the run, and may have
been something else when the model saw it (`not_runTask_conversation`).
-/

open Machinery Machinery.Raising

namespace AgentProof

/-! ## A client that keeps what it is handed -/

/-- The client, keeping the messages of every call it gets. -/
def ModelClient.recorded {σ : Type} (client : ModelClient σ) :
    ModelClient (σ × List Messages) where
  complete s messages model params :=
    let (outcome, c) := client.complete s.1 messages model params
    (outcome, (c, s.2 ++ [messages]))

variable {σ : Type}

/-- Two runs that differ in what the client keeps. -/
def Recording (s : RunState σ) (t : RunState (σ × List Messages)) : Prop :=
  t.proxy = s.proxy ∧ t.client.1 = s.client

section Recording

variable {client : ModelClient σ} {version : AgentVersion} {host : Host}

theorem onProxy_recording {α : Type} (x : EStateM PyError TracedToolProxy α) :
    RelatedBy (Recording (σ := σ)) Eq (onProxy x) (onProxy x) Eq := by
  rintro s t ⟨hproxy, hclient⟩
  rw [onProxy, onProxy, zoom, zoom, hproxy]
  cases x s.proxy with
  | ok a proxy => exact ⟨rfl, rfl, hclient⟩
  | error e proxy => exact ⟨rfl, rfl, hclient⟩

theorem complete_recording (messages : Messages) :
    RelatedBy (Recording (σ := σ)) Eq (complete client version messages)
      (complete client.recorded version messages) Eq := by
  rintro s t ⟨hproxy, hclient⟩
  simp only [complete, ModelClient.recorded, hclient]
  exact ⟨rfl, hproxy, rfl⟩

theorem completeWithRetries_recording (messages : Messages) (parentStepId : UUID) :
    ∀ remaining attempt : ℕ, RelatedBy (Recording (σ := σ)) Eq
      (completeWithRetries host client version messages parentStepId remaining attempt)
      (completeWithRetries host client.recorded version messages parentStepId remaining attempt)
      Eq := by
  intro remaining
  induction remaining with
  | zero =>
    intro attempt
    rw [completeWithRetries, completeWithRetries]
    refine (complete_recording messages).bind ?_
    rintro outcome _ rfl
    cases outcome with
    | reply reply => exact .pure rfl
    | raised e => exact .throw rfl
    | transient message => exact (onProxy_recording _).bind fun _ _ _ => .throw rfl
  | succ remaining ih =>
    intro attempt
    rw [completeWithRetries, completeWithRetries]
    refine (complete_recording messages).bind ?_
    rintro outcome _ rfl
    cases outcome with
    | reply reply => exact .pure rfl
    | raised e => exact .throw rfl
    | transient message => exact (onProxy_recording _).bind fun _ _ _ => ih (attempt + 1)

variable [Interpreter]

theorem invokeCalls_recording : ∀ (calls : List ToolCallRequest) (messages : Messages),
    RelatedBy (Recording (σ := σ)) Eq (invokeCalls host calls messages)
      (invokeCalls host calls messages) Eq
  | [], _ => .pure rfl
  | call :: calls, messages => by
    rw [invokeCalls, invokeCalls]
    refine (onProxy_recording _).bind ?_
    rintro step _ rfl
    refine .lift_bind (.refl _) ?_
    rintro content _ rfl
    exact invokeCalls_recording calls _

theorem runRounds_recording (maxSteps maxModelRetries : ℕ) : ∀ (remaining : ℕ)
    (messages : Messages) (inputTokens outputTokens : ℕ), RelatedBy (Recording (σ := σ)) Eq
      (runRounds host client version maxSteps maxModelRetries remaining messages inputTokens
        outputTokens)
      (runRounds host client.recorded version maxSteps maxModelRetries remaining messages
        inputTokens outputTokens) Eq := by
  intro remaining
  induction remaining with
  | zero =>
    intro messages inputTokens outputTokens
    rw [runRounds, runRounds]
    exact (onProxy_recording _).bind fun _ _ _ => .pure rfl
  | succ remaining ih =>
    intro messages inputTokens outputTokens
    rw [runRounds, runRounds]
    refine (onProxy_recording _).bind ?_
    rintro request _ rfl
    refine (completeWithRetries_recording messages request.id _ _).bind ?_
    rintro reply _ rfl
    refine .lift_bind (.refl _) ?_
    rintro replyInput _ rfl
    refine .lift_bind (.refl _) ?_
    rintro replyOutput _ rfl
    refine (onProxy_recording _).bind fun _ _ _ => .ite Iff.rfl ?_ ?_
    · exact (onProxy_recording _).bind fun _ _ _ => .pure rfl
    · refine (invokeCalls_recording _ _).bind ?_
      rintro messages' _ rfl
      exact ih _ _ _

end Recording

/-- **Keeping the messages changes nothing of a run.** -/
theorem runTask_recorded [Interpreter] {host : Host} {version : AgentVersion}
    {task : BenchmarkTask} {client : ModelClient σ} {executionId : Option UUID}
    {maxSteps maxModelRetries : ℕ} {c c' : σ} {result : RunnerResult}
    (h : runTask host version task client executionId maxSteps maxModelRetries c = .ok result c') :
    ∃ handed, runTask host version task client.recorded executionId maxSteps maxModelRetries
      (c, []) = .ok result (c', handed) := by
  have hrelated : ResultRelBy Recording Eq Eq
      (runRounds host client version maxSteps maxModelRetries maxSteps
        (initialMessages version task) 0 0
        ⟨initialProxy task (executionId.getD host.newExecutionId), c⟩)
      (runRounds host client.recorded version maxSteps maxModelRetries maxSteps
        (initialMessages version task) 0 0
        ⟨initialProxy task (executionId.getD host.newExecutionId), (c, [])⟩) :=
    runRounds_recording maxSteps maxModelRetries maxSteps _ 0 0 _ _ ⟨rfl, rfl⟩
  obtain ⟨totals, s, hrun, rfl, rfl⟩ := runRounds_of_runTask h
  rw [hrun] at hrelated
  cases hrun' : runRounds host client.recorded version maxSteps maxModelRetries maxSteps
      (initialMessages version task) 0 0
      ⟨initialProxy task (executionId.getD host.newExecutionId), (c, [])⟩ with
  | error e t =>
    rw [hrun'] at hrelated
    exact hrelated.elim
  | ok totals' t =>
    rw [hrun'] at hrelated
    obtain ⟨rfl, hproxy, hclient⟩ := hrelated
    refine ⟨t.client.2, ?_⟩
    simp only [runTask, hrun', hproxy, ← hclient]

/-! ## What a round records -/

/-- **Calls and their answers**: each call is recorded with its outcome right after it, as its child,
and is answered by what is dumped of that outcome. -/
inductive AnsweredBy : List ToolCallRequest → List TraceStep → Messages → Prop
  | nil : AnsweredBy [] [] []
  | cons {call : ToolCallRequest} {calls : List ToolCallRequest} {callStep closing : TraceStep}
      {steps : List TraceStep} {content : Dict String Json} {answers : Messages}
      (hcall : callStep.payload =
        .toolCall call.callId call.service call.operation call.arguments)
      (hparent : closing.parentStepId = some callStep.id)
      (houtcome : (∃ result, closing.payload = .toolResult call.callId result) ∨
        ∃ errorType message, closing.payload = .error errorType message)
      (hcontent : closing.payload.modelDump = .ok content)
      (rest : AnsweredBy calls steps answers) :
      AnsweredBy (call :: calls) (callStep :: closing :: steps)
        (toolMessage call.callId content :: answers)

theorem CallsRun.answeredBy [Interpreter] {host : Host} {calls : List ToolCallRequest}
    {env env' : SupportToolEnvironment} {steps : List TraceStep} {answers : Messages}
    (h : CallsRun host calls env steps answers env') : AnsweredBy calls steps answers := by
  induction h with
  | nil => exact .nil
  | cons hcall _ hclosing hparent hcontent _ ih =>
    exact .cons hcall hparent hclosing.payload_eq hcontent ih

/-- **A round as it is recorded**: a request with its messages, a step for each retry, a response
with its tool calls, and the calls with their answers. -/
structure RecordedRound where
  messages : Messages
  toolCalls : List ToolCallRequest
  answers : Messages
  request : TraceStep
  retries : List TraceStep
  response : TraceStep
  calls : List TraceStep
  requested : ∃ model params, request.payload = .modelRequest messages model params
  retried : ∀ step ∈ retries, step.payload.eventType = .retry
  replied : ∃ content finishReason inputTokens outputTokens, response.payload =
    .modelResponse content (toolCalls.map (·.vars)) finishReason inputTokens outputTokens
  answered : AnsweredBy toolCalls calls answers

namespace RecordedRound

/-- The steps of the round. -/
def steps (round : RecordedRound) : List TraceStep :=
  round.request :: round.retries ++ round.response :: round.calls

/-- The messages of the next request. -/
def next (round : RecordedRound) : Messages :=
  round.messages ++ assistantMessage round.toolCalls :: round.answers

/-- What the client is handed in the round, if it is handed what is recorded: once, and once more
for every retry. -/
def handed (round : RecordedRound) : List Messages :=
  List.replicate (round.retries.length + 1) round.messages

end RecordedRound

/-- **A conversation**: it opens with these messages, and each request continues the one before. -/
structure Conversation (opening : Messages) (rounds : List RecordedRound) : Prop where
  first : ∀ round, rounds.head? = some round → round.messages = opening
  later : rounds.IsChain fun round round' => round'.messages = round.next

theorem Conversation.nil (opening : Messages) : Conversation opening [] :=
  ⟨fun _ h => by simp at h, .nil⟩

theorem Conversation.cons {round : RecordedRound} {rounds : List RecordedRound}
    (h : Conversation round.next rounds) : Conversation round.messages (round :: rounds) where
  first first hfirst := by
    obtain rfl : round = first := by simpa using hfirst
    rfl
  later := by
    cases rounds with
    | nil => exact .singleton round
    | cons round' rounds => exact .cons_cons (h.first round' rfl) h.later

/-! ## What a run records -/

section Runs

variable {client : ModelClient σ} {version : AgentVersion} {maxSteps maxModelRetries : ℕ}

/-- **A client is handed the same messages at every try.** -/
theorem handed_of_exchange {messages : Messages} {c c' : σ × List Messages} {reasons : List String}
    {reply : ModelReply}
    (h : Exchange client.recorded version messages c reasons reply c') :
    c'.2 = c.2 ++ List.replicate (reasons.length + 1) messages := by
  induction h with
  | @reply c c' reply h =>
    obtain ⟨-, rfl⟩ := Prod.mk.inj h
    rfl
  | @retry c c₁ c' message reasons reply h _ ih =>
    obtain ⟨-, rfl⟩ := Prod.mk.inj h
    rw [ih, List.length_cons, List.replicate_succ (n := reasons.length + 1), List.append_assoc]
    rfl

/-- There is a retry for every reason. -/
theorem length_retryPayloads (reasons : List String) : ∀ attempt : ℕ,
    (retryPayloads attempt reasons).length = reasons.length := by
  induction reasons with
  | nil => exact fun _ => rfl
  | cons reason reasons ih => exact fun attempt => congrArg (· + 1) (ih (attempt + 1))

/-- **A round that was opened and answered is recorded**, and the client is handed what it
records. -/
theorem Opening.exists_round {messages : Messages} {c c' : σ × List Messages} {reply : ModelReply}
    {request response : TraceStep} {retries calls : List TraceStep} {answers : Messages}
    (h : Opening client.recorded version maxModelRetries messages c reply c' request retries
      response) (hanswered : AnsweredBy reply.toolCalls calls answers) :
    ∃ round : RecordedRound, round.messages = messages ∧
      round.next = messages ++ [assistantMessage reply.toolCalls] ++ answers ∧
      round.steps = request :: retries ++ response :: calls ∧ c'.2 = c.2 ++ round.handed := by
  obtain ⟨reasons, hexchange, -, hretries⟩ := h.exchange
  obtain ⟨inputTokens, outputTokens, -, -, hresponse⟩ := h.response_payload
  have hlength : retries.length = reasons.length := by
    rw [← List.length_map, hretries, length_retryPayloads]
  have hretried : ∀ step ∈ retries, step.payload.eventType = .retry := fun step hstep =>
    eventType_of_mem_retryPayloads step.payload (hretries ▸ List.mem_map_of_mem hstep)
  refine ⟨⟨messages, reply.toolCalls, answers, request, retries, response, calls,
    ⟨_, _, h.request_payload⟩, hretried, ⟨_, _, _, _, hresponse⟩, hanswered⟩, rfl, ?_, rfl, ?_⟩
  · rw [RecordedRound.next, List.append_assoc, List.singleton_append]
  · rw [handed_of_exchange hexchange, RecordedRound.handed, hlength]

variable [Interpreter]

/-- **A run is its rounds, which are a conversation, and one terminal step**; and the client is
handed what the rounds record.  Induction on the run. -/
theorem RunTrace.conversation {host : Host} {remaining : ℕ} {messages : Messages}
    {c c' : σ × List Messages} {env env' : SupportToolEnvironment} {replies : List ModelReply}
    {steps : List TraceStep} {finalOutput : Option String}
    (h : RunTrace host client.recorded version maxSteps maxModelRetries remaining messages c env
      replies steps finalOutput c' env') :
    ∃ rounds terminal, steps = rounds.flatMap RecordedRound.steps ++ [terminal] ∧
      (terminal.payload.eventType = .finalAnswer ∨ terminal.payload.eventType = .error) ∧
      Conversation messages rounds ∧ c'.2 = c.2 ++ rounds.flatMap RecordedRound.handed := by
  induction h with
  | @exceeded messages c env terminal hterminal _ =>
    refine ⟨[], terminal, rfl, .inr ?_, .nil messages, by simp⟩
    rw [hterminal]
    rfl
  | @answered _ _ _ _ _ _ _ _ terminal _ hopening hcalls hterminal _ =>
    obtain ⟨round, rfl, -, hsteps, hhanded⟩ := hopening.exists_round (hcalls.symm ▸ AnsweredBy.nil)
    refine ⟨[round], terminal, ?_, .inl ?_, .cons (.nil _), ?_⟩
    · rw [List.flatMap_singleton, hsteps]
      simp
    · rw [hterminal]
      rfl
    · rw [hhanded, List.flatMap_singleton]
  | @round _ _ _ _ _ _ _ _ _ _ _ request response retries calls steps _ hopening _ hcalls _ ih =>
    obtain ⟨round, rfl, hnext, hsteps, hhanded⟩ := hopening.exists_round hcalls.answeredBy
    obtain ⟨rounds, terminal, rfl, hterminal, hconversation, hlater⟩ := ih
    refine ⟨round :: rounds, terminal, ?_, hterminal, .cons (hnext ▸ hconversation), ?_⟩
    · rw [List.flatMap_cons, hsteps]
      simp
    · rw [hlater, hhanded, List.flatMap_cons, List.append_assoc]

/-- **The trace determines what the model saw**, if no call hands out a service: the rounds that are
recorded are a conversation, opened by the system prompt and the task's input, and the client is
handed what they record. -/
theorem runTask_conversation {host : Host} {task : BenchmarkTask} {executionId : Option UUID}
    {c c' : σ} {result : RunnerResult}
    (h : runTask host version task client executionId maxSteps maxModelRetries c =
      .ok result c')
    (hstate : ∀ call ∈ extractToolCalls result.trace,
      ¬ HandsOutState call.service call.operation call.arguments) :
    ∃ rounds terminal, result.trace.steps = rounds.flatMap RecordedRound.steps ++ [terminal] ∧
      (terminal.payload.eventType = .finalAnswer ∨ terminal.payload.eventType = .error) ∧
      Conversation (initialMessages version task) rounds ∧
      runTask host version task client.recorded executionId maxSteps maxModelRetries (c, []) =
        .ok result (c', rounds.flatMap RecordedRound.handed) := by
  obtain ⟨handed, hrun⟩ := runTask_recorded h
  obtain ⟨replies, steps, env', htrace, hread, -⟩ := runTask_eq_ok hrun
  rw [extractToolCalls_eq, hread, stepCalls_settle] at hstate
  rw [htrace.settle_eq hstate] at hread
  obtain ⟨rounds, terminal, hsteps, hterminal, hconversation, hhanded⟩ := htrace.conversation
  obtain rfl : handed = rounds.flatMap RecordedRound.handed := hhanded
  exact ⟨rounds, terminal, hread.trans hsteps, hterminal, hconversation, hrun⟩

end Runs

/-- A run with a retry, and with two calls in one reply, one of them refused. -/
theorem runTask_conversation_scripted :
    let _ := cpython
    ∃ result c', runTask plainHost supportAgent customerRefundWithinPolicy scriptedModelClient none
        defaultMaxSteps defaultMaxModelRetries retryingScript = .ok result c' ∧
      ∃ rounds, Conversation (initialMessages supportAgent customerRefundWithinPolicy) rounds ∧
        runTask plainHost supportAgent customerRefundWithinPolicy scriptedModelClient.recorded none
            defaultMaxSteps defaultMaxModelRetries (retryingScript, []) =
          .ok result (c', rounds.flatMap RecordedRound.handed) := by
  intro _
  obtain ⟨result, c', hrun⟩ := exists_of_returned (show returned (runTask plainHost supportAgent
    customerRefundWithinPolicy scriptedModelClient none defaultMaxSteps defaultMaxModelRetries
    retryingScript) = true by decide +kernel)
  have hread : (match runTask plainHost supportAgent customerRefundWithinPolicy
      scriptedModelClient none defaultMaxSteps defaultMaxModelRetries retryingScript with
    | .ok result _ => decide (∀ call ∈ extractToolCalls result.trace,
        ¬ HandsOutState call.service call.operation call.arguments)
    | .error .. => false) = true := by decide +kernel
  rw [hrun] at hread
  obtain ⟨rounds, -, -, -, hconversation, hrecorded⟩ :=
    runTask_conversation hrun (of_decide_eq_true hread)
  exact ⟨result, c', hrun, rounds, hconversation, hrecorded⟩

/-! ### A call that hands out a service -/

/-- **What the second request answers with**: after a first round of one call, it holds the outcome
that is recorded for the call. -/
theorem Conversation.second_request {opening : Messages} {rounds : List RecordedRound}
    (h : Conversation opening rounds)
    {request response call closing request' terminal : TraceStep} {steps : List TraceStep}
    (hsteps : rounds.flatMap RecordedRound.steps ++ [terminal] =
      request :: response :: call :: closing :: request' :: steps)
    (hresponse : response.payload.eventType = .modelResponse)
    (hcall : call.payload.eventType = .toolCall)
    (hrequest' : request'.payload.eventType = .modelRequest) (hlater : steps ≠ []) :
    ∃ callId service operation arguments content messages model params,
      call.payload = .toolCall callId service operation arguments ∧
      closing.payload.modelDump = .ok content ∧
      request'.payload = .modelRequest messages model params ∧
      toolMessage callId content ∈ messages := by
  obtain _ | ⟨⟨messages, toolCalls, answers, request, retries, response, calls, _, hretried, _,
    hanswered⟩, rounds⟩ := rounds
  · cases hsteps
  simp only [List.flatMap_cons, RecordedRound.steps, List.cons_append, List.append_assoc,
    List.cons.injEq] at hsteps
  obtain ⟨-, hsteps⟩ := hsteps
  obtain _ | ⟨retry, retries⟩ := retries
  case cons =>
    obtain ⟨rfl, -⟩ := List.cons.inj hsteps
    rw [hretried retry (by simp)] at hresponse
    cases hresponse
  rw [List.nil_append, List.cons.injEq] at hsteps
  cases hanswered with
  | nil =>
    obtain _ | ⟨round', rounds⟩ := rounds
    · cases hsteps.2
    · obtain ⟨rfl, -⟩ := List.cons.inj hsteps.2
      obtain ⟨model, params, hpayload⟩ := round'.requested
      rw [hpayload] at hcall
      cases hcall
  | cons hpayload _ _ hcontent rest =>
    simp only [List.cons_append, List.cons.injEq] at hsteps
    obtain ⟨-, rfl, rfl, hsteps⟩ := hsteps
    cases rest with
    | cons hpayload' =>
      obtain ⟨rfl, -⟩ := List.cons.inj hsteps
      rw [hpayload'] at hrequest'
      cases hrequest'
    | nil =>
      obtain _ | ⟨round', rounds⟩ := rounds
      · obtain ⟨-, rfl⟩ := List.cons.inj hsteps
        exact absurd rfl hlater
      · obtain ⟨rfl, -⟩ := List.cons.inj hsteps
        obtain ⟨model, params, hpayload'⟩ := round'.requested
        have hnext := (List.isChain_cons_cons.mp h.later).1
        refine ⟨_, _, _, _, _, _, model, params, hpayload, hcontent, hpayload', ?_⟩
        rw [hnext, RecordedRound.next]
        simp

/-- A model that asks for the `__dict__` of the ticket service, updates a ticket, and answers. -/
def liveScript : List ModelOutcome :=
  [.reply {
      finishReason := "tool_calls"
      toolCalls := [⟨"c1", "ticket", "__getstate__", []⟩] },
    .reply {
      finishReason := "tool_calls"
      toolCalls := [⟨"c2", "ticket", "update_ticket",
        [("ticket_id", .str "TICK-9001"), ("status", .str "closed")]⟩] },
    .reply { finishReason := "stop", content := some "Done." }]

/-- The second request does not hold what is recorded of the call before it. -/
def secondRequestDiffers : List TraceStep → Bool
  | _ :: response :: call :: closing :: request' :: _ :: _ =>
    decide (response.payload.eventType = .modelResponse) &&
      match call.payload, closing.payload.modelDump, request'.payload with
      | .toolCall callId _ _ _, .ok content, .modelRequest messages _ _ =>
        decide (toolMessage callId content ∉ messages)
      | _, _, _ => false
  | _ => false

/-- Then the trace is no conversation. -/
theorem not_conversation_of_differs {opening : Messages} {steps : List TraceStep}
    (h : secondRequestDiffers steps = true) :
    ¬ ∃ rounds terminal, steps = rounds.flatMap RecordedRound.steps ++ [terminal] ∧
      Conversation opening rounds := by
  unfold secondRequestDiffers at h
  split at h
  case h_2 => cases h
  obtain ⟨hresponse, h⟩ := (Bool.and_eq_true _ _).mp h
  split at h
  case h_2 => cases h
  rename_i hcall hdump hrequest'
  rintro ⟨rounds, terminal, hsteps, hconversation⟩
  obtain ⟨_, _, _, _, _, _, _, _, hcall', hdump', hpayload, hmem⟩ := hconversation.second_request
    hsteps.symm (of_decide_eq_true hresponse) (by rw [hcall]; rfl) (by rw [hrequest']; rfl)
    (List.cons_ne_nil _ _)
  obtain ⟨rfl, -⟩ := StepPayload.toolCall.inj (hcall.symm.trans hcall')
  obtain rfl := Except.ok.inj (hdump.symm.trans hdump')
  obtain ⟨rfl, -⟩ := StepPayload.modelRequest.inj (hrequest'.symm.trans hpayload)
  exact of_decide_eq_true h hmem

/-- **A result may change after the model saw it**: the ticket service is handed out while its ticket
is open, and recorded as it stands when the run is over. -/
theorem not_runTask_conversation :
    let _ := cpython
    ∃ result c', runTask plainHost supportAgent customerRefundWithinPolicy scriptedModelClient none
        defaultMaxSteps defaultMaxModelRetries liveScript = .ok result c' ∧
      ¬ ∃ rounds terminal, result.trace.steps = rounds.flatMap RecordedRound.steps ++ [terminal] ∧
        Conversation (initialMessages supportAgent customerRefundWithinPolicy) rounds := by
  intro _
  obtain ⟨result, c', hrun⟩ := exists_of_returned (show returned (runTask plainHost supportAgent
    customerRefundWithinPolicy scriptedModelClient none defaultMaxSteps defaultMaxModelRetries
    liveScript) = true by decide +kernel)
  have hdiffers : (match runTask plainHost supportAgent customerRefundWithinPolicy
      scriptedModelClient none defaultMaxSteps defaultMaxModelRetries liveScript with
    | .ok result _ => secondRequestDiffers result.trace.steps
    | .error .. => false) = true := by decide +kernel
  rw [hrun] at hdiffers
  exact ⟨result, c', hrun, not_conversation_of_differs hdiffers⟩

end AgentProof
