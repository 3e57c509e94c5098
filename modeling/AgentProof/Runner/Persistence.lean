import AgentProof.Runner.Live
import AgentProof.Runner.Worker

/-!
# Runner/Persistence — what an attempt stores

A run that returned can be stored: every one of its steps can be written as JSON, its events are
numbered `0, 1, 2, …`, and there is at least one.  An event that carries the next number is appended
at the end; one whose number is taken is refused.
-/

open Machinery Machinery.Raising

namespace AgentProof

/-! ## A run that returned can be stored -/

/-- The step can be written as JSON. -/
def TraceStep.Storable (step : TraceStep) : Prop := ∃ fields, step.payload.dumpFields = .ok fields

/-- A step is stored under its own number and type. -/
theorem TraceStep.Storable.storedStep {step : TraceStep} (h : step.Storable) :
    ∃ event, Trace.storedStep step = .ok event ∧ event.sequenceNo = step.sequenceNo ∧
      step.payload.dumpFields = .ok event.payload ∧
      event.eventType = step.payload.eventType := by
  obtain ⟨fields, hfields⟩ := h
  exact ⟨_, by rw [Trace.storedStep, hfields]; rfl, rfl, hfields, rfl⟩

theorem StepPayload.dumpFields_of_modelDump {payload : StepPayload} {content : Dict String Json}
    (h : payload.modelDump = .ok content) : ∃ fields, payload.dumpFields = .ok fields := by
  cases hfields : payload.dumpFields with
  | ok fields => exact ⟨fields, rfl⟩
  | error e =>
    rw [StepPayload.modelDump, hfields] at h
    exact absurd h (by simp [bind, Except.bind])

section Storable

variable {σ : Type}

/-- The payloads of a run that returned. -/
inductive RunnerPayload : StepPayload → Prop where
  | modelRequest (messages : Messages) (model : String) :
      RunnerPayload (.modelRequest messages model [])
  | modelResponse (content : Option String) (toolCalls : List (Dict String Json))
      (finishReason : String) (inputTokens outputTokens : ℕ) :
      RunnerPayload
        (.modelResponse content toolCalls finishReason (some inputTokens) (some outputTokens))
  | retry {attempt : ℕ} (h : 1 ≤ attempt) (reason : String) : RunnerPayload (.retry attempt reason)
  | toolCall (call : ToolCallRequest) :
      RunnerPayload (.toolCall call.callId call.service call.operation call.arguments)
  | toolResult (callId : String) {result : PyValue} {j : Json} (h : result.dump = .ok j) :
      RunnerPayload (.toolResult callId result)
  | error (errorType message : String) : RunnerPayload (.error errorType message)
  | finalAnswer (content : String) : RunnerPayload (.finalAnswer content)

/-- What a runner logs can be written as JSON. -/
theorem RunnerPayload.storable {payload : StepPayload} (h : RunnerPayload payload) :
    ∃ fields, payload.dumpFields = .ok fields := by
  cases h with
  | toolResult _ h =>
    rw [StepPayload.dumpFields, h]
    exact ⟨_, rfl⟩
  | _ => exact ⟨_, rfl⟩

variable [Interpreter] {host : Host} {later : SupportToolEnvironment}

/-- A call that was answered was closed by what can still be written. -/
theorem Closing.payload {call : ToolCallRequest} {env env' : SupportToolEnvironment}
    {payload : StepPayload} (h : Closing host call env payload env') {content : Dict String Json}
    (hcontent : payload.modelDump = .ok content) (hkeeps : env'.KeepsReadable later) :
    RunnerPayload (payload.settle later) := by
  obtain ⟨fields, hfields⟩ := StepPayload.dumpFields_of_modelDump hcontent
  obtain ⟨fields', hfields'⟩ := h.dumpFields_settle hfields hkeeps
  cases h with
  | error => exact .error _ _
  | @result value =>
    cases hdump : (value.settle later).dump with
    | ok j => exact .toolResult _ hdump
    | error e =>
      rw [StepPayload.settle, StepPayload.dumpFields, hdump] at hfields'
      cases hfields'

theorem CallsRun.payloads {calls : List ToolCallRequest} {env env' : SupportToolEnvironment}
    {steps : List TraceStep} {answers : Messages} (h : CallsRun host calls env steps answers env')
    (hkeeps : env'.KeepsReadable later) :
    ∀ step ∈ steps, RunnerPayload (step.payload.settle later) := by
  induction h with
  | nil => simp
  | @cons call _ _ _ _ _ _ _ _ _ hcall _ hclosing _ hcontent hrest ih =>
    have hlast := hclosing.payload hcontent (hrest.keepsReadable.trans hkeeps)
    refine List.forall_mem_cons.mpr ⟨?_, List.forall_mem_cons.mpr ⟨hlast, ih hkeeps⟩⟩
    rw [hcall]
    exact .toolCall call

omit [Interpreter] in
theorem payloads_retry {reasons : List String} :
    ∀ {attempt : ℕ} {retries : List TraceStep}, 1 ≤ attempt →
      retries.map (·.payload) = retryPayloads attempt reasons →
      ∀ step ∈ retries, RunnerPayload (step.payload.settle later) := by
  induction reasons with
  | nil =>
    intro attempt retries _ h
    obtain rfl : retries = [] := List.map_eq_nil_iff.mp h
    simp
  | cons reason reasons ih =>
    intro attempt retries hattempt h
    obtain ⟨step, rest, rfl, hstep, hrest⟩ := List.map_eq_cons_iff.mp h
    refine List.forall_mem_cons.mpr ⟨?_, ih (hattempt.trans (Nat.le_succ attempt)) hrest⟩
    rw [hstep]
    exact .retry hattempt reason

omit [Interpreter] in
theorem Opening.payloads {client : ModelClient σ} {version : AgentVersion} {maxModelRetries : ℕ}
    {messages : Messages} {c c' : σ} {reply : ModelReply} {request response : TraceStep}
    {retries : List TraceStep}
    (h : Opening client version maxModelRetries messages c reply c' request retries response) :
    ∀ step ∈ request :: retries ++ [response], RunnerPayload (step.payload.settle later) := by
  obtain ⟨reasons, -, -, hretries⟩ := h.exchange
  obtain ⟨inputTokens, outputTokens, -, -, hresponse⟩ := h.response_payload
  intro step hmem
  rcases List.mem_append.mp hmem with hmem | hmem
  · rcases List.mem_cons.mp hmem with rfl | hmem
    · rw [h.request_payload]
      exact .modelRequest _ _
    · exact payloads_retry le_rfl hretries step hmem
  · obtain rfl := List.mem_singleton.mp hmem
    rw [hresponse]
    exact .modelResponse _ _ _ _ _

/-- **What a run logs, and that it logs something.** -/
theorem RunTrace.payloads {client : ModelClient σ} {version : AgentVersion}
    {maxSteps maxModelRetries remaining : ℕ} {messages : Messages} {c c' : σ}
    {env env' : SupportToolEnvironment} {replies : List ModelReply} {steps : List TraceStep}
    {finalOutput : Option String}
    (h : RunTrace host client version maxSteps maxModelRetries remaining messages c env replies
      steps finalOutput c' env') (hkeeps : env'.KeepsReadable later) :
    steps ≠ [] ∧ ∀ step ∈ steps, RunnerPayload (step.payload.settle later) := by
  induction h with
  | exceeded hterminal =>
    refine ⟨by simp, List.forall_mem_singleton.mpr ?_⟩
    rw [hterminal]
    exact .error _ _
  | @answered _ _ _ _ _ _ request response terminal retries hopening _ hterminal _ =>
    refine ⟨by simp, fun step hmem => ?_⟩
    have hmem' : step ∈ request :: retries ++ [response] ∨ step = terminal := by
      simpa [or_assoc] using hmem
    rcases hmem' with hmem | rfl
    · exact hopening.payloads step hmem
    · rw [hterminal]
      exact .finalAnswer _
  | @round _ _ _ _ _ _ _ _ _ _ _ request response retries calls steps _ hopening _ hcalls hrest
      ih =>
    refine ⟨by simp, fun step hmem => ?_⟩
    have hmem' : step ∈ request :: retries ++ [response] ∨ step ∈ calls ∨ step ∈ steps := by
      simpa [or_assoc] using hmem
    rcases hmem' with hmem | hmem | hmem
    · exact hopening.payloads step hmem
    · exact hcalls.payloads (hrest.keepsReadable.trans hkeeps) step hmem
    · exact (ih hkeeps).2 step hmem

/-- A run that returned, as a `RunTrace` over a fresh environment, whose steps are read when it is
over. -/
theorem runTask_eq_ok {version : AgentVersion} {task : BenchmarkTask}
    {client : ModelClient σ} {executionId : Option UUID} {maxSteps maxModelRetries : ℕ}
    {c c' : σ} {result : RunnerResult}
    (h : runTask host version task client executionId maxSteps maxModelRetries c = .ok result c') :
    ∃ replies steps env', RunTrace host client version maxSteps maxModelRetries maxSteps
        (initialMessages version task) c (.new task.initialState) replies steps
        result.finalOutput c' env' ∧
      result.trace.steps = steps.map (.settle env') ∧ result.trace.Numbered ∧
      result.finalState = env'.snapshot ∧ result.maxStepsExceeded = result.finalOutput.isNone := by
  obtain ⟨totals, s, hrun, rfl, rfl⟩ := runRounds_of_runTask h
  obtain ⟨replies, steps, hsteps, htrace, -, -, hexceeded⟩ :=
    runRounds_trace _ client version maxSteps maxModelRetries hrun
  obtain ⟨htraceEq, hnumbered⟩ := htrace
  refine ⟨replies, steps, s.proxy.environment, hsteps, ?_,
    (hnumbered (Trace.numbered_nil _)).settled _, rfl, hexceeded⟩
  rw [Trace.settled, htraceEq]
  rfl

/-- **What a run that returned logged**, and that it logged something. -/
theorem runTask_payloads {version : AgentVersion} {task : BenchmarkTask} {client : ModelClient σ}
    {executionId : Option UUID} {maxSteps maxModelRetries : ℕ} {c c' : σ} {result : RunnerResult}
    (h : runTask host version task client executionId maxSteps maxModelRetries c = .ok result c') :
    result.trace.steps ≠ [] ∧ ∀ step ∈ result.trace.steps, RunnerPayload step.payload := by
  obtain ⟨replies, steps, env', htrace, hsteps, -⟩ := runTask_eq_ok h
  obtain ⟨hne, hpayloads⟩ := htrace.payloads (.refl env')
  rw [hsteps]
  exact ⟨by simpa using hne, List.forall_mem_map.mpr hpayloads⟩

/-- The events of a run: a non-empty list numbered from `0`. -/
structure EventsOf (trace : Trace) (events : List TraceEventCreate) : Prop where
  toStorage : trace.toStorage = .ok events
  ne_nil : events ≠ []
  numbered : events.map (·.sequenceNo) = List.range events.length

omit [Interpreter] in
/-- An event is numbered by its position. -/
theorem EventsOf.sequenceNo_getElem {trace : Trace} {events : List TraceEventCreate}
    (h : EventsOf trace events) {k : ℕ} (hk : k < events.length) : events[k].sequenceNo = k := by
  have hget := congrArg (·[k]?) h.numbered
  simpa [hk] using hget

omit [Interpreter] in
theorem EventsOf.length_pos {trace : Trace} {events : List TraceEventCreate}
    (h : EventsOf trace events) : 0 < events.length := List.length_pos_iff.mpr h.ne_nil

omit [Interpreter] in
theorem mapM_storedStep {steps : List TraceStep} (h : ∀ step ∈ steps, step.Storable) :
    ∃ events, steps.mapM Trace.storedStep = .ok events ∧ events.length = steps.length ∧
      events.map (·.sequenceNo) = steps.map (·.sequenceNo) := by
  induction steps with
  | nil => exact ⟨[], rfl, rfl, rfl⟩
  | cons step steps ih =>
    obtain ⟨hstep, hsteps⟩ := List.forall_mem_cons.mp h
    obtain ⟨event, hevent, hno, -⟩ := hstep.storedStep
    obtain ⟨events, hevents, hlength, hnos⟩ := ih hsteps
    refine ⟨event :: events, ?_, by simp [hlength], by simp [hno, hnos]⟩
    rw [List.mapM_cons, hevent, hevents]
    rfl

/-- A job's run is a run of its client. -/
theorem runJob_eq_ok {host : Host} {modelClient : Option ClientInstance} {version : AgentVersion}
    {task : BenchmarkTask} {executionId : UUID} {result : RunnerResult}
    (h : runJob host modelClient version task executionId = .ok result) :
    ∃ c', runTask host version task (clientFor modelClient task).client (some executionId)
      defaultMaxSteps defaultMaxModelRetries (clientFor modelClient task).state = .ok result c' := by
  rw [runJob] at h
  cases hrun : runTask host version task (clientFor modelClient task).client (some executionId)
      defaultMaxSteps defaultMaxModelRetries (clientFor modelClient task).state with
  | error e c => simp [hrun] at h
  | ok result' c =>
    obtain rfl : result' = result := by simpa [hrun] using h
    exact ⟨c, rfl⟩

/-- **A run that returned has its events.** -/
theorem runJob_events {host : Host} {modelClient : Option ClientInstance} {version : AgentVersion}
    {task : BenchmarkTask} {executionId : UUID} {result : RunnerResult}
    (h : runJob host modelClient version task executionId = .ok result) :
    ∃ events, EventsOf result.trace events := by
  obtain ⟨c', hrun⟩ := runJob_eq_ok h
  obtain ⟨replies, steps, env', -, -, hnumbered, -, -⟩ := runTask_eq_ok hrun
  obtain ⟨hne, hpayloads⟩ := runTask_payloads hrun
  obtain ⟨events, hevents, hlength, hnos⟩ :=
    mapM_storedStep fun step hmem => (hpayloads step hmem).storable
  refine ⟨events, hevents, fun hnil => hne ?_, ?_⟩
  · rw [hnil] at hlength
    exact List.eq_nil_of_length_eq_zero hlength.symm
  · rw [hnos, hlength]
    exact hnumbered

end Storable

end AgentProof
