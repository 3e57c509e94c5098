import AgentProof.Judges.Congruence
import AgentProof.Runner.Live
import AgentProof.Runner.Shape
import AgentProof.ToolEnvironment.Congruence

/-!
# Runner/Replay — the tool calls of a run determine its final state

The environment a run ends with is its tool calls replayed on a fresh one (`RunTrace.replay`),
whatever the model said, retried or was answered.  So two runs whose calls are `==` end in states
that are (`replay_sim`), as long as the calls name public operations or nothing at all: a reflected
name could rewire a service.
-/

open Machinery Machinery.Raising

namespace AgentProof

/-- The operation is public, or unknown to the environment. -/
def ToolCall.PublicOrUnknown (call : ToolCall) : Prop :=
  Declared call.service call.operation ∨
    ∃ message, resolve call.service call.operation = .error (.unknownTool message)

variable [Interpreter]

/-! ## Replaying -/

/-- What a tool call leaves of the environment. -/
def ToolCall.run (host : Host) (env : SupportToolEnvironment) (call : ToolCall) :
    SupportToolEnvironment :=
  stateOf (execute host call.service call.operation call.arguments env)

/-- Tool calls, one after the other. -/
def replay (host : Host) (calls : List ToolCall) (env : SupportToolEnvironment) :
    SupportToolEnvironment :=
  calls.foldl (ToolCall.run host) env

variable {host : Host}

theorem CallsRun.replay {calls : List ToolCallRequest} {env env' : SupportToolEnvironment}
    {steps : List TraceStep} {answers : Messages} (h : CallsRun host calls env steps answers env') :
    AgentProof.replay host (calls.map (·.toolCall)) env = env' := by
  induction h with
  | nil => rfl
  | cons _ _ hclosing _ _ _ ih =>
    rw [← ih, ← hclosing.stateOf_eq]
    rfl

omit [Interpreter] in
theorem stepCalls_append (steps steps' : List TraceStep) :
    stepCalls (steps ++ steps') = stepCalls steps ++ stepCalls steps' := List.filterMap_append

section RunTrace

variable {σ : Type} {client : ModelClient σ} {version : AgentVersion}
  {maxSteps maxModelRetries remaining : ℕ} {messages : Messages} {c c' : σ}
  {env env' : SupportToolEnvironment} {replies : List ModelReply} {steps : List TraceStep}
  {finalOutput : Option String}

omit [Interpreter] in
/-- The tool calls of a round are those that follow its opening. -/
theorem Opening.stepCalls_cons {reply : ModelReply} {request response : TraceStep}
    {retries : List TraceStep}
    (h : Opening client version maxModelRetries messages c reply c' request retries response)
    (steps : List TraceStep) :
    AgentProof.stepCalls (request :: retries ++ response :: steps) = AgentProof.stepCalls steps := by
  rw [show request :: retries ++ response :: steps = (request :: retries ++ [response]) ++ steps by
    simp, stepCalls_append, h.stepCalls, List.nil_append]

/-- **A run ends in its tool calls, replayed.** -/
theorem RunTrace.replay
    (h : RunTrace host client version maxSteps maxModelRetries remaining messages c env replies
      steps finalOutput c' env') : AgentProof.replay host (stepCalls steps) env = env' := by
  induction h with
  | exceeded hterminal => simp [stepCalls, TraceStep.toolCall?, hterminal, AgentProof.replay]
  | @answered _ _ _ _ _ _ request response terminal retries hopening _ hterminal _ =>
    have hlast : stepCalls [terminal] = [] := by simp [stepCalls, TraceStep.toolCall?, hterminal]
    rw [hopening.stepCalls_cons, hlast]
    rfl
  | @round _ _ _ _ _ _ _ _ _ _ _ request response retries calls steps _ hopening _ hcalls _ ih =>
    rw [hopening.stepCalls_cons, stepCalls_append, hcalls.callSteps.stepCalls, AgentProof.replay,
      List.foldl_append]
    exact (congrArg _ hcalls.replay).trans ih

/-- **A run that hands out no service reads the same ever after.** -/
theorem RunTrace.settle_eq
    (h : RunTrace host client version maxSteps maxModelRetries remaining messages c env replies
      steps finalOutput c' env')
    (hstate : ∀ call ∈ stepCalls steps,
      ¬ HandsOutState call.service call.operation call.arguments)
    (later : SupportToolEnvironment) : steps.map (.settle later) = steps := by
  induction h with
  | exceeded hterminal =>
    simp [TraceStep.settle_of_ne, hterminal, StepPayload.eventType]
  | @answered _ _ _ _ _ _ request response terminal retries hopening _ hterminal _ =>
    rw [hopening.settle]
    simp [TraceStep.settle_of_ne, hterminal, StepPayload.eventType]
  | @round _ _ _ _ _ _ _ _ _ _ _ request response retries calls steps _ hopening _ hcalls _ ih =>
    rw [hopening.stepCalls_cons, stepCalls_append, hcalls.callSteps.stepCalls] at hstate
    have hfirst := hcalls.settle_eq (fun call hcall =>
      hstate _ (List.mem_append_left _ (List.mem_map_of_mem hcall))) later
    have hrest := ih fun call hcall => hstate call (List.mem_append_right _ hcall)
    rw [hopening.settle, List.map_append, hfirst, hrest]

/-- How a run ends can be read off its last step. -/
theorem RunTrace.last
    (h : RunTrace host client version maxSteps maxModelRetries remaining messages c env replies
      steps finalOutput c' env') :
    ∃ last, steps.getLast? = some last ∧
      ((finalOutput = none ∧ last.payload.eventType = .error) ∨
        ∃ content, finalOutput = some content ∧ last.payload = .finalAnswer content) := by
  induction h with
  | @exceeded _ _ _ terminal hterminal =>
    exact ⟨terminal, rfl, .inl ⟨rfl, by rw [hterminal]; rfl⟩⟩
  | @answered _ _ _ _ _ reply _ _ terminal _ _ _ hterminal _ =>
    exact ⟨terminal, by simp [List.getLast?_cons, List.getLast?_append], .inr ⟨_, rfl, hterminal⟩⟩
  | round _ _ _ _ ih =>
    obtain ⟨last, hlast, hend⟩ := ih
    exact ⟨last, by simp [List.getLast?_cons, List.getLast?_append, hlast], hend⟩

/-- Its last step reads the same whenever it is read. -/
theorem RunTrace.last_settle
    (h : RunTrace host client version maxSteps maxModelRetries remaining messages c env replies
      steps finalOutput c' env') (later : SupportToolEnvironment) :
    ∃ last, (steps.map (TraceStep.settle later)).getLast? = some last ∧
      ((finalOutput = none ∧ last.payload.eventType = .error) ∨
        ∃ content, finalOutput = some content ∧ last.payload = .finalAnswer content) := by
  obtain ⟨last, hlast, hend⟩ := h.last
  have hsame : last.settle later = last := by
    refine TraceStep.settle_of_ne later ?_
    rcases hend with ⟨-, htype⟩ | ⟨content, -, hpayload⟩
    · simp [htype]
    · simp [hpayload, StepPayload.eventType]
  exact ⟨last, by rw [List.getLast?_map, hlast, Option.map_some, hsame], hend⟩

end RunTrace

/-! ## Two runs -/

omit [Interpreter] in
/-- Related environments have `==` snapshots. -/
theorem Sim.snapshot {env env' : SupportToolEnvironment} (h : Sim env env') :
    Json.Alike (.obj env.snapshot) (.obj env'.snapshot) := by
  have halike : ∀ c : Collection, (env.state.get c).Alike (env'.state.get c) :=
    fun c => (h.rel c).alike
  exact Json.Alike.fields ([.customers, .orders, .refunds, .replacements, .tickets].map
    fun c : Collection => (c.key, env.state.get c, env'.state.get c)) (by simp [halike])

end AgentProof
