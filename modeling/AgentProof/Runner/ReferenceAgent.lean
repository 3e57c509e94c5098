import AgentProof.Judges.Containment
import AgentProof.Runner.Completion
import AgentProof.Runner.ModelClients
import AgentProof.Runner.Replay

/-!
# Runner/ReferenceAgent — how far the reference agent gets in its steps

The reference agent spends a round on each expected action and one more on its answer.  With `n`
expected actions and `max_steps` rounds it makes the first `min n max_steps` calls; it answers if
`n < max_steps` and runs out of rounds otherwise.

The run does not come that far if a call returns an object that has no JSON form: the proxy records
it, and the message that answers the call cannot be built.  **The law holds exactly if every call
returns something that is dumped** (`referenceAgent_boundary_iff`).
-/

open Machinery Machinery.Raising

namespace AgentProof

/-! ## The agent -/

/-- The call the agent makes of its `k`-th expected action. -/
def referenceCall (k : ℕ) (action : ExpectedAction) : ToolCallRequest where
  callId := s!"c{k + 1}"
  service := action.service
  operation := action.operation
  arguments := action.arguments

/-- The agent is at the end of its actions, or makes a call of the next one. -/
inductive ReferenceReply (task : BenchmarkTask) (k : ℕ) (reply : ModelReply) : ℕ → Prop
  | call (action : ExpectedAction) (haction : task.expectedActions[k]? = some action)
      (hcalls : reply.toolCalls = [referenceCall k action]) : ReferenceReply task k reply (k + 1)
  | answer (hend : task.expectedActions[k]? = none) (hcalls : reply.toolCalls = []) :
      ReferenceReply task k reply k

/-- **The agent replies at once**, and raises nothing. -/
theorem referenceAgent_reply (task : BenchmarkTask) (k : ℕ) (messages : Messages) (model : String)
    (params : Dict String Json) : ∃ reply k',
      (referenceAgentModelClient task).complete k messages model params = (.reply reply, k') ∧
        ReferenceReply task k reply k' ∧ reply.inputTokens = 0 ∧ reply.outputTokens = 0 := by
  cases haction : task.expectedActions[k]? with
  | some action =>
    refine ⟨_, k + 1, by simp only [referenceAgentModelClient, haction]; rfl, ?_, rfl, rfl⟩
    exact .call action haction rfl
  | none =>
    refine ⟨_, k, by simp only [referenceAgentModelClient, haction]; rfl, ?_, rfl, rfl⟩
    exact .answer haction rfl

/-- The agent's exchanges are its replies. -/
theorem referenceReply_of_exchange {task : BenchmarkTask} {version : AgentVersion}
    {messages : Messages} {k k' : ℕ} {reasons : List String} {reply : ModelReply}
    (h : Exchange (referenceAgentModelClient task) version messages k reasons reply k') :
    ReferenceReply task k reply k' := by
  obtain ⟨reply', k'', hcomplete, hreply, -⟩ :=
    referenceAgent_reply task k messages version.model version.config
  cases h with
  | reply h =>
    obtain ⟨hsame, rfl⟩ := Prod.mk.inj (hcomplete.symm.trans h)
    obtain rfl := ModelOutcome.reply.inj hsame
    exact hreply
  | retry h _ =>
    obtain ⟨hsame, -⟩ := Prod.mk.inj (hcomplete.symm.trans h)
    cases hsame

theorem referenceAgent_answers (task : BenchmarkTask) (version : AgentVersion)
    (maxModelRetries : ℕ) (messages : Messages) (k : ℕ) : ∃ reply k',
      Answers (referenceAgentModelClient task) version maxModelRetries messages k reply k' ∧
        ReferenceReply task k reply k' := by
  obtain ⟨reply, k', hcomplete, hreply, hinput, houtput⟩ :=
    referenceAgent_reply task k messages version.model version.config
  exact ⟨reply, k', ⟨⟨[], .reply hcomplete, Nat.zero_le _⟩, hinput.ge, houtput.ge⟩, hreply⟩

variable [Interpreter] (host : Host)

/-! ## What the calls come to -/

/-- What the calls of expected actions come to, one after the other. -/
def actionOutcomes : List ExpectedAction → SupportToolEnvironment → List (Except PyError PyValue)
  | [], _ => []
  | action :: actions, env =>
    match execute host action.service action.operation action.arguments env with
    | .ok value env' => .ok value :: actionOutcomes actions env'
    | .error e env' => .error e :: actionOutcomes actions env'

/-- What the calls that fit into the rounds come to, in the environment of the task. -/
def BenchmarkTask.outcomes (task : BenchmarkTask) (maxSteps : ℕ) :
    List (Except PyError PyValue) :=
  actionOutcomes host (task.expectedActions.take maxSteps) (.new task.initialState)

omit [Interpreter] in
/-- A call returned, or raised what the proxy catches. -/
def caughtOutcome : Except PyError PyValue → Bool
  | .ok _ => true
  | .error e => e.caughtByProxy

omit [Interpreter] in
/-- A call raised, or returned a value that is dumped. -/
def dumpedOutcome : Except PyError PyValue → Bool
  | .ok value => value.dump.isOk
  | .error _ => true

variable {host}

/-- What a call comes to can be recorded and answered. -/
def answeredOutcome (outcome : Except PyError PyValue) : Bool :=
  caughtOutcome outcome && dumpedOutcome outcome

omit [Interpreter] in
/-- A result is part of the conversation exactly if it is dumped. -/
theorem exists_modelDump_toolResult_iff {callId : String} {value : PyValue} :
    (∃ content, (StepPayload.toolResult callId value).modelDump = .ok content) ↔
      dumpedOutcome (.ok value) = true := by
  rw [dumpedOutcome, StepPayload.modelDump, StepPayload.dumpFields]
  cases value.dump with
  | error e =>
    refine iff_of_false ?_ Bool.false_ne_true
    rintro ⟨_, h⟩
    cases h
  | ok j => exact iff_of_true ⟨_, rfl⟩ rfl

/-- A call that returned is answered exactly if what it returned is dumped. -/
theorem callsComplete_of_ok_iff {call : ToolCallRequest} {env env' env'' : SupportToolEnvironment}
    {value : PyValue} (hrun : execute host call.service call.operation call.arguments env =
      .ok value env') :
    (∃ answers, CallsComplete host [call] env answers env'') ↔
      env'' = env' ∧ answeredOutcome (.ok value) = true := by
  constructor
  · rintro ⟨answers, hcomplete⟩
    cases hcomplete with
    | cons hclosing hcontent rest =>
      cases rest
      cases hclosing with
      | result hrun' =>
        obtain ⟨rfl, rfl⟩ := EStateM.Result.ok.inj (hrun.symm.trans hrun')
        exact ⟨rfl, exists_modelDump_toolResult_iff.mp ⟨_, hcontent⟩⟩
      | error hrun' _ => cases hrun.symm.trans hrun'
  · rintro ⟨rfl, hanswered⟩
    obtain ⟨content, hcontent⟩ := exists_modelDump_toolResult_iff.mpr hanswered
    exact ⟨_, .cons (.result hrun) hcontent (.nil _)⟩

/-- A call that raised is answered exactly if the proxy catches what it raised. -/
theorem callsComplete_of_error_iff {call : ToolCallRequest}
    {env env' env'' : SupportToolEnvironment} {e : PyError}
    (hrun : execute host call.service call.operation call.arguments env = .error e env') :
    (∃ answers, CallsComplete host [call] env answers env'') ↔
      env'' = env' ∧ answeredOutcome (.error e) = true := by
  rw [answeredOutcome, caughtOutcome, dumpedOutcome, Bool.and_true]
  constructor
  · rintro ⟨answers, hcomplete⟩
    cases hcomplete with
    | cons hclosing hcontent rest =>
      cases rest
      cases hclosing with
      | result hrun' => cases hrun.symm.trans hrun'
      | error hrun' hcaught =>
        obtain ⟨rfl, rfl⟩ := EStateM.Result.error.inj (hrun.symm.trans hrun')
        exact ⟨rfl, hcaught⟩
  · rintro ⟨rfl, hcaught⟩
    exact ⟨_, .cons (.error hrun hcaught) rfl (.nil _)⟩

/-- What an operation returns that is no reflected method is JSON. -/
theorem execute_dumped {service operation : String} (hpublic : ¬Reflected service operation)
    {arguments : Dict String Json} {env env' : SupportToolEnvironment} {value : PyValue}
    (h : execute host service operation arguments env = .ok value env') :
    dumpedOutcome (.ok value) = true := by
  by_cases hdeclared : Declared service operation
  · obtain ⟨op, rfl, rfl⟩ := declared_iff.mp hdeclared
    rw [execute, op.resolve, lift_ok_bind, Method.call, map_apply] at h
    cases hcall : op.call arguments env with
    | ok j env₁ =>
      rw [hcall] at h
      obtain ⟨rfl, -⟩ := EStateM.Result.ok.inj h
      rfl
    | error e env₁ =>
      rw [hcall] at h
      cases h
  · obtain ⟨message, hresolve⟩ := resolve_of_not_reflected hdeclared hpublic
    rw [execute, hresolve, lift_error_bind] at h
    cases h

/-- **Expected actions that name no reflected method return what is dumped.** -/
theorem dumped_of_not_reflected : ∀ {actions : List ExpectedAction} {env : SupportToolEnvironment},
    (∀ action ∈ actions, ¬Reflected action.service action.operation) →
      ∀ outcome ∈ actionOutcomes host actions env, dumpedOutcome outcome = true
  | [], _, _ => by simp [actionOutcomes]
  | action :: actions, env, h => by
    obtain ⟨hfirst, hrest⟩ := List.forall_mem_cons.mp h
    rw [actionOutcomes]
    split
    · rename_i value env' hrun
      exact List.forall_mem_cons.mpr ⟨execute_dumped hfirst hrun, dumped_of_not_reflected hrest⟩
    · exact List.forall_mem_cons.mpr ⟨rfl, dumped_of_not_reflected hrest⟩

/-- **The first call comes to something**, and is answered exactly if that can be. -/
theorem exists_outcome (k : ℕ) (action : ExpectedAction) (env : SupportToolEnvironment) :
    ∃ outcome env₁,
      (∀ actions, actionOutcomes host (action :: actions) env =
        outcome :: actionOutcomes host actions env₁) ∧
      ∀ env', (∃ answers, CallsComplete host [referenceCall k action] env answers env') ↔
        env' = env₁ ∧ answeredOutcome outcome = true := by
  cases hrun : execute host action.service action.operation action.arguments env with
  | ok value env₁ =>
    refine ⟨.ok value, env₁, fun actions => ?_, fun env' => ?_⟩
    · rw [actionOutcomes, hrun]
    · exact @callsComplete_of_ok_iff _ _ (referenceCall k action) _ _ _ _ hrun
  | error e env₁ =>
    refine ⟨.error e, env₁, fun actions => ?_, fun env' => ?_⟩
    · rw [actionOutcomes, hrun]
    · exact @callsComplete_of_error_iff _ _ (referenceCall k action) _ _ _ _ hrun

/-! ## When the run returns -/

section

variable (task : BenchmarkTask) (version : AgentVersion) (maxModelRetries : ℕ)

omit [Interpreter] in
/-- The actions from an action on. -/
theorem drop_of_getElem? {task : BenchmarkTask} {k : ℕ} {action : ExpectedAction}
    (h : task.expectedActions[k]? = some action) :
    task.expectedActions.drop k = action :: task.expectedActions.drop (k + 1) := by
  obtain ⟨hlt, rfl⟩ := List.getElem?_eq_some_iff.mp h
  exact List.drop_eq_getElem_cons hlt

/-- **A round with an action goes on exactly if its call is answered.** -/
theorem completes_succ_iff {remaining k : ℕ} {messages : Messages} {env : SupportToolEnvironment}
    {action : ExpectedAction} (haction : task.expectedActions[k]? = some action) :
    Completes host (referenceAgentModelClient task) version maxModelRetries (remaining + 1) messages
        k env ↔
      ∃ messages' env', (∃ answers, CallsComplete host [referenceCall k action] env answers env' ∧
          messages' = messages ++ [assistantMessage [referenceCall k action]] ++ answers) ∧
        Completes host (referenceAgentModelClient task) version maxModelRetries remaining messages'
          (k + 1) env' := by
  constructor
  · intro h
    cases h with
    | answered hanswers hcalls =>
      obtain ⟨reasons, hexchange, -⟩ := hanswers.exchange
      cases referenceReply_of_exchange hexchange with
      | call _ _ hcalls' => cases hcalls.symm.trans hcalls'
      | answer hend _ => cases haction.symm.trans hend
    | round hanswers _ hcalls hrest =>
      obtain ⟨reasons, hexchange, -⟩ := hanswers.exchange
      cases referenceReply_of_exchange hexchange with
      | call action' haction' hcalls' =>
        obtain rfl := Option.some.inj (haction.symm.trans haction')
        rw [hcalls'] at hcalls hrest
        exact ⟨_, _, ⟨_, hcalls, rfl⟩, hrest⟩
      | answer hend _ => cases haction.symm.trans hend
  · rintro ⟨_, env', ⟨answers, hcalls, rfl⟩, hrest⟩
    obtain ⟨reply, k', hanswers, hreply⟩ :=
      referenceAgent_answers task version maxModelRetries messages k
    cases hreply with
    | call action' haction' hcalls' =>
      obtain rfl := Option.some.inj (haction.symm.trans haction')
      rw [← hcalls'] at hcalls hrest
      exact .round hanswers (by rw [hcalls']; simp) hcalls hrest
    | answer hend _ => cases haction.symm.trans hend

/-- **The agent's rounds come to their end exactly if every call can be answered.**  Induction on
the rounds that are left. -/
theorem completes_referenceAgent_iff : ∀ {remaining k : ℕ} {messages : Messages}
      {env : SupportToolEnvironment},
    Completes host (referenceAgentModelClient task) version maxModelRetries remaining messages k
        env ↔
      ∀ outcome ∈ actionOutcomes host ((task.expectedActions.drop k).take remaining) env,
        answeredOutcome outcome = true := by
  intro remaining
  induction remaining with
  | zero =>
    intro k messages env
    rw [List.take_zero]
    exact iff_of_true (.exceeded messages k env) (by simp [actionOutcomes])
  | succ remaining ih =>
    intro k messages env
    cases haction : task.expectedActions[k]? with
    | none =>
      rw [List.drop_eq_nil_of_le (List.getElem?_eq_none_iff.mp haction), List.take_nil]
      refine iff_of_true ?_ (by simp [actionOutcomes])
      obtain ⟨reply, k', hanswers, hreply⟩ :=
        referenceAgent_answers task version maxModelRetries messages k
      cases hreply with
      | call action haction' => cases haction.symm.trans haction'
      | answer _ hcalls => exact .answered hanswers hcalls
    | some action =>
      obtain ⟨outcome, env₁, houtcomes, hanswered⟩ := exists_outcome k action env
      rw [completes_succ_iff task version maxModelRetries haction, drop_of_getElem? haction,
        List.take_succ_cons, houtcomes, List.forall_mem_cons]
      constructor
      · rintro ⟨_, env', ⟨answers, hcalls, rfl⟩, hrest⟩
        obtain ⟨rfl, hfirst⟩ := (hanswered env').mp ⟨answers, hcalls⟩
        exact ⟨hfirst, ih.mp hrest⟩
      · rintro ⟨hfirst, hrest⟩
        obtain ⟨answers, hcalls⟩ := (hanswered env₁).mpr ⟨rfl, hfirst⟩
        exact ⟨_, env₁, ⟨answers, hcalls, rfl⟩, ih.mpr hrest⟩

end

/-! ## What a run that returns did -/

/-- **The calls of the agent's run, and how it ends.** -/
theorem RunTrace.referenceAgent {task : BenchmarkTask} {version : AgentVersion}
    {maxSteps maxModelRetries remaining k k' : ℕ} {messages : Messages}
    {env env' : SupportToolEnvironment} {replies : List ModelReply} {steps : List TraceStep}
    {finalOutput : Option String}
    (h : RunTrace host (referenceAgentModelClient task) version maxSteps maxModelRetries remaining
      messages k env replies steps finalOutput k' env') :
    AgentProof.stepCalls steps =
        ((task.expectedActions.drop k).take remaining).map ExpectedAction.call ∧
      (finalOutput = none ↔ remaining ≤ (task.expectedActions.drop k).length) := by
  induction h with
  | exceeded hterminal _ => simp [AgentProof.stepCalls, TraceStep.toolCall?, hterminal]
  | @answered _ _ _ _ _ _ request response terminal retries hopening hcalls hterminal _ =>
    obtain ⟨reasons, hexchange, -⟩ := hopening.exchange
    rw [hopening.stepCalls_cons]
    cases referenceReply_of_exchange hexchange with
    | call _ _ hcalls' => cases hcalls.symm.trans hcalls'
    | answer hend _ =>
      rw [List.drop_eq_nil_of_le (List.getElem?_eq_none_iff.mp hend)]
      simp [AgentProof.stepCalls, TraceStep.toolCall?, hterminal]
  | @round _ _ _ _ _ _ _ _ _ _ _ request response retries calls steps _ hopening hne hcalls _ ih =>
    obtain ⟨reasons, hexchange, -⟩ := hopening.exchange
    rw [hopening.stepCalls_cons, stepCalls_append, hcalls.callSteps.stepCalls]
    cases referenceReply_of_exchange hexchange with
    | call action haction hcalls' =>
      rw [hcalls', ih.1, ih.2, drop_of_getElem? haction, List.take_succ_cons]
      exact ⟨rfl, by rw [List.length_cons, Nat.add_le_add_iff_right]⟩
    | answer _ hcalls' => exact absurd hcalls' hne

/-! ## The law -/

/-- **The boundary law**: the agent makes the first calls, as many as there are rounds; with rounds
to spare it answers and no expected action is missing, and otherwise the run is errored. -/
structure BoundaryLaw (task : BenchmarkTask) (maxSteps : ℕ) (result : RunnerResult) : Prop where
  count : (extractToolCalls result.trace).length = min task.expectedActions.length maxSteps
  calls : extractToolCalls result.trace =
    (task.expectedActions.take maxSteps).map ExpectedAction.call
  answered : task.expectedActions.length < maxSteps →
    (∃ content last, result.finalOutput = some content ∧
      result.trace.steps.getLast? = some last ∧ last.payload = .finalAnswer content) ∧
    result.maxStepsExceeded = false ∧ (scoreRun task result).missingExpectedActions = []
  exceeded : maxSteps ≤ task.expectedActions.length → result.maxStepsExceeded = true ∧
    (scoreExecution task result).1.status = .errored ∧
    (scoreExecution task result).1.passed = false

/-- A run that calls every expected action misses none. -/
theorem missing_eq_nil_of_calls {task : BenchmarkTask} (hkeys : task.WellKeyed)
    {result : RunnerResult}
    (hcalls : extractToolCalls result.trace = task.expectedActions.map ExpectedAction.call) :
    (scoreRun task result).missingExpectedActions = [] := by
  rw [scoreRun, scoreActions, hcalls]
  simp only [List.map_eq_nil_iff, List.filter_eq_nil_iff, Bool.not_eq_true', Bool.not_eq_false,
    List.any_eq_true]
  intro expected hexpected
  have hnodup := (Json.distinctKeys_obj_iff.mp (hkeys.expected expected hexpected)).1
  exact ⟨expected.call, List.mem_map_of_mem hexpected,
    matchesAction_iff.mpr ⟨rfl, rfl, itemsLe_refl hnodup⟩⟩

/-- **Every run of the agent that returns obeys the law.** -/
theorem boundaryLaw_of_runTask {version : AgentVersion} {task : BenchmarkTask}
    (hkeys : task.WellKeyed) {executionId : Option UUID} {maxSteps maxModelRetries c' : ℕ}
    {result : RunnerResult}
    (hrun : runTask host version task (referenceAgentModelClient task) executionId maxSteps
      maxModelRetries 0 = .ok result c') : BoundaryLaw task maxSteps result := by
  obtain ⟨replies, steps, env', htrace, hsteps, -, -, hexceeded⟩ := runTask_eq_ok hrun
  obtain ⟨hcalls, hend⟩ := htrace.referenceAgent
  rw [List.drop_zero] at hcalls hend
  have hmade : extractToolCalls result.trace =
      (task.expectedActions.take maxSteps).map ExpectedAction.call := by
    rw [extractToolCalls_eq, hsteps, stepCalls_settle, hcalls]
  refine ⟨?_, hmade, fun hlt => ⟨?_, ?_, ?_⟩, fun hle => ?_⟩
  · rw [hmade, List.length_map, List.length_take, min_comm]
  · obtain ⟨last, hlast, ⟨hnone, -⟩ | ⟨content, hcontent, hpayload⟩⟩ := htrace.last_settle env'
    · exact absurd (hend.mp hnone) (not_le.mpr hlt)
    · exact ⟨content, last, hcontent, hsteps ▸ hlast, hpayload⟩
  · rw [hexceeded, Option.isNone_eq_false_iff, ← Option.ne_none_iff_isSome]
    exact fun hnone => absurd (hend.mp hnone) (not_le.mpr hlt)
  · rw [List.take_of_length_le hlt.le] at hmade
    exact missing_eq_nil_of_calls hkeys hmade
  · have htrue : result.maxStepsExceeded = true := by
      rw [hexceeded, Option.isNone_iff_eq_none]
      exact hend.mpr hle
    refine ⟨htrue, ?_, ?_⟩ <;> simp only [scoreExecution, htrue, scoredStatus, if_true]

/-- **The law holds exactly if every value the calls return is dumped.**  Where a call raises, the
proxy is taken to catch it; that is no condition on what it returns. -/
theorem referenceAgent_boundary_iff {version : AgentVersion} {task : BenchmarkTask}
    {executionId : Option UUID} {maxSteps maxModelRetries : ℕ} (hkeys : task.WellKeyed)
    (hcaught : ∀ outcome ∈ task.outcomes host maxSteps, caughtOutcome outcome = true) :
    (∃ result c', runTask host version task (referenceAgentModelClient task) executionId maxSteps
        maxModelRetries 0 = .ok result c' ∧ BoundaryLaw task maxSteps result) ↔
      ∀ outcome ∈ task.outcomes host maxSteps, dumpedOutcome outcome = true := by
  have hanswered : (∀ outcome ∈ task.outcomes host maxSteps, answeredOutcome outcome = true) ↔
      ∀ outcome ∈ task.outcomes host maxSteps, dumpedOutcome outcome = true :=
    forall₂_congr fun outcome hmem => by rw [answeredOutcome, hcaught outcome hmem, Bool.true_and]
  have hcompletes : Completes host (referenceAgentModelClient task) version maxModelRetries maxSteps
      (initialMessages version task) 0 (.new task.initialState) ↔
        ∀ outcome ∈ task.outcomes host maxSteps, answeredOutcome outcome = true :=
    completes_referenceAgent_iff task version maxModelRetries
  rw [← hanswered]
  constructor
  · rintro ⟨result, c', hrun, -⟩
    exact hcompletes.mp (runTask_returns_iff.mp ⟨result, c', hrun⟩)
  · intro hall
    obtain ⟨result, c', hrun⟩ := runTask_returns_iff.mpr (hcompletes.mpr hall)
    exact ⟨result, c', hrun, boundaryLaw_of_runTask hkeys hrun⟩

omit [Interpreter] in
/-- The seed task, in the default number of steps: every call is answered. -/
theorem referenceAgent_boundary_iff_seed :
    let _ := cpython
    ∃ result c', runTask plainHost supportAgent customerRefundWithinPolicy
        (referenceAgentModelClient customerRefundWithinPolicy) none defaultMaxSteps
        defaultMaxModelRetries 0 = .ok result c' ∧
      BoundaryLaw customerRefundWithinPolicy defaultMaxSteps result :=
  let _ := cpython
  (referenceAgent_boundary_iff ⟨by decide, by decide, by decide, by decide⟩
    (by decide +kernel)).mpr (by decide +kernel)

/-- A host where calling the `__class__` of a service makes another service. -/
def reflectingHost : Host :=
  { plainHost with
    objectMethod := fun _ service name arguments =>
      if name = "__class__" then .ok (s!"tool_environment.services.{serviceClass service}", none)
      else .error (.builtinCall name (arguments.map Prod.fst)) }

/-- A task whose one expected action makes a service. -/
def reflectiveTask : BenchmarkTask where
  taskId := "support_reflective_001"
  input := "Customer CUST-001 asks who is there."
  initialState := []
  expectedActions := [⟨"customer", "__class__", [("state", .obj [])]⟩]
  forbiddenActions := []
  expectedFinalState := []
  tags := []
  difficulty := .easy

omit [Interpreter] in
/-- **A call may return what no message can hold**: it raises nothing, and the run raises. -/
theorem not_referenceAgent_boundary :
    let _ := cpython
    ¬∀ (host : Host) (version : AgentVersion) (task : BenchmarkTask) (executionId : Option UUID)
      (maxSteps maxModelRetries : ℕ), task.WellKeyed → 1 ≤ maxSteps →
      (∀ outcome ∈ task.outcomes host maxSteps, caughtOutcome outcome = true) →
      ∃ result c', runTask host version task (referenceAgentModelClient task) executionId maxSteps
        maxModelRetries 0 = .ok result c' ∧ BoundaryLaw task maxSteps result := by
  intro _ h
  obtain ⟨result, c', hrun, -⟩ := h reflectingHost supportAgent reflectiveTask none 2 0
    ⟨by decide, by decide, by decide, by decide⟩ (by decide) (by decide +kernel)
  have hraises : returned (runTask reflectingHost supportAgent reflectiveTask
      (referenceAgentModelClient reflectiveTask) none 2 0 0) = false := by decide +kernel
  rw [hrun] at hraises
  cases hraises

end AgentProof
