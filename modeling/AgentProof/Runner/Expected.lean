import AgentProof.Runner.Persistence
import AgentProof.Runner.Shape

/-!
# Runner/Expected — what a passed run did of what was expected

The scorer looks for the *shape* of an expected action among the calls that were made, and never at
what became of them.  A run that passed has made every expected call and recorded its outcome
(`expected_recorded`); that outcome may be an error, even on a seed task (`not_carried_out`).
-/

open Machinery

namespace AgentProof

/-! ## Recorded calls -/

/-- The call is recorded, and right after it, as its child, its outcome. -/
def Outcome (steps : List TraceStep) (call : ToolCall) (outcome : StepPayload) : Prop :=
  ∃ callStep closing, [callStep, closing] <:+: steps ∧ callStep.toolCall? = some call ∧
    closing.parentStepId = some callStep.id ∧ closing.payload = outcome

/-- The payload closes a tool call. -/
def StepPayload.IsOutcome (payload : StepPayload) : Prop :=
  payload.eventType = .toolResult ∨ payload.eventType = .error

/-- Every call that is recorded is recorded with its outcome. -/
def CallsClosed (steps : List TraceStep) : Prop :=
  ∀ call ∈ stepCalls steps, ∃ outcome, Outcome steps call outcome ∧ outcome.IsOutcome

theorem Outcome.mono {steps steps' : List TraceStep} {call : ToolCall} {outcome : StepPayload}
    (h : Outcome steps call outcome) (hsteps : steps <:+: steps') :
    Outcome steps' call outcome := by
  obtain ⟨callStep, closing, hpart, hcall⟩ := h
  exact ⟨callStep, closing, hpart.trans hsteps, hcall⟩

theorem CallsClosed.append {steps steps' : List TraceStep} (h : CallsClosed steps)
    (h' : CallsClosed steps') : CallsClosed (steps ++ steps') := by
  intro call hmem
  rw [stepCalls, List.filterMap_append] at hmem
  rcases List.mem_append.mp hmem with hmem | hmem
  · obtain ⟨outcome, houtcome, hkind⟩ := h call hmem
    exact ⟨outcome, houtcome.mono (List.prefix_append ..).isInfix, hkind⟩
  · obtain ⟨outcome, houtcome, hkind⟩ := h' call hmem
    exact ⟨outcome, houtcome.mono (List.suffix_append ..).isInfix, hkind⟩

/-- Steps that make no call have none to close. -/
theorem callsClosed_of_stepCalls {steps : List TraceStep} (h : stepCalls steps = []) :
    CallsClosed steps := by
  intro call hmem
  rw [h] at hmem
  exact absurd hmem (by simp)

theorem CallSteps.callsClosed {calls : List ToolCallRequest} {steps : List TraceStep}
    (h : CallSteps calls steps) : CallsClosed steps := by
  induction h with
  | nil => exact callsClosed_of_stepCalls rfl
  | @cons call _ callStep closing steps hcall hclosing hparent _ ih =>
    have hkind : closing.payload.IsOutcome := by
      rcases hclosing with ⟨result, h⟩ | ⟨errorType, message, h⟩ <;> rw [h]
      · exact .inl rfl
      · exact .inr rfl
    have hnone : closing.toolCall? = none := by
      rcases hclosing with ⟨result, h⟩ | ⟨errorType, message, h⟩ <;> rw [TraceStep.toolCall?, h]
    have hpair : CallsClosed [callStep, closing] := by
      intro made hmem
      have hmade : callStep.toolCall? = some made := by
        cases hstep : callStep.toolCall? with
        | none => simp [AgentProof.stepCalls, hstep, hnone] at hmem
        | some made' =>
          obtain rfl : made = made' := by simpa [AgentProof.stepCalls, hstep, hnone] using hmem
          rfl
      exact ⟨_, ⟨callStep, closing, List.infix_refl _, hmade, hparent, rfl⟩, hkind⟩
    exact hpair.append ih

section

variable {σ : Type} {client : ModelClient σ} {version : AgentVersion}
  {maxSteps maxModelRetries remaining : ℕ} {messages : Messages} {c c' : σ}

theorem Rounds.callsClosed {replies : List ModelReply} {rounds : List (List TraceStep)}
    (h : Rounds client version maxModelRetries c replies rounds c') :
    CallsClosed rounds.flatten := by
  induction h with
  | nil => exact callsClosed_of_stepCalls rfl
  | @cons _ _ _ _ _ _ request response retries calls rounds hopening hcalls _ ih =>
    rw [List.flatten_cons, show request :: retries ++ response :: calls =
      (request :: retries ++ [response]) ++ calls by simp]
    exact ((callsClosed_of_stepCalls hopening.stepCalls).append hcalls.callsClosed).append ih

end

variable [Interpreter]

/-- **Every call of a run is recorded with its outcome.** -/
theorem runTask_callsClosed {σ : Type} {host : Host} {version : AgentVersion}
    {task : BenchmarkTask} {client : ModelClient σ} {executionId : Option UUID}
    {maxSteps maxModelRetries : ℕ} {c c' : σ} {result : RunnerResult}
    (h : runTask host version task client executionId maxSteps maxModelRetries c = .ok result c') :
    CallsClosed result.trace.steps := by
  obtain ⟨replies, rounds, terminal, hsteps, hrounds, hterminal, -⟩ := runTask_rounds h
  rw [hsteps]
  refine hrounds.callsClosed.append (callsClosed_of_stepCalls ?_)
  generalize result.finalOutput = finalOutput at hterminal
  cases hterminal with
  | finalAnswer _ _ _ _ hpayload => simp [stepCalls, TraceStep.toolCall?, hpayload]
  | maxStepsExceeded _ _ hpayload => simp [stepCalls, TraceStep.toolCall?, hpayload]

/-! ## What passing takes -/

/-- The call has the shape of the expected action. -/
def ExpectedAction.MetBy (expected : ExpectedAction) (call : ToolCall) : Prop :=
  call.matchesAction expected.service expected.operation expected.arguments = true

/-- A contract that passed misses no expected action. -/
theorem exists_call_of_passed {task : BenchmarkTask} {toolCalls : List ToolCall}
    {finalState : Dict String Json} (h : (scoreActions task toolCalls finalState).passed = true)
    {expected : ExpectedAction} (hexpected : expected ∈ task.expectedActions) :
    ∃ call ∈ toolCalls, expected.MetBy call := by
  rw [scoreActions] at h
  simp only [Bool.and_eq_true, List.isEmpty_iff, List.map_eq_nil_iff, List.filter_eq_nil_iff] at h
  obtain ⟨⟨hmissing, -⟩, -⟩ := h
  have hmet := hmissing expected hexpected
  simpa [ExpectedAction.MetBy] using hmet

/-- **Every expected action of a run that passed was called, and the call's outcome recorded.** -/
theorem expected_recorded {σ : Type} {host : Host} {version : AgentVersion}
    {task : BenchmarkTask} {client : ModelClient σ} {executionId : Option UUID}
    {maxSteps maxModelRetries : ℕ} {c c' : σ} {result : RunnerResult}
    (hrun : runTask host version task client executionId maxSteps maxModelRetries c =
      .ok result c')
    (hpassed : (scoreExecution task result).1.status = .passed) :
    ∀ expected ∈ task.expectedActions, ∃ call outcome, expected.MetBy call ∧
      Outcome result.trace.steps call outcome ∧ outcome.IsOutcome := by
  intro expected hexpected
  have hscore : (scoreRun task result).passed = true := by
    cases hscored : (scoreRun task result).passed with
    | true => rfl
    | false =>
      simp only [scoreExecution, hscored, scoredStatus] at hpassed
      split at hpassed <;> exact absurd hpassed (by simp)
  obtain ⟨call, hmem, hmet⟩ := exists_call_of_passed hscore hexpected
  obtain ⟨outcome, houtcome, hkind⟩ := runTask_callsClosed hrun call hmem
  exact ⟨call, outcome, hmet, houtcome, hkind⟩

/-! ### A passed run whose first expected action failed -/

/-- A model that does what the seed task expects, but looks the customer up with an argument the
operation does not take. -/
def carelessScript : List ModelOutcome :=
  let extra : String → Dict String Json
    | "create_refund" =>
      [("requesting_customer_id", .str "CUST-001"), ("reason", .str "damaged_item")]
    | "get_customer" => [("verbose", .bool true)]
    | _ => []
  (customerRefundWithinPolicy.expectedActions.map fun action =>
    .reply {
      finishReason := "tool_calls"
      toolCalls := [⟨"c1", action.service, action.operation,
        action.arguments ++ extra action.operation⟩] }) ++
    [.reply { finishReason := "stop", content := some "Done." }]

omit [Interpreter] in
/-- Neighbours are paired with each other. -/
theorem mem_zip_tail_of_adjacent {α : Type} {a b : α} {l : List α} (h : [a, b] <:+: l) :
    (a, b) ∈ l.zip l.tail := by
  obtain ⟨pre, post, rfl⟩ := h
  induction pre with
  | nil => simp
  | cons x pre ih =>
    cases pre with
    | nil => simp
    | cons y pre => exact List.mem_cons_of_mem _ ih

omit [Interpreter] in
/-- **An expected action counts although it failed**: on a seed task, a run passes whose every
lookup of the customer ended in an error. -/
theorem not_carried_out :
    let _ := cpython
    ∃ result c', runTask plainHost supportAgent customerRefundWithinPolicy scriptedModelClient
        (some "execution") defaultMaxSteps defaultMaxModelRetries carelessScript = .ok result c' ∧
      (scoreExecution customerRefundWithinPolicy result).1.status = .passed ∧
      ∃ expected ∈ customerRefundWithinPolicy.expectedActions, ¬ ∃ call outcome,
        expected.MetBy call ∧ Outcome result.trace.steps call outcome ∧
          outcome.eventType = .toolResult := by
  intro _
  let lookup : ExpectedAction := ⟨"customer", "get_customer", [("customer_id", .str "CUST-001")]⟩
  have hcomputed : ∃ result, runJob plainHost (some ⟨_, scriptedModelClient, carelessScript⟩)
        supportAgent customerRefundWithinPolicy "execution" = .ok result ∧
      ((scoreExecution customerRefundWithinPolicy result).1.status = .passed ∧
        ∀ pair ∈ result.trace.steps.zip result.trace.steps.tail,
          (pair.1.toolCall?.any (ToolCall.matchesAction lookup.service lookup.operation
            lookup.arguments)) = true → pair.2.payload.eventType ≠ .toolResult) := by
    decide +kernel
  obtain ⟨result, hjob, hpassed, hlookups⟩ := hcomputed
  obtain ⟨c', hrun⟩ := runJob_eq_ok hjob
  refine ⟨result, c', hrun, hpassed, lookup, by decide, ?_⟩
  rintro ⟨call, outcome, hmet, ⟨callStep, closing, hpart, hcall, -, rfl⟩, hresult⟩
  refine hlookups (callStep, closing) (mem_zip_tail_of_adjacent hpart) ?_ hresult
  rw [hcall]
  exact hmet

omit [Interpreter] in
theorem expected_recorded_careless :
    let _ := cpython
    ∃ result c', runTask plainHost supportAgent customerRefundWithinPolicy scriptedModelClient
        (some "execution") defaultMaxSteps defaultMaxModelRetries carelessScript = .ok result c' ∧
      ∀ expected ∈ customerRefundWithinPolicy.expectedActions, ∃ call outcome,
        expected.MetBy call ∧ Outcome result.trace.steps call outcome ∧ outcome.IsOutcome := by
  intro _
  have hcomputed : ∃ result, runJob plainHost (some ⟨_, scriptedModelClient, carelessScript⟩)
        supportAgent customerRefundWithinPolicy "execution" = .ok result ∧
      (scoreExecution customerRefundWithinPolicy result).1.status = .passed := by
    decide +kernel
  obtain ⟨result, hjob, hpassed⟩ := hcomputed
  obtain ⟨c', hrun⟩ := runJob_eq_ok hjob
  exact ⟨result, c', hrun, expected_recorded hrun hpassed⟩

end AgentProof
