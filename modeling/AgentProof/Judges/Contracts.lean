import AgentProof.Runner.Runner

/-!
# Judges/Contracts — scoring a run against its task's contract

An expected action is met by a tool call of the same service and operation whose arguments contain
the expected ones; a forbidden action is seen in the same way; and the expected final state has to
be contained in the actual one.  Everything is compared by `==`.
-/

open Machinery

namespace AgentProof

/-- `judges.contracts.ToolCall` -/
structure ToolCall where
  service : String
  operation : String
  arguments : Dict String Json
  deriving DecidableEq

/-- The call a step records. -/
def TraceStep.toolCall? (step : TraceStep) : Option ToolCall :=
  match step.payload with
  | .toolCall _ service operation arguments => some ⟨service, operation, arguments⟩
  | _ => none

/-- A step of another type records none. -/
theorem TraceStep.toolCall?_eq_none {step : TraceStep} (h : step.payload.eventType ≠ .toolCall) :
    step.toolCall? = none := by
  rw [toolCall?]
  cases hpayload : step.payload with
  | toolCall => exact absurd (by rw [hpayload]; rfl) h
  | _ => rfl

/-- `extract_tool_calls` -/
def extractToolCalls (trace : Trace) : List ToolCall := trace.steps.filterMap (·.toolCall?)

/-- `expected.items() <= actual.items()` -/
def itemsLe (expected actual : Dict String Json) : Bool :=
  expected.all fun e => (Dict.get? actual e.1).any fun v => e.2.pyEq v

/-- A call of this service and operation whose arguments contain these. -/
def ToolCall.matchesAction (service operation : String) (arguments : Dict String Json)
    (call : ToolCall) : Bool :=
  call.service = service && call.operation = operation && itemsLe arguments call.arguments

variable [Interpreter]

mutual

/-- `_diff_final_state` -/
def diffFinalState (expected actual : Json) (path : String) : List String :=
  match expected with
  | .obj fields =>
    match actual with
    | .obj actualFields => diffFields fields actualFields path
    | _ =>
      let place := if path = "" then "<root>" else path
      [s!"{place}: expected an object, got {actual.repr}"]
  | expected =>
    if expected.pyEq actual then []
    else [s!"{path}: expected {expected.repr}, got {actual.repr}"]

/-- `_diff_final_state` on the fields of an object. -/
def diffFields (fields : List (String × Json)) (actual : Dict String Json) (path : String) :
    List String :=
  match fields with
  | [] => []
  | (key, value) :: fields =>
    let childPath := if path = "" then key else path ++ "." ++ key
    let mismatches := match Dict.get? actual key with
      | none => [childPath ++ ": missing from final state"]
      | some actualValue => diffFinalState value actualValue childPath
    mismatches ++ diffFields fields actual path

end

/-- `judges.contracts.ContractScore` -/
structure ContractScore where
  passed : Bool
  missingExpectedActions : List String
  forbiddenActionsSeen : List String
  finalStateMismatches : List String
  deriving DecidableEq

/-- `score_actions` -/
def scoreActions (task : BenchmarkTask) (toolCalls : List ToolCall)
    (finalState : Dict String Json) : ContractScore :=
  let missing := (task.expectedActions.filter fun expected =>
      !(toolCalls.any (ToolCall.matchesAction expected.service expected.operation
        expected.arguments))).map
    fun expected => s!"{expected.service}.{expected.operation}"
  let forbiddenSeen := (task.forbiddenActions.filter fun forbidden =>
      toolCalls.any (ToolCall.matchesAction forbidden.service forbidden.operation
        forbidden.arguments)).map
    fun forbidden => s!"{forbidden.service}.{forbidden.operation}: {forbidden.reason}"
  let mismatches := diffFinalState (.obj task.expectedFinalState) (.obj finalState) ""
  { passed := missing.isEmpty && forbiddenSeen.isEmpty && mismatches.isEmpty
    missingExpectedActions := missing
    forbiddenActionsSeen := forbiddenSeen
    finalStateMismatches := mismatches }

/-- `score_run` -/
def scoreRun (task : BenchmarkTask) (result : RunnerResult) : ContractScore :=
  scoreActions task (extractToolCalls result.trace) result.finalState

/-- `_NO_FINAL_ANSWER` -/
def noFinalAnswer : String := "(agent did not produce a final answer)"

/-- `result.final_output or _NO_FINAL_ANSWER` -/
def recordedOutput (finalOutput : Option String) : String :=
  match finalOutput with
  | none => noFinalAnswer
  | some output => if output = "" then noFinalAnswer else output

omit [Interpreter] in
theorem recordedOutput_ne (finalOutput : Option String) : recordedOutput finalOutput ≠ "" := by
  cases finalOutput with
  | none => decide
  | some output =>
    rw [recordedOutput]
    split
    · decide
    · assumption

/-- The status and the `passed` flag of a scored run. -/
def scoredStatus (maxStepsExceeded passed : Bool) : ExecutionStatus × Bool :=
  if maxStepsExceeded then (.errored, false)
  else if passed then (.passed, true)
  else (.failed, false)

omit [Interpreter] in
theorem scoredStatus_matches (maxStepsExceeded passed : Bool) :
    TerminalStatusMatchesOutcome (scoredStatus maxStepsExceeded passed).1
      (scoredStatus maxStepsExceeded passed).2 := by
  cases maxStepsExceeded <;> cases passed <;> exact ⟨rfl, by decide, by decide⟩

/-- `score_execution` -/
def scoreExecution (task : BenchmarkTask) (result : RunnerResult) :
    TaskExecutionResult × ContractScore :=
  let contractScore := scoreRun task result
  ({ status := (scoredStatus result.maxStepsExceeded contractScore.passed).1
     passed := (scoredStatus result.maxStepsExceeded contractScore.passed).2
     finalOutput := recordedOutput result.finalOutput
     latencyMs := result.latencyMs
     inputTokens := result.inputTokens
     outputTokens := result.outputTokens
     estimatedCostUsd := .fin 0
     missingExpectedActions := contractScore.missingExpectedActions
     forbiddenActionsSeen := contractScore.forbiddenActionsSeen
     finalStateMismatches := contractScore.finalStateMismatches
     finalOutput_ne := recordedOutput_ne result.finalOutput
     cost_nonneg := PyFloat.zero_nonneg
     outcome := scoredStatus_matches result.maxStepsExceeded contractScore.passed },
    contractScore)

end AgentProof
