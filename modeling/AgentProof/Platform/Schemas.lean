import AgentProof.Python.Errors

/-!
# Platform/Schemas — what the platform stores

The contracts of `app.schemas`.  A constraint a payload model validates is a field of the structure
or part of a field's type, so a payload that exists is valid.
-/

open Machinery

namespace AgentProof

/-- A UUID, as its text. -/
abbrev UUID := String

/-- A point in time. -/
abbrev Timestamp := ℕ

/-! ## Enumerations -/

/-- `app.schemas.EventType` -/
inductive EventType where
  | modelRequest
  | modelResponse
  | toolCall
  | toolResult
  | retry
  | error
  | finalAnswer
  deriving DecidableEq

/-- The enumeration's value. -/
def EventType.value : EventType → String
  | .modelRequest => "model_request"
  | .modelResponse => "model_response"
  | .toolCall => "tool_call"
  | .toolResult => "tool_result"
  | .retry => "retry"
  | .error => "error"
  | .finalAnswer => "final_answer"

/-- `app.schemas.RunStatus` -/
inductive RunStatus where
  | queued
  | running
  | completed
  | failed
  deriving DecidableEq

/-- `app.schemas.ExecutionStatus` -/
inductive ExecutionStatus where
  | pending
  | running
  | passed
  | failed
  | errored
  deriving DecidableEq

/-- The statuses of a finalized execution. -/
def ExecutionStatus.terminal : ExecutionStatus → Bool
  | .passed | .failed | .errored => true
  | .pending | .running => false

/-- `app.schemas.JudgeLabel` -/
inductive JudgeLabel where
  | pass
  | fail
  | uncertain
  deriving DecidableEq

/-- `app.schemas.RegressionDisposition` -/
inductive RegressionDisposition where
  | stablePass
  | stableFailure
  | improvement
  | regression
  | indeterminate
  deriving DecidableEq

/-- `app.schemas.TraceDivergenceType` -/
inductive TraceDivergenceType where
  | wrongTool
  | invalidToolArgument
  | toolError
  | prematureTermination
  | finalAnswerMismatch
  deriving DecidableEq

/-! ## Versions, runs, executions -/

/-- `Field(min_length=least, max_length=most)` -/
def LengthWithin (least most : ℕ) (s : String) : Prop := least ≤ s.length ∧ s.length ≤ most

instance (least most : ℕ) (s : String) : Decidable (LengthWithin least most s) :=
  inferInstanceAs (Decidable (_ ∧ _))

/-- `app.schemas.AgentVersionCreate` -/
structure AgentVersionCreate where
  name : String
  gitSha : String
  model : String
  systemPrompt : String
  toolSchemaHash : String
  config : Dict String Json := []
  name_length : LengthWithin 1 120 name
  gitSha_length : LengthWithin 7 64 gitSha
  model_length : LengthWithin 1 160 model
  systemPrompt_ne : systemPrompt ≠ ""
  toolSchemaHash_length : LengthWithin 7 128 toolSchemaHash

/-- `app.schemas.AgentVersion` -/
structure AgentVersion where
  id : UUID
  name : String
  gitSha : String
  model : String
  systemPrompt : String
  toolSchemaHash : String
  config : Dict String Json := []
  contentHash : String
  createdAt : Timestamp
  deriving DecidableEq

/-- `app.schemas.EvaluationRunCreate` -/
structure EvaluationRunCreate where
  agentVersionId : UUID
  suiteId : String
  suiteVersion : String
  suiteManifestHash : String
  seed : ℕ
  suiteId_length : LengthWithin 1 120 suiteId
  suiteVersion_length : LengthWithin 1 80 suiteVersion
  suiteManifestHash_length : LengthWithin 7 128 suiteManifestHash

/-- `app.schemas.EvaluationRun` -/
structure EvaluationRun where
  id : UUID
  agentVersionId : UUID
  suiteId : String
  suiteVersion : String
  suiteManifestHash : String
  seed : ℕ
  status : RunStatus := .queued
  createdAt : Timestamp
  finishedAt : Option Timestamp := none
  deriving DecidableEq

/-- `app.schemas.TaskExecutionCreate` -/
structure TaskExecutionCreate where
  taskId : String
  taskSeed : ℕ
  taskId_length : LengthWithin 1 120 taskId

/-- `app.schemas.TaskExecution` -/
structure TaskExecution where
  id : UUID
  runId : UUID
  taskId : String
  taskSeed : ℕ
  status : ExecutionStatus := .pending
  passed : Option Bool := none
  finalOutput : Option String := none
  latencyMs : Option ℕ := none
  inputTokens : Option ℕ := none
  outputTokens : Option ℕ := none
  estimatedCostUsd : Option PyFloat := none
  missingExpectedActions : List String := []
  forbiddenActionsSeen : List String := []
  finalStateMismatches : List String := []
  createdAt : Timestamp
  finishedAt : Option Timestamp := none
  deriving DecidableEq

/-- The check of `terminal_status_matches_outcome`. -/
def TerminalStatusMatchesOutcome (status : ExecutionStatus) (passed : Bool) : Prop :=
  status.terminal = true ∧ (status = .passed → passed = true) ∧ (status = .failed → passed = false)

theorem PyFloat.zero_nonneg : 0 ≤ (PyFloat.fin 0).value := le_refl 0

/-- `app.schemas.TaskExecutionResult` -/
structure TaskExecutionResult where
  status : ExecutionStatus
  passed : Bool
  finalOutput : String
  latencyMs : ℕ
  inputTokens : ℕ
  outputTokens : ℕ
  estimatedCostUsd : PyFloat
  missingExpectedActions : List String := []
  forbiddenActionsSeen : List String := []
  finalStateMismatches : List String := []
  finalOutput_ne : finalOutput ≠ ""
  cost_nonneg : 0 ≤ estimatedCostUsd.value
  outcome : TerminalStatusMatchesOutcome status passed

/-- `execution.model_copy(update={**result.model_dump(), "finished_at": now})` -/
def TaskExecution.finalize (execution : TaskExecution) (result : TaskExecutionResult)
    (now : Timestamp) : TaskExecution :=
  { execution with
    status := result.status
    passed := some result.passed
    finalOutput := some result.finalOutput
    latencyMs := some result.latencyMs
    inputTokens := some result.inputTokens
    outputTokens := some result.outputTokens
    estimatedCostUsd := some result.estimatedCostUsd
    missingExpectedActions := result.missingExpectedActions
    forbiddenActionsSeen := result.forbiddenActionsSeen
    finalStateMismatches := result.finalStateMismatches
    finishedAt := some now }

/-! ## Trace events -/

/-- `app.schemas.TraceEventCreate` -/
structure TraceEventCreate (F : Type := PyFloat) where
  id : UUID
  sequenceNo : ℕ
  eventType : EventType
  payload : Dict String (Json F)
  parentEventId : Option UUID
  durationMs : Option ℕ
  deriving DecidableEq

/-- `app.schemas.TraceEvent` -/
structure TraceEvent (F : Type := PyFloat) extends TraceEventCreate F where
  executionId : UUID
  createdAt : Timestamp
  deriving DecidableEq

/-! ## Judge verdicts -/

/-- `app.schemas.JudgeVerdictCreate` -/
structure JudgeVerdictCreate where
  judgeName : String
  rubricVersion : String
  label : JudgeLabel
  confidence : PyFloat
  rationale : String
  judgeName_length : 1 ≤ judgeName.length ∧ judgeName.length ≤ 120
  rubricVersion_length : 1 ≤ rubricVersion.length ∧ rubricVersion.length ≤ 40
  confidence_mem : 0 ≤ confidence.value ∧ confidence.value ≤ 1
  rationale_ne : rationale ≠ ""

/-- `JudgeVerdictCreate(…)`, which validates its fields in this order. -/
def JudgeVerdictCreate.validate (judgeName rubricVersion : String) (label : JudgeLabel)
    (confidence : PyFloat) (rationale : String) : Except PyError JudgeVerdictCreate :=
  if judgeName_length : 1 ≤ judgeName.length ∧ judgeName.length ≤ 120 then
    if rubricVersion_length : 1 ≤ rubricVersion.length ∧ rubricVersion.length ≤ 40 then
      if confidence_mem : 0 ≤ confidence.value ∧ confidence.value ≤ 1 then
        if rationale_ne : rationale ≠ "" then
          .ok { judgeName, rubricVersion, label, confidence, rationale, judgeName_length,
                rubricVersion_length, confidence_mem, rationale_ne }
        else .error (.validationError "rationale")
      else .error (.validationError "confidence")
    else .error (.validationError "rubric_version")
  else .error (.validationError "judge_name")

/-- `app.schemas.JudgeVerdict` -/
structure JudgeVerdict extends JudgeVerdictCreate where
  id : UUID
  executionId : UUID
  createdAt : Timestamp

end AgentProof
