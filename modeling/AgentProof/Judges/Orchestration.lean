import AgentProof.Judges.Contracts

/-!
# Judges/Orchestration — the judges of an execution

Which judges apply to a run, and the verdicts they give.  What a judge answers comes from outside:
a `JudgeModel` renders the prompt, asks the model and parses its answer, and any of it may raise.
-/

open Machinery

namespace AgentProof

/-- `judges.llm.Judge`, with the version its rubric opens with. -/
structure Judge where
  name : String
  rubricVersion : String
  deriving DecidableEq

/-- `POLICY_JUDGE` -/
def policyJudge : Judge := ⟨"policy_judge", "1"⟩

/-- `RESPONSE_QUALITY_JUDGE` -/
def responseQualityJudge : Judge := ⟨"response_quality_judge", "1"⟩

/-- `judges.llm.JudgeVerdict`: a judge's answer, not yet checked by the platform's contract. -/
structure JudgeAnswer where
  taskId : String
  judgeName : String
  rubricVersion : String
  label : JudgeLabel
  confidence : PyFloat
  rationale : String
  deriving DecidableEq

/-- A judge's model call and the parse of its response. -/
abbrev JudgeModel : Type :=
  Judge → BenchmarkTask → List ToolCall → Option String →
    Except PyError (JudgeLabel × PyFloat × String)

/-- `Judge.evaluate` -/
def Judge.evaluate (judge : Judge) (task : BenchmarkTask) (toolCalls : List ToolCall)
    (finalResponse : Option String) (model : JudgeModel) : Except PyError JudgeAnswer := do
  let (label, confidence, rationale) ← model judge task toolCalls finalResponse
  return {
    taskId := task.taskId
    judgeName := judge.name
    rubricVersion := judge.rubricVersion
    label, confidence, rationale }

/-- `select_judges` -/
def selectJudges (finalResponse : Option String) : List Judge :=
  match finalResponse with
  | none => [policyJudge]
  | some response => if response = "" then [policyJudge] else [policyJudge, responseQualityJudge]

/-- `run_judges` -/
def runJudges (task : BenchmarkTask) (result : RunnerResult) (model : JudgeModel) :
    Except PyError (List JudgeAnswer) :=
  (selectJudges result.finalOutput).mapM fun judge =>
    judge.evaluate task (extractToolCalls result.trace) result.finalOutput model

/-- The contract of the platform, checked on an answer. -/
def JudgeAnswer.toCreate (answer : JudgeAnswer) : Except PyError JudgeVerdictCreate :=
  JudgeVerdictCreate.validate answer.judgeName answer.rubricVersion answer.label answer.confidence
    answer.rationale

end AgentProof
