import AgentProof.Judges.Orchestration
import AgentProof.Platform.Queue
import AgentProof.Platform.Store
import AgentProof.Runner.ModelClients

/-!
# Runner/Worker — processing one job

`processJob` is a program of store calls: the run itself, the scoring and the judges happen between
them.  `claimAndProcessOne` is a program of queue commands, in which the processing of a job is one
command that ends well or badly.
-/

open Machinery Machinery.Prog

namespace AgentProof

/-! ## `process_job` -/

/-- A computation of a worker on its store. -/
abbrev StoreProg := Prog PyError StoreCommand StoreCommand.Resp

/-- A model client, in the state it starts a run in. -/
structure ClientInstance where
  State : Type
  client : ModelClient State
  state : State

/-- `model_client or ReferenceAgentModelClient(task)` -/
def clientFor (modelClient : Option ClientInstance) (task : BenchmarkTask) : ClientInstance :=
  modelClient.getD ⟨ℕ, referenceAgentModelClient task, 0⟩

variable [Interpreter]

/-- `await run_task(version, task, client, execution_id=job.execution_id)` -/
def runJob (host : Host) (modelClient : Option ClientInstance) (version : AgentVersion)
    (task : BenchmarkTask) (executionId : UUID) : Except PyError RunnerResult :=
  let chosen := clientFor modelClient task
  match runTask host version task chosen.client (some executionId) defaultMaxSteps
      defaultMaxModelRetries chosen.state with
  | .ok result _ => .ok result
  | .error e _ => .error e

/-- `for event in events: await store.append_trace_event(execution_id, event)` -/
def appendTrace (executionId : UUID) : List TraceEventCreate → StoreProg Unit
  | [] => pure ()
  | event :: events => do
    let _ ← perform (StoreCommand.appendTraceEvent executionId event)
    appendTrace executionId events

/-- `for verdict in verdicts: await store.append_judge_verdict(execution_id, …)` -/
def appendVerdicts (executionId : UUID) : List JudgeAnswer → StoreProg Unit
  | [] => pure ()
  | answer :: answers => do
    let payload ← Prog.lift answer.toCreate
    let _ ← perform (StoreCommand.appendJudgeVerdict executionId payload)
    appendVerdicts executionId answers

/-- `if judge_model_caller is not None: …` -/
def judgeRun (executionId : UUID) (task : BenchmarkTask) (result : RunnerResult) :
    Option JudgeModel → StoreProg Unit
  | none => pure ()
  | some model => do
    let answers ← Prog.lift (runJudges task result model)
    appendVerdicts executionId answers

/-- What `process_job` stores of a run: its trace, its score, and the judges' verdicts on it. -/
def persistRun (executionId : UUID) (task : BenchmarkTask) (result : RunnerResult)
    (events : List TraceEventCreate) (judgeModel : Option JudgeModel) : StoreProg Unit := do
  appendTrace executionId events
  let _ ← perform (StoreCommand.recordResult executionId (scoreExecution task result).1)
  judgeRun executionId task result judgeModel

/-- `process_job` -/
def processJob (host : Host) (taskRegistry : Dict String BenchmarkTask) (job : EvaluationJob)
    (modelClient : Option ClientInstance) (judgeModel : Option JudgeModel) : StoreProg Unit :=
  match Dict.get? taskRegistry job.taskId with
  | none => .done (.error (.keyError job.taskId))
  | some task => do
    let version ← perform (StoreCommand.getAgentVersion job.agentVersionId)
    let result ← Prog.lift (runJob host modelClient version task job.executionId)
    let events ← Prog.lift result.trace.toStorage
    persistRun job.executionId task result events judgeModel

/-! ## `claim_and_process_one` -/

/-- `f"{type(error).__name__}: {error}"` -/
def errorLine (e : PyError) : String := e.className ++ ": " ++ e.text

/-- What follows the processing of a claimed job: a failure is the queue's to retry, a success is
acknowledged. -/
def settle (queue : Queue) (id : MessageId) (job : EvaluationJob) :
    Except PyError Unit → QueueProg Bool
  | .error e => do
    let _ ← queue.retryOrDeadletter id job (errorLine e)
    return true
  | .ok _ => do
    Queue.ack id
    return true

/-- A claimed job is processed, and what it ends with is settled. -/
def processClaimed (queue : Queue) (id : MessageId) (job : EvaluationJob) : QueueProg Bool :=
  Prog.andThen (perform (QueueCommand.process job)) (settle queue id job)

/-- `claim_and_process_one` -/
def claimAndProcessOne (queue : Queue) (consumer : Consumer) : QueueProg Bool := do
  match ← Queue.claim consumer with
  | none => return false
  | some (id, job) => processClaimed queue id job

end AgentProof
