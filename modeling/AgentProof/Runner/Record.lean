import AgentProof.Platform.Decoding
import AgentProof.Runner.Isolation
import AgentProof.Runner.Retry

/-!
# Runner/Record — what is left of a job

`processJob_faithful`: a job whose run returns leaves a record from which the run can be read back,
up to redaction, and a result that is the run's score.

A run links every step to an earlier one and keeps the bounds of the payload models
(`RunTrace.parentsBefore`, `RunnerPayload.valid`), so `Trace.fromStorage` has nothing to refuse.
-/

open Machinery Machinery.Prog

namespace AgentProof

/-! ## The parents of a run's steps -/

/-- Steps whose parents are all there already. -/
theorem parentsBefore_of_mem {ids : List UUID} {steps : List TraceStep}
    (h : ∀ step ∈ steps, ∀ parent, step.parentStepId = some parent → parent ∈ ids) :
    ParentsBefore ids steps := by
  induction steps generalizing ids with
  | nil => trivial
  | cons step steps ih =>
    obtain ⟨hstep, hsteps⟩ := List.forall_mem_cons.mp h
    exact ⟨hstep, ih fun step hmem parent hparent =>
      List.mem_append_left _ (hsteps step hmem parent hparent)⟩

/-- Parents stay, when steps are read again. -/
theorem parentsBefore_settle (env : SupportToolEnvironment) {ids : List UUID}
    {steps : List TraceStep} :
    ParentsBefore ids (steps.map (.settle env)) ↔ ParentsBefore ids steps := by
  induction steps generalizing ids with
  | nil => exact Iff.rfl
  | cons step steps ih => exact and_congr Iff.rfl ih

section RunTrace

variable {σ : Type} {client : ModelClient σ} {version : AgentVersion}
  {maxSteps maxModelRetries remaining : ℕ} {messages : Messages} {c c' : σ}

theorem Opening.parentsBefore {reply : ModelReply} {request response : TraceStep}
    {retries : List TraceStep}
    (h : Opening client version maxModelRetries messages c reply c' request retries response)
    (ids : List UUID) : ParentsBefore ids (request :: retries ++ [response]) := by
  have hrest : ∀ step ∈ retries ++ [response], step.parentStepId = some request.id := by
    intro step hmem
    rcases List.mem_append.mp hmem with hmem | hmem
    · exact h.retry_parent step hmem
    · rw [List.mem_singleton.mp hmem, h.response_parent]
  refine ⟨by simp [h.request_parent], parentsBefore_of_mem fun step hmem parent hparent => ?_⟩
  obtain rfl := Option.some.inj ((hrest step hmem).symm.trans hparent)
  simp

variable [Interpreter] {env env' : SupportToolEnvironment}

theorem CallsRun.parentsBefore {host : Host} {calls : List ToolCallRequest}
    {steps : List TraceStep} {answers : Messages} (h : CallsRun host calls env steps answers env') :
    ∀ ids : List UUID, ParentsBefore ids steps := by
  induction h with
  | nil => exact fun _ => trivial
  | cons _ hroot _ hparent _ _ ih =>
    exact fun ids => ⟨by simp [hroot], by simp [hparent], ih _⟩

/-- **Every step of a run has an earlier step for its parent, or none.** -/
theorem RunTrace.parentsBefore {host : Host} {replies : List ModelReply} {steps : List TraceStep}
    {finalOutput : Option String}
    (h : RunTrace host client version maxSteps maxModelRetries remaining messages c env replies
      steps finalOutput c' env') : ∀ ids : List UUID, ParentsBefore ids steps := by
  induction h with
  | exceeded _ hparent => exact fun ids => ⟨by simp [hparent], trivial⟩
  | @answered _ _ _ _ _ _ request response terminal retries hopening _ _ hparent =>
    intro ids
    rw [show request :: retries ++ response :: [terminal] =
      (request :: retries ++ [response]) ++ [terminal] by simp]
    exact parentsBefore_append.mpr ⟨hopening.parentsBefore ids, by simp [hparent], trivial⟩
  | @round _ _ _ _ _ _ _ _ _ _ _ request response retries calls steps _ hopening _ hcalls _ ih =>
    intro ids
    rw [show request :: retries ++ response :: (calls ++ steps) =
      (request :: retries ++ [response]) ++ (calls ++ steps) by simp]
    exact parentsBefore_append.mpr ⟨hopening.parentsBefore ids,
      parentsBefore_append.mpr ⟨hcalls.parentsBefore _, ih _⟩⟩

omit [Interpreter] in
/-- What a runner logs is within the bounds of the payload models. -/
theorem RunnerPayload.valid {payload : StepPayload} (h : RunnerPayload payload) :
    payload.Valid := by
  cases h with
  | retry hattempt _ => exact hattempt
  | _ => trivial

end RunTrace

/-! ## Reading a run back -/

variable [Interpreter]

section

variable [Pydantic]

/-- **A stored run is read back.** -/
theorem fromStorage_of_runJob {host : Host} {modelClient : Option ClientInstance}
    {version : AgentVersion} {task : BenchmarkTask} {executionId : UUID} {result : RunnerResult}
    (h : runJob host modelClient version task executionId = .ok result) {events : List TraceEvent}
    (hstored : List.Forall₂ StoredAs result.trace.steps events) :
    ∃ restored, Trace.fromStorage executionId events = .ok { executionId, steps := restored } ∧
      List.Forall₂ RestoredAs result.trace.steps restored := by
  obtain ⟨c', hrun⟩ := runJob_eq_ok h
  obtain ⟨replies, steps, env', htrace, hsteps, hnumbered, -, -⟩ := runTask_eq_ok hrun
  have hparents : ParentsBefore [] result.trace.steps :=
    hsteps ▸ (parentsBefore_settle env').mpr (htrace.parentsBefore [])
  exact Trace.fromStorage_of_storedAs executionId hstored hnumbered hparents
    fun step hmem => ((runTask_payloads hrun).2 step hmem).valid

end

/-! ## The record -/

/-- The contract score passed, and the step limit was not exceeded. -/
def RunnerResult.Passes (task : BenchmarkTask) (result : RunnerResult) : Prop :=
  (scoreRun task result).passed = true ∧ result.maxStepsExceeded = false

omit [Interpreter] in
theorem scoredStatus_passed_iff {maxStepsExceeded passed : Bool} :
    (scoredStatus maxStepsExceeded passed).1 = .passed ↔
      passed = true ∧ maxStepsExceeded = false := by
  cases maxStepsExceeded <;> cases passed <;> simp [scoredStatus]

omit [Interpreter] in
theorem scoredStatus_snd_iff {maxStepsExceeded passed : Bool} :
    (scoredStatus maxStepsExceeded passed).2 = true ↔
      passed = true ∧ maxStepsExceeded = false := by
  cases maxStepsExceeded <;> cases passed <;> simp [scoredStatus]

/-- The record of the execution is the outcome of this run of the task. -/
structure TaskExecution.ReportsRun (task : BenchmarkTask) (result : RunnerResult)
    (execution : TaskExecution) : Prop where
  terminal : execution.status.terminal = true
  status : execution.status = .passed ↔ result.Passes task
  passed : execution.passed = some true ↔ result.Passes task
  missing : execution.missingExpectedActions = (scoreRun task result).missingExpectedActions
  forbidden : execution.forbiddenActionsSeen = (scoreRun task result).forbiddenActionsSeen
  mismatches : execution.finalStateMismatches = (scoreRun task result).finalStateMismatches

/-- The outcome of a run, recorded. -/
theorem reportsRun_finalize (task : BenchmarkTask) (result : RunnerResult)
    (execution : TaskExecution) (now : Timestamp) :
    (execution.finalize (scoreExecution task result).1 now).ReportsRun task result where
  terminal := (scoreExecution task result).1.outcome.1
  status := scoredStatus_passed_iff
  passed := Option.some_inj.trans scoredStatus_snd_iff
  missing := rfl
  forbidden := rfl
  mismatches := rfl

/-- What the store holds of the execution is this run of the task: its trace is read back step by
step, and its record reports it. -/
structure PlatformStore.Documents [Pydantic] (store : PlatformStore) (executionId : UUID)
    (task : BenchmarkTask) (result : RunnerResult) : Prop where
  trace : ∃ events restored, store.getTrace executionId = .ok events ∧
    Trace.fromStorage executionId events = .ok { executionId, steps := restored } ∧
    List.Forall₂ RestoredAs result.trace.steps restored
  record : ∃ recorded, store.getExecution executionId = .ok recorded ∧
    recorded.ReportsRun task result

/-- **A worker's record is faithful.**  A job whose run returns is processed without an error; its
run can be read back from the store, its record is the run's score, and nothing else has changed. -/
theorem processJob_faithful [Pydantic] {host : Host} {registry : Dict String BenchmarkTask}
    {job : EvaluationJob} {modelClient : Option ClientInstance} {task : BenchmarkTask}
    {version : AgentVersion} {result : RunnerResult} {store : PlatformStore}
    {execution : TaskExecution} {oracle : ℕ → Circumstance}
    (htask : Dict.get? registry job.taskId = some task)
    (hversion : store.getAgentVersion job.agentVersionId = .ok version)
    (hrun : runJob host modelClient version task job.executionId = .ok result)
    (hexecution : store.getExecution job.executionId = .ok execution)
    (hopen : execution.status.terminal = false) (hempty : store.events job.executionId = [])
    (hfault : ∀ n, (oracle n).fault = none) :
    ∃ store', (processJob host registry job modelClient none).exec PlatformStore.handle oracle
        store = (.ok (), store') ∧
      store'.Documents job.executionId task result ∧
      store.ChangesOnly job.executionId store' := by
  let a : Attempt := { host, job, modelClient, judgeModel := none }
  obtain ⟨events, hevents⟩ := runJob_events hrun
  let p : RunProduct := { task, result, events }
  have hran : a.Ran registry store.agentVersions p :=
    ⟨htask, ⟨version, PlatformStore.getAgentVersion_eq_ok hversion, hrun⟩, hevents⟩
  have hjudges : JudgesAnswer a.judgeModel p := fun _ h => by cases h
  obtain ⟨now, store', hprogram, hrecorded, hstored⟩ :=
    hran.exec_of_open rfl hjudges hfault hexecution hopen hempty
  have hchanges : store.ChangesOnly job.executionId
      ((a.program registry).exec PlatformStore.handle oracle store).2 :=
    PlatformStore.changesOnly_exec (a.concerns registry) oracle store
  rw [hprogram] at hchanges
  rw [PlatformStore.Stores, List.take_length] at hstored
  obtain ⟨restored, hrestored, hall⟩ := fromStorage_of_runJob hrun
    (forall₂_storedAs hevents.toStorage hstored)
  refine ⟨store', hprogram, ⟨⟨_, restored, ?_, hrestored, hall⟩, _, hrecorded,
    reportsRun_finalize task result execution now⟩, hchanges⟩
  rw [PlatformStore.getTrace, hrecorded]
  rfl

/-- The integers pydantic makes of booleans, integral floats and digits. -/
abbrev pydantic : Pydantic where
  coerceInt
    | .bool b => some (if b then 1 else 0)
    | .float x => if x.value.den = 1 then some x.value.num else none
    | .str s => s.toInt?
    | _ => none

omit [Interpreter] in
theorem processJob_faithful_seed :
    ∃ result store', @runJob cpython plainHost none supportAgent customerRefundWithinPolicy
        "execution" = .ok result ∧
      (@processJob cpython plainHost seedRegistry seedJob none none).exec PlatformStore.handle
        noFaults pendingStore = (.ok (), store') ∧
      @PlatformStore.Documents cpython pydantic store' "execution" customerRefundWithinPolicy
        result ∧
      pendingStore.ChangesOnly "execution" store' := by
  have hok : (@runJob cpython plainHost none supportAgent customerRefundWithinPolicy
      "execution").isOk = true := by decide +kernel
  obtain ⟨result, hrun⟩ := Raising.exists_of_isOk hok
  obtain ⟨store', hfaithful⟩ := @processJob_faithful cpython pydantic plainHost seedRegistry seedJob
    none _ _ result pendingStore _ noFaults rfl rfl hrun rfl rfl rfl fun _ => rfl
  exact ⟨result, store', hrun, hfaithful⟩

end AgentProof
