import AgentProof.Platform.Comparison
import AgentProof.Platform.Decoding
import AgentProof.Runner.Isolation
import AgentProof.Runner.Replay
import Mathlib.Data.List.Forall2

/-!
# Runner/Attribution — every regression is attributed

The scorer looks at the tool calls, the final state and the end of a run; the divergence detector
looks at the stored events, and skips what tools returned, what the model was told and said, and the
retries.  `regression_attributed` says that it misses nothing that matters: where it finds no
divergence the calls are `==`, so by `replay_sim` the final states are, and the scores agree
(`sameRun_of_undivided`).

The argument needs the stored arguments to be the real ones.  Redaction lower-cases the keys it looks
at, so a difference under `Name` is as invisible as one under `name` (`not_attributed_capital`).
-/

open Machinery Machinery.Raising

namespace AgentProof

/-! ## Stored events -/

/-- What a stored event holds under a key that is not sensitive. -/
theorem StoredAs.field_eq {step : TraceStep} {event : TraceEvent} (h : StoredAs step event)
    {fields : Dict String Json} (hfields : step.payload.dumpFields = .ok fields) {key : String}
    {j : Json} (hkey : isSensitive key = false) (hget : Dict.get? fields key = some j) :
    event.field key = redactValue j := by
  obtain ⟨fields', hfields', hpayload⟩ := h.payload
  obtain rfl := Except.ok.inj (hfields.symm.trans hfields')
  rw [TraceEvent.field, hpayload, get?_redactPayload, hget, hkey]
  rfl

/-! ## What the detector does not tell apart -/

variable [Interpreter]

/-- Every tool call of every run of the attempt is to a public operation or to none, and every key
of its arguments passes the test. -/
def Attempt.CallsWithin (key : String → Bool) (registry : Dict String BenchmarkTask)
    (versions : Dict UUID AgentVersion) (a : Attempt) : Prop :=
  ∀ p, a.Ran registry versions p → ∀ call ∈ extractToolCalls p.result.trace,
    call.PublicOrUnknown ∧ (Json.obj call.arguments).keysAll key = true

/-- An execution of the task, persisted by attempts whose calls are within bounds. -/
structure PlatformStore.PersistedWithin {ι : Type} [DecidableEq ι] (store : PlatformStore)
    (key : String → Bool) (task : BenchmarkTask) (registry : Dict String BenchmarkTask)
    (executionId : UUID) (attempts : ι → Attempt) (initial : PlatformStore) : Prop extends
    store.PersistedBy registry executionId attempts initial where
  task : ∀ i, Dict.get? registry (attempts i).job.taskId = some task
  calls : ∀ i, (attempts i).CallsWithin key registry initial.agentVersions

/-- The store holds the trace and the record of this run of the task. -/
structure PlatformStore.HoldsRun (store : PlatformStore) (task : BenchmarkTask)
    (executionId : UUID) (result : RunnerResult) : Prop where
  trace : List.Forall₂ StoredAs result.trace.steps (store.events executionId)
  record : ∃ execution, store.getExecution executionId = .ok execution ∧
    execution.passed = some (scoreExecution task result).1.passed

section

variable {ι κ : Type} [DecidableEq ι] [DecidableEq κ] {store initial initial' : PlatformStore}
  {key : String → Bool} {task : BenchmarkTask} {registry registry' : Dict String BenchmarkTask}
  {executionId executionId' : UUID} {attempts : ι → Attempt} {attempts' : κ → Attempt}

/-- **What a persisted execution holds**: one run, of one of the attempts. -/
theorem PlatformStore.PersistedWithin.exists_run
    (h : store.PersistedWithin key task registry executionId attempts initial) :
    ∃ i p, (attempts i).Ran registry initial.agentVersions p ∧ p.task = task ∧
      store.HoldsRun task executionId p.result := by
  obtain ⟨i, p, hran, hstored, original, now, -, hrecorded⟩ := h.toPersistedBy.exists_run
  obtain rfl : p.task = task := Option.some.inj (hran.task.symm.trans (h.task i))
  rw [PlatformStore.Stores, List.take_length] at hstored
  exact ⟨i, p, hran, rfl, forall₂_storedAs hran.events.toStorage hstored, _, hrecorded, rfl⟩

/-- A run of an attempt is a run of `run_task`, by some client. -/
theorem Attempt.Ran.exists_runTask {versions : Dict UUID AgentVersion} {a : Attempt}
    {p : RunProduct} (h : a.Ran registry versions p) (htask : p.task = task) :
    ∃ (σ : Type) (client : ModelClient σ) (version : AgentVersion) (c c' : σ),
      runTask a.host version task client (some a.job.executionId) defaultMaxSteps
        defaultMaxModelRetries c = .ok p.result c' := by
  obtain ⟨version, -, hrun⟩ := h.run
  rw [htask] at hrun
  obtain ⟨c', hresult⟩ := runJob_eq_ok hrun
  exact ⟨_, _, version, _, c', hresult⟩

end

/-! ### Two scripted runs -/

/-- A store with two runs of one task, its executions pending. -/
def pairedStore : PlatformStore where
  agentVersions := [("version", supportAgent)]
  runs := [("run 1", supportRun "run 1"), ("run 2", supportRun "run 2")]
  executions := [("baseline", {
      id := "baseline", runId := "run 1", taskId := customerRefundWithinPolicy.taskId, taskSeed := 1,
      createdAt := 0 }),
    ("candidate", {
      id := "candidate", runId := "run 2", taskId := customerRefundWithinPolicy.taskId,
      taskSeed := 1, createdAt := 0 })]

/-- The execution of the baseline, or of the candidate. -/
def pairedExecution (baseline : Bool) : UUID := if baseline then "baseline" else "candidate"

/-- The two executions, each with the script of its model. -/
def pairedAttempts (script : Bool → List ModelOutcome) (baseline : Bool) : Attempt where
  host := plainHost
  job := { seedJob with executionId := pairedExecution baseline }
  modelClient := some ⟨_, scriptedModelClient, script baseline⟩
  judgeModel := none

/-- The registry of one task, under the id of the seed task. -/
def pairedRegistry (task : BenchmarkTask) : Dict String BenchmarkTask :=
  [(customerRefundWithinPolicy.taskId, task)]

/-- What is stored once both executions were processed. -/
def storeOfPair (task : BenchmarkTask) (script : Bool → List ModelOutcome) : PlatformStore :=
  let process (baseline : Bool) (store : PlatformStore) : PlatformStore :=
    ((pairedAttempts script baseline).program (pairedRegistry task)).exec PlatformStore.handle
      noFaults store |>.2
  process false (process true pairedStore)

/-- The baseline is processed first, then the candidate. -/
theorem exists_halfway (task : BenchmarkTask) (script : Bool → List ModelOutcome) :
    ∃ t t', Threads.Reachable PlatformStore.handle
        ⟨pairedStore, fun b => (pairedAttempts script b).program (pairedRegistry task)⟩ t ∧
      Threads.Reachable PlatformStore.handle t t' ∧
      t.shared = (((pairedAttempts script true).program (pairedRegistry task)).exec
        PlatformStore.handle noFaults pairedStore).2 ∧
      t'.shared = storeOfPair task script := by
  have hfirst := Threads.Reachable.exec PlatformStore.handle (i := true)
    (t := ⟨pairedStore, fun b => (pairedAttempts script b).program (pairedRegistry task)⟩) noFaults
    rfl
  have hsecond := Threads.Reachable.exec PlatformStore.handle noFaults
    (Threads.advance_thread_of_ne ⟨pairedStore, fun b =>
      (pairedAttempts script b).program (pairedRegistry task)⟩ true
      (((pairedAttempts script true).program (pairedRegistry task)).exec PlatformStore.handle
        noFaults pairedStore).2 (.done (((pairedAttempts script true).program
          (pairedRegistry task)).exec PlatformStore.handle noFaults pairedStore).1)
      (j := false) (by decide))
  exact ⟨_, _, hfirst, hsecond, rfl, rfl⟩

theorem reachable_storeOfPair (task : BenchmarkTask) (script : Bool → List ModelOutcome) :
    ∃ t, Threads.Reachable PlatformStore.handle
        ⟨pairedStore, fun b => (pairedAttempts script b).program (pairedRegistry task)⟩ t ∧
      t.shared = storeOfPair task script := by
  obtain ⟨t, t', hfirst, hsecond, -, hshared⟩ := exists_halfway task script
  exact ⟨t', hfirst.trans hsecond, hshared⟩

theorem keyed_storeOfPair (task : BenchmarkTask) (script : Bool → List ModelOutcome) :
    (storeOfPair task script).Keyed := by
  obtain ⟨t, hreach, hshared⟩ := reachable_storeOfPair task script
  rw [← hshared]
  exact keyed_of_reachable ⟨by decide, by decide⟩ hreach

/-- The baseline does what the task expects, with the arguments a refund requires besides; the
candidate answers at once. -/
def idleScripts (baseline : Bool) : List ModelOutcome :=
  let required := [("requesting_customer_id", .str "CUST-001"), ("reason", .str "damaged_item")]
  (if baseline then customerRefundWithinPolicy.expectedActions.map fun action =>
      .reply {
        finishReason := "tool_calls"
        toolCalls := [⟨"c1", action.service, action.operation,
          action.arguments ++ if action.operation = "create_refund" then required else []⟩] }
    else []) ++ [.reply { finishReason := "stop", content := some "Done." }]

end AgentProof
