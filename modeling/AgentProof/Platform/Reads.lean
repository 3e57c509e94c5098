import AgentProof.Machinery.Amid
import AgentProof.Platform.Join

/-!
# Platform/Reads — a comparison, read by read

`compare_runs` awaits the store for every read: the executions of the two runs, and the traces of
each regression.  `compareRunsReads` is the comparison as a program of its reads; on a store that
stands still it is `compareRuns`.
-/

open Machinery Machinery.Prog Machinery.Raising

namespace AgentProof

/-! ## The program -/

/-- What a comparison asks of the store. -/
inductive StoreRead where
  | runExecutions (runId : UUID)
  | trace (executionId : UUID)

abbrev StoreRead.Resp : StoreRead → Type
  | .runExecutions _ => List TaskExecution
  | .trace _ => List TraceEvent

/-- A program of reads. -/
abbrev ReadProg (α : Type) : Type := Prog PyError StoreRead StoreRead.Resp α

/-- What the store answers. -/
def PlatformStore.read : (c : StoreRead) → PlatformStore → Except PyError c.Resp
  | .runExecutions runId, store => store.getRunExecutions runId
  | .trace executionId, store => store.getTrace executionId

section

variable [Interpreter]

/-- `attributePair`, read by read. -/
def attributePairReads (taskId : String) (left right : TaskExecution) :
    ReadProg (Option TraceAttribution) :=
  match disposition left.passed right.passed with
  | .regression => do
    let baselineEvents ← perform (.trace left.id)
    let candidateEvents ← perform (.trace right.id)
    return firstDivergence taskId left right baselineEvents candidateEvents
  | _ => return none

/-- What is reported of a pair, with its attribution. -/
def pairReport (taskId : String) (left right : TaskExecution)
    (attribution : Option TraceAttribution) : PairedTaskComparison where
  taskId := taskId
  disposition := disposition left.passed right.passed
  baselineExecutionId := left.id
  candidateExecutionId := right.id
  baselinePassed := left.passed
  candidatePassed := right.passed
  latencyDeltaMs := delta right.latencyMs left.latencyMs
  costDeltaUsd := costDelta right.estimatedCostUsd left.estimatedCostUsd
  attribution := attribution

/-- `compareTask`, read by read. -/
def compareTaskReads (baseline candidate : Dict String TaskExecution) (taskId : String) :
    ReadProg PairedTaskComparison :=
  match Dict.get? baseline taskId, Dict.get? candidate taskId with
  | some left, some right => do
    let attribution ← attributePairReads taskId left right
    return pairReport taskId left right attribution
  | _, _ => lift (.error (.keyError taskId))

/-- The comparison of its items. -/
def comparisonOf (baselineRunId candidateRunId : UUID) (results : List PairedTaskComparison) :
    RunComparison where
  baselineRunId := baselineRunId
  candidateRunId := candidateRunId
  comparedTasks := results.length
  regressions := results.countP fun item => item.disposition = .regression
  improvements := results.countP fun item => item.disposition = .improvement
  results := results

/-- `compare_runs`, read by read. -/
def compareRunsReads (baselineRunId candidateRunId : UUID) : ReadProg RunComparison := do
  let executions ← perform (.runExecutions baselineRunId)
  let baseline ← lift (byTask executions [])
  let executions' ← perform (.runExecutions candidateRunId)
  let candidate ← lift (byTask executions' [])
  match sharedTaskIds baseline candidate with
  | [] => lift (.error (.httpException 422 "runs have no shared task ids to compare"))
  | shared => do
    let results ← shared.mapM (compareTaskReads baseline candidate)
    return comparisonOf baselineRunId candidateRunId results

/-! ## On a store that stands still -/

/-- A task is reported as it is compared. -/
theorem answered_compareTaskReads (baseline candidate : Dict String TaskExecution)
    (store : PlatformStore) (taskId : String) :
    answered (fun c => store.read c) (compareTaskReads baseline candidate taskId) =
      compareTask store baseline candidate taskId := by
  have hattribution : ∀ left right : TaskExecution,
      answered (fun c => store.read c) (attributePairReads taskId left right) =
        attributePair store taskId left right := by
    intro left right
    rw [attributePairReads, attributePair]
    cases disposition left.passed right.passed with
    | regression =>
      rw [answered_bind]
      refine except_bind_congr fun baselineEvents _ => ?_
      rw [answered_bind]
      rfl
    | _ => rfl
  rw [compareTaskReads, compareTask]
  cases Dict.get? baseline taskId with
  | none => rfl
  | some left =>
    cases Dict.get? candidate taskId with
    | none => rfl
    | some right =>
      dsimp only
      rw [answered_bind, hattribution]
      rfl

/-- **On a store that stands still, it is the comparison.** -/
theorem answered_compareRunsReads (baselineRunId candidateRunId : UUID) (store : PlatformStore) :
    answered (fun c => store.read c) (compareRunsReads baselineRunId candidateRunId) =
      compareRuns store baselineRunId candidateRunId := by
  rw [compareRunsReads, compareRuns, answered_bind]
  refine except_bind_congr fun executions _ => ?_
  rw [answered_bind]
  refine except_bind_congr fun baseline _ => ?_
  rw [answered_bind]
  refine except_bind_congr fun executions' _ => ?_
  rw [answered_bind]
  refine except_bind_congr fun candidate _ => ?_
  cases sharedTaskIds baseline candidate with
  | nil => rfl
  | cons taskId shared =>
    dsimp only
    rw [answered_bind, answered_mapM]
    simp only [answered_compareTaskReads]
    rfl

end

end AgentProof
