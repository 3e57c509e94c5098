import AgentProof.Machinery.Executions
import AgentProof.Platform.Store
import AgentProof.Platform.Versioning

/-!
# Platform/Operations — the `Store` protocol on `PlatformStore`

All operations of the protocol, on the in-memory store.  `perform_effect` says once what an operation
does: it is refused and leaves the store, or it is one of a dozen writes and reads.  What holds of
every store rests on it.
-/

open Machinery

namespace AgentProof

/-- An operation of `app.store.Store`, with a validated payload. -/
inductive StoreOp where
  | createAgentVersion (payload : AgentVersionCreate)
  | getAgentVersion (agentVersionId : UUID)
  | createRun (payload : EvaluationRunCreate)
  | createExecution (runId : UUID) (payload : TaskExecutionCreate)
  | recordResult (executionId : UUID) (payload : TaskExecutionResult)
  | appendTraceEvent (executionId : UUID) (payload : TraceEventCreate)
  | getExecution (executionId : UUID)
  | getRunExecutions (runId : UUID)
  | getTrace (executionId : UUID)
  | appendJudgeVerdict (executionId : UUID) (payload : JudgeVerdictCreate)
  | getJudgeVerdicts (executionId : UUID)

/-- What an operation returns. -/
inductive StoreReply where
  | version (version : AgentVersion)
  | run (run : EvaluationRun)
  | execution (execution : TaskExecution)
  | event (event : TraceEvent)
  | executions (executions : List TaskExecution)
  | trace (events : List TraceEvent)
  | verdict (verdict : JudgeVerdict)
  | verdicts (verdicts : List JudgeVerdict)

/-- `EvaluationRun(**payload.model_dump(), created_at=now)` -/
def EvaluationRunCreate.run (payload : EvaluationRunCreate) (newId : UUID) (now : Timestamp) :
    EvaluationRun where
  id := newId
  agentVersionId := payload.agentVersionId
  suiteId := payload.suiteId
  suiteVersion := payload.suiteVersion
  suiteManifestHash := payload.suiteManifestHash
  seed := payload.seed
  createdAt := now

/-- `TaskExecution(**payload.model_dump(), run_id=run_id, created_at=now)` -/
def TaskExecutionCreate.execution (payload : TaskExecutionCreate) (newId runId : UUID)
    (now : Timestamp) : TaskExecution where
  id := newId
  runId := runId
  taskId := payload.taskId
  taskSeed := payload.taskSeed
  createdAt := now

/-- `JudgeVerdict(**payload.model_dump(), execution_id=execution_id, created_at=now)` -/
def JudgeVerdictCreate.verdict (payload : JudgeVerdictCreate) (newId executionId : UUID)
    (now : Timestamp) : JudgeVerdict where
  toJudgeVerdictCreate := payload
  id := newId
  executionId := executionId
  createdAt := now

variable [Interpreter] [Sha256]

namespace PlatformStore

/-- The stored versions. -/
def versions (store : PlatformStore) : List AgentVersion := store.agentVersions.map Prod.snd

/-- `create_agent_version` -/
def createAgentVersion (now : Timestamp) (newId : UUID) (payload : AgentVersionCreate)
    (store : PlatformStore) : AgentVersion × PlatformStore :=
  let contentHash := computeAgentVersionContentHash payload.content
  match store.versions.find? fun existing => existing.contentHash = contentHash with
  | some existing => (existing, store)
  | none =>
    let version := payload.version contentHash newId now
    (version, { store with agentVersions := Dict.set store.agentVersions newId version })

/-- `create_run` -/
def createRun (now : Timestamp) (newId : UUID) (payload : EvaluationRunCreate)
    (store : PlatformStore) : Except PyError EvaluationRun × PlatformStore :=
  if Dict.has store.agentVersions payload.agentVersionId then
    let run := payload.run newId now
    (.ok run, { store with runs := Dict.set store.runs newId run })
  else (.error (.httpException 404 "agent version not found"), store)

/-- `get_judge_verdicts` -/
def getJudgeVerdicts (store : PlatformStore) (executionId : UUID) :
    Except PyError (List JudgeVerdict) := do
  let _ ← store.getExecution executionId
  return store.verdicts executionId

/-- `self.events_by_execution[execution_id]` enters the empty list it returns. -/
def touchEvents (store : PlatformStore) (executionId : UUID) : PlatformStore :=
  { store with eventsByExecution := Dict.setDefault store.eventsByExecution executionId [] }

/-- `self.verdicts_by_execution[execution_id]` enters the empty list it returns. -/
def touchVerdicts (store : PlatformStore) (executionId : UUID) : PlatformStore :=
  { store with verdictsByExecution := Dict.setDefault store.verdictsByExecution executionId [] }

/-- The outcome of an operation at a time and with a generated id, and the store it leaves. -/
def perform (now : Timestamp) (newId : UUID) (store : PlatformStore) :
    StoreOp → Except PyError StoreReply × PlatformStore
  | .createAgentVersion payload =>
    let (version, store') := store.createAgentVersion now newId payload
    (.ok (.version version), store')
  | .getAgentVersion id => ((store.getAgentVersion id).map .version, store)
  | .createRun payload =>
    let (outcome, store') := store.createRun now newId payload
    (outcome.map .run, store')
  | .createExecution runId payload =>
    let (outcome, store') :=
      store.createExecution now newId runId payload.taskId payload.taskSeed
    (outcome.map .execution, store')
  | .recordResult id payload =>
    let (outcome, store') := store.recordResult now id payload
    (outcome.map .execution, store')
  | .appendTraceEvent id payload =>
    let (outcome, store') := store.appendTraceEvent now id payload
    (outcome.map .event, store')
  | .getExecution id => ((store.getExecution id).map .execution, store)
  | .getRunExecutions runId => ((store.getRunExecutions runId).map .executions, store)
  | .getTrace id =>
    match store.getTrace id with
    | .error e => (.error e, store)
    | .ok events => (.ok (.trace events), store.touchEvents id)
  | .appendJudgeVerdict id payload =>
    let (outcome, store') := store.appendJudgeVerdict now newId id payload
    (outcome.map .verdict, store')
  | .getJudgeVerdicts id =>
    match store.getJudgeVerdicts id with
    | .error e => (.error e, store)
    | .ok verdicts => (.ok (.verdicts verdicts), store.touchVerdicts id)

/-! ## What an operation does -/

/-- What an operation on a store returns, and the store it leaves. -/
inductive Effect (now : Timestamp) (newId : UUID) (store : PlatformStore) :
    StoreOp → Except PyError StoreReply → PlatformStore → Prop where
  | refused {op : StoreOp} {statusCode : ℕ} (detail : String)
      (hstatus : statusCode = 404 ∨ statusCode = 409) :
      Effect now newId store op (.error (.httpException statusCode detail)) store
  | versionFound {payload : AgentVersionCreate} {version : AgentVersion}
      (hmem : version ∈ store.versions)
      (hhash : version.contentHash = computeAgentVersionContentHash payload.content) :
      Effect now newId store (.createAgentVersion payload) (.ok (.version version)) store
  | versionCreated {payload : AgentVersionCreate} {version : AgentVersion}
      (hversion : version =
        payload.version (computeAgentVersionContentHash payload.content) newId now)
      (hnew : ∀ existing ∈ store.versions, existing.contentHash ≠ version.contentHash) :
      Effect now newId store (.createAgentVersion payload) (.ok (.version version))
        { store with agentVersions := Dict.set store.agentVersions newId version }
  | versionRead {id : UUID} {version : AgentVersion}
      (hread : store.getAgentVersion id = .ok version) :
      Effect now newId store (.getAgentVersion id) (.ok (.version version)) store
  | runCreated {payload : EvaluationRunCreate}
      (hversion : Dict.has store.agentVersions payload.agentVersionId = true) :
      Effect now newId store (.createRun payload) (.ok (.run (payload.run newId now)))
        { store with runs := Dict.set store.runs newId (payload.run newId now) }
  | executionCreated {runId : UUID} {payload : TaskExecutionCreate}
      (hrun : Dict.has store.runs runId = true) :
      Effect now newId store (.createExecution runId payload)
        (.ok (.execution (payload.execution newId runId now)))
        { store with
          executions := Dict.set store.executions newId (payload.execution newId runId now) }
  | resultRecorded {id : UUID} {payload : TaskExecutionResult} {execution : TaskExecution}
      (hexecution : store.getExecution id = .ok execution)
      (hopen : execution.status.terminal = false) :
      Effect now newId store (.recordResult id payload)
        (.ok (.execution (execution.finalize payload now)))
        { store with executions := Dict.set store.executions id (execution.finalize payload now) }
  | eventAppended {id : UUID} {payload : TraceEventCreate} {execution : TaskExecution}
      (hexecution : store.getExecution id = .ok execution)
      (hfree : ∀ event ∈ store.events id, event.sequenceNo ≠ payload.sequenceNo) :
      Effect now newId store (.appendTraceEvent id payload)
        (.ok (.event (storedEvent now id payload)))
        { store with
          eventsByExecution := Dict.set store.eventsByExecution id
            (sortBySequenceNo (store.events id ++ [storedEvent now id payload])) }
  | executionRead {id : UUID} {execution : TaskExecution}
      (hread : store.getExecution id = .ok execution) :
      Effect now newId store (.getExecution id) (.ok (.execution execution)) store
  | executionsRead {runId : UUID} (hrun : Dict.has store.runs runId = true) :
      Effect now newId store (.getRunExecutions runId)
        (.ok (.executions ((store.executions.map Prod.snd).filter fun execution =>
          execution.runId = runId))) store
  | traceRead {id : UUID} {execution : TaskExecution}
      (hexecution : store.getExecution id = .ok execution) :
      Effect now newId store (.getTrace id) (.ok (.trace (store.events id))) (store.touchEvents id)
  | verdictAppended {id : UUID} {payload : JudgeVerdictCreate} {execution : TaskExecution}
      (hexecution : store.getExecution id = .ok execution) :
      Effect now newId store (.appendJudgeVerdict id payload)
        (.ok (.verdict (payload.verdict newId id now)))
        { store with
          verdictsByExecution := Dict.set store.verdictsByExecution id
            (store.verdicts id ++ [payload.verdict newId id now]) }
  | verdictsRead {id : UUID} {execution : TaskExecution}
      (hexecution : store.getExecution id = .ok execution) :
      Effect now newId store (.getJudgeVerdicts id) (.ok (.verdicts (store.verdicts id)))
        (store.touchVerdicts id)

omit [Interpreter] [Sha256] in
/-- An execution that is not there is a 404. -/
theorem getExecution_eq_error {store : PlatformStore} {id : UUID} {e : PyError}
    (h : store.getExecution id = .error e) : e = .httpException 404 "task execution not found" := by
  rw [getExecution] at h
  cases hread : Dict.get? store.executions id with
  | none => simpa [hread] using h.symm
  | some execution => simp [hread] at h

/-- An operation on an execution that does not exist. -/
theorem Effect.of_missing {now : Timestamp} {newId id : UUID} {store : PlatformStore} {op : StoreOp}
    {e : PyError} (h : store.getExecution id = .error e) :
    Effect now newId store op (.error e) store := by
  obtain rfl := getExecution_eq_error h
  exact .refused _ (.inl rfl)

/-- **What an operation does.** -/
theorem perform_effect (now : Timestamp) (newId : UUID) (store : PlatformStore) (op : StoreOp) :
    Effect now newId store op (store.perform now newId op).1 (store.perform now newId op).2 := by
  cases op with
  | createAgentVersion payload =>
    simp only [perform, createAgentVersion]
    cases hfind : store.versions.find? fun existing =>
        existing.contentHash = computeAgentVersionContentHash payload.content with
    | some existing =>
      have hhash := List.find?_some hfind
      exact .versionFound (List.mem_of_find?_eq_some hfind) (of_decide_eq_true hhash)
    | none =>
      refine .versionCreated rfl fun existing hmem heq => ?_
      exact List.find?_eq_none.mp hfind existing hmem (decide_eq_true heq)
  | getAgentVersion id =>
    simp only [perform]
    cases hread : store.getAgentVersion id with
    | ok version => exact .versionRead hread
    | error e =>
      rw [getAgentVersion] at hread
      split at hread
      · cases hread
      · cases hread
        exact .refused _ (.inl rfl)
  | createRun payload =>
    simp only [perform, createRun]
    split_ifs with hversion
    · exact .runCreated hversion
    · exact .refused _ (.inl rfl)
  | createExecution runId payload =>
    simp only [perform, createExecution]
    split_ifs with hrun
    · exact .executionCreated hrun
    · exact .refused _ (.inl rfl)
  | recordResult id payload =>
    simp only [perform, recordResult]
    cases hexecution : store.getExecution id with
    | error e => exact .of_missing hexecution
    | ok execution =>
      dsimp only
      split_ifs with hterminal
      · exact .refused _ (.inr rfl)
      · exact .resultRecorded hexecution (Bool.eq_false_of_not_eq_true hterminal)
  | appendTraceEvent id payload =>
    simp only [perform, appendTraceEvent]
    cases hexecution : store.getExecution id with
    | error e => exact .of_missing hexecution
    | ok execution =>
      dsimp only
      split_ifs with htaken
      · exact .refused _ (.inr rfl)
      · refine .eventAppended hexecution fun event hmem heq => htaken ?_
        exact List.any_eq_true.mpr ⟨event, hmem, decide_eq_true heq⟩
  | getExecution id =>
    simp only [perform]
    cases hread : store.getExecution id with
    | ok execution => exact .executionRead hread
    | error e => exact .of_missing hread
  | getRunExecutions runId =>
    simp only [perform, getRunExecutions]
    split_ifs with hrun
    · exact .executionsRead hrun
    · exact .refused _ (.inl rfl)
  | getTrace id =>
    simp only [perform, getTrace]
    cases hexecution : store.getExecution id with
    | ok execution => exact .traceRead hexecution
    | error e => exact .of_missing hexecution
  | appendJudgeVerdict id payload =>
    simp only [perform, appendJudgeVerdict]
    cases hexecution : store.getExecution id with
    | ok execution => exact .verdictAppended hexecution
    | error e => exact .of_missing hexecution
  | getJudgeVerdicts id =>
    simp only [perform, getJudgeVerdicts]
    cases hexecution : store.getExecution id with
    | ok execution => exact .verdictsRead hexecution
    | error e => exact .of_missing hexecution

end PlatformStore

/-! ## Runs of operations -/

/-- An operation, with the time it is carried out at and the id it is offered. -/
structure StoreCall where
  op : StoreOp
  now : Timestamp
  newId : UUID

/-- An operation that was carried out, with its outcome. -/
structure Performed extends StoreCall where
  outcome : Except PyError StoreReply

namespace PlatformStore

/-- The ids the store has generated. -/
def ids (store : PlatformStore) : List UUID :=
  store.agentVersions.map Prod.fst ++ store.runs.map Prod.fst ++ store.executions.map Prod.fst ++
    (store.verdictsByExecution.flatMap Prod.snd).map fun verdict => verdict.id

/-- One operation; the id it is offered is fresh. -/
inductive Step : Performed → PlatformStore → PlatformStore → Prop where
  | perform (store : PlatformStore) (call : StoreCall) (hfresh : call.newId ∉ store.ids) :
      Step ⟨call, (store.perform call.now call.newId call.op).1⟩ store
        (store.perform call.now call.newId call.op).2

/-- The stores that operations lead to from an empty one. -/
def Reachable (store : PlatformStore) : Prop := ∃ performed, Execution Step {} performed store

/-- A step has an effect. -/
theorem Step.effect {performed : Performed} {store store' : PlatformStore}
    (h : Step performed store store') :
    performed.newId ∉ store.ids ∧
      Effect performed.now performed.newId store performed.op performed.outcome store' := by
  obtain ⟨store, call, hfresh⟩ := h
  exact ⟨hfresh, perform_effect call.now call.newId store call.op⟩

/-- Operations one after the other, as long as the ids are fresh. -/
def performAll : List StoreCall → PlatformStore → Option (List Performed × PlatformStore)
  | [], store => some ([], store)
  | call :: calls, store =>
    if call.newId ∈ store.ids then none
    else
      let (outcome, store') := store.perform call.now call.newId call.op
      (performAll calls store').map fun run => (⟨call, outcome⟩ :: run.1, run.2)

/-- Operations one after the other are a run. -/
theorem execution_performAll : ∀ {calls : List StoreCall} {store : PlatformStore}
    {run : List Performed × PlatformStore}, performAll calls store = some run →
      Execution Step store run.1 run.2
  | [], store, _, h => by
    obtain rfl := Option.some.inj h
    exact .nil store
  | call :: calls, store, _, h => by
    rw [performAll] at h
    split_ifs at h with hfresh
    obtain ⟨run, hrun, rfl⟩ := Option.map_eq_some_iff.mp h
    exact .cons (.perform store call hfresh) (execution_performAll hrun)

omit [Interpreter] [Sha256] in
/-- A fresh id is no version, run or execution. -/
theorem get?_of_fresh {store : PlatformStore} {newId : UUID} (h : newId ∉ store.ids) :
    Dict.get? store.agentVersions newId = none ∧ Dict.get? store.runs newId = none ∧
      Dict.get? store.executions newId = none := by
  simp only [ids, List.mem_append, not_or] at h
  obtain ⟨⟨⟨hversions, hruns⟩, hexecutions⟩, -⟩ := h
  exact ⟨Dict.get?_eq_none_iff.mpr hversions, Dict.get?_eq_none_iff.mpr hruns,
    Dict.get?_eq_none_iff.mpr hexecutions⟩

end PlatformStore

end AgentProof
