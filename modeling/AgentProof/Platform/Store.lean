import AgentProof.Machinery.Prog
import AgentProof.Platform.Redaction
import AgentProof.Platform.Schemas
import Mathlib.Data.List.Sort

/-!
# Platform/Store — the in-memory store

`PlatformStore` and the operations the worker and the comparison use.  The time and the ids an
operation makes up are arguments.  `StoreCommand` is the part of the `Store` protocol a worker
issues; a fault of the store raises before or after the operation took effect.
-/

open Machinery

namespace AgentProof

/-- `payload.model_copy(update={"payload": redact_payload(payload.payload)})` -/
def TraceEventCreate.redacted (event : TraceEventCreate) : TraceEventCreate :=
  { event with payload := redactPayload event.payload }

/-- `app.store.PlatformStore` -/
structure PlatformStore where
  agentVersions : Dict UUID AgentVersion := []
  runs : Dict UUID EvaluationRun := []
  executions : Dict UUID TaskExecution := []
  eventsByExecution : Dict UUID (List TraceEvent) := []
  verdictsByExecution : Dict UUID (List JudgeVerdict) := []

namespace PlatformStore

/-- `self.events_by_execution[execution_id]`, an empty list when there is none yet. -/
def events (store : PlatformStore) (executionId : UUID) : List TraceEvent :=
  (Dict.get? store.eventsByExecution executionId).getD []

/-- `self.verdicts_by_execution[execution_id]` -/
def verdicts (store : PlatformStore) (executionId : UUID) : List JudgeVerdict :=
  (Dict.get? store.verdictsByExecution executionId).getD []

/-- `get_agent_version` -/
def getAgentVersion (store : PlatformStore) (id : UUID) : Except PyError AgentVersion :=
  match Dict.get? store.agentVersions id with
  | some version => .ok version
  | none => .error (.httpException 404 "agent version not found")

/-- `get_execution` -/
def getExecution (store : PlatformStore) (id : UUID) : Except PyError TaskExecution :=
  match Dict.get? store.executions id with
  | some execution => .ok execution
  | none => .error (.httpException 404 "task execution not found")

/-- `create_execution` -/
def createExecution (now : Timestamp) (newId runId : UUID) (taskId : String) (taskSeed : ℕ)
    (store : PlatformStore) : Except PyError TaskExecution × PlatformStore :=
  if Dict.has store.runs runId then
    let execution : TaskExecution := { id := newId, runId, taskId, taskSeed, createdAt := now }
    (.ok execution, { store with executions := Dict.set store.executions newId execution })
  else (.error (.httpException 404 "evaluation run not found"), store)

/-- `record_result` -/
def recordResult (now : Timestamp) (executionId : UUID) (payload : TaskExecutionResult)
    (store : PlatformStore) : Except PyError TaskExecution × PlatformStore :=
  match store.getExecution executionId with
  | .error e => (.error e, store)
  | .ok execution =>
    if execution.status.terminal then
      (.error (.httpException 409 "execution already finalized"), store)
    else
      let updated := execution.finalize payload now
      (.ok updated, { store with executions := Dict.set store.executions executionId updated })

/-- `events.sort(key=lambda item: item.sequence_no)` -/
def sortBySequenceNo (events : List TraceEvent) : List TraceEvent :=
  events.insertionSort fun a b => a.sequenceNo ≤ b.sequenceNo

/-- The stored form of an event. -/
def storedEvent (now : Timestamp) (executionId : UUID) (payload : TraceEventCreate) :
    TraceEvent where
  toTraceEventCreate := payload.redacted
  executionId := executionId
  createdAt := now

/-- `append_trace_event` -/
def appendTraceEvent (now : Timestamp) (executionId : UUID) (payload : TraceEventCreate)
    (store : PlatformStore) : Except PyError TraceEvent × PlatformStore :=
  match store.getExecution executionId with
  | .error e => (.error e, store)
  | .ok _ =>
    if (store.events executionId).any fun event => event.sequenceNo = payload.sequenceNo then
      (.error (.httpException 409 "duplicate trace sequence number"), store)
    else
      let event := storedEvent now executionId payload
      (.ok event, { store with
        eventsByExecution := Dict.set store.eventsByExecution executionId
          (sortBySequenceNo (store.events executionId ++ [event])) })

/-- `get_run_executions` -/
def getRunExecutions (store : PlatformStore) (runId : UUID) :
    Except PyError (List TaskExecution) :=
  if Dict.has store.runs runId then
    .ok ((store.executions.map Prod.snd).filter fun execution => execution.runId = runId)
  else .error (.httpException 404 "evaluation run not found")

/-- `get_trace` -/
def getTrace (store : PlatformStore) (executionId : UUID) : Except PyError (List TraceEvent) := do
  let _ ← store.getExecution executionId
  return store.events executionId

/-- `append_judge_verdict` -/
def appendJudgeVerdict (now : Timestamp) (newId executionId : UUID) (payload : JudgeVerdictCreate)
    (store : PlatformStore) : Except PyError JudgeVerdict × PlatformStore :=
  match store.getExecution executionId with
  | .error e => (.error e, store)
  | .ok _ =>
    let verdict : JudgeVerdict :=
      { toJudgeVerdictCreate := payload, id := newId, executionId, createdAt := now }
    (.ok verdict, { store with
      verdictsByExecution := Dict.set store.verdictsByExecution executionId
        (store.verdicts executionId ++ [verdict]) })

/-! ### What the writes do -/

section

variable {store : PlatformStore} {id : UUID}

/-- An event whose number is taken is refused, and nothing changes. -/
theorem appendTraceEvent_of_taken (now : Timestamp) {payload : TraceEventCreate}
    {event : TraceEvent} (hmem : event ∈ store.events id)
    (htaken : event.sequenceNo = payload.sequenceNo) :
    ∃ e, store.appendTraceEvent now id payload = (.error e, store) := by
  rw [appendTraceEvent]
  cases store.getExecution id with
  | error e => exact ⟨e, rfl⟩
  | ok execution =>
    have htaken : ((store.events id).any fun event => event.sequenceNo = payload.sequenceNo) = true :=
      List.any_eq_true.mpr ⟨event, hmem, by simpa using htaken⟩
    exact ⟨_, if_pos htaken⟩

/-- **An event with the next number goes to the end.** -/
theorem appendTraceEvent_of_next (now : Timestamp) {payload : TraceEventCreate}
    {execution : TaskExecution} (hexecution : store.getExecution id = .ok execution)
    (hnumbered : (store.events id).map (·.sequenceNo) = List.range (store.events id).length)
    (hnext : payload.sequenceNo = (store.events id).length) :
    store.appendTraceEvent now id payload =
      (.ok (storedEvent now id payload), { store with
        eventsByExecution := Dict.set store.eventsByExecution id
          (store.events id ++ [storedEvent now id payload]) }) := by
  have hlt : ∀ event ∈ store.events id, event.sequenceNo < payload.sequenceNo := by
    intro event hmem
    have hno : event.sequenceNo ∈ (store.events id).map (·.sequenceNo) :=
      List.mem_map_of_mem hmem
    rw [hnumbered, List.mem_range] at hno
    omega
  have hfree : ¬ ((store.events id).any fun event => event.sequenceNo = payload.sequenceNo) =
      true := by
    intro h
    obtain ⟨event, hmem, heq⟩ := List.any_eq_true.mp h
    have hevent := hlt event hmem
    have heq : event.sequenceNo = payload.sequenceNo := by simpa using heq
    omega
  have hsorted : sortBySequenceNo (store.events id ++ [storedEvent now id payload]) =
      store.events id ++ [storedEvent now id payload] := by
    refine List.Pairwise.insertionSort_eq (List.pairwise_append.mpr ⟨?_, by simp, ?_⟩)
    · have hrange : ((store.events id).map (·.sequenceNo)).Pairwise (· ≤ ·) := by
        rw [hnumbered]
        exact List.pairwise_le_range
      exact List.pairwise_map.mp hrange
    · intro event hmem stored hstored
      obtain rfl := List.mem_singleton.mp hstored
      exact (hlt event hmem).le
  simp only [appendTraceEvent, hexecution, if_neg hfree, hsorted]

/-- A finalized execution takes no result. -/
theorem recordResult_of_terminal (now : Timestamp) (payload : TaskExecutionResult)
    {execution : TaskExecution} (hexecution : store.getExecution id = .ok execution)
    (hterminal : execution.status.terminal = true) :
    store.recordResult now id payload =
      (.error (.httpException 409 "execution already finalized"), store) := by
  simp only [recordResult, hexecution, hterminal, if_true]

/-- An open execution takes the result. -/
theorem recordResult_of_open (now : Timestamp) (payload : TaskExecutionResult)
    {execution : TaskExecution} (hexecution : store.getExecution id = .ok execution)
    (hopen : execution.status.terminal = false) :
    store.recordResult now id payload = (.ok (execution.finalize payload now), { store with
      executions := Dict.set store.executions id (execution.finalize payload now) }) := by
  simp [recordResult, hexecution, hopen]

end

end PlatformStore

/-! ## The commands of a worker -/

/-- A call a worker makes on its store. -/
inductive StoreCommand where
  | getAgentVersion (agentVersionId : UUID)
  | appendTraceEvent (executionId : UUID) (payload : TraceEventCreate)
  | recordResult (executionId : UUID) (payload : TaskExecutionResult)
  | appendJudgeVerdict (executionId : UUID) (payload : JudgeVerdictCreate)

/-- What the call returns. -/
abbrev StoreCommand.Resp : StoreCommand → Type
  | .getAgentVersion _ => AgentVersion
  | .appendTraceEvent _ _ => TraceEvent
  | .recordResult _ _ => TaskExecution
  | .appendJudgeVerdict _ _ => JudgeVerdict

/-- A failure of the store: it raises, and the operation took effect or not. -/
inductive Fault where
  | before (e : PyError)
  | after (e : PyError)

/-- The circumstances of a store call. -/
structure Circumstance where
  now : Timestamp
  newId : UUID
  fault : Option Fault

/-- The store's answer to a command, as the store computes it. -/
def PlatformStore.answer (now : Timestamp) (newId : UUID) :
    (c : StoreCommand) → PlatformStore → Except PyError c.Resp × PlatformStore
  | .getAgentVersion id, store => (store.getAgentVersion id, store)
  | .appendTraceEvent id payload, store => store.appendTraceEvent now id payload
  | .recordResult id payload, store => store.recordResult now id payload
  | .appendJudgeVerdict id payload, store => store.appendJudgeVerdict now newId id payload

/-- The store, faults included. -/
def PlatformStore.handle : Prog.Handler PyError StoreCommand StoreCommand.Resp Circumstance
    PlatformStore := fun w c store =>
  match w.fault with
  | none => store.answer w.now w.newId c
  | some (.before e) => (.error e, store)
  | some (.after e) => (.error e, (store.answer w.now w.newId c).2)

/-- The store as long as it does not fail, at the times and with the ids it is given. -/
def PlatformStore.unfailing : Prog.Handler PyError StoreCommand StoreCommand.Resp
    (Timestamp × UUID) PlatformStore := fun stamp c store => store.answer stamp.1 stamp.2 c

/-- A call is answered, or it raises; and where it raises it may still have taken effect. -/
theorem PlatformStore.handle_cases (w : Circumstance) (c : StoreCommand) (store : PlatformStore) :
    handle w c store = store.answer w.now w.newId c ∨
      ∃ e, handle w c store = (.error e, store) ∨
        handle w c store = (.error e, (store.answer w.now w.newId c).2) := by
  rw [handle]
  cases w.fault with
  | none => exact .inl rfl
  | some fault =>
    cases fault with
    | before e => exact .inr ⟨e, .inl rfl⟩
    | after e => exact .inr ⟨e, .inr rfl⟩

/-- A call that returns was answered. -/
theorem PlatformStore.handle_eq_ok {w : Circumstance} {c : StoreCommand} {store : PlatformStore}
    {r : c.Resp} (h : (handle w c store).1 = .ok r) :
    handle w c store = store.answer w.now w.newId c := by
  rcases handle_cases w c store with h' | ⟨e, h' | h'⟩
  · exact h'
  · rw [h'] at h
    exact absurd h (by simp)
  · rw [h'] at h
    exact absurd h (by simp)

/-- An agent version that is read is there. -/
theorem PlatformStore.getAgentVersion_eq_ok {store : PlatformStore} {id : UUID}
    {version : AgentVersion} (h : store.getAgentVersion id = .ok version) :
    Dict.get? store.agentVersions id = some version := by
  rw [getAgentVersion] at h
  cases hread : Dict.get? store.agentVersions id with
  | none => simp [hread] at h
  | some version' => simpa [hread] using h

/-- An execution is read exactly when it is filed. -/
theorem PlatformStore.getExecution_eq_ok_iff {store : PlatformStore} {id : UUID}
    {execution : TaskExecution} :
    store.getExecution id = .ok execution ↔ Dict.get? store.executions id = some execution := by
  rw [getExecution]
  cases Dict.get? store.executions id <;> simp

/-- The execution that is filed is read. -/
theorem PlatformStore.getExecution_set_self (store : PlatformStore) (id : UUID)
    (execution : TaskExecution) :
    getExecution { store with executions := Dict.set store.executions id execution } id =
      .ok execution :=
  getExecution_eq_ok_iff.mpr (Dict.get?_set_self _ _ _)

/-- The others are read as before. -/
theorem PlatformStore.getExecution_set_of_ne (store : PlatformStore) {id id' : UUID} (h : id ≠ id')
    (execution : TaskExecution) :
    getExecution { store with executions := Dict.set store.executions id execution } id' =
      store.getExecution id' := by
  rw [getExecution, getExecution, Dict.get?_set_of_ne _ h]

/-- No command of a worker touches the agent versions or the runs. -/
theorem PlatformStore.answer_keeps (now : Timestamp) (newId : UUID) (c : StoreCommand)
    (store : PlatformStore) :
    (store.answer now newId c).2.agentVersions = store.agentVersions ∧
      (store.answer now newId c).2.runs = store.runs := by
  cases c with
  | getAgentVersion => exact ⟨rfl, rfl⟩
  | appendTraceEvent =>
    simp only [answer, appendTraceEvent]
    split <;> [exact ⟨rfl, rfl⟩; (split <;> exact ⟨rfl, rfl⟩)]
  | recordResult =>
    simp only [answer, recordResult]
    split <;> [exact ⟨rfl, rfl⟩; (split <;> exact ⟨rfl, rfl⟩)]
  | appendJudgeVerdict =>
    simp only [answer, appendJudgeVerdict]
    split <;> exact ⟨rfl, rfl⟩

theorem PlatformStore.handle_keeps (w : Circumstance) (c : StoreCommand) (store : PlatformStore) :
    (handle w c store).2.agentVersions = store.agentVersions ∧
      (handle w c store).2.runs = store.runs := by
  rcases handle_cases w c store with h | ⟨e, h | h⟩ <;> rw [h]
  · exact answer_keeps w.now w.newId c store
  · exact ⟨rfl, rfl⟩
  · exact answer_keeps w.now w.newId c store

@[simp] theorem PlatformStore.handle_agentVersions (w : Circumstance) (c : StoreCommand)
    (store : PlatformStore) : (handle w c store).2.agentVersions = store.agentVersions :=
  (handle_keeps w c store).1

/-! ## Every execution under its own id -/

/-- Every execution is filed once, and under its own id. -/
structure PlatformStore.Keyed (store : PlatformStore) : Prop where
  nodup : (store.executions.map Prod.fst).Nodup
  id : ∀ entry ∈ store.executions, entry.2.id = entry.1

namespace PlatformStore

variable {store : PlatformStore}

theorem keyed_empty : Keyed {} := ⟨List.nodup_nil, by simp⟩

/-- An execution filed under its own id. -/
theorem Keyed.set (h : store.Keyed) (execution : TaskExecution) :
    Keyed { store with executions := Dict.set store.executions execution.id execution } where
  nodup := Dict.nodup_keys_set h.nodup _ _
  id entry hmem := by
    rcases Dict.mem_set hmem with rfl | hmem
    · rfl
    · exact h.id entry hmem

/-- **Executions are created under their own ids.** -/
theorem Keyed.createExecution (h : store.Keyed) (now : Timestamp) (newId runId : UUID)
    (taskId : String) (taskSeed : ℕ) :
    Keyed (store.createExecution now newId runId taskId taskSeed).2 := by
  rw [PlatformStore.createExecution]
  split
  · exact h.set { id := newId, runId, taskId, taskSeed, createdAt := now }
  · exact h

/-- What is filed under an id has that id. -/
theorem Keyed.id_of_getExecution (h : store.Keyed) {id : UUID} {execution : TaskExecution}
    (hget : store.getExecution id = .ok execution) : execution.id = id := by
  have hread := getExecution_eq_ok_iff.mp hget
  exact h.id _ (Dict.mem_of_get?_eq_some hread)

/-- An execution of the store is found under its id. -/
theorem Keyed.getExecution_of_mem (h : store.Keyed) {entry : UUID × TaskExecution}
    (hmem : entry ∈ store.executions) : store.getExecution entry.2.id = .ok entry.2 := by
  have hread : Dict.get? store.executions entry.2.id = some entry.2 :=
    Dict.get?_eq_some_of_mem h.nodup ((h.id entry hmem).symm ▸ hmem)
  exact getExecution_eq_ok_iff.mpr hread

theorem Keyed.answer (h : store.Keyed) (now : Timestamp) (newId : UUID) (c : StoreCommand) :
    Keyed (store.answer now newId c).2 := by
  cases c with
  | getAgentVersion => exact h
  | appendTraceEvent =>
    simp only [PlatformStore.answer, appendTraceEvent]
    split <;> [exact h; (split <;> exact ⟨h.nodup, h.id⟩)]
  | recordResult id payload =>
    simp only [PlatformStore.answer, recordResult]
    cases hget : store.getExecution id with
    | error e => exact h
    | ok execution =>
      obtain rfl := h.id_of_getExecution hget
      dsimp only
      split
      · exact h
      · exact h.set (execution.finalize payload now)
  | appendJudgeVerdict =>
    simp only [PlatformStore.answer, appendJudgeVerdict]
    split <;> exact ⟨h.nodup, h.id⟩

/-- **A worker keeps the executions under their ids.** -/
theorem Keyed.handle (h : store.Keyed) (w : Circumstance) (c : StoreCommand) :
    Keyed (handle w c store).2 := by
  rcases handle_cases w c store with heq | ⟨e, heq | heq⟩ <;> rw [heq]
  · exact h.answer w.now w.newId c
  · exact h
  · exact h.answer w.now w.newId c

end PlatformStore

end AgentProof
