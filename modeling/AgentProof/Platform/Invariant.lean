import AgentProof.Platform.Operations

/-!
# Platform/Invariant — what holds of every store

`PlatformStore.WellFormed` collects what comparisons and replays rely on: versions identified by
their content, references that exist, traces in order and redacted, and results on the finalized
executions only.  Every operation keeps it (`WellFormed.effect`), so it holds of every store that
operations lead to.
-/

open Machinery

namespace AgentProof

open PlatformStore (storedEvent sortBySequenceNo)

/-- An execution has a result exactly when its status is final. -/
structure TaskExecution.Consistent (execution : TaskExecution) : Prop where
  finishedAt : execution.finishedAt.isSome = execution.status.terminal
  passed : execution.passed.isSome = execution.status.terminal
  of_passed : execution.status = .passed → execution.passed = some true
  of_failed : execution.status = .failed → execution.passed = some false

/-- A trace: events of one execution, in order and redacted. -/
structure IsTrace (executionId : UUID) (events : List TraceEvent) : Prop where
  own : ∀ event ∈ events, event.executionId = executionId
  increasing : events.Pairwise fun a b => a.sequenceNo < b.sequenceNo
  redacted : ∀ event ∈ events, redactPayload event.payload = event.payload

variable [Interpreter] [Sha256]

/-- **The invariant of the store.** -/
structure PlatformStore.WellFormed (store : PlatformStore) : Prop where
  hashes_nodup : (store.versions.map fun version => version.contentHash).Nodup
  hash_eq : ∀ version ∈ store.versions,
    version.contentHash = computeAgentVersionContentHash version.content
  run_version : ∀ entry ∈ store.runs, Dict.has store.agentVersions entry.2.agentVersionId = true
  execution_run : ∀ entry ∈ store.executions, Dict.has store.runs entry.2.runId = true
  events_execution : ∀ entry ∈ store.eventsByExecution, Dict.has store.executions entry.1 = true
  events_trace : ∀ entry ∈ store.eventsByExecution, IsTrace entry.1 entry.2
  verdicts_execution : ∀ entry ∈ store.verdictsByExecution,
    Dict.has store.executions entry.1 = true
  verdicts_own : ∀ entry ∈ store.verdictsByExecution, ∀ verdict ∈ entry.2,
    verdict.executionId = entry.1
  consistent : ∀ entry ∈ store.executions, entry.2.Consistent

/-! ## What the operations file -/

omit [Interpreter] [Sha256] in
/-- A new execution is pending. -/
theorem TaskExecutionCreate.execution_consistent (payload : TaskExecutionCreate)
    (newId runId : UUID) (now : Timestamp) : (payload.execution newId runId now).Consistent :=
  ⟨rfl, rfl, fun h => absurd h (by simp [execution]), fun h => absurd h (by simp [execution])⟩

omit [Interpreter] [Sha256] in
/-- A finalized execution has the result that was validated. -/
theorem TaskExecution.finalize_consistent (execution : TaskExecution)
    (payload : TaskExecutionResult) (now : Timestamp) :
    (execution.finalize payload now).Consistent := by
  obtain ⟨hterminal, hpassed, hfailed⟩ := payload.outcome
  refine ⟨hterminal.symm, hterminal.symm, fun h => ?_, fun h => ?_⟩
  · exact congrArg some (hpassed h)
  · exact congrArg some (hfailed h)

omit [Interpreter] [Sha256] in
/-- An event that is stored is redacted. -/
theorem storedEvent_redacted (now : Timestamp) (id : UUID) (payload : TraceEventCreate) :
    redactPayload (storedEvent now id payload).payload = (storedEvent now id payload).payload :=
  redactFields_redactFields payload.payload

omit [Interpreter] [Sha256] in
/-- Events with distinct numbers are sorted into increasing ones. -/
theorem sortBySequenceNo_increasing {events : List TraceEvent}
    (h : events.Pairwise fun a b => a.sequenceNo ≠ b.sequenceNo) :
    (sortBySequenceNo events).Pairwise fun a b => a.sequenceNo < b.sequenceNo := by
  have hle : (sortBySequenceNo events).Pairwise fun a b => a.sequenceNo ≤ b.sequenceNo :=
    have : Std.Total fun a b : TraceEvent => a.sequenceNo ≤ b.sequenceNo :=
      ⟨fun a b => le_total a.sequenceNo b.sequenceNo⟩
    have : IsTrans TraceEvent fun a b => a.sequenceNo ≤ b.sequenceNo := ⟨fun _ _ _ => le_trans⟩
    List.pairwise_insertionSort _ _
  have hne : (sortBySequenceNo events).Pairwise fun a b => a.sequenceNo ≠ b.sequenceNo :=
    (List.perm_insertionSort _ _).symm.pairwise h fun {a b} hab => Ne.symm hab
  exact hle.imp₂ (fun a b => lt_of_le_of_ne) hne

omit [Interpreter] [Sha256] in
/-- **An event with a free number takes its place in the trace.** -/
theorem IsTrace.insert {id : UUID} {events : List TraceEvent} (h : IsTrace id events)
    (now : Timestamp) {payload : TraceEventCreate}
    (hfree : ∀ event ∈ events, event.sequenceNo ≠ payload.sequenceNo) :
    IsTrace id (sortBySequenceNo (events ++ [storedEvent now id payload])) := by
  have hmem : ∀ event ∈ sortBySequenceNo (events ++ [storedEvent now id payload]),
      event ∈ events ∨ event = storedEvent now id payload := by
    intro event hmem
    rw [sortBySequenceNo, List.mem_insertionSort, List.mem_append, List.mem_singleton] at hmem
    exact hmem
  refine ⟨fun event hevent => ?_, sortBySequenceNo_increasing ?_, fun event hevent => ?_⟩
  · rcases hmem event hevent with hevent | rfl
    · exact h.own event hevent
    · rfl
  · refine List.pairwise_append.mpr ⟨h.increasing.imp fun {a b} => ne_of_lt, by simp, ?_⟩
    intro event hevent stored hstored
    obtain rfl := List.mem_singleton.mp hstored
    exact hfree event hevent
  · rcases hmem event hevent with hevent | rfl
    · exact h.redacted event hevent
    · exact storedEvent_redacted now id payload

omit [Interpreter] [Sha256] in
/-- The events read under an id are a trace. -/
theorem isTrace_events {store : PlatformStore}
    (h : ∀ entry ∈ store.eventsByExecution, IsTrace entry.1 entry.2) (id : UUID) :
    IsTrace id (store.events id) := by
  rw [PlatformStore.events]
  cases hread : Dict.get? store.eventsByExecution id with
  | none => exact ⟨by simp, List.Pairwise.nil, by simp⟩
  | some events => exact h (id, events) (Dict.mem_of_get?_eq_some hread)

/-! ## Every operation keeps the invariant -/

namespace PlatformStore.WellFormed

variable {store store' : PlatformStore} {now : Timestamp} {newId : UUID}

theorem empty : WellFormed {} := by
  constructor <;> simp [versions]

/-- A version with a new hash. -/
theorem addVersion (h : store.WellFormed) (hfresh : newId ∉ store.ids) {version : AgentVersion}
    (hhash : version.contentHash = computeAgentVersionContentHash version.content)
    (hnew : ∀ existing ∈ store.versions, existing.contentHash ≠ version.contentHash) :
    WellFormed { store with agentVersions := Dict.set store.agentVersions newId version } := by
  have hset := Dict.set_of_get?_eq_none (get?_of_fresh hfresh).1 version
  have hversions : versions { store with
      agentVersions := Dict.set store.agentVersions newId version } =
        store.versions ++ [version] := by
    rw [versions, hset, List.map_append]
    rfl
  refine { h with hashes_nodup := ?_, hash_eq := ?_, run_version := ?_ }
  · rw [hversions, List.map_append, List.map_singleton]
    refine List.nodup_append.mpr ⟨h.hashes_nodup, List.nodup_singleton _, ?_⟩
    intro hash hmem hash' hmem' heq
    obtain ⟨existing, hexisting, rfl⟩ := List.mem_map.mp hmem
    exact hnew existing hexisting (heq.trans (List.mem_singleton.mp hmem'))
  · intro existing hmem
    rw [hversions] at hmem
    rcases List.mem_append.mp hmem with hmem | hmem
    · exact h.hash_eq existing hmem
    · obtain rfl := List.mem_singleton.mp hmem
      exact hhash
  · exact fun entry hmem => Dict.has_set (h.run_version entry hmem) _ _

/-- A run of a version that exists. -/
theorem addRun (h : store.WellFormed) {run : EvaluationRun} (id : UUID)
    (hversion : Dict.has store.agentVersions run.agentVersionId = true) :
    WellFormed { store with runs := Dict.set store.runs id run } := by
  refine { h with run_version := ?_, execution_run := ?_ }
  · intro entry hmem
    rcases Dict.mem_set hmem with rfl | hmem
    · exact hversion
    · exact h.run_version entry hmem
  · exact fun entry hmem => Dict.has_set (h.execution_run entry hmem) _ _

/-- An execution of a run that exists. -/
theorem setExecution (h : store.WellFormed) {execution : TaskExecution} (id : UUID)
    (hrun : Dict.has store.runs execution.runId = true) (hconsistent : execution.Consistent) :
    WellFormed { store with executions := Dict.set store.executions id execution } := by
  refine { h with execution_run := ?_, events_execution := ?_, verdicts_execution := ?_,
                  consistent := ?_ }
  · intro entry hmem
    rcases Dict.mem_set hmem with rfl | hmem
    · exact hrun
    · exact h.execution_run entry hmem
  · exact fun entry hmem => Dict.has_set (h.events_execution entry hmem) _ _
  · exact fun entry hmem => Dict.has_set (h.verdicts_execution entry hmem) _ _
  · intro entry hmem
    rcases Dict.mem_set hmem with rfl | hmem
    · exact hconsistent
    · exact h.consistent entry hmem

/-- A trace of an execution that exists. -/
theorem setEvents (h : store.WellFormed) {id : UUID} {events : List TraceEvent}
    (hexecution : Dict.has store.executions id = true) (htrace : IsTrace id events)
    {eventsByExecution : Dict UUID (List TraceEvent)}
    (hmem : ∀ entry ∈ eventsByExecution, entry = (id, events) ∨ entry ∈ store.eventsByExecution) :
    WellFormed { store with eventsByExecution } := by
  refine { h with events_execution := ?_, events_trace := ?_ }
  · intro entry hentry
    rcases hmem entry hentry with rfl | hentry
    · exact hexecution
    · exact h.events_execution entry hentry
  · intro entry hentry
    rcases hmem entry hentry with rfl | hentry
    · exact htrace
    · exact h.events_trace entry hentry

/-- Verdicts on an execution that exists. -/
theorem setVerdicts (h : store.WellFormed) {id : UUID} {verdicts : List JudgeVerdict}
    (hexecution : Dict.has store.executions id = true)
    (hown : ∀ verdict ∈ verdicts, verdict.executionId = id)
    {verdictsByExecution : Dict UUID (List JudgeVerdict)}
    (hmem : ∀ entry ∈ verdictsByExecution,
      entry = (id, verdicts) ∨ entry ∈ store.verdictsByExecution) :
    WellFormed { store with verdictsByExecution } := by
  refine { h with verdicts_execution := ?_, verdicts_own := ?_ }
  · intro entry hentry
    rcases hmem entry hentry with rfl | hentry
    · exact hexecution
    · exact h.verdicts_execution entry hentry
  · intro entry hentry
    rcases hmem entry hentry with rfl | hentry
    · exact hown
    · exact h.verdicts_own entry hentry

omit [Interpreter] [Sha256] in
/-- An execution that is read is there. -/
theorem has_of_getExecution {id : UUID} {execution : TaskExecution}
    (h : store.getExecution id = .ok execution) : Dict.has store.executions id = true :=
  Dict.has_iff.mpr ⟨execution, getExecution_eq_ok_iff.mp h⟩

/-- The verdicts read under an execution are its own. -/
theorem own_verdicts (h : store.WellFormed) (id : UUID) :
    ∀ verdict ∈ store.verdicts id, verdict.executionId = id := by
  intro verdict hmem
  rw [verdicts] at hmem
  cases hread : Dict.get? store.verdictsByExecution id with
  | none => simp [hread] at hmem
  | some verdicts =>
    rw [hread] at hmem
    exact h.verdicts_own (id, verdicts) (Dict.mem_of_get?_eq_some hread) verdict hmem

/-- **Step lemma**: every operation keeps the invariant. -/
theorem effect (h : store.WellFormed) (hfresh : newId ∉ store.ids) {op : StoreOp}
    {outcome : Except PyError StoreReply} (heffect : Effect now newId store op outcome store') :
    store'.WellFormed := by
  cases heffect with
  | refused => exact h
  | versionFound => exact h
  | versionRead => exact h
  | executionRead => exact h
  | executionsRead => exact h
  | versionCreated hversion hnew =>
    subst hversion
    exact h.addVersion hfresh rfl hnew
  | runCreated hversion => exact h.addRun newId hversion
  | executionCreated hrun =>
    exact h.setExecution newId hrun
      (TaskExecutionCreate.execution_consistent _ _ _ _)
  | @resultRecorded id payload execution hexecution hopen =>
    have hmem := Dict.mem_of_get?_eq_some (getExecution_eq_ok_iff.mp hexecution)
    exact h.setExecution id (h.execution_run _ hmem) (execution.finalize_consistent payload now)
  | @eventAppended id payload execution hexecution hfree =>
    exact h.setEvents (has_of_getExecution hexecution)
      ((isTrace_events h.events_trace id).insert now hfree) fun _ => Dict.mem_set
  | @traceRead id execution hexecution =>
    exact h.setEvents (has_of_getExecution hexecution) ⟨by simp, List.Pairwise.nil, by simp⟩
      fun _ => Dict.mem_setDefault
  | @verdictAppended id payload execution hexecution =>
    refine h.setVerdicts (has_of_getExecution hexecution) ?_ fun _ => Dict.mem_set
    intro verdict hmem
    rcases List.mem_append.mp hmem with hmem | hmem
    · exact h.own_verdicts id verdict hmem
    · obtain rfl := List.mem_singleton.mp hmem
      rfl
  | @verdictsRead id execution hexecution =>
    exact h.setVerdicts (has_of_getExecution hexecution) (by simp) fun _ => Dict.mem_setDefault

/-- **Run lemma**: operations on an empty store leave a well-formed one. -/
theorem of_execution {performed : List Performed} (h : Execution Step {} performed store) :
    store.WellFormed := by
  refine h.invariant (P := fun _ store => WellFormed store) .empty ?_
  intro _ _ _ _ hstore hstep
  exact hstore.effect hstep.effect.1 hstep.effect.2

end PlatformStore.WellFormed

/-- **The store is well-formed** whatever operations were carried out on it. -/
theorem PlatformStore.wellFormed_of_reachable {store : PlatformStore} (h : store.Reachable) :
    store.WellFormed := by
  obtain ⟨performed, hrun⟩ := h
  exact .of_execution hrun

/-! ### A session -/

/-- The result of a run that passed. -/
def passedResult : TaskExecutionResult where
  status := .passed
  passed := true
  finalOutput := "Refund completed."
  latencyMs := 120
  inputTokens := 30
  outputTokens := 12
  estimatedCostUsd := .fin 0
  finalOutput_ne := by decide
  cost_nonneg := PyFloat.zero_nonneg
  outcome := ⟨rfl, fun _ => rfl, fun h => absurd h (by decide)⟩

/-- An event that names a customer. -/
def customerEvent (id : UUID) (sequenceNo : ℕ) : TraceEventCreate where
  id := id
  sequenceNo := sequenceNo
  eventType := .toolResult
  payload := [("call_id", .str "c1"), ("result", .obj [("name", .str "Ada"), ("paid", .bool true)])]
  parentEventId := none
  durationMs := none

/-- A run of the version, on a suite. -/
def suiteRun : EvaluationRunCreate :=
  ⟨"version", "support", "1.0.0", "sha256:suite", 1, by decide, by decide, by decide⟩

/-- A first execution of a task in it. -/
def refundExecution : TaskExecutionCreate := ⟨"customer_refund_within_policy", 1, by decide⟩

/-- A version, a run of it, and an execution that is recorded, its events out of order; one event
and one result are refused. -/
def session : List StoreCall :=
  [⟨.createAgentVersion referenceAgent, 1, "version"⟩,
    ⟨.createAgentVersion renamedAgent, 2, "unused"⟩,
    ⟨.createRun suiteRun, 3, "run"⟩,
    ⟨.createExecution "run" refundExecution, 4, "execution"⟩,
    ⟨.appendTraceEvent "execution" (customerEvent "second" 1), 5, ""⟩,
    ⟨.appendTraceEvent "execution" (customerEvent "first" 0), 6, ""⟩,
    ⟨.appendTraceEvent "execution" (customerEvent "third" 1), 7, ""⟩,
    ⟨.recordResult "execution" passedResult, 8, ""⟩,
    ⟨.recordResult "execution" passedResult, 9, ""⟩]

omit [Interpreter] [Sha256] in
theorem wellFormed_of_reachable_session :
    let _ := cpython
    let _ := sha256
    ∃ run ∈ PlatformStore.performAll session {},
      run.2.versions.length = 1 ∧ (run.2.events "execution").length = 2 ∧ run.2.WellFormed := by
  intro _ _
  have hrun : ∃ run ∈ PlatformStore.performAll session {},
      run.2.versions.length = 1 ∧ (run.2.events "execution").length = 2 := by decide +kernel
  obtain ⟨run, hperform, hversions, hevents⟩ := hrun
  exact ⟨run, hperform, hversions, hevents, PlatformStore.wellFormed_of_reachable
    ⟨run.1, PlatformStore.execution_performAll hperform⟩⟩

end AgentProof
