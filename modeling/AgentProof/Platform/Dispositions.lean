import AgentProof.Platform.Comparison
import AgentProof.Platform.History

/-!
# Platform/Dispositions — comparisons and statuses

An execution has a status and a `passed` flag, which clients set independently.  A comparison reads
the flag.  The validator ties the two together for `passed` and for `failed`, but lets a result be
`errored` with `passed=True`: such an execution counts as passing.  A comparison agrees with the
statuses exactly where no such result was recorded (`compareRuns_agrees_iff`).
-/

open Machinery

namespace AgentProof

variable [Interpreter] [Sha256]

/-! ## The result an execution has -/

/-- The result that the operation recorded for an execution. -/
def Performed.recorded (id : UUID) (performed : Performed) : Option TaskExecutionResult :=
  match performed.op with
  | .recordResult executionId payload =>
    if executionId = id ∧ performed.outcome.isOk then some payload else none
  | _ => none

namespace PlatformStore

variable {store store' : PlatformStore} {next : Performed} {performed : List Performed} {id : UUID}

/-- **Step lemma**: a result that is recorded becomes the result of the execution, which was open. -/
theorem Step.recorded_eq_some (h : Step next store store') {payload : TaskExecutionResult}
    (hrecorded : next.recorded id = some payload) :
    ∃ execution, store.getExecution id = .ok execution ∧ execution.status.terminal = false ∧
      store'.getExecution id = .ok (execution.finalize payload next.now) := by
  obtain ⟨-, heffect⟩ := h.effect
  obtain ⟨⟨op, now, newId⟩, outcome⟩ := next
  dsimp only at heffect
  rw [Performed.recorded] at hrecorded
  split at hrecorded
  · rename_i executionId result heq
    split_ifs at hrecorded with hok
    obtain ⟨rfl, hok⟩ := hok
    obtain rfl := Option.some.inj hrecorded
    obtain rfl : op = .recordResult executionId result := heq
    cases heffect with
    | refused => simp [Except.isOk, Except.toBool] at hok
    | resultRecorded hexecution hopen =>
      exact ⟨_, hexecution, hopen, getExecution_set_self _ _ _⟩
  · exact absurd hrecorded (by simp)

/-- **Step lemma**: where no result is recorded, the final executions are those there were. -/
theorem Step.recorded_eq_none (hstore : store.WellFormed) (h : Step next store store')
    (hrecorded : next.recorded id = none) {execution : TaskExecution}
    (hterminal : execution.status.terminal = true) :
    store'.getExecution id = .ok execution ↔ store.getExecution id = .ok execution := by
  refine ⟨fun hget => ?_, fun hget => (h.extends hstore).getExecution_of_terminal hget hterminal⟩
  obtain ⟨-, heffect⟩ := h.effect
  obtain ⟨⟨op, now, newId⟩, outcome⟩ := next
  dsimp only at heffect
  have hset : ∀ {id' : UUID} {execution' : TaskExecution}, (id' = id → execution' ≠ execution) →
      getExecution { store with executions := Dict.set store.executions id' execution' } id =
        .ok execution → store.getExecution id = .ok execution := by
    intro id' execution' hne hget
    by_cases hid : id' = id
    · subst hid
      rw [getExecution_set_self] at hget
      exact absurd (Except.ok.inj hget) (hne rfl)
    · rwa [getExecution_set_of_ne _ hid] at hget
  cases heffect with
  | executionCreated hrun =>
    refine hset (fun _ heq => ?_) hget
    rw [← heq] at hterminal
    exact absurd hterminal (by simp [TaskExecutionCreate.execution, ExecutionStatus.terminal])
  | @resultRecorded id' payload open' hexecution hopen =>
    refine hset (fun hid _ => ?_) hget
    simp [Performed.recorded, hid, Except.isOk, Except.toBool] at hrecorded
  | _ => exact hget

/-- An execution has this status and this flag. -/
def HasResult (store : PlatformStore) (id : UUID) (status : ExecutionStatus) (passed : Bool) : Prop :=
  ∃ execution, store.getExecution id = .ok execution ∧ execution.status = status ∧
    execution.passed = some passed

/-- **Run lemma**: an execution has the result that was recorded for it. -/
theorem hasResult_iff (h : Execution Step {} performed store) {status : ExecutionStatus}
    (hstatus : status.terminal = true) {passed : Bool} :
    store.HasResult id status passed ↔ ∃ next ∈ performed, ∃ payload,
      next.recorded id = some payload ∧ payload.status = status ∧ payload.passed = passed := by
  have hboth : store.WellFormed ∧ (store.HasResult id status passed ↔ ∃ next ∈ performed,
      ∃ payload, next.recorded id = some payload ∧ payload.status = status ∧
        payload.passed = passed) := by
    refine h.invariant (P := fun performed u => u.WellFormed ∧ (u.HasResult id status passed ↔
      ∃ next ∈ performed, ∃ payload, next.recorded id = some payload ∧ payload.status = status ∧
        payload.passed = passed)) ⟨.empty, by simp [HasResult, getExecution]⟩ ?_
    rintro performed next u u' ⟨hu, ih⟩ hstep
    refine ⟨hu.effect hstep.effect.1 hstep.effect.2, ?_⟩
    simp only [List.mem_append, List.mem_singleton, or_and_right, exists_or, exists_eq_left, ← ih]
    cases hrecorded : next.recorded id with
    | none =>
      simp only [reduceCtorEq, false_and, exists_false, or_false]
      refine exists_congr fun execution => and_congr_left fun hresult => ?_
      exact hstep.recorded_eq_none hu hrecorded (by rw [hresult.1, hstatus])
    | some payload =>
      obtain ⟨execution, hget, hopen, hget'⟩ := hstep.recorded_eq_some hrecorded
      have hbefore : ¬ u.HasResult id status passed := by
        rintro ⟨execution', hget'', rfl, -⟩
        obtain rfl := Except.ok.inj (hget.symm.trans hget'')
        exact absurd hstatus (by simp [hopen])
      rw [or_iff_right hbefore]
      simp only [Option.some.injEq, exists_eq_left', HasResult, hget', Except.ok.injEq,
        TaskExecution.finalize]
  exact hboth.2

/-- **Executions are filed under their ids** in every store that operations lead to. -/
theorem keyed_of_execution (h : Execution Step {} performed store) : store.Keyed := by
  refine h.invariant (P := fun _ u => u.Keyed) keyed_empty ?_
  intro _ next u u' hu hstep
  obtain ⟨-, heffect⟩ := hstep.effect
  obtain ⟨⟨op, now, newId⟩, outcome⟩ := next
  dsimp only at heffect
  cases heffect with
  | @executionCreated runId payload hrun => exact hu.set (payload.execution newId runId now)
  | @resultRecorded id payload execution hexecution hopen =>
    obtain rfl := hu.id_of_getExecution hexecution
    exact hu.set (execution.finalize payload now)
  | refused => exact hu
  | versionFound => exact hu
  | versionRead => exact hu
  | executionRead => exact hu
  | executionsRead => exact hu
  | versionCreated => exact ⟨hu.nodup, hu.id⟩
  | runCreated => exact ⟨hu.nodup, hu.id⟩
  | eventAppended => exact ⟨hu.nodup, hu.id⟩
  | traceRead => exact ⟨hu.nodup, hu.id⟩
  | verdictAppended => exact ⟨hu.nodup, hu.id⟩
  | verdictsRead => exact ⟨hu.nodup, hu.id⟩

end PlatformStore

/-! ## One side of a comparison -/

/-- The flag a comparison reads agrees with the status. -/
structure TaskExecution.CountsByStatus (execution : TaskExecution) : Prop where
  passing : execution.passed = some true ↔ execution.status = .passed
  failing : execution.passed = some false ↔
    execution.status = .failed ∨ execution.status = .errored

omit [Interpreter] [Sha256] in
/-- **The validator leaves one gap**: an errored execution with `passed=True`. -/
theorem TaskExecution.Consistent.countsByStatus_iff {execution : TaskExecution}
    (h : execution.Consistent) :
    execution.CountsByStatus ↔ ¬ (execution.status = .errored ∧ execution.passed = some true) := by
  obtain ⟨-, hpassed, hofPassed, hofFailed⟩ := h
  constructor
  · rintro hcounts ⟨herrored, htrue⟩
    have hstatus := hcounts.passing.mp htrue
    exact absurd (herrored.symm.trans hstatus) (by decide)
  · intro hgap
    cases hstatus : execution.status with
    | passed => constructor <;> simp [hofPassed hstatus, hstatus]
    | failed => constructor <;> simp [hofFailed hstatus, hstatus]
    | errored =>
      have hfalse : execution.passed = some false := by
        rcases hflag : execution.passed with _ | _ | _
        · simp [hflag, hstatus, ExecutionStatus.terminal] at hpassed
        · rfl
        · exact absurd ⟨hstatus, hflag⟩ hgap
      constructor <;> simp [hfalse, hstatus]
    | pending | running =>
      have hnone : execution.passed = none := by
        simpa [hstatus, ExecutionStatus.terminal] using hpassed
      constructor <;> simp [hnone, hstatus]

/-! ## A comparison -/

/-- What is reported of a task agrees with the statuses of its two executions. -/
structure PairedTaskComparison.AgreesWithStatuses (item : PairedTaskComparison)
    (left right : TaskExecution) : Prop where
  baseline_passing : item.baselinePassed = some true ↔ left.status = .passed
  baseline_failing : item.baselinePassed = some false ↔
    left.status = .failed ∨ left.status = .errored
  candidate_passing : item.candidatePassed = some true ↔ right.status = .passed
  candidate_failing : item.candidatePassed = some false ↔
    right.status = .failed ∨ right.status = .errored
  regression : left.status = .passed → right.status = .failed ∨ right.status = .errored →
    item.disposition = .regression

omit [Sha256] in
/-- What is reported of a pair. -/
theorem comparePair_eq_ok {store : PlatformStore} {taskId : String} {left right : TaskExecution}
    {item : PairedTaskComparison} (h : comparePair store taskId left right = .ok item) :
    item.baselineExecutionId = left.id ∧ item.candidateExecutionId = right.id ∧
      item.baselinePassed = left.passed ∧ item.candidatePassed = right.passed ∧
      item.disposition = disposition left.passed right.passed := by
  obtain ⟨attribution, -, h⟩ := Raising.except_bind_eq_ok.mp h
  obtain rfl := Except.ok.inj h
  exact ⟨rfl, rfl, rfl, rfl, rfl⟩

omit [Sha256] in
/-- **A comparison agrees with the statuses when both sides do.** -/
theorem comparePair_agrees_iff {store : PlatformStore} {taskId : String}
    {left right : TaskExecution} {item : PairedTaskComparison}
    (h : comparePair store taskId left right = .ok item) :
    item.AgreesWithStatuses left right ↔ left.CountsByStatus ∧ right.CountsByStatus := by
  obtain ⟨-, -, hbaseline, hcandidate, hdisposition⟩ := comparePair_eq_ok h
  constructor
  · intro hagrees
    exact ⟨⟨hbaseline ▸ hagrees.baseline_passing, hbaseline ▸ hagrees.baseline_failing⟩,
      hcandidate ▸ hagrees.candidate_passing, hcandidate ▸ hagrees.candidate_failing⟩
  · rintro ⟨hleft, hright⟩
    refine ⟨hbaseline ▸ hleft.passing, hbaseline ▸ hleft.failing, hcandidate ▸ hright.passing,
      hcandidate ▸ hright.failing, fun hpassed hfailed => ?_⟩
    rw [hdisposition, hleft.passing.mpr hpassed, hright.failing.mpr hfailed]
    rfl

/-- **A comparison agrees with the statuses** of the executions it pairs, in every store that
operations lead to, exactly when no result that was recorded for either of them is errored with
`passed=True`. -/
theorem compareRuns_agrees_iff {performed : List Performed} {store : PlatformStore}
    (h : Execution PlatformStore.Step {} performed store) {baselineRunId candidateRunId : UUID}
    {comparison : RunComparison}
    (hcompare : compareRuns store baselineRunId candidateRunId = .ok comparison)
    {item : PairedTaskComparison} (hitem : item ∈ comparison.results) :
    ∃ left right, store.getExecution item.baselineExecutionId = .ok left ∧
      store.getExecution item.candidateExecutionId = .ok right ∧
      (item.AgreesWithStatuses left right ↔ ∀ next ∈ performed, ∀ payload,
        next.recorded item.baselineExecutionId = some payload ∨
          next.recorded item.candidateExecutionId = some payload →
        payload.status = .errored → payload.passed = false) := by
  have hkeyed := PlatformStore.keyed_of_execution h
  have hstore := PlatformStore.WellFormed.of_execution h
  obtain ⟨taskId, left, right, ⟨_, hleft, rfl⟩, ⟨_, hright, rfl⟩, hpair⟩ :=
    compareRuns_item hcompare hitem
  obtain ⟨hbaselineId, hcandidateId, -⟩ := comparePair_eq_ok hpair
  have hget := hkeyed.getExecution_of_mem hleft
  have hget' := hkeyed.getExecution_of_mem hright
  rw [← hbaselineId] at hget
  rw [← hcandidateId] at hget'
  refine ⟨_, _, hget, hget', ?_⟩
  have hside : ∀ {id execution}, store.getExecution id = .ok execution → execution.Consistent →
      (execution.CountsByStatus ↔ ∀ next ∈ performed, ∀ payload,
        next.recorded id = some payload → payload.status = .errored → payload.passed = false) := by
    intro id execution hget hconsistent
    have hresult : (execution.status = .errored ∧ execution.passed = some true) ↔
        store.HasResult id .errored true := by
      simp only [PlatformStore.HasResult, hget, Except.ok.injEq, exists_eq_left']
    rw [hconsistent.countsByStatus_iff, hresult, PlatformStore.hasResult_iff h rfl]
    simp only [not_exists, not_and, Bool.not_eq_true]
  rw [comparePair_agrees_iff hpair, hside hget (hstore.consistent _ hleft),
    hside hget' (hstore.consistent _ hright)]
  constructor
  · rintro ⟨hleft, hright⟩ next hmem payload (hrecorded | hrecorded)
    · exact hleft next hmem payload hrecorded
    · exact hright next hmem payload hrecorded
  · exact fun hboth => ⟨fun next hmem payload hrecorded => hboth next hmem payload (.inl hrecorded),
      fun next hmem payload hrecorded => hboth next hmem payload (.inr hrecorded)⟩

/-! ### Two runs of one task -/

/-- A result that is no success. -/
def unsuccessfulResult (status : ExecutionStatus) (passed : Bool)
    (outcome : TerminalStatusMatchesOutcome status passed) : TaskExecutionResult where
  status := status
  passed := passed
  finalOutput := "Refund refused."
  latencyMs := 90
  inputTokens := 30
  outputTokens := 9
  estimatedCostUsd := .fin 0
  finalOutput_ne := by decide
  cost_nonneg := PyFloat.zero_nonneg
  outcome := outcome

/-- A result that the validator lets pass. -/
def erroredAndPassed : TaskExecutionResult :=
  unsuccessfulResult .errored true ⟨rfl, fun _ => rfl, fun h => absurd h (by decide)⟩

/-- A result that failed. -/
def failedResult : TaskExecutionResult :=
  unsuccessfulResult .failed false ⟨rfl, fun h => absurd h (by decide), fun _ => rfl⟩

/-- Two runs of a version, and an execution of one task in each. -/
def pairCreation : List StoreCall :=
  [⟨.createAgentVersion referenceAgent, 1, "version"⟩,
    ⟨.createRun suiteRun, 2, "baseline"⟩,
    ⟨.createRun suiteRun, 3, "candidate"⟩,
    ⟨.createExecution "baseline" refundExecution, 4, "left"⟩,
    ⟨.createExecution "candidate" refundExecution, 5, "right"⟩]

/-- The events of an execution are appended. -/
def appendCalls (id : UUID) (events : List TraceEventCreate) : List StoreCall :=
  events.map fun event => ⟨.appendTraceEvent id event, 6, ""⟩

/-- The baseline passes; the candidate has this result. -/
def pairResults (candidateResult : TaskExecutionResult) : List StoreCall :=
  [⟨.recordResult "left" passedResult, 7, ""⟩, ⟨.recordResult "right" candidateResult, 8, ""⟩]

/-- Two runs of a version on one task: a baseline that passes, and a candidate. -/
def pairSession (baselineEvents candidateEvents : List TraceEventCreate)
    (candidateResult : TaskExecutionResult) : List StoreCall :=
  pairCreation ++ appendCalls "left" baselineEvents ++ appendCalls "right" candidateEvents ++
    pairResults candidateResult

omit [Interpreter] [Sha256] in
/-- A candidate that failed is a regression. -/
theorem compareRuns_agrees_iff_failed :
    let _ := cpython
    let _ := sha256
    ∃ run ∈ PlatformStore.performAll (pairSession [] [] failedResult) {},
      ∃ comparison, compareRuns run.2 "baseline" "candidate" = .ok comparison ∧
        ∃ item ∈ comparison.results, item.disposition = .regression ∧
          ∃ left right, run.2.getExecution item.baselineExecutionId = .ok left ∧
            run.2.getExecution item.candidateExecutionId = .ok right ∧
            item.AgreesWithStatuses left right := by
  intro _ _
  have hrun : ∃ run ∈ PlatformStore.performAll (pairSession [] [] failedResult) {},
      (∀ next ∈ run.1, ∀ id ∈ ["left", "right"],
        ∀ payload ∈ next.recorded id, payload.status = .errored → payload.passed = false) ∧
      ∃ comparison, compareRuns run.2 "baseline" "candidate" = .ok comparison ∧
        ∃ item ∈ comparison.results, item.disposition = .regression ∧
          item.baselineExecutionId = "left" ∧ item.candidateExecutionId = "right" := by
    decide +kernel
  obtain ⟨run, hperform, hrecorded, comparison, hcompare, item, hitem, hregression, hleftId,
    hrightId⟩ := hrun
  refine ⟨run, hperform, comparison, hcompare, item, hitem, hregression, ?_⟩
  obtain ⟨left, right, hleft, hright, hiff⟩ :=
    compareRuns_agrees_iff (PlatformStore.execution_performAll hperform) hcompare hitem
  refine ⟨left, right, hleft, hright, hiff.mpr ?_⟩
  rw [hleftId, hrightId]
  rintro next hmem payload (hpayload | hpayload)
  · exact hrecorded next hmem "left" (by simp) payload hpayload
  · exact hrecorded next hmem "right" (by simp) payload hpayload

omit [Interpreter] [Sha256] in
/-- **A candidate that errored with `passed=True` is a stable pass.** -/
theorem not_compareRuns_agrees :
    let _ := cpython
    let _ := sha256
    ¬ ∀ (performed : List Performed) (store : PlatformStore),
      Execution PlatformStore.Step {} performed store →
      ∀ baselineRunId candidateRunId comparison,
        compareRuns store baselineRunId candidateRunId = .ok comparison →
        ∀ item ∈ comparison.results, ∀ left right,
          store.getExecution item.baselineExecutionId = .ok left →
          store.getExecution item.candidateExecutionId = .ok right →
          item.AgreesWithStatuses left right ∧ (left.status = .passed →
            right.status = .failed ∨ right.status = .errored → item.disposition ≠ .stablePass) := by
  intro _ _ hclaim
  have hrun : ∃ run ∈ PlatformStore.performAll (pairSession [] [] erroredAndPassed) {},
      ∃ comparison, compareRuns run.2 "baseline" "candidate" = .ok comparison ∧
        ∃ item ∈ comparison.results, item.disposition = .stablePass ∧
          ∃ left, run.2.getExecution item.baselineExecutionId = .ok left ∧
            left.status = .passed ∧
          ∃ right, run.2.getExecution item.candidateExecutionId = .ok right ∧
            right.status = .errored := by
    decide +kernel
  obtain ⟨run, hperform, comparison, hcompare, item, hitem, hstable, left, hleft, hpassed, right,
    hright, herrored⟩ := hrun
  exact (hclaim run.1 run.2 (PlatformStore.execution_performAll hperform) _ _ comparison hcompare
    item hitem left right hleft hright).2 hpassed (.inr herrored) hstable

end AgentProof
