import AgentProof.Platform.Store
import AgentProof.Python.Congruence
import AgentProof.ToolEnvironment.Interpreter

/-!
# Platform/Comparison — paired runs and the first divergence

`compareRuns` pairs the executions of two runs by their task.  A regression is attributed to the
first pair of stored events that `eventDivergence` tells apart, or to the missing event of the
shorter trace; where neither exists the attribution is `none`.

The detector does not look at everything: the results of tools, the requests to the model and its
responses, and the retries may differ unnoticed (`eventDivergence_eq_none`).
-/

open Machinery Machinery.Raising

namespace AgentProof

/-! ## What a comparison reports -/

/-- `app.schemas.TraceAttribution` -/
structure TraceAttribution (F : Type := PyFloat) where
  taskId : String
  baselineExecutionId : UUID
  candidateExecutionId : UUID
  baselineEventId : Option UUID := none
  candidateEventId : Option UUID := none
  divergenceType : TraceDivergenceType
  evidence : Dict String (Json F)
  deriving DecidableEq

/-- `app.schemas.PairedTaskComparison` -/
structure PairedTaskComparison where
  taskId : String
  disposition : RegressionDisposition
  baselineExecutionId : UUID
  candidateExecutionId : UUID
  baselinePassed : Option Bool
  candidatePassed : Option Bool
  latencyDeltaMs : Option ℤ
  costDeltaUsd : Option PyFloat
  attribution : Option TraceAttribution := none
  deriving DecidableEq

/-- `app.schemas.RunComparison` -/
structure RunComparison where
  baselineRunId : UUID
  candidateRunId : UUID
  comparedTasks : ℕ
  regressions : ℕ
  improvements : ℕ
  results : List PairedTaskComparison
  deriving DecidableEq

/-! ## The first divergence -/

section Detector

variable {F : Type} [DecidableEq F] [Floats F]

/-- `payload.get(key)` -/
def TraceEvent.field (event : TraceEvent F) (key : String) : Json F :=
  (Dict.get? event.payload key).getD .null

/-- `_event_divergence` -/
def eventDivergence (left right : TraceEvent F) : Option TraceDivergenceType :=
  if (left.eventType = .error) ≠ (right.eventType = .error) then some .toolError
  else if left.eventType = .error ∧ right.eventType = .error then
    if Json.pyEq (.obj left.payload) (.obj right.payload) then none else some .toolError
  else if left.eventType ≠ right.eventType then some .wrongTool
  -- the two are compared in a pair, which takes an item for equal to itself
  else if left.eventType = .toolCall ∧ ¬ ((left.field "service").pySame (right.field "service") ∧
      (left.field "operation").pySame (right.field "operation")) then some .wrongTool
  else if left.eventType = .toolCall ∧
      ¬ (left.field "arguments").pyEq (right.field "arguments") then some .invalidToolArgument
  else if left.eventType = .finalAnswer ∧
      ¬ (left.field "content").pyEq (right.field "content") then some .finalAnswerMismatch
  else none

/-- The attribution to a pair of events. -/
def eventAttribution (taskId : String) (baseline candidate : TaskExecution)
    (left right : TraceEvent F) (divergence : TraceDivergenceType) : TraceAttribution F where
  taskId := taskId
  baselineExecutionId := baseline.id
  candidateExecutionId := candidate.id
  baselineEventId := some left.id
  candidateEventId := some right.id
  divergenceType := divergence
  evidence := [("baseline", .obj left.payload), ("candidate", .obj right.payload),
    ("sequence_no", .int left.sequenceNo)]

/-- The attribution to an event only one of the traces has. -/
def lengthAttribution (taskId : String) (baseline candidate : TaskExecution)
    (baselineEvents candidateEvents : List (TraceEvent F)) : TraceAttribution F where
  taskId := taskId
  baselineExecutionId := baseline.id
  candidateExecutionId := candidate.id
  baselineEventId := (baselineEvents[candidateEvents.length]?).map (·.id)
  candidateEventId := (candidateEvents[baselineEvents.length]?).map (·.id)
  divergenceType := .prematureTermination
  evidence := [("baseline_event_count", .int baselineEvents.length),
    ("candidate_event_count", .int candidateEvents.length)]

/-- `_first_divergence` -/
def firstDivergence (taskId : String) (baseline candidate : TaskExecution)
    (baselineEvents candidateEvents : List (TraceEvent F)) : Option (TraceAttribution F) :=
  match (baselineEvents.zip candidateEvents).findSome? fun pair =>
      (eventDivergence pair.1 pair.2).map
        (eventAttribution taskId baseline candidate pair.1 pair.2) with
  | some attribution => some attribution
  | none =>
    if baselineEvents.length ≠ candidateEvents.length then
      some (lengthAttribution taskId baseline candidate baselineEvents candidateEvents)
    else none

/-- **No divergence**: the traces are equally long, and no pair of events is told apart. -/
theorem firstDivergence_eq_none_iff {taskId : String} {baseline candidate : TaskExecution}
    {baselineEvents candidateEvents : List (TraceEvent F)} :
    firstDivergence taskId baseline candidate baselineEvents candidateEvents = none ↔
      List.Forall₂ (fun left right => eventDivergence left right = none) baselineEvents
        candidateEvents := by
  rw [List.forall₂_iff_zip, firstDivergence]
  constructor
  · intro h
    split at h
    · exact absurd h (by simp)
    · rename_i hnone
      split at h
      · exact absurd h (by simp)
      · rename_i hlength
        refine ⟨not_not.mp hlength, fun {left right} hmem => ?_⟩
        exact Option.map_eq_none_iff.mp (List.findSome?_eq_none_iff.mp hnone _ hmem)
  · rintro ⟨hlength, h⟩
    have hnone : (baselineEvents.zip candidateEvents).findSome? (fun pair =>
        (eventDivergence pair.1 pair.2).map
          (eventAttribution taskId baseline candidate pair.1 pair.2)) = none :=
      List.findSome?_eq_none_iff.mpr fun pair hmem => Option.map_eq_none_iff.mpr (h hmem)
    rw [hnone]
    simp [hlength]

end Detector

/-- **What the detector compares**: the types of the events, and of tool calls and final answers
the content. -/
theorem eventDivergence_eq_none {left right : TraceEvent} (h : eventDivergence left right = none) :
    left.eventType = right.eventType ∧
      (left.eventType = .toolCall → (left.field "service").Alike (right.field "service") ∧
        (left.field "operation").Alike (right.field "operation") ∧
        (left.field "arguments").Alike (right.field "arguments")) ∧
      (left.eventType = .finalAnswer → (left.field "content").Alike (right.field "content")) := by
  rw [eventDivergence] at h
  split at h
  · exact absurd h (by simp)
  rename_i herrored
  split at h
  · rename_i hboth
    rw [hboth.1, hboth.2]
    exact ⟨rfl, fun hcall => absurd hcall (by decide), fun hanswer => absurd hanswer (by decide)⟩
  split at h
  · exact absurd h (by simp)
  rename_i htype
  split at h
  · exact absurd h (by simp)
  rename_i htool
  split at h
  · exact absurd h (by simp)
  rename_i harguments
  split at h
  · exact absurd h (by simp)
  rename_i hcontent
  refine ⟨not_not.mp htype, fun hcall => ?_, fun hanswer => ?_⟩
  · have htool := not_not.mp fun hne => htool ⟨hcall, hne⟩
    have harguments := not_not.mp fun hne => harguments ⟨hcall, hne⟩
    exact ⟨Json.pySame_iff.mp htool.1, Json.pySame_iff.mp htool.2, Json.pyEq_iff.mp harguments⟩
  · exact Json.pyEq_iff.mp (not_not.mp fun hne => hcontent ⟨hanswer, hne⟩)

/-- Errors that are not told apart are `==`. -/
theorem eventDivergence_error {left right : TraceEvent} (h : eventDivergence left right = none)
    (herror : left.eventType = .error) : Json.Alike (.obj left.payload) (.obj right.payload) := by
  have htype := (eventDivergence_eq_none h).1
  have hboth : left.eventType = .error ∧ right.eventType = .error := ⟨herror, htype ▸ herror⟩
  rw [eventDivergence, if_neg (by simp [hboth]), if_pos hboth] at h
  split at h
  · rename_i heq
    exact Json.pyEq_iff.mp heq
  · exact absurd h (by simp)

/-- Equal payloads hold equal values. -/
theorem TraceEvent.field_alike {left right : TraceEvent}
    (h : Json.Alike (.obj left.payload) (.obj right.payload)) (key : String) :
    (left.field key).Alike (right.field key) :=
  (Json.alike_obj_iff.mp h key).getD (.refl _)

/-! ## The comparison -/

/-- `_by_task` -/
def byTask : List TaskExecution → (result : Dict String TaskExecution) →
    Except PyError (Dict String TaskExecution)
  | [], result => .ok result
  | execution :: executions, result =>
    if Dict.has result execution.taskId then
      .error (.httpException 422
        s!"run contains multiple executions for task {execution.taskId}")
    else byTask executions (Dict.set result execution.taskId execution)

/-- `_disposition` -/
def disposition (baseline candidate : Option Bool) : RegressionDisposition :=
  match baseline, candidate with
  | some true, some false => .regression
  | some false, some true => .improvement
  | some true, some true => .stablePass
  | some false, some false => .stableFailure
  | _, _ => .indeterminate

/-- `_delta` -/
def delta (candidate baseline : Option ℕ) : Option ℤ :=
  match candidate, baseline with
  | some candidate, some baseline => some (candidate - baseline)
  | _, _ => none

variable [Interpreter]

/-- `_cost_delta` -/
def costDelta (candidate baseline : Option PyFloat) : Option PyFloat :=
  match candidate, baseline with
  | some candidate, some baseline => some (Interpreter.roundedDifference candidate baseline)
  | _, _ => none

/-- What the loop of `compare_runs` attributes a pair of executions to: a regression only. -/
def attributePair (store : PlatformStore) (taskId : String) (left right : TaskExecution) :
    Except PyError (Option TraceAttribution) :=
  match disposition left.passed right.passed with
  | .regression => do
    let baselineEvents ← store.getTrace left.id
    let candidateEvents ← store.getTrace right.id
    return firstDivergence taskId left right baselineEvents candidateEvents
  | _ => return none

/-- What the loop appends for it. -/
def comparePair (store : PlatformStore) (taskId : String) (left right : TaskExecution) :
    Except PyError PairedTaskComparison := do
  let attribution ← attributePair store taskId left right
  return {
    taskId
    disposition := disposition left.passed right.passed
    baselineExecutionId := left.id
    candidateExecutionId := right.id
    baselinePassed := left.passed
    candidatePassed := right.passed
    latencyDeltaMs := delta right.latencyMs left.latencyMs
    costDeltaUsd := costDelta right.estimatedCostUsd left.estimatedCostUsd
    attribution }

/-- The pair of a shared task. -/
def compareTask (store : PlatformStore) (baseline candidate : Dict String TaskExecution)
    (taskId : String) : Except PyError PairedTaskComparison :=
  match Dict.get? baseline taskId, Dict.get? candidate taskId with
  | some left, some right => comparePair store taskId left right
  | _, _ => .error (.keyError taskId)

/-- `sorted(set(baseline).intersection(candidate))` -/
def sharedTaskIds (baseline candidate : Dict String TaskExecution) : List String :=
  ((baseline.map Prod.fst).filter (Dict.has candidate)).insertionSort (· ≤ ·)

/-- `compare_runs` -/
def compareRuns (store : PlatformStore) (baselineRunId candidateRunId : UUID) :
    Except PyError RunComparison := do
  let baseline ← byTask (← store.getRunExecutions baselineRunId) []
  let candidate ← byTask (← store.getRunExecutions candidateRunId) []
  match sharedTaskIds baseline candidate with
  | [] => throw (.httpException 422 "runs have no shared task ids to compare")
  | shared => do
    let results ← shared.mapM (compareTask store baseline candidate)
    return {
      baselineRunId
      candidateRunId
      comparedTasks := results.length
      regressions := results.countP fun item => item.disposition = .regression
      improvements := results.countP fun item => item.disposition = .improvement
      results }

/-! ## Where a result comes from -/

omit [Interpreter] in
/-- What is filed under a task is one of the executions. -/
theorem mem_of_byTask {executions : List TaskExecution} {result byTasks : Dict String TaskExecution}
    (h : byTask executions result = .ok byTasks) {taskId : String} {execution : TaskExecution}
    (hget : Dict.get? byTasks taskId = some execution) :
    execution ∈ executions ∨ Dict.get? result taskId = some execution := by
  induction executions generalizing result with
  | nil =>
    obtain rfl := Except.ok.inj h
    exact .inr hget
  | cons first rest ih =>
    rw [byTask] at h
    split at h
    · exact absurd h (by simp)
    · rcases ih h with hmem | hset
      · exact .inl (List.mem_cons_of_mem _ hmem)
      · rw [Dict.get?_set] at hset
        split at hset
        · obtain rfl := Option.some.inj hset
          exact .inl List.mem_cons_self
        · exact .inr hset

omit [Interpreter] in
/-- The executions of a run are in the store. -/
theorem PlatformStore.mem_of_getRunExecutions {store : PlatformStore} {runId : UUID}
    {executions : List TaskExecution} (h : store.getRunExecutions runId = .ok executions)
    {execution : TaskExecution} (hmem : execution ∈ executions) :
    ∃ entry ∈ store.executions, entry.2 = execution := by
  rw [getRunExecutions] at h
  split at h
  · obtain rfl := Except.ok.inj h
    exact List.mem_map.mp (List.mem_filter.mp hmem).1
  · exact absurd h (by simp)

omit [Interpreter] in
/-- Two outcomes that make a regression. -/
theorem disposition_eq_regression {baseline candidate : Option Bool}
    (h : disposition baseline candidate = .regression) :
    baseline = some true ∧ candidate = some false := by
  rcases baseline with _ | _ | _ <;> rcases candidate with _ | _ | _ <;> simp [disposition] at h ⊢

/-- A pair that regressed. -/
theorem comparePair_regression {store : PlatformStore} {taskId : String}
    {left right : TaskExecution} {item : PairedTaskComparison}
    (h : comparePair store taskId left right = .ok item)
    (hregression : item.disposition = .regression) :
    item.baselineExecutionId = left.id ∧ item.candidateExecutionId = right.id ∧
      left.passed = some true ∧ right.passed = some false ∧
      item.attribution = firstDivergence item.taskId left right (store.events left.id)
        (store.events right.id) := by
  have htrace : ∀ {id : UUID} {events : List TraceEvent}, store.getTrace id = .ok events →
      store.events id = events := by
    intro id events h
    obtain ⟨execution, -, h⟩ := except_bind_eq_ok.mp h
    exact Except.ok.inj h
  obtain ⟨attribution, hattribution, h⟩ := except_bind_eq_ok.mp h
  obtain rfl := Except.ok.inj h
  have hdisposition : disposition left.passed right.passed = .regression := hregression
  obtain ⟨hleft, hright⟩ := disposition_eq_regression hdisposition
  simp only [attributePair, hdisposition] at hattribution
  obtain ⟨baselineEvents, hbaseline, hattribution⟩ := except_bind_eq_ok.mp hattribution
  obtain ⟨candidateEvents, hcandidate, hattribution⟩ := except_bind_eq_ok.mp hattribution
  refine ⟨rfl, rfl, hleft, hright, ?_⟩
  rw [htrace hbaseline, htrace hcandidate]
  exact (Except.ok.inj hattribution).symm

/-- Only a regression is attributed. -/
theorem comparePair_attribution {store : PlatformStore} {taskId : String}
    {left right : TaskExecution} {item : PairedTaskComparison}
    (h : comparePair store taskId left right = .ok item) (hsome : item.attribution ≠ none) :
    item.disposition = .regression := by
  obtain ⟨attribution, hattribution, h⟩ := except_bind_eq_ok.mp h
  obtain rfl := Except.ok.inj h
  rw [attributePair] at hattribution
  split at hattribution
  · assumption
  · exact absurd (Except.ok.inj hattribution).symm hsome

/-- **A result that is reported** pairs two executions of the store. -/
theorem compareRuns_item {store : PlatformStore} {baselineRunId candidateRunId : UUID}
    {comparison : RunComparison} (h : compareRuns store baselineRunId candidateRunId = .ok comparison)
    {item : PairedTaskComparison} (hitem : item ∈ comparison.results) :
    ∃ taskId left right, (∃ entry ∈ store.executions, entry.2 = left) ∧
      (∃ entry ∈ store.executions, entry.2 = right) ∧
      comparePair store taskId left right = .ok item := by
  rw [compareRuns] at h
  obtain ⟨baselineExecutions, hbaseline, h⟩ := except_bind_eq_ok.mp h
  obtain ⟨baseline, hbyTask, h⟩ := except_bind_eq_ok.mp h
  obtain ⟨candidateExecutions, hcandidate, h⟩ := except_bind_eq_ok.mp h
  obtain ⟨candidate, hbyTask', h⟩ := except_bind_eq_ok.mp h
  split at h
  · exact absurd h (by simp)
  obtain ⟨results, hresults, h⟩ := except_bind_eq_ok.mp h
  obtain rfl := Except.ok.inj h
  obtain ⟨taskId, -, hpair⟩ := exists_of_mem_mapM hresults hitem
  rw [compareTask] at hpair
  split at hpair
  · rename_i left right hleft hright
    have hmem := (mem_of_byTask hbyTask hleft).resolve_right (by simp)
    have hmem' := (mem_of_byTask hbyTask' hright).resolve_right (by simp)
    exact ⟨taskId, left, right, PlatformStore.mem_of_getRunExecutions hbaseline hmem,
      PlatformStore.mem_of_getRunExecutions hcandidate hmem', hpair⟩
  · exact absurd hpair (by simp)

/-- **A regression that is reported**: it pairs two executions of the store, one passed and one
failed, and its attribution is the first divergence of their traces. -/
theorem compareRuns_regression {store : PlatformStore} {baselineRunId candidateRunId : UUID}
    {comparison : RunComparison} (h : compareRuns store baselineRunId candidateRunId = .ok comparison)
    {item : PairedTaskComparison} (hitem : item ∈ comparison.results)
    (hregression : item.disposition = .regression) :
    ∃ left right, (∃ entry ∈ store.executions, entry.2 = left) ∧
      (∃ entry ∈ store.executions, entry.2 = right) ∧
      item.baselineExecutionId = left.id ∧ item.candidateExecutionId = right.id ∧
      left.passed = some true ∧ right.passed = some false ∧
      item.attribution = firstDivergence item.taskId left right (store.events left.id)
        (store.events right.id) := by
  obtain ⟨taskId, left, right, hleft, hright, hpair⟩ := compareRuns_item h hitem
  exact ⟨left, right, hleft, hright, comparePair_regression hpair hregression⟩

/-- Only regressions are attributed. -/
theorem compareRuns_attribution {store : PlatformStore} {baselineRunId candidateRunId : UUID}
    {comparison : RunComparison} (h : compareRuns store baselineRunId candidateRunId = .ok comparison)
    {item : PairedTaskComparison} (hitem : item ∈ comparison.results)
    (hsome : item.attribution ≠ none) : item.disposition = .regression := by
  obtain ⟨taskId, left, right, -, -, hpair⟩ := compareRuns_item h hitem
  exact comparePair_attribution hpair hsome

end AgentProof
