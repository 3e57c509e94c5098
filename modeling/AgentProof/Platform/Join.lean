import AgentProof.Platform.Dispositions
import Mathlib.Order.Lattice

/-!
# Platform/Join — a comparison as a join

`compareRuns` joins the executions of two runs by their tasks.  On a store that operations lead to
no trace is missing, so `compareRuns_eq` gives the comparison in closed form: it fails exactly for
runs that are not `Comparable`, and otherwise reports every shared task once, in the order of the
ids.  Exchanging the runs mirrors the report (`compareRuns_join`).
-/

open Machinery Machinery.Raising

namespace AgentProof

/-! ## The executions of a run -/

/-- The executions of a run, in the order they were created. -/
def PlatformStore.runExecutions (store : PlatformStore) (runId : UUID) : List TaskExecution :=
  (store.executions.map Prod.snd).filter fun execution => execution.runId = runId

/-- No task has two of the executions. -/
def OncePerTask (executions : List TaskExecution) : Prop :=
  (executions.map (·.taskId)).Nodup

/-- The executions under their tasks. -/
def filedByTask (executions : List TaskExecution) : Dict String TaskExecution :=
  executions.map fun execution => (execution.taskId, execution)

theorem map_fst_filedByTask (executions : List TaskExecution) :
    (filedByTask executions).map Prod.fst = executions.map (·.taskId) := by
  simp [filedByTask]

/-- **`_by_task` files the executions**, and fails exactly when a task has two. -/
theorem byTask_eq_ok_iff {executions : List TaskExecution}
    {result byTasks : Dict String TaskExecution} :
    byTask executions result = .ok byTasks ↔ OncePerTask executions ∧
      (∀ execution ∈ executions, Dict.get? result execution.taskId = none) ∧
      byTasks = result ++ filedByTask executions := by
  induction executions generalizing result with
  | nil => simp [byTask, OncePerTask, filedByTask, eq_comm]
  | cons first rest ih =>
    rw [byTask]
    cases hread : Dict.get? result first.taskId with
    | some previous =>
      have hhas : Dict.has result first.taskId = true := by rw [Dict.has, hread]; rfl
      rw [if_pos hhas]
      refine iff_of_false (by simp) ?_
      rintro ⟨-, hnew, -⟩
      exact absurd (hread.symm.trans (hnew first List.mem_cons_self)) (by simp)
    | none =>
      rw [if_neg (by simp [Dict.has, hread]), ih, Dict.set_of_get?_eq_none hread]
      have hfresh : (∀ execution ∈ rest,
          Dict.get? (result ++ [(first.taskId, first)]) execution.taskId = none) ↔
          (∀ execution ∈ rest, Dict.get? result execution.taskId = none) ∧
            first.taskId ∉ rest.map (·.taskId) := by
        simp only [Dict.get?_eq_none_iff, List.map_append, List.mem_append, not_or, forall_and,
          List.map_cons, List.map_nil, List.mem_singleton, List.mem_map, not_exists, not_and]
      rw [hfresh, OncePerTask, OncePerTask, List.map_cons, List.nodup_cons, List.forall_mem_cons]
      simp only [hread, true_and, filedByTask, List.map_cons, List.append_assoc,
        List.singleton_append]
      tauto

/-- What is filed under a task is the one execution of it. -/
theorem get?_filedByTask_iff {executions : List TaskExecution} (h : OncePerTask executions)
    {taskId : String} {execution : TaskExecution} :
    Dict.get? (filedByTask executions) taskId = some execution ↔
      execution ∈ executions ∧ execution.taskId = taskId := by
  constructor
  · intro hread
    obtain ⟨execution', hmem, heq⟩ := List.mem_map.mp (Dict.mem_of_get?_eq_some hread)
    obtain ⟨rfl, rfl⟩ := Prod.mk.injEq .. ▸ heq
    exact ⟨hmem, rfl⟩
  · rintro ⟨hmem, rfl⟩
    refine Dict.get?_eq_some_of_mem ?_ (List.mem_map.mpr ⟨execution, hmem, rfl⟩)
    rw [map_fst_filedByTask]
    exact h

/-! ## The tasks two runs share -/

/-- Two runs share a task. -/
def PlatformStore.Shares (store : PlatformStore) (baselineRunId candidateRunId : UUID)
    (taskId : String) : Prop :=
  (∃ left ∈ store.runExecutions baselineRunId, left.taskId = taskId) ∧
    ∃ right ∈ store.runExecutions candidateRunId, right.taskId = taskId

theorem mem_sharedTaskIds_iff {store : PlatformStore} {baselineRunId candidateRunId : UUID}
    {taskId : String} :
    taskId ∈ sharedTaskIds (filedByTask (store.runExecutions baselineRunId))
        (filedByTask (store.runExecutions candidateRunId)) ↔
      store.Shares baselineRunId candidateRunId taskId := by
  have hhas : ∀ executions : List TaskExecution, Dict.has (filedByTask executions) taskId = true ↔
      ∃ execution ∈ executions, execution.taskId = taskId := by
    intro executions
    rw [Dict.has, Option.isSome_iff_ne_none, Ne, Dict.get?_eq_none_iff, not_not,
      map_fst_filedByTask, List.mem_map]
  rw [sharedTaskIds, List.mem_insertionSort, List.mem_filter, hhas, map_fst_filedByTask,
    List.mem_map]
  rfl

/-- **The shared tasks stand in increasing order**, each once. -/
theorem sharedTaskIds_pairwise {baseline : List TaskExecution} (h : OncePerTask baseline)
    (candidate : List TaskExecution) :
    (sharedTaskIds (filedByTask baseline) (filedByTask candidate)).Pairwise (· < ·) := by
  have hnodup : (sharedTaskIds (filedByTask baseline) (filedByTask candidate)).Nodup := by
    refine (List.perm_insertionSort _ _).symm.nodup (List.Nodup.filter _ ?_)
    rw [map_fst_filedByTask]
    exact h
  have hsorted : (sharedTaskIds (filedByTask baseline) (filedByTask candidate)).Pairwise (· ≤ ·) :=
    List.pairwise_insertionSort _ _
  exact hsorted.imp₂ (fun _ _ hle hne => lt_of_le_of_ne hle hne) hnodup

/-- The tasks that are shared are a matter of the tasks. -/
theorem sharedTaskIds_congr {baseline baseline' candidate candidate' : List TaskExecution}
    (hbaseline : baseline.map (·.taskId) = baseline'.map (·.taskId))
    (hcandidate : candidate.map (·.taskId) = candidate'.map (·.taskId)) :
    sharedTaskIds (filedByTask baseline) (filedByTask candidate) =
      sharedTaskIds (filedByTask baseline') (filedByTask candidate') := by
  have hhas : Dict.has (filedByTask candidate) = Dict.has (filedByTask candidate') := by
    funext taskId
    rw [Bool.eq_iff_iff]
    simp only [Dict.has, Option.isSome_iff_ne_none, ne_eq, Dict.get?_eq_none_iff,
      map_fst_filedByTask, hcandidate]
  rw [sharedTaskIds, sharedTaskIds, map_fst_filedByTask, map_fst_filedByTask, hbaseline, hhas]

/-- **The shared tasks are the same from either side.** -/
theorem sharedTaskIds_comm {store : PlatformStore} {baselineRunId candidateRunId : UUID}
    (hbaseline : OncePerTask (store.runExecutions baselineRunId))
    (hcandidate : OncePerTask (store.runExecutions candidateRunId)) :
    sharedTaskIds (filedByTask (store.runExecutions candidateRunId))
        (filedByTask (store.runExecutions baselineRunId)) =
      sharedTaskIds (filedByTask (store.runExecutions baselineRunId))
        (filedByTask (store.runExecutions candidateRunId)) := by
  have hnodup : ∀ {l : List String}, l.Pairwise (· < ·) → l.Nodup := fun h => h.imp fun h => h.ne
  have hleft := sharedTaskIds_pairwise hcandidate (store.runExecutions baselineRunId)
  have hright := sharedTaskIds_pairwise hbaseline (store.runExecutions candidateRunId)
  refine List.Perm.eq_of_pairwise (fun _ _ _ _ hab hba => absurd (hab.trans hba) (lt_irrefl _))
    hleft hright ((List.perm_ext_iff_of_nodup (hnodup hleft) (hnodup hright)).mpr fun taskId => ?_)
  rw [mem_sharedTaskIds_iff, mem_sharedTaskIds_iff, PlatformStore.Shares, PlatformStore.Shares,
    and_comm]

/-! ## The comparison in closed form -/

section Closed

variable [Interpreter]

/-- What is reported of a pair of executions whose traces are stored. -/
def PlatformStore.report (store : PlatformStore) (taskId : String) (left right : TaskExecution) :
    PairedTaskComparison where
  taskId := taskId
  disposition := disposition left.passed right.passed
  baselineExecutionId := left.id
  candidateExecutionId := right.id
  baselinePassed := left.passed
  candidatePassed := right.passed
  latencyDeltaMs := delta right.latencyMs left.latencyMs
  costDeltaUsd := costDelta right.estimatedCostUsd left.estimatedCostUsd
  attribution :=
    if disposition left.passed right.passed = .regression then
      firstDivergence taskId left right (store.events left.id) (store.events right.id)
    else none

/-- **A pair of stored executions is reported**: their traces are there. -/
theorem comparePair_eq {store : PlatformStore} {taskId : String} {left right : TaskExecution}
    (hleft : store.getExecution left.id = .ok left)
    (hright : store.getExecution right.id = .ok right) :
    comparePair store taskId left right = .ok (store.report taskId left right) := by
  have hattribution : attributePair store taskId left right =
      .ok (store.report taskId left right).attribution := by
    rw [attributePair]
    split
    · rename_i hregression
      simp only [PlatformStore.getTrace, hleft, hright, PlatformStore.report, hregression]
      rfl
    · rename_i hnot
      rw [PlatformStore.report, if_neg hnot]
      rfl
  rw [comparePair, hattribution]
  rfl

/-- The two runs exist, have one execution a task, and share a task. -/
structure PlatformStore.Comparable (store : PlatformStore) (baselineRunId candidateRunId : UUID) :
    Prop where
  baseline_exists : Dict.has store.runs baselineRunId = true
  candidate_exists : Dict.has store.runs candidateRunId = true
  baseline_once : OncePerTask (store.runExecutions baselineRunId)
  candidate_once : OncePerTask (store.runExecutions candidateRunId)
  shares : ∃ taskId, store.Shares baselineRunId candidateRunId taskId

omit [Interpreter] in
/-- Either run may come first. -/
theorem PlatformStore.Comparable.symm {store : PlatformStore} {baselineRunId candidateRunId : UUID}
    (h : store.Comparable baselineRunId candidateRunId) :
    store.Comparable candidateRunId baselineRunId where
  baseline_exists := h.candidate_exists
  candidate_exists := h.baseline_exists
  baseline_once := h.candidate_once
  candidate_once := h.baseline_once
  shares := h.shares.imp fun _ => And.symm

omit [Interpreter] in
/-- An execution of a run is stored under its id. -/
theorem PlatformStore.Keyed.getExecution_of_runExecutions {store : PlatformStore}
    (h : store.Keyed) {runId : UUID} {execution : TaskExecution}
    (hmem : execution ∈ store.runExecutions runId) :
    store.getExecution execution.id = .ok execution := by
  obtain ⟨entry, hentry, rfl⟩ := List.mem_map.mp (List.mem_filter.mp hmem).1
  exact h.getExecution_of_mem hentry

/-- The report of one shared task. -/
theorem compareTask_eq {store : PlatformStore} (hkeyed : store.Keyed)
    {baselineRunId candidateRunId : UUID} (h : store.Comparable baselineRunId candidateRunId)
    {taskId : String} {left right : TaskExecution}
    (hleft : left ∈ store.runExecutions baselineRunId ∧ left.taskId = taskId)
    (hright : right ∈ store.runExecutions candidateRunId ∧ right.taskId = taskId) :
    compareTask store (filedByTask (store.runExecutions baselineRunId))
      (filedByTask (store.runExecutions candidateRunId)) taskId =
        .ok (store.report taskId left right) := by
  rw [compareTask, (get?_filedByTask_iff h.baseline_once).mpr hleft,
    (get?_filedByTask_iff h.candidate_once).mpr hright]
  exact comparePair_eq (hkeyed.getExecution_of_runExecutions hleft.1)
    (hkeyed.getExecution_of_runExecutions hright.1)

/-- What is reported of a shared task: its two executions. -/
def PlatformStore.Reports (store : PlatformStore) (baselineRunId candidateRunId : UUID)
    (taskId : String) (item : PairedTaskComparison) : Prop :=
  ∃ left right, (left ∈ store.runExecutions baselineRunId ∧ left.taskId = taskId) ∧
    (right ∈ store.runExecutions candidateRunId ∧ right.taskId = taskId) ∧
    item = store.report taskId left right

/-- **A comparison that is reported**: the runs are comparable, and each shared task has its
report. -/
theorem compareRuns_eq_ok {store : PlatformStore} (hkeyed : store.Keyed)
    {baselineRunId candidateRunId : UUID} {comparison : RunComparison}
    (h : compareRuns store baselineRunId candidateRunId = .ok comparison) :
    store.Comparable baselineRunId candidateRunId ∧
      List.Forall₂ (store.Reports baselineRunId candidateRunId)
        (sharedTaskIds (filedByTask (store.runExecutions baselineRunId))
          (filedByTask (store.runExecutions candidateRunId))) comparison.results ∧
      comparison.comparedTasks = comparison.results.length ∧
      (comparison.regressions = comparison.results.countP fun item =>
        item.disposition = .regression) ∧
      comparison.improvements = comparison.results.countP fun item =>
        item.disposition = .improvement := by
  have hexecutions : ∀ {runId executions}, store.getRunExecutions runId = .ok executions →
      Dict.has store.runs runId = true ∧ executions = store.runExecutions runId := by
    intro runId executions h
    rw [PlatformStore.getRunExecutions] at h
    split at h
    · exact ⟨by assumption, (Except.ok.inj h).symm⟩
    · exact absurd h (by simp)
  rw [compareRuns] at h
  obtain ⟨executions, hbaseline, h⟩ := except_bind_eq_ok.mp h
  obtain ⟨byTasks, hbyTask, h⟩ := except_bind_eq_ok.mp h
  obtain ⟨executions', hcandidate, h⟩ := except_bind_eq_ok.mp h
  obtain ⟨byTasks', hbyTask', h⟩ := except_bind_eq_ok.mp h
  obtain ⟨hrun, rfl⟩ := hexecutions hbaseline
  obtain ⟨hrun', rfl⟩ := hexecutions hcandidate
  obtain ⟨honce, -, rfl⟩ := byTask_eq_ok_iff.mp hbyTask
  obtain ⟨honce', -, rfl⟩ := byTask_eq_ok_iff.mp hbyTask'
  simp only [List.nil_append] at h
  split at h
  · exact absurd h (by simp)
  rename_i hne
  obtain ⟨results, hresults, h⟩ := except_bind_eq_ok.mp h
  obtain rfl := Except.ok.inj h
  obtain ⟨first, hfirst⟩ := List.exists_mem_of_ne_nil _ hne
  have hcomparable : store.Comparable baselineRunId candidateRunId :=
    ⟨hrun, hrun', honce, honce', first, mem_sharedTaskIds_iff.mp hfirst⟩
  refine ⟨hcomparable, ?_, rfl, rfl, rfl⟩
  have hshared : ∀ taskId ∈ sharedTaskIds (filedByTask (store.runExecutions baselineRunId))
      (filedByTask (store.runExecutions candidateRunId)),
      store.Shares baselineRunId candidateRunId taskId := fun _ => mem_sharedTaskIds_iff.mp
  refine List.Forall₂.imp ?_ ((List.forall₂_and_left _ _).mpr ⟨hshared, forall₂_of_mapM hresults⟩)
  rintro taskId item ⟨⟨⟨left, hleft⟩, right, hright⟩, hitem⟩
  rw [compareTask_eq hkeyed hcomparable hleft hright] at hitem
  exact ⟨left, right, hleft, hright, (Except.ok.inj hitem).symm⟩

/-- **Comparable runs are compared.** -/
theorem PlatformStore.Comparable.exists_comparison {store : PlatformStore} (hkeyed : store.Keyed)
    {baselineRunId candidateRunId : UUID} (h : store.Comparable baselineRunId candidateRunId) :
    ∃ comparison, compareRuns store baselineRunId candidateRunId = .ok comparison := by
  have hrun : ∀ {runId}, Dict.has store.runs runId = true →
      store.getRunExecutions runId = .ok (store.runExecutions runId) := fun hrun => if_pos hrun
  have hfiled : ∀ {executions}, OncePerTask executions →
      byTask executions [] = .ok (filedByTask executions) := fun honce =>
    byTask_eq_ok_iff.mpr ⟨honce, fun _ _ => rfl, rfl⟩
  have hpairs : ∀ taskId ∈ sharedTaskIds (filedByTask (store.runExecutions baselineRunId))
      (filedByTask (store.runExecutions candidateRunId)),
      ∃ item, compareTask store (filedByTask (store.runExecutions baselineRunId))
        (filedByTask (store.runExecutions candidateRunId)) taskId = .ok item := by
    intro taskId hmem
    obtain ⟨⟨left, hleft⟩, right, hright⟩ := mem_sharedTaskIds_iff.mp hmem
    exact ⟨_, compareTask_eq hkeyed h hleft hright⟩
  obtain ⟨results, hresults⟩ := exists_mapM_eq_ok hpairs
  obtain ⟨first, hfirst⟩ := h.shares
  have hmem := mem_sharedTaskIds_iff.mpr hfirst
  simp only [compareRuns, hrun h.baseline_exists, hrun h.candidate_exists,
    hfiled h.baseline_once, hfiled h.candidate_once, bind, Except.bind]
  split
  · rename_i hnil
    exact absurd (hnil ▸ hmem) List.not_mem_nil
  · rw [hresults]
    exact ⟨_, rfl⟩

/-! ## The comparison the other way -/

/-- The disposition from the other side. -/
def RegressionDisposition.mirror : RegressionDisposition → RegressionDisposition
  | .regression => .improvement
  | .improvement => .regression
  | .stablePass => .stablePass
  | .stableFailure => .stableFailure
  | .indeterminate => .indeterminate

omit [Interpreter] in
theorem disposition_swap (baseline candidate : Option Bool) :
    disposition candidate baseline = (disposition baseline candidate).mirror := by
  rcases baseline with _ | _ | _ <;> rcases candidate with _ | _ | _ <;> rfl

omit [Interpreter] in
/-- **The delta from the other side** is the negation. -/
theorem delta_swap (baseline candidate : Option ℕ) :
    delta baseline candidate = (delta candidate baseline).map Neg.neg := by
  rcases baseline with _ | baseline <;> rcases candidate with _ | candidate <;> simp [delta]

/-- What is reported of a task from the other side. -/
structure PairedTaskComparison.Mirrors (item mirrored : PairedTaskComparison) : Prop where
  taskId : mirrored.taskId = item.taskId
  disposition : mirrored.disposition = item.disposition.mirror
  baselineExecutionId : mirrored.baselineExecutionId = item.candidateExecutionId
  candidateExecutionId : mirrored.candidateExecutionId = item.baselineExecutionId
  baselinePassed : mirrored.baselinePassed = item.candidatePassed
  candidatePassed : mirrored.candidatePassed = item.baselinePassed
  latencyDeltaMs : mirrored.latencyDeltaMs = item.latencyDeltaMs.map Neg.neg

/-- A comparison from the other side. -/
structure RunComparison.Mirrors (comparison mirrored : RunComparison) : Prop where
  comparedTasks : mirrored.comparedTasks = comparison.comparedTasks
  regressions : mirrored.regressions = comparison.improvements
  improvements : mirrored.improvements = comparison.regressions
  results : List.Forall₂ PairedTaskComparison.Mirrors comparison.results mirrored.results

/-- A task has one pair of executions, so both sides report that pair. -/
theorem PlatformStore.Reports.mirrors {store : PlatformStore} {baselineRunId candidateRunId : UUID}
    (h : store.Comparable baselineRunId candidateRunId) {taskId : String}
    {item mirrored : PairedTaskComparison}
    (hitem : store.Reports baselineRunId candidateRunId taskId item)
    (hmirrored : store.Reports candidateRunId baselineRunId taskId mirrored) :
    item.Mirrors mirrored := by
  obtain ⟨left, right, hleft, hright, rfl⟩ := hitem
  obtain ⟨right', left', hright', hleft', rfl⟩ := hmirrored
  have hread := (get?_filedByTask_iff h.baseline_once).mpr hleft
  have hread' := (get?_filedByTask_iff h.candidate_once).mpr hright
  rw [(get?_filedByTask_iff h.baseline_once).mpr hleft'] at hread
  rw [(get?_filedByTask_iff h.candidate_once).mpr hright'] at hread'
  obtain rfl := Option.some.inj hread
  obtain rfl := Option.some.inj hread'
  exact ⟨rfl, disposition_swap _ _, rfl, rfl, rfl, rfl, delta_swap _ _⟩

/-- **Exchanging the runs mirrors the comparison.** -/
theorem compareRuns_mirrors {store : PlatformStore} (hkeyed : store.Keyed)
    {baselineRunId candidateRunId : UUID} {comparison mirrored : RunComparison}
    (h : compareRuns store baselineRunId candidateRunId = .ok comparison)
    (h' : compareRuns store candidateRunId baselineRunId = .ok mirrored) :
    comparison.Mirrors mirrored := by
  obtain ⟨hcomparable, hresults, hcompared, hregressions, himprovements⟩ :=
    compareRuns_eq_ok hkeyed h
  obtain ⟨-, hresults', hcompared', hregressions', himprovements'⟩ := compareRuns_eq_ok hkeyed h'
  rw [sharedTaskIds_comm hcomparable.baseline_once hcomparable.candidate_once] at hresults'
  have hmirrors : List.Forall₂ PairedTaskComparison.Mirrors comparison.results mirrored.results :=
    forall₂_of_common (fun _ _ _ hitem hitem' => hitem.mirrors hcomparable hitem') hresults hresults'
  refine ⟨?_, ?_, ?_, hmirrors⟩
  · rw [hcompared, hcompared', hmirrors.length_eq]
  · rw [hregressions', himprovements]
    refine (countP_eq_of_forall₂ (hmirrors.imp fun item mirrored hitem => ?_)).symm
    rw [hitem.disposition]
    cases item.disposition <;> rfl
  · rw [himprovements', hregressions]
    refine (countP_eq_of_forall₂ (hmirrors.imp fun item mirrored hitem => ?_)).symm
    rw [hitem.disposition]
    cases item.disposition <;> rfl

/-! ## A comparison joins two runs -/

/-- How many of the results have a disposition. -/
def RunComparison.count (comparison : RunComparison) (disposition : RegressionDisposition) : ℕ :=
  comparison.results.countP fun item => item.disposition = disposition

omit [Interpreter] in
/-- Every item has one disposition. -/
theorem countP_dispositions (results : List PairedTaskComparison) :
    (results.countP fun item => item.disposition = .regression) +
        (results.countP fun item => item.disposition = .improvement) +
        (results.countP fun item => item.disposition = .stablePass) +
        (results.countP fun item => item.disposition = .stableFailure) +
        (results.countP fun item => item.disposition = .indeterminate) = results.length := by
  induction results with
  | nil => rfl
  | cons item results ih =>
    rw [List.length_cons, ← ih]
    cases hitem : item.disposition <;> simp [hitem] <;> omega

/-- A task is reported of the execution it has in each of the runs. -/
structure PairedTaskComparison.Pairs (item : PairedTaskComparison) (store : PlatformStore)
    (baselineRunId candidateRunId : UUID) (left right : TaskExecution) : Prop where
  left_unique : ∀ execution, execution ∈ store.runExecutions baselineRunId ∧
    execution.taskId = item.taskId ↔ execution = left
  right_unique : ∀ execution, execution ∈ store.runExecutions candidateRunId ∧
    execution.taskId = item.taskId ↔ execution = right
  baselineExecutionId : item.baselineExecutionId = left.id
  candidateExecutionId : item.candidateExecutionId = right.id
  baselinePassed : item.baselinePassed = left.passed
  candidatePassed : item.candidatePassed = right.passed
  disposition : item.disposition = AgentProof.disposition left.passed right.passed
  latencyDeltaMs : item.latencyDeltaMs = delta right.latencyMs left.latencyMs
  latencyDeltaMs_eq_none : item.latencyDeltaMs = none ↔
    left.latencyMs = none ∨ right.latencyMs = none
  attribution : item.disposition ≠ .regression → item.attribution = none

/-- What is reported of a task is reported of its executions. -/
theorem PlatformStore.Reports.pairs {store : PlatformStore} {baselineRunId candidateRunId : UUID}
    (h : store.Comparable baselineRunId candidateRunId) {taskId : String}
    {item : PairedTaskComparison}
    (hitem : store.Reports baselineRunId candidateRunId taskId item) :
    item.taskId = taskId ∧
      ∃ left right, item.Pairs store baselineRunId candidateRunId left right := by
  obtain ⟨left, right, hleft, hright, rfl⟩ := hitem
  have hunique : ∀ {executions : List TaskExecution} {execution : TaskExecution},
      OncePerTask executions → execution ∈ executions ∧ execution.taskId = taskId →
      ∀ execution', execution' ∈ executions ∧ execution'.taskId = taskId ↔
        execution' = execution := by
    intro executions execution honce hmem execution'
    rw [← get?_filedByTask_iff honce, (get?_filedByTask_iff honce).mpr hmem, Option.some.injEq,
      eq_comm]
  refine ⟨rfl, left, right, hunique h.baseline_once hleft, hunique h.candidate_once hright, rfl, rfl,
    rfl, rfl, rfl, rfl, ?_, fun hnot => if_neg hnot⟩
  change delta right.latencyMs left.latencyMs = none ↔ _
  cases right.latencyMs <;> cases left.latencyMs <;> simp [delta]

omit [Interpreter] in
/-- **A run compared with itself**: it is on both sides, so a task is paired with one execution
twice. -/
theorem PairedTaskComparison.Pairs.disposition_self {item : PairedTaskComparison}
    {store : PlatformStore} {runId : UUID} {left right : TaskExecution}
    (h : item.Pairs store runId runId left right) :
    item.disposition ≠ .regression ∧ item.disposition ≠ .improvement := by
  obtain rfl := (h.right_unique left).mp ((h.left_unique left).mpr rfl)
  rw [h.disposition]
  rcases left.passed with _ | _ | _ <;> exact ⟨by decide, by decide⟩

variable [Sha256]

/-- **A comparison is a join**, in every store that operations lead to.  It succeeds exactly for
runs that are comparable, reports each shared task once, in increasing order, of the execution the
task has in each run, and its counts add up.  From the other side it is mirrored, and a run compared
with itself neither regresses nor improves. -/
theorem compareRuns_join {performed : List Performed} {store : PlatformStore}
    (h : Execution PlatformStore.Step {} performed store) (baselineRunId candidateRunId : UUID) :
    ((∃ comparison, compareRuns store baselineRunId candidateRunId = .ok comparison) ↔
      store.Comparable baselineRunId candidateRunId) ∧
    ∀ comparison, compareRuns store baselineRunId candidateRunId = .ok comparison →
      (∃ mirrored, compareRuns store candidateRunId baselineRunId = .ok mirrored ∧
        comparison.Mirrors mirrored) ∧
      (comparison.results.map (·.taskId)).Pairwise (· < ·) ∧
      (∀ taskId, taskId ∈ comparison.results.map (·.taskId) ↔
        store.Shares baselineRunId candidateRunId taskId) ∧
      (∀ item ∈ comparison.results, ∃ left right,
        item.Pairs store baselineRunId candidateRunId left right) ∧
      (comparison.regressions = comparison.count .regression ∧
        comparison.improvements = comparison.count .improvement ∧
        comparison.regressions + comparison.improvements + comparison.count .stablePass +
          comparison.count .stableFailure + comparison.count .indeterminate =
          comparison.comparedTasks) ∧
      (baselineRunId = candidateRunId → comparison.regressions = 0 ∧ comparison.improvements = 0 ∧
        ∀ item ∈ comparison.results, item.attribution = none) := by
  have hkeyed := PlatformStore.keyed_of_execution h
  refine ⟨⟨fun ⟨comparison, hcompare⟩ => (compareRuns_eq_ok hkeyed hcompare).1,
    fun hcomparable => hcomparable.exists_comparison hkeyed⟩, fun comparison hcompare => ?_⟩
  obtain ⟨hcomparable, hresults, hcompared, hregressions, himprovements⟩ :=
    compareRuns_eq_ok hkeyed hcompare
  obtain ⟨mirrored, hmirrored⟩ := hcomparable.symm.exists_comparison hkeyed
  have hmirrors := compareRuns_mirrors hkeyed hcompare hmirrored
  have htaskIds : comparison.results.map (·.taskId) =
      sharedTaskIds (filedByTask (store.runExecutions baselineRunId))
        (filedByTask (store.runExecutions candidateRunId)) := by
    rw [← List.forall₂_eq_eq_eq, List.forall₂_map_left_iff]
    exact List.Forall₂.flip (hresults.imp fun _ _ hitem => (hitem.pairs hcomparable).1)
  have hpairs : ∀ item ∈ comparison.results, ∃ left right,
      item.Pairs store baselineRunId candidateRunId left right := by
    intro item hitem
    obtain ⟨taskId, -, hreports⟩ := (exists_of_forall₂ hresults).2 item hitem
    exact (hreports.pairs hcomparable).2
  refine ⟨⟨mirrored, hmirrored, hmirrors⟩, ?_, fun taskId => ?_, hpairs,
    ⟨hregressions, himprovements, ?_⟩, ?_⟩
  · rw [htaskIds]
    exact sharedTaskIds_pairwise hcomparable.baseline_once _
  · rw [htaskIds]
    exact mem_sharedTaskIds_iff
  · rw [hregressions, himprovements, hcompared]
    exact countP_dispositions comparison.results
  · rintro rfl
    have hsame : ∀ item ∈ comparison.results,
        item.disposition ≠ .regression ∧ item.disposition ≠ .improvement := fun item hitem =>
      (hpairs item hitem).elim fun _ ⟨_, hpair⟩ => hpair.disposition_self
    refine ⟨?_, ?_, fun item hitem => ?_⟩
    · rw [hregressions, List.countP_eq_zero]
      exact fun item hitem => by simpa using (hsame item hitem).1
    · rw [himprovements, List.countP_eq_zero]
      exact fun item hitem => by simpa using (hsame item hitem).2
    · obtain ⟨left, right, hpair⟩ := hpairs item hitem
      exact hpair.attribution (hsame item hitem).1

omit [Interpreter] [Sha256] in
/-- A baseline that passes and a candidate that fails share one task. -/
theorem compareRuns_join_pair :
    let _ := cpython
    let _ := sha256
    ∃ run ∈ PlatformStore.performAll (pairSession [] [] failedResult) {},
      ∃ comparison mirrored, compareRuns run.2 "baseline" "candidate" = .ok comparison ∧
        comparison.regressions = 1 ∧ compareRuns run.2 "candidate" "baseline" = .ok mirrored ∧
        mirrored.improvements = 1 := by
  intro _ _
  have hrun : ∃ run ∈ PlatformStore.performAll (pairSession [] [] failedResult) {},
      ∃ comparison, compareRuns run.2 "baseline" "candidate" = .ok comparison ∧
        comparison.regressions = 1 := by
    decide +kernel
  obtain ⟨run, hperform, comparison, hcompare, hregressions⟩ := hrun
  obtain ⟨mirrored, hmirrored, hmirrors⟩ := ((compareRuns_join
    (PlatformStore.execution_performAll hperform) "baseline" "candidate").2 comparison hcompare).1
  exact ⟨run, hperform, comparison, mirrored, hcompare, hregressions, hmirrored,
    hmirrors.improvements.trans hregressions⟩

end Closed

end AgentProof
