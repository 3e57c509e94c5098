import AgentProof.Frontend.TraceReplay
import AgentProof.Machinery.Paging
import AgentProof.Platform.History
import AgentProof.Platform.Join

/-!
# Frontend/Endpoints — what the API serves of a store that is written to

A trace is served page by page, while workers append to it.  A page stays as it is exactly when
nothing is filed before its end (`tracePage_stable_iff`); so a trace that is appended to in order can
be read page by page while it grows, without a gap and without an event twice (`tracePages_inOrder`).

A comparison is served with filters, which its counts do not follow: they are those of the views
they name (`getComparison_views`).
-/

open Machinery Machinery.Raising

namespace AgentProof

/-! ## Pages of a trace -/

/-- The page of an execution that exists. -/
theorem getTracePage_eq_ok {store : PlatformStore} {executionId : UUID} {execution : TaskExecution}
    (h : store.getExecution executionId = .ok execution) (query : TraceQuery) :
    getTracePage store executionId query = .ok ((store.events executionId).length,
      page query.offset query.limit (store.events executionId)) := by
  simp only [getTracePage, PlatformStore.getTrace, h]
  rfl

section

variable [Interpreter] [Sha256] {store store' : PlatformStore} {later : List Performed}
  {executionId : UUID} {execution : TaskExecution}

/-- **A page stays as it is** through a run of operations exactly when every event that is stored
meanwhile comes after it, or the trace does not come up to it. -/
theorem tracePage_stable_iff (hstore : store.Reachable)
    (hlater : Execution PlatformStore.Step store later store')
    (hexecution : store.getExecution executionId = .ok execution) (query : TraceQuery) :
    (getTracePage store' executionId query).map Prod.snd =
        (getTracePage store executionId query).map Prod.snd ↔
      (store'.events executionId).length ≤ query.offset ∨
        ∀ event ∈ store'.events executionId, event ∉ store.events executionId →
          query.offset + query.limit ≤ (store'.events executionId).countP fun earlier =>
            earlier.sequenceNo < event.sequenceNo := by
  have hextends := PlatformStore.extends_of_execution hstore hlater
  obtain ⟨execution', hexecution', -⟩ := hextends.executions hexecution
  obtain ⟨performed, hrun⟩ := hstore
  have hstore' := PlatformStore.WellFormed.of_execution (hrun.append hlater)
  have htrace := isTrace_events hstore'.events_trace executionId
  rw [getTracePage_eq_ok hexecution, getTracePage_eq_ok hexecution', Except.map, Except.map,
    Except.ok.injEq]
  exact page_eq_page_iff (hextends.events executionId) htrace.increasing query.limit_mem.1 _

/-- An event that skips ahead. -/
def lateCall : StoreCall := ⟨.appendTraceEvent "left" (lookupCall "left-5" 5 "CUST-003"), 9, ""⟩

/-- The store after the event. -/
def lateStore : PlatformStore := ((failedLookup 1).perform lateCall.now lateCall.newId lateCall.op).2

omit [Interpreter] [Sha256] in
/-- No id of the two runs is empty. -/
theorem fresh_failedLookup (n : ℕ) :
    let _ := cpython
    let _ := sha256
    "" ∉ (failedLookup n).ids := by
  intro _ _
  simp [PlatformStore.ids, failedLookup, lookupStore]

omit [Interpreter] [Sha256] in
/-- A page of one event stays as it is. -/
theorem tracePage_stable_iff_late :
    let _ := cpython
    let _ := sha256
    (getTracePage lateStore "left" { limit := 1 }).map Prod.snd =
      (getTracePage (failedLookup 1) "left" { limit := 1 }).map Prod.snd := by
  intro _ _
  have hlater : Execution PlatformStore.Step (failedLookup 1) _ lateStore :=
    .snoc (.nil _) (PlatformStore.Step.perform _ lateCall (fresh_failedLookup 1))
  have hexecution : (failedLookup 1).getExecution "left" =
      .ok ((lookupExecution "left" "baseline" 4).finalize passedResult 7) := rfl
  refine (tracePage_stable_iff (reachable_failedLookup 1) hlater hexecution _).mpr (.inr ?_)
  decide +kernel

/-! ## A trace that is appended to in order -/

/-- An operation that appends to the execution at the end, if it appends to it and is not refused. -/
def StepInOrder (executionId : UUID) (next : Performed) (store store' : PlatformStore) : Prop :=
  PlatformStore.Step next store store' ∧ ∀ payload reply,
    next.op = .appendTraceEvent executionId payload → next.outcome = .ok reply →
      ∀ event ∈ store.events executionId, event.sequenceNo < payload.sequenceNo

/-- **Step lemma**: the trace grows at its end. -/
theorem StepInOrder.isPrefix {next : Performed} (hstore : store.WellFormed)
    (h : StepInOrder executionId next store store') :
    store.events executionId <+: store'.events executionId := by
  obtain ⟨hstep, hinOrder⟩ := h
  obtain ⟨-, heffect⟩ := hstep.effect
  obtain ⟨⟨op, now, newId⟩, outcome⟩ := next
  dsimp only at heffect hinOrder
  cases heffect with
  | @eventAppended id payload execution hexecution hfree =>
    rw [PlatformStore.events, PlatformStore.events, Dict.get?_set]
    split_ifs with hid
    · subst hid
      have hsorted : PlatformStore.sortBySequenceNo
          (store.events id ++ [PlatformStore.storedEvent now id payload]) =
          store.events id ++ [PlatformStore.storedEvent now id payload] := by
        have hincreasing := (isTrace_events hstore.events_trace id).increasing
        refine List.Pairwise.insertionSort_eq (List.pairwise_append.mpr
          ⟨hincreasing.imp le_of_lt, List.pairwise_singleton _ _, ?_⟩)
        intro event hmem stored hstored
        obtain rfl := List.mem_singleton.mp hstored
        exact (hinOrder payload _ rfl rfl event hmem).le
      rw [Option.getD_some, hsorted]
      exact List.prefix_append _ _
    · exact List.prefix_refl _
  | @traceRead id =>
    have hsame : (store.touchEvents id).events executionId = store.events executionId :=
      Dict.getD_get?_setDefault _ _ _ _
    rw [hsame]
  | _ => exact List.prefix_refl _

/-- **Run lemma**: the store stays one that operations lead to, and the trace grows at its end. -/
theorem isPrefix_of_inOrder (hstore : store.Reachable)
    (h : Execution (StepInOrder executionId) store later store') :
    store'.Reachable ∧ store.events executionId <+: store'.events executionId ∧
      store.Extends store' := by
  refine h.invariant (P := fun _ u => u.Reachable ∧
    store.events executionId <+: u.events executionId ∧ store.Extends u)
    ⟨hstore, List.prefix_refl _, .refl store⟩ ?_
  rintro _ next u u' ⟨⟨performed, hrun⟩, hbefore, hextends⟩ hstep
  have hu := PlatformStore.WellFormed.of_execution hrun
  exact ⟨⟨_, hrun.snoc hstep.1⟩, hbefore.trans (hstep.isPrefix hu),
    hextends.trans (hstep.1.extends hu)⟩

/-- **A trace can be read while it grows.**  As long as events are appended in order, the pages read
one after the other, each at a time of its own, are the beginning of the trace as it is when the last
is read, if all before the last are full; and all of it, if the last is not. -/
theorem tracePages_inOrder {stores : ℕ → PlatformStore} (hstore : (stores 0).Reachable)
    (hruns : ∀ i, ∃ later, Execution (StepInOrder executionId) (stores i) later (stores (i + 1)))
    (hexecution : (stores 0).getExecution executionId = .ok execution) {limit k : ℕ}
    (hlimit : 1 ≤ limit ∧ limit ≤ 1000) {totals : ℕ → ℕ} {pages : ℕ → List TraceEvent}
    (hpages : ∀ i ≤ k, getTracePage (stores i) executionId ⟨limit, i * limit, hlimit⟩ =
      .ok (totals i, pages i))
    (hfull : ∀ i < k, (pages i).length = limit) :
    (List.range (k + 1)).flatMap pages = ((stores k).events executionId).take ((k + 1) * limit) ∧
      ((pages k).length < limit →
        (List.range (k + 1)).flatMap pages = (stores k).events executionId) := by
  have hreachable : ∀ i, (stores i).Reachable ∧ ∃ execution,
      (stores i).getExecution executionId = .ok execution := by
    intro i
    induction i with
    | zero => exact ⟨hstore, execution, hexecution⟩
    | succ i ih =>
      obtain ⟨hi, execution, hexecution⟩ := ih
      obtain ⟨later, hlater⟩ := hruns i
      obtain ⟨hreachable, -, hextends⟩ := isPrefix_of_inOrder hi hlater
      exact ⟨hreachable, (hextends.executions hexecution).imp fun _ => And.left⟩
  have hgrows : ∀ i, (stores i).events executionId <+: (stores (i + 1)).events executionId := by
    intro i
    obtain ⟨later, hlater⟩ := hruns i
    exact (isPrefix_of_inOrder (hreachable i).1 hlater).2.1
  have hread : ∀ i ≤ k, pages i = page (i * limit) limit ((stores i).events executionId) := by
    intro i hi
    obtain ⟨execution, hexecution⟩ := (hreachable i).2
    have hpage := (hpages i hi).symm.trans (getTracePage_eq_ok hexecution _)
    exact congrArg Prod.snd (Except.ok.inj hpage)
  have hall : (List.range (k + 1)).flatMap pages =
      ((stores k).events executionId).take ((k + 1) * limit) := by
    rw [← flatMap_growing hgrows k fun i hi => by rw [← hread i hi.le, hfull i hi]]
    refine List.flatMap_congr fun i hi => hread i (Nat.le_of_lt_succ (List.mem_range.mp hi))
  refine ⟨hall, fun hshort => hall.trans (List.take_of_length_le ?_)⟩
  rw [hread k le_rfl, length_page] at hshort
  rw [Nat.succ_mul]
  omega

omit [Interpreter] [Sha256] in
/-- A page that is read before an event is appended, and one that is read after. -/
theorem tracePages_inOrder_late :
    let _ := cpython
    let _ := sha256
    ∃ first second, getTracePage (failedLookup 1) "left" { limit := 2 } = .ok (2, first) ∧
      getTracePage lateStore "left" { limit := 2, offset := 2 } = .ok (3, second) ∧
      first ++ second = lateStore.events "left" := by
  intro _ _
  let stores : ℕ → PlatformStore := fun i => if i = 0 then failedLookup 1 else lateStore
  let totals : ℕ → ℕ := fun i => ((stores i).events "left").length
  let pages : ℕ → List TraceEvent := fun i => page (i * 2) 2 ((stores i).events "left")
  have hstep : ∃ next, StepInOrder "left" next (failedLookup 1) lateStore := by
    refine ⟨_, PlatformStore.Step.perform _ lateCall (fresh_failedLookup 1),
      fun payload _ hop _ => ?_⟩
    obtain ⟨-, rfl⟩ := StoreOp.appendTraceEvent.inj hop
    decide +kernel
  have hruns : ∀ i, ∃ later, Execution (StepInOrder "left") (stores i) later (stores (i + 1)) := by
    rintro (_ | i)
    · exact hstep.imp' (fun next => [next]) fun _ hstep => .snoc (.nil _) hstep
    · exact ⟨_, .nil lateStore⟩
  have hexecution : ∀ i, (stores i).getExecution "left" =
      .ok ((lookupExecution "left" "baseline" 4).finalize passedResult 7) := by
    rintro (_ | i) <;> rfl
  have hread : ∀ i, getTracePage (stores i) "left" ⟨2, i * 2, by decide⟩ =
      .ok (totals i, pages i) := fun i => getTracePage_eq_ok (hexecution i) _
  have hlengths : (pages 0).length = 2 ∧ (pages 1).length = 1 ∧ totals 0 = 2 ∧ totals 1 = 3 := by
    decide +kernel
  obtain ⟨hfull, hshort, hfirst, hsecond⟩ := hlengths
  have hall : (List.range 2).flatMap pages = lateStore.events "left" := by
    refine (tracePages_inOrder (reachable_failedLookup 1) hruns (hexecution 0) (by decide)
      (fun i _ => hread i) fun i hi => ?_).2 (by rw [hshort]; decide)
    obtain rfl := Nat.lt_one_iff.mp hi
    exact hfull
  exact ⟨pages 0, pages 1, (hread 0).trans (by rw [hfirst]), (hread 1).trans (by rw [hsecond]), hall⟩

end

/-! ## Views of a run, and of a comparison -/

/-- A filter of an endpoint: none unless it is asked for. -/
def narrow {α β : Type} [DecidableEq β] (wanted : Option β) (read : α → Option β)
    (items : List α) : List α :=
  match wanted with
  | none => items
  | some value => items.filter fun item => read item = some value

/-- The query of the executions endpoint. -/
structure ExecutionsQuery where
  taskId : Option String := none
  passed : Option Bool := none

/-- `app.main.get_run_executions` -/
def getRunExecutions (store : PlatformStore) (runId : UUID) (query : ExecutionsQuery) :
    Except PyError (List TaskExecution) := do
  let executions ← store.getRunExecutions runId
  let executions := narrow query.taskId (fun execution => some execution.taskId) executions
  return narrow query.passed (·.passed) executions

/-- The query of the comparison endpoint. -/
structure ComparisonQuery where
  taskId : Option String := none
  disposition : Option RegressionDisposition := none
  divergenceType : Option TraceDivergenceType := none

/-- The filters of `get_comparison`. -/
def ComparisonQuery.filter (query : ComparisonQuery) (results : List PairedTaskComparison) :
    List PairedTaskComparison :=
  let results := narrow query.taskId (fun result => some result.taskId) results
  let results := narrow query.disposition (fun result => some result.disposition) results
  narrow query.divergenceType (fun result => result.attribution.map (·.divergenceType)) results

/-- `app.main.get_comparison`.  The counts are those of the whole comparison. -/
def getComparison [Interpreter] (store : PlatformStore) (baselineRunId candidateRunId : UUID)
    (query : ComparisonQuery) : Except PyError RunComparison := do
  let comparison ← compareRuns store baselineRunId candidateRunId
  return { comparison with results := query.filter comparison.results }

/-! ## What a task is listed as -/

theorem getRunExecutions_eq {store : PlatformStore} {runId : UUID}
    (hrun : Dict.has store.runs runId = true) (query : ExecutionsQuery) :
    getRunExecutions store runId query =
      .ok (narrow query.passed (·.passed) (narrow query.taskId
        (fun execution => some execution.taskId) (store.runExecutions runId))) := by
  simp only [getRunExecutions, PlatformStore.getRunExecutions, if_pos hrun]
  rfl

/-- **A task of a run is listed** as its one execution, under the outcome this has. -/
theorem getRunExecutions_of_mem {store : PlatformStore} {runId : UUID}
    (hrun : Dict.has store.runs runId = true) (honce : OncePerTask (store.runExecutions runId))
    {execution : TaskExecution} (hmem : execution ∈ store.runExecutions runId)
    (passed : Option Bool) :
    getRunExecutions store runId { taskId := some execution.taskId, passed := passed } =
      .ok (narrow passed (·.passed) [execution]) := by
  have hone : narrow (some execution.taskId) (fun execution => some execution.taskId)
      (store.runExecutions runId) = [execution] := by
    simpa only [narrow, Option.some.injEq] using filter_key_eq_singleton honce hmem
  rw [getRunExecutions_eq hrun]
  dsimp only
  rw [hone]

/-- A task that a run does not have is not listed. -/
theorem getRunExecutions_of_forall_ne {store : PlatformStore} {runId : UUID}
    (hrun : Dict.has store.runs runId = true) {taskId : String}
    (hnone : ∀ execution ∈ store.runExecutions runId, execution.taskId ≠ taskId)
    (passed : Option Bool) :
    getRunExecutions store runId { taskId := some taskId, passed := passed } = .ok [] := by
  have hnil : narrow (some taskId) (fun execution => some execution.taskId)
      (store.runExecutions runId) = [] := by
    rw [narrow, List.filter_eq_nil_iff]
    simpa using hnone
  rw [getRunExecutions_eq hrun]
  dsimp only
  rw [hnil]
  cases passed <;> rfl

/-- A task is listed under an outcome: its execution has it. -/
theorem getRunExecutions_passed_iff {store : PlatformStore} {runId : UUID}
    (hrun : Dict.has store.runs runId = true) (honce : OncePerTask (store.runExecutions runId))
    (taskId : String) (passed : Bool) :
    (∃ execution, getRunExecutions store runId
        { taskId := some taskId, passed := some passed } = .ok [execution]) ↔
      ∃ execution ∈ store.runExecutions runId, execution.taskId = taskId ∧
        execution.passed = some passed := by
  constructor
  · rintro ⟨execution, hlisted⟩
    rw [getRunExecutions_eq hrun, Except.ok.injEq] at hlisted
    have hmem : execution ∈ [execution] := List.mem_singleton_self _
    rw [← hlisted, narrow, narrow, List.mem_filter, List.mem_filter] at hmem
    simp only [decide_eq_true_eq, Option.some.injEq] at hmem
    exact ⟨execution, hmem.1.1, hmem.1.2, hmem.2⟩
  · rintro ⟨execution, hmem, rfl, hpassed⟩
    refine ⟨execution, (getRunExecutions_of_mem hrun honce hmem _).trans ?_⟩
    simp [narrow, hpassed]

/-! ## Views of a comparison -/

section

variable [Interpreter] {store : PlatformStore} {baselineRunId candidateRunId : UUID}
  {comparison : RunComparison}

/-- A view of a comparison that succeeds. -/
theorem getComparison_eq (h : compareRuns store baselineRunId candidateRunId = .ok comparison)
    (query : ComparisonQuery) :
    getComparison store baselineRunId candidateRunId query =
      .ok { comparison with results := query.filter comparison.results } := by
  rw [getComparison, h]
  rfl

/-- The tasks of a comparison are reported once. -/
theorem nodup_taskIds (hkeyed : store.Keyed)
    (h : compareRuns store baselineRunId candidateRunId = .ok comparison) :
    (comparison.results.map (·.taskId)).Nodup ∧ ∀ taskId,
      taskId ∈ comparison.results.map (·.taskId) ↔
        store.Shares baselineRunId candidateRunId taskId := by
  obtain ⟨hcomparable, hresults, -⟩ := compareRuns_eq_ok hkeyed h
  have htaskIds : comparison.results.map (·.taskId) =
      sharedTaskIds (filedByTask (store.runExecutions baselineRunId))
        (filedByTask (store.runExecutions candidateRunId)) := by
    rw [← List.forall₂_eq_eq_eq, List.forall₂_map_left_iff]
    exact List.Forall₂.flip (hresults.imp fun _ _ hitem => (hitem.pairs hcomparable).1)
  rw [htaskIds]
  exact ⟨(sharedTaskIds_pairwise hcomparable.baseline_once _).imp fun hlt => hlt.ne,
    fun taskId => mem_sharedTaskIds_iff⟩

omit [Interpreter] in
/-- The view of one task. -/
theorem narrow_taskId_of_mem (hnodup : (comparison.results.map (·.taskId)).Nodup)
    {item : PairedTaskComparison} (hitem : item ∈ comparison.results) :
    narrow (some item.taskId) (fun result => some result.taskId) comparison.results = [item] := by
  simpa only [narrow, Option.some.injEq] using filter_key_eq_singleton hnodup hitem

/-- A task stands in the view of a disposition: that is the disposition of its report. -/
theorem view_disposition_iff (hkeyed : store.Keyed)
    (h : compareRuns store baselineRunId candidateRunId = .ok comparison) (taskId : String)
    (disposition : RegressionDisposition) :
    (∃ item, getComparison store baselineRunId candidateRunId
        { taskId := some taskId, disposition := some disposition } =
          .ok { comparison with results := [item] }) ↔
      ∃ item ∈ comparison.results, item.taskId = taskId ∧ item.disposition = disposition := by
  constructor
  · rintro ⟨item, hview⟩
    rw [getComparison_eq h, Except.ok.injEq] at hview
    have hmem : item ∈ [item] := List.mem_singleton_self _
    have hresults := congrArg RunComparison.results hview
    dsimp only [ComparisonQuery.filter, narrow] at hresults
    rw [← hresults, List.mem_filter, List.mem_filter] at hmem
    simp only [decide_eq_true_eq, Option.some.injEq] at hmem
    exact ⟨item, hmem.1.1, hmem.1.2, hmem.2⟩
  · rintro ⟨item, hitem, rfl, rfl⟩
    refine ⟨item, (getComparison_eq h _).trans ?_⟩
    have hone := narrow_taskId_of_mem (nodup_taskIds hkeyed h).1 hitem
    simp only [ComparisonQuery.filter, hone]
    simp [narrow]

omit [Interpreter] in
/-- A report is a regression, or an improvement, by the outcomes of its executions. -/
theorem disposition_eq_iff (passed : Bool) (left right : Option Bool) :
    disposition left right = (if passed then .regression else .improvement) ↔
      left = some passed ∧ right = some !passed := by
  rcases left with _ | _ | _ <;> rcases right with _ | _ | _ <;> cases passed <;> decide

/-- A task is reported to have changed: the runs list it under opposite outcomes. -/
theorem view_changed_iff (hkeyed : store.Keyed)
    (h : compareRuns store baselineRunId candidateRunId = .ok comparison) (taskId : String)
    (passed : Bool) :
    (∃ item, getComparison store baselineRunId candidateRunId
        { taskId := some taskId,
          disposition := some (if passed then .regression else .improvement) } =
            .ok { comparison with results := [item] }) ↔
      (∃ left, getRunExecutions store baselineRunId
        { taskId := some taskId, passed := some passed } = .ok [left]) ∧
      ∃ right, getRunExecutions store candidateRunId
        { taskId := some taskId, passed := some !passed } = .ok [right] := by
  obtain ⟨hcomparable, hresults, -⟩ := compareRuns_eq_ok hkeyed h
  rw [view_disposition_iff hkeyed h,
    getRunExecutions_passed_iff hcomparable.baseline_exists hcomparable.baseline_once,
    getRunExecutions_passed_iff hcomparable.candidate_exists hcomparable.candidate_once]
  constructor
  · rintro ⟨item, hitem, rfl, hdisposition⟩
    obtain ⟨taskId, -, left, right, hleft, hright, rfl⟩ := (exists_of_forall₂ hresults).2 item hitem
    obtain ⟨hpassed, hpassed'⟩ := (disposition_eq_iff passed _ _).mp hdisposition
    exact ⟨⟨left, hleft.1, hleft.2, hpassed⟩, right, hright.1, hright.2, hpassed'⟩
  · rintro ⟨⟨left, hleft, rfl, hpassed⟩, right, hright, htask, hpassed'⟩
    have hshares : store.Shares baselineRunId candidateRunId left.taskId :=
      ⟨⟨left, hleft, rfl⟩, right, hright, htask⟩
    obtain ⟨item, hitem, heq⟩ := List.mem_map.mp ((nodup_taskIds hkeyed h).2 _ |>.mpr hshares)
    obtain ⟨taskId, -, hreports⟩ := (exists_of_forall₂ hresults).2 item hitem
    obtain ⟨-, left', right', hpair⟩ := hreports.pairs hcomparable
    refine ⟨item, hitem, heq, ?_⟩
    obtain rfl := (hpair.left_unique left).mp ⟨hleft, heq.symm⟩
    obtain rfl := (hpair.right_unique right).mp ⟨hright, htask.trans heq.symm⟩
    rw [hpair.disposition, hpassed, hpassed', disposition_eq_iff]
    exact ⟨rfl, rfl⟩

variable [Sha256]

/-- **The views of a comparison agree with those of its runs.**  The view of a task that the runs
share is one report, of the executions they list it as; the view of another task is empty, as is what
one of the runs lists.  A task stands among the regressions exactly when the baseline lists it as
passed and the candidate as not passed, and among the improvements when they do the opposite.  A
report with a divergence is among the regressions, and in the view of one type of divergence. -/
theorem getComparison_views (hstore : store.Reachable)
    (h : compareRuns store baselineRunId candidateRunId = .ok comparison) (taskId : String) :
    (store.Shares baselineRunId candidateRunId taskId → ∃ left right item,
      getRunExecutions store baselineRunId { taskId := some taskId } = .ok [left] ∧
      getRunExecutions store candidateRunId { taskId := some taskId } = .ok [right] ∧
      getComparison store baselineRunId candidateRunId { taskId := some taskId } =
        .ok { comparison with results := [item] } ∧
      item.Pairs store baselineRunId candidateRunId left right) ∧
    (¬store.Shares baselineRunId candidateRunId taskId →
      (getRunExecutions store baselineRunId { taskId := some taskId } = .ok [] ∨
        getRunExecutions store candidateRunId { taskId := some taskId } = .ok []) ∧
      getComparison store baselineRunId candidateRunId { taskId := some taskId } =
        .ok { comparison with results := [] }) ∧
    (∀ passed, (∃ item, getComparison store baselineRunId candidateRunId
        { taskId := some taskId,
          disposition := some (if passed then .regression else .improvement) } =
            .ok { comparison with results := [item] }) ↔
      (∃ left, getRunExecutions store baselineRunId
        { taskId := some taskId, passed := some passed } = .ok [left]) ∧
      ∃ right, getRunExecutions store candidateRunId
        { taskId := some taskId, passed := some !passed } = .ok [right]) ∧
    ∀ item ∈ comparison.results, item.attribution ≠ none → item.disposition = .regression ∧
      ∃! divergenceType, ∃ results, item ∈ results ∧
        getComparison store baselineRunId candidateRunId
          { divergenceType := some divergenceType } = .ok { comparison with results } := by
  obtain ⟨performed, hrun⟩ := hstore
  have hkeyed := PlatformStore.keyed_of_execution hrun
  obtain ⟨hcomparable, hresults, -⟩ := compareRuns_eq_ok hkeyed h
  obtain ⟨hnodup, hshared⟩ := nodup_taskIds hkeyed h
  refine ⟨fun hshares => ?_, fun hnot => ⟨?_, ?_⟩, view_changed_iff hkeyed h taskId,
    fun item hitem hattribution => ?_⟩
  · obtain ⟨item, hitem, rfl⟩ := List.mem_map.mp ((hshared taskId).mpr hshares)
    obtain ⟨_, -, hreports⟩ := (exists_of_forall₂ hresults).2 item hitem
    obtain ⟨-, left, right, hpair⟩ := hreports.pairs hcomparable
    obtain ⟨hleft, hleftTask⟩ := (hpair.left_unique left).mpr rfl
    obtain ⟨hright, hrightTask⟩ := (hpair.right_unique right).mpr rfl
    refine ⟨left, right, item, ?_, ?_, ?_, hpair⟩
    · rw [← hleftTask]
      exact getRunExecutions_of_mem hcomparable.baseline_exists hcomparable.baseline_once hleft none
    · rw [← hrightTask]
      exact getRunExecutions_of_mem hcomparable.candidate_exists hcomparable.candidate_once hright
        none
    · rw [getComparison_eq h, ComparisonQuery.filter, narrow_taskId_of_mem hnodup hitem]
      rfl
  · rw [PlatformStore.Shares, not_and_or] at hnot
    refine hnot.imp (fun hnone => ?_) fun hnone => ?_
    · exact getRunExecutions_of_forall_ne hcomparable.baseline_exists
        (fun execution hmem heq => hnone ⟨execution, hmem, heq⟩) none
    · exact getRunExecutions_of_forall_ne hcomparable.candidate_exists
        (fun execution hmem heq => hnone ⟨execution, hmem, heq⟩) none
  · have hnil : narrow (some taskId) (fun result => some result.taskId) comparison.results = [] := by
      rw [narrow, List.filter_eq_nil_iff]
      intro item hitem heq
      refine hnot ((hshared taskId).mp (List.mem_map.mpr ⟨item, hitem, ?_⟩))
      simpa using heq
    rw [getComparison_eq h, ComparisonQuery.filter, hnil]
    rfl
  · obtain ⟨_, -, hreports⟩ := (exists_of_forall₂ hresults).2 item hitem
    obtain ⟨-, left, right, hpair⟩ := hreports.pairs hcomparable
    refine ⟨not_imp_comm.mp hpair.attribution hattribution, ?_⟩
    obtain ⟨attribution, hsome⟩ := Option.ne_none_iff_exists'.mp hattribution
    refine ⟨attribution.divergenceType, ⟨_, ?_, getComparison_eq h _⟩, ?_⟩
    · simp [ComparisonQuery.filter, narrow, hitem, hsome]
    · rintro divergenceType ⟨results, hmem, hview⟩
      rw [getComparison_eq h, Except.ok.injEq] at hview
      obtain rfl : _ = results := congrArg RunComparison.results hview
      simpa [ComparisonQuery.filter, narrow, hitem, hsome, eq_comm] using hmem

omit [Interpreter] [Sha256] in
/-- The candidate of two runs that differ at the end is among the regressions. -/
theorem getComparison_views_lookup :
    let _ := cpython
    let _ := sha256
    ∃ (comparison : RunComparison) (item : PairedTaskComparison),
      getComparison (failedLookup 1) "baseline" "candidate"
        { taskId := some "customer_refund_within_policy", disposition := some .regression } =
          .ok { comparison with results := [item] } := by
  intro _ _
  have hcompare : ∃ comparison,
      compareRuns (failedLookup 1) "baseline" "candidate" = .ok comparison :=
    ⟨_, rfl⟩
  obtain ⟨comparison, hcompare⟩ := hcompare
  exact ⟨comparison, ((getComparison_views (reachable_failedLookup 1) hcompare _).2.2.1 true).mpr
    ⟨⟨_, rfl⟩, _, rfl⟩⟩

end

end AgentProof
