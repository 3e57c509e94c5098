import AgentProof.Platform.Reads
import AgentProof.Runner.DatabaseWorkers
import AgentProof.Runner.Evaluation

/-!
# Runner/Meanwhile — a comparison that is read while workers write

Between two reads of `compare_runs` the workers go on.  An execution whose result is recorded stays
as it is, and so does its trace (`sameView_of_recorded`); one whose result is not is undecided.  So
what is reported early is never taken back (`compareRuns_meanwhile`).
-/

open Machinery Machinery.Prog Machinery.Raising

namespace AgentProof

variable {ι : Type} [DecidableEq ι] [Interpreter] {registry : Dict String BenchmarkTask}
  {attempts : ι → Attempt} {store : PlatformStore} {v v' : StoreWorkers ι}

/-! ## What stays -/

/-- The agent versions are those there were. -/
theorem agentVersions_of_reachable
    (h : Threads.Reachable PlatformStore.handle (StoreWorkers.initial registry attempts store) v) :
    v.shared.agentVersions = store.agentVersions := by
  refine h.invariant (P := fun v => v.shared.agentVersions = store.agentVersions) rfl ?_
  rintro _ _ hu ⟨hi, w⟩
  rw [Threads.advance_shared, PlatformStore.handle_agentVersions, hu]

/-- The executions stay under their ids, and are those there were. -/
theorem filed_of_reachable (hkeyed : store.Keyed)
    (h : Threads.Reachable PlatformStore.handle (StoreWorkers.initial registry attempts store) v) :
    v.shared.Keyed ∧ store.SameFiling v.shared := by
  refine ⟨keyed_of_reachable hkeyed h,
    h.invariant (P := fun v => store.SameFiling v.shared) (.refl store) ?_⟩
  rintro _ _ hu ⟨hi, w⟩
  exact hu.handle w _

section

variable {executionId : UUID} (hempty : store.events executionId = [])
include hempty

/-- **Step lemma**: no call of an attempt changes what is seen of an execution whose result is
recorded. -/
theorem sameView_step
    (h : Threads.Reachable PlatformStore.handle (StoreWorkers.initial registry attempts store) v)
    (hrecorded : v.shared.getExecution executionId ≠ store.getExecution executionId)
    (hstep : Threads.Step PlatformStore.handle v v') :
    PlatformStore.SameView executionId v'.shared v.shared := by
  have hconcerns := h.only (P := fun i => StoreCommand.Concerns (attempts i).job.executionId)
    fun i => (attempts i).concerns registry
  obtain @⟨i, c, k, hi, w⟩ := hstep
  rw [Threads.advance_shared]
  by_cases hjob : (attempts i).job.executionId = executionId
  · obtain ⟨owners, howned, hthread, hview⟩ := exists_ownership hempty h
    have hi' := (hthread ⟨i, hjob⟩).trans hi
    cases howned with
    | nobody _ hsame _ => exact absurd (hview.execution.trans hsame) hrecorded
    | writing _ _ _ _ hsame _ _ => exact absurd (hview.execution.trans hsame) hrecorded
    | @recorded owner p hran hstored _ honly hothers =>
      by_cases howner : (⟨i, hjob⟩ : { i // (attempts i).job.executionId = executionId }) = owner
      · rw [← howner, hi'] at honly
        cases honly with
        | @call id payload _ _ =>
          obtain ⟨hevents, hexecution⟩ :=
            PlatformStore.handle_appendJudgeVerdict w id payload v.shared executionId
          exact ⟨PlatformStore.handle_agentVersions .., hexecution, hevents⟩
      · have hother := hothers _ howner
        rw [hi'] at hother
        obtain ⟨hshared, -⟩ := hother.of_taken hjob (agentVersions_of_reachable h)
          (hview.events ▸ hstored.taken hran.events hran.events.length_pos le_rfl) w
        rw [hshared]
        exact ⟨rfl, rfl, rfl⟩
  · have honly := hconcerns i
    rw [hi] at honly
    cases honly with
    | call hc _ =>
      exact (PlatformStore.frame executionId).foreign w c _ _ (hc.ignores hjob) ⟨rfl, rfl, rfl⟩

/-- **Run lemma**: an execution whose result is recorded stays as it is, and so does its trace. -/
theorem sameView_of_recorded
    (h : Threads.Reachable PlatformStore.handle (StoreWorkers.initial registry attempts store) v)
    (hrecorded : v.shared.getExecution executionId ≠ store.getExecution executionId)
    (hlater : Threads.Reachable PlatformStore.handle v v') :
    PlatformStore.SameView executionId v'.shared v.shared := by
  have hboth : Threads.Reachable PlatformStore.handle
      (StoreWorkers.initial registry attempts store) v' ∧
        PlatformStore.SameView executionId v'.shared v.shared := by
    refine hlater.invariant (P := fun u => Threads.Reachable PlatformStore.handle
      (StoreWorkers.initial registry attempts store) u ∧
        PlatformStore.SameView executionId u.shared v.shared) ⟨h, rfl, rfl, rfl⟩ ?_
    rintro u u' ⟨hu, hview⟩ hstep
    refine ⟨hu.tail hstep, (sameView_step hempty hu ?_ hstep).trans hview⟩
    rwa [hview.execution]
  exact hboth.2

end

/-! ## The executions of a run -/

/-- The executions of a run as they are created: without a result, and without a trace. -/
def PlatformStore.Unrun (store : PlatformStore) (runId : UUID) : Prop :=
  ∀ execution ∈ store.runExecutions runId, execution.passed = none ∧ store.events execution.id = []

section

variable {runId : UUID} {row row' : TaskExecution}

/-- **A row that is read is undecided, or stays as it is**, with its trace. -/
theorem passed_eq_none_or_settled (hkeyed : store.Keyed) (hunrun : store.Unrun runId)
    (h : Threads.Reachable PlatformStore.handle (StoreWorkers.initial registry attempts store) v)
    (hrow : row ∈ v.shared.runExecutions runId) : row.passed = none ∨
      ∀ v', Threads.Reachable PlatformStore.handle v v' →
        v'.shared.getExecution row.id = .ok row ∧
          v'.shared.events row.id = v.shared.events row.id := by
  obtain ⟨hkeyed', hfiling⟩ := filed_of_reachable hkeyed h
  obtain ⟨original, horiginal, hsame⟩ := hfiling.exists_initial hrow
  have hid : original.id = row.id := congrArg Prod.fst hsame
  have hget := hkeyed'.getExecution_of_runExecutions hrow
  have hget' := hkeyed.getExecution_of_runExecutions horiginal
  obtain ⟨hpassed, hempty⟩ := hunrun original horiginal
  rw [hid] at hget' hempty
  by_cases hrecorded : v.shared.getExecution row.id = store.getExecution row.id
  · rw [hget, hget'] at hrecorded
    exact .inl ((Except.ok.inj hrecorded) ▸ hpassed)
  · refine .inr fun v' hlater => ?_
    have hview := sameView_of_recorded hempty h hrecorded hlater
    exact ⟨hview.execution.trans hget, hview.events⟩

/-- The tasks of a run are the same whenever it is read. -/
theorem taskIds_eq (hkeyed : store.Keyed) (runId : UUID)
    (h : Threads.Reachable PlatformStore.handle (StoreWorkers.initial registry attempts store) v)
    (h' : Threads.Reachable PlatformStore.handle (StoreWorkers.initial registry attempts store)
      v') :
    (v.shared.runExecutions runId).map (·.taskId) =
      (v'.shared.runExecutions runId).map (·.taskId) :=
  ((filed_of_reachable hkeyed h).2.taskIds runId).trans
    ((filed_of_reachable hkeyed h').2.taskIds runId).symm

/-- A task of the run has a row whenever the run is read. -/
theorem exists_row (hkeyed : store.Keyed)
    (h : Threads.Reachable PlatformStore.handle (StoreWorkers.initial registry attempts store) v)
    (h' : Threads.Reachable PlatformStore.handle (StoreWorkers.initial registry attempts store) v')
    (hrow' : row' ∈ v'.shared.runExecutions runId) :
    ∃ row ∈ v.shared.runExecutions runId, row.taskId = row'.taskId := by
  have hmem := List.mem_map_of_mem (f := (·.taskId)) hrow'
  rw [taskIds_eq hkeyed runId h' h] at hmem
  exact List.mem_map.mp hmem

/-- A task has one execution in the run, whenever the run is read. -/
theorem id_eq_of_taskId (hkeyed : store.Keyed) (honce : OncePerTask (store.runExecutions runId))
    (h : Threads.Reachable PlatformStore.handle (StoreWorkers.initial registry attempts store) v)
    (h' : Threads.Reachable PlatformStore.handle (StoreWorkers.initial registry attempts store) v')
    (hrow : row ∈ v.shared.runExecutions runId) (hrow' : row' ∈ v'.shared.runExecutions runId)
    (htask : row.taskId = row'.taskId) : row.id = row'.id := by
  obtain ⟨original, horiginal, hsame⟩ := (filed_of_reachable hkeyed h).2.exists_initial hrow
  obtain ⟨original', horiginal', hsame'⟩ := (filed_of_reachable hkeyed h').2.exists_initial hrow'
  simp only [TaskExecution.filing, Prod.mk.injEq] at hsame hsame'
  have heq : original = original' := List.inj_on_of_nodup_map honce horiginal horiginal'
    (hsame.2.2.trans (htask.trans hsame'.2.2.symm))
  rw [← hsame.1, ← hsame'.1, heq]

/-- A row that stays as it is, is the row of its task later on. -/
theorem eq_of_settled (hkeyed : store.Keyed) (honce : OncePerTask (store.runExecutions runId))
    (h : Threads.Reachable PlatformStore.handle (StoreWorkers.initial registry attempts store) v)
    (h' : Threads.Reachable PlatformStore.handle (StoreWorkers.initial registry attempts store) v')
    (hrow : row ∈ v.shared.runExecutions runId) (hrow' : row' ∈ v'.shared.runExecutions runId)
    (htask : row.taskId = row'.taskId) (hsettled : v'.shared.getExecution row.id = .ok row) :
    row = row' := by
  have hget := (filed_of_reachable hkeyed h').1.getExecution_of_runExecutions hrow'
  rw [← id_eq_of_taskId hkeyed honce h h' hrow hrow' htask, hsettled] at hget
  exact Except.ok.inj hget

/-- Once all of a run is decided, what is read of it is. -/
theorem passed_ne_none_of_decided (hkeyed : store.Keyed)
    (honce : OncePerTask (store.runExecutions runId)) (hunrun : store.Unrun runId)
    (h : Threads.Reachable PlatformStore.handle (StoreWorkers.initial registry attempts store) v)
    (hdecided : ∀ execution ∈ v.shared.runExecutions runId, execution.passed ≠ none)
    (hlater : Threads.Reachable PlatformStore.handle v v')
    (hrow' : row' ∈ v'.shared.runExecutions runId) : row'.passed ≠ none := by
  obtain ⟨row, hrow, htask⟩ := exists_row hkeyed h (h.trans hlater) hrow'
  have hstays := (passed_eq_none_or_settled hkeyed hunrun h hrow).resolve_left (hdecided row hrow)
  have hsame := eq_of_settled hkeyed honce h (h.trans hlater) hrow hrow' htask (hstays v' hlater).1
  exact hsame ▸ hdecided row hrow

end

/-! ## What is reported of a pair -/

/-- A program of reads, the workers writing meanwhile. -/
abbrev Meanwhile {α : Type} (p : ReadProg α) (v v' : StoreWorkers ι) (r : Except PyError α) :
    Prop :=
  Amid (Threads.Reachable PlatformStore.handle)
    (fun c (v : StoreWorkers ι) => PlatformStore.read c v.shared) p v v' r

omit [Interpreter] in
/-- It ends later than it began. -/
theorem Meanwhile.later {α : Type} {p : ReadProg α} {r : Except PyError α}
    (h : Meanwhile p v v' r) : Threads.Reachable PlatformStore.handle v v' :=
  Amid.moves_of (fun _ => .refl) (fun h h' => h.trans h') h

/-- What is reported before the end: the final report, or of the same pair that it is undecided. -/
def PairedTaskComparison.Anticipates (item final : PairedTaskComparison) : Prop :=
  item = final ∨ (item.disposition = .indeterminate ∧ item.attribution = none ∧
    item.taskId = final.taskId ∧ item.baselineExecutionId = final.baselineExecutionId ∧
    item.candidateExecutionId = final.candidateExecutionId)

omit [Interpreter] [DecidableEq ι] in
/-- The outcome of a pair of which one is undecided. -/
theorem disposition_of_none {baseline candidate : Option Bool}
    (h : baseline = none ∨ candidate = none) : disposition baseline candidate = .indeterminate := by
  rcases h with rfl | rfl
  · rfl
  · rcases baseline with _ | _ | _ <;> rfl

omit [Interpreter] in
/-- **The attribution of a pair**, of two traces that stay. -/
theorem attributePair_meanwhile {taskId : String} {left right : TaskExecution}
    {baselineEvents candidateEvents : List TraceEvent}
    {r : Except PyError (Option TraceAttribution)}
    (htraces : disposition left.passed right.passed = .regression → ∀ u,
      Threads.Reachable PlatformStore.handle v u →
        u.shared.getTrace left.id = .ok baselineEvents ∧
          u.shared.getTrace right.id = .ok candidateEvents)
    (h : Meanwhile (attributePairReads taskId left right) v v' r) :
    r = .ok (if disposition left.passed right.passed = .regression then
      firstDivergence taskId left right baselineEvents candidateEvents else none) := by
  rw [attributePairReads] at h
  split at h
  · rename_i hregression
    obtain ⟨v₁, hv₁, h⟩ := h.perform_bind (a := fun _ => baselineEvents)
      fun u hu => (htraces hregression u hu).1
    obtain ⟨v₂, -, h⟩ := h.perform_bind (a := fun _ => candidateEvents)
      fun u hu => (htraces hregression u (hv₁.trans hu)).2
    rw [if_pos hregression]
    cases h with
    | done => rfl
  · rename_i hnot
    rw [if_neg hnot]
    cases h with
    | done => rfl

section

variable {baselineRunId candidateRunId : UUID} {v₁ v₂ u : StoreWorkers ι}
  {left right left' right' : TaskExecution} {taskId : String}
  (hkeyed : store.Keyed)
  (hbaseline : store.Unrun baselineRunId) (hcandidate : store.Unrun candidateRunId)
  (h₁ : Threads.Reachable PlatformStore.handle (StoreWorkers.initial registry attempts store) v₁)
  (h₂ : Threads.Reachable PlatformStore.handle v₁ v₂)
  (hleft : left ∈ v₁.shared.runExecutions baselineRunId)
  (hright : right ∈ v₂.shared.runExecutions candidateRunId)
include hkeyed hbaseline hcandidate h₁ h₂ hleft hright

/-- **The report of a pair** is that of the two rows that were read, with the traces of the end. -/
theorem comparePair_meanwhile {r : Except PyError PairedTaskComparison}
    (h₃ : Threads.Reachable PlatformStore.handle v₂ v)
    (hu : Threads.Reachable PlatformStore.handle v' u)
    (h : Meanwhile (do
      let attribution ← attributePairReads taskId left right
      return pairReport taskId left right attribution) v v' r) :
    r = .ok (u.shared.report taskId left right) := by
  have hvv' := h.later
  have hsettled := passed_eq_none_or_settled hkeyed hbaseline h₁ hleft
  have hsettled' := passed_eq_none_or_settled hkeyed hcandidate (h₁.trans h₂) hright
  have htraces : disposition left.passed right.passed = .regression → ∀ w,
      Threads.Reachable PlatformStore.handle v w →
        w.shared.getTrace left.id = .ok (u.shared.events left.id) ∧
          w.shared.getTrace right.id = .ok (u.shared.events right.id) := by
    intro hregression w hw
    obtain ⟨hpassed, hpassed'⟩ := disposition_eq_regression hregression
    have hstays := hsettled.resolve_left (by simp [hpassed])
    have hstays' := hsettled'.resolve_left (by simp [hpassed'])
    obtain ⟨hget, hevents⟩ := hstays w (h₂.trans (h₃.trans hw))
    obtain ⟨hget', hevents'⟩ := hstays' w (h₃.trans hw)
    obtain ⟨-, hend⟩ := hstays u (h₂.trans (h₃.trans (hvv'.trans hu)))
    obtain ⟨-, hend'⟩ := hstays' u (h₃.trans (hvv'.trans hu))
    simp only [PlatformStore.getTrace, hget, hget', hevents, hevents', hend, hend']
    exact ⟨rfl, rfl⟩
  rcases h.bind with ⟨attribution, w, hattribution, hreturn⟩ | ⟨e, herror, -⟩
  · have heq := Except.ok.inj (attributePair_meanwhile htraces hattribution)
    cases hreturn with
    | done => rw [heq]; rfl
  · exact absurd (attributePair_meanwhile htraces herror) (by simp)

section

variable (honce : OncePerTask (store.runExecutions baselineRunId))
  (honce' : OncePerTask (store.runExecutions candidateRunId))
  (hu : Threads.Reachable PlatformStore.handle v₂ u)
  (hleft' : left' ∈ u.shared.runExecutions baselineRunId)
  (hright' : right' ∈ u.shared.runExecutions candidateRunId)
  (htask : left.taskId = left'.taskId) (htask' : right.taskId = right'.taskId)
include honce honce' hu hleft' hright' htask htask'

/-- A pair that is decided is reported as it is at the end. -/
theorem report_eq_of_decided (hpassed : left.passed ≠ none) (hpassed' : right.passed ≠ none) :
    u.shared.report taskId left right = u.shared.report taskId left' right' := by
  have h₂' := h₁.trans h₂
  have hend := h₂'.trans hu
  have hstays := (passed_eq_none_or_settled hkeyed hbaseline h₁ hleft).resolve_left hpassed
  have hstays' := (passed_eq_none_or_settled hkeyed hcandidate h₂' hright).resolve_left hpassed'
  rw [eq_of_settled hkeyed honce h₁ hend hleft hleft' htask (hstays u (h₂.trans hu)).1,
    eq_of_settled hkeyed honce' h₂' hend hright hright' htask' (hstays' u hu).1]

/-- **It anticipates what is reported at the end.** -/
theorem report_anticipates :
    (u.shared.report taskId left right).Anticipates (u.shared.report taskId left' right') := by
  have h₂' := h₁.trans h₂
  have hend := h₂'.trans hu
  by_cases hundecided : left.passed = none ∨ right.passed = none
  · have hdisposition := disposition_of_none hundecided
    refine .inr ⟨hdisposition, ?_, rfl,
      id_eq_of_taskId hkeyed honce h₁ hend hleft hleft' htask,
      id_eq_of_taskId hkeyed honce' h₂' hend hright hright' htask'⟩
    rw [PlatformStore.report, hdisposition, if_neg (by simp)]
  · obtain ⟨hpassed, hpassed'⟩ := not_or.mp hundecided
    exact .inl (report_eq_of_decided hkeyed hbaseline hcandidate h₁ h₂ hleft hright honce honce' hu
      hleft' hright' htask htask' hpassed hpassed')

end

end

/-! ## The comparison -/

omit [Interpreter] [DecidableEq ι] in
/-- What is decided early is decided so at the end. -/
theorem countP_le_of_anticipates {decided : RegressionDisposition} (hne : decided ≠ .indeterminate)
    {items finals : List PairedTaskComparison}
    (h : List.Forall₂ PairedTaskComparison.Anticipates items finals) :
    (items.countP fun item => item.disposition = decided) ≤
      finals.countP fun item => item.disposition = decided := by
  induction h with
  | nil => exact le_rfl
  | @cons item final items finals hitem _ ih =>
    rw [List.countP_cons, List.countP_cons]
    have hle : (if item.disposition = decided then 1 else 0) ≤
        if final.disposition = decided then 1 else 0 := by
      rcases hitem with rfl | ⟨hundecided, -⟩
      · exact le_rfl
      · rw [hundecided, if_neg hne.symm]
        exact Nat.zero_le _
    simpa using Nat.add_le_add ih hle

section

variable {baselineRunId candidateRunId : UUID} {u : StoreWorkers ι}

/-- The runs stay comparable. -/
theorem comparable_of_reachable (hkeyed : store.Keyed)
    (hcomparable : store.Comparable baselineRunId candidateRunId)
    (h : Threads.Reachable PlatformStore.handle (StoreWorkers.initial registry attempts store) v) :
    v.shared.Comparable baselineRunId candidateRunId :=
  (filed_of_reachable hkeyed h).2.comparable hcomparable

variable {v₁ v₂ : StoreWorkers ι}

/-- What is reported of a task early: the rows that were read of it, with the traces of the end. -/
def ReportsEarly (baselineRunId candidateRunId : UUID) (v₁ v₂ u : StoreWorkers ι) (taskId : String)
    (item : PairedTaskComparison) : Prop :=
  ∃ left right, (left ∈ v₁.shared.runExecutions baselineRunId ∧ left.taskId = taskId) ∧
    (right ∈ v₂.shared.runExecutions candidateRunId ∧ right.taskId = taskId) ∧
    item = u.shared.report taskId left right

/-- **A shared task is reported**, whenever its traces are read. -/
theorem compareTask_meanwhile (hkeyed : store.Keyed)
    (hcomparable : store.Comparable baselineRunId candidateRunId)
    (hbaseline : store.Unrun baselineRunId) (hcandidate : store.Unrun candidateRunId)
    (h₁ : Threads.Reachable PlatformStore.handle (StoreWorkers.initial registry attempts store) v₁)
    (h₂ : Threads.Reachable PlatformStore.handle v₁ v₂)
    (h₃ : Threads.Reachable PlatformStore.handle v₂ v)
    (hu : Threads.Reachable PlatformStore.handle v' u)
    {taskId : String} (hshares : u.shared.Shares baselineRunId candidateRunId taskId)
    {r : Except PyError PairedTaskComparison}
    (h : Meanwhile (compareTaskReads (filedByTask (v₁.shared.runExecutions baselineRunId))
      (filedByTask (v₂.shared.runExecutions candidateRunId)) taskId) v v' r) :
    ∃ item, r = .ok item ∧ ReportsEarly baselineRunId candidateRunId v₁ v₂ u taskId item := by
  have hvv' := h.later
  have h₂' := h₁.trans h₂
  have hend := h₂'.trans (h₃.trans (hvv'.trans hu))
  obtain ⟨⟨left', hleft', htask⟩, right', hright', htask'⟩ := hshares
  obtain ⟨left, hleft, heq⟩ := exists_row hkeyed h₁ hend hleft'
  obtain ⟨right, hright, heq'⟩ := exists_row hkeyed h₂' hend hright'
  have hleft := And.intro hleft (heq.trans htask)
  have hright := And.intro hright (heq'.trans htask')
  have honce := (comparable_of_reachable hkeyed hcomparable h₁).baseline_once
  have honce' := (comparable_of_reachable hkeyed hcomparable h₂').candidate_once
  rw [compareTaskReads, (get?_filedByTask_iff honce).mpr hleft,
    (get?_filedByTask_iff honce').mpr hright] at h
  exact ⟨_, comparePair_meanwhile hkeyed hbaseline hcandidate h₁ h₂ hleft.1 hright.1 h₃ hu h,
    left, right, hleft, hright, rfl⟩

/-- **Shared tasks are reported**, one after the other, each from the rows that were read. -/
theorem compareTasks_meanwhile (hkeyed : store.Keyed)
    (hcomparable : store.Comparable baselineRunId candidateRunId)
    (hbaseline : store.Unrun baselineRunId) (hcandidate : store.Unrun candidateRunId)
    (h₁ : Threads.Reachable PlatformStore.handle (StoreWorkers.initial registry attempts store) v₁)
    (h₂ : Threads.Reachable PlatformStore.handle v₁ v₂)
    (hu : Threads.Reachable PlatformStore.handle v' u) {taskIds : List String}
    (hshares : ∀ taskId ∈ taskIds, u.shared.Shares baselineRunId candidateRunId taskId)
    {r : Except PyError (List PairedTaskComparison)}
    (h : Meanwhile (taskIds.mapM (compareTaskReads
      (filedByTask (v₁.shared.runExecutions baselineRunId))
      (filedByTask (v₂.shared.runExecutions candidateRunId)))) v₂ v' r) :
    ∃ results, r = .ok results ∧
      List.Forall₂ (ReportsEarly baselineRunId candidateRunId v₁ v₂ u) taskIds results :=
  Amid.mapM (fun _ => .refl) (fun h h' => h.trans h')
    (fun taskId hmem _ _ _ hs hs' hread => compareTask_meanwhile hkeyed hcomparable hbaseline
      hcandidate h₁ h₂ hs hs' (hshares taskId hmem) hread) .refl hu h

/-- **The comparison lists its tasks**, each of the rows of it that were read. -/
theorem exists_results_meanwhile (hkeyed : store.Keyed)
    (hcomparable : store.Comparable baselineRunId candidateRunId)
    (hbaseline : store.Unrun baselineRunId) (hcandidate : store.Unrun candidateRunId)
    (h : Threads.Reachable PlatformStore.handle (StoreWorkers.initial registry attempts store) v)
    {r : Except PyError RunComparison}
    (hcompared : Meanwhile (compareRunsReads baselineRunId candidateRunId) v v' r)
    (hlater : Threads.Reachable PlatformStore.handle v' u) :
    ∃ v₁ v₂ results, Threads.Reachable PlatformStore.handle v v₁ ∧
      Threads.Reachable PlatformStore.handle v₁ v₂ ∧ Threads.Reachable PlatformStore.handle v₂ u ∧
      r = .ok (comparisonOf baselineRunId candidateRunId results) ∧
      List.Forall₂ (ReportsEarly baselineRunId candidateRunId v₁ v₂ u)
        (sharedTaskIds (filedByTask (u.shared.runExecutions baselineRunId))
          (filedByTask (u.shared.runExecutions candidateRunId))) results := by
  have hvv' := hcompared.later
  have hend := h.trans (hvv'.trans hlater)
  have hfiled : ∀ {executions : List TaskExecution}, OncePerTask executions →
      byTask executions [] = .ok (filedByTask executions) := fun honce =>
    byTask_eq_ok_iff.mpr ⟨honce, fun _ _ => rfl, rfl⟩
  -- the executions of the baseline, then those of the candidate
  rw [compareRunsReads] at hcompared
  obtain ⟨v₁, hv₁, hcompared⟩ := hcompared.perform_bind
    (a := fun w => w.shared.runExecutions baselineRunId)
    fun w hw => if_pos (comparable_of_reachable hkeyed hcomparable (h.trans hw)).baseline_exists
  have h₁ := h.trans hv₁
  rw [hfiled (comparable_of_reachable hkeyed hcomparable h₁).baseline_once,
    Prog.lift_ok_bind] at hcompared
  obtain ⟨v₂, h₂, hcompared⟩ := hcompared.perform_bind
    (a := fun w => w.shared.runExecutions candidateRunId)
    fun w hw => if_pos (comparable_of_reachable hkeyed hcomparable (h₁.trans hw)).candidate_exists
  have h₂' := h₁.trans h₂
  rw [hfiled (comparable_of_reachable hkeyed hcomparable h₂').candidate_once,
    Prog.lift_ok_bind] at hcompared
  have h₂u := (Meanwhile.later hcompared).trans hlater
  have hshared := sharedTaskIds_congr (taskIds_eq hkeyed baselineRunId h₁ hend)
    (taskIds_eq hkeyed candidateRunId h₂' hend)
  rw [hshared] at hcompared
  split at hcompared
  · rename_i hnil
    obtain ⟨first, hfirst⟩ := (comparable_of_reachable hkeyed hcomparable hend).shares
    exact absurd (mem_sharedTaskIds_iff.mpr hfirst) (by simp [hnil])
  -- the traces, task by task
  rcases hcompared.bind with ⟨results, w, hloop, hreturn⟩ | ⟨e, hloop, -⟩
  · cases hreturn with
    | done =>
      obtain ⟨results', heq, hresults⟩ := compareTasks_meanwhile hkeyed hcomparable hbaseline
        hcandidate h₁ h₂ hlater (fun _ => mem_sharedTaskIds_iff.mp) hloop
      obtain rfl := Except.ok.inj heq
      exact ⟨v₁, v₂, results, hv₁, h₂, h₂u, rfl, hresults⟩
  · obtain ⟨results', heq, -⟩ := compareTasks_meanwhile hkeyed hcomparable hbaseline
      hcandidate h₁ h₂ hlater (fun _ => mem_sharedTaskIds_iff.mp) hloop
    cases heq

/-- **A comparison that is read while workers write takes nothing back.**  Two runs are compared
before, while and after workers run their executions, each read seeing the store as it is by then.
The comparison succeeds, and lists the tasks that are listed at the end; each is reported as it is
at the end, or as undecided, so no regression and no improvement is ever withdrawn.  If all was
decided when it began, it is the comparison at the end. -/
theorem compareRuns_meanwhile (hkeyed : store.Keyed)
    (hcomparable : store.Comparable baselineRunId candidateRunId)
    (hbaseline : store.Unrun baselineRunId) (hcandidate : store.Unrun candidateRunId)
    (h : Threads.Reachable PlatformStore.handle (StoreWorkers.initial registry attempts store) v)
    {r : Except PyError RunComparison}
    (hcompared : Meanwhile (compareRunsReads baselineRunId candidateRunId) v v' r)
    (hlater : Threads.Reachable PlatformStore.handle v' u) :
    ∃ comparison final, r = .ok comparison ∧
      compareRuns u.shared baselineRunId candidateRunId = .ok final ∧
      List.Forall₂ PairedTaskComparison.Anticipates comparison.results final.results ∧
      comparison.comparedTasks = final.comparedTasks ∧
      comparison.regressions ≤ final.regressions ∧
      comparison.improvements ≤ final.improvements ∧
      ((∀ runId, runId = baselineRunId ∨ runId = candidateRunId →
        ∀ execution ∈ v.shared.runExecutions runId, execution.passed ≠ none) →
          comparison.results = final.results) := by
  obtain ⟨v₁, v₂, results, hv₁, h₂, h₂u, rfl, hresults⟩ :=
    exists_results_meanwhile hkeyed hcomparable hbaseline hcandidate h hcompared hlater
  have h₁ := h.trans hv₁
  have hend := h₁.trans (h₂.trans h₂u)
  have hkeyed' := (filed_of_reachable hkeyed hend).1
  obtain ⟨final, hfinal⟩ :=
    (comparable_of_reachable hkeyed hcomparable hend).exists_comparison hkeyed'
  obtain ⟨-, hreports, hlength, hregressions, himprovements⟩ := compareRuns_eq_ok hkeyed' hfinal
  have hanticipates : List.Forall₂ PairedTaskComparison.Anticipates results final.results := by
    refine forall₂_of_common (fun taskId item item' hitem hitem' => ?_) hresults hreports
    obtain ⟨left, right, hleft, hright, rfl⟩ := hitem
    obtain ⟨left', right', hleft', hright', rfl⟩ := hitem'
    exact report_anticipates hkeyed hbaseline hcandidate h₁ h₂ hleft.1 hright.1
      hcomparable.baseline_once hcomparable.candidate_once h₂u hleft'.1 hright'.1
      (hleft.2.trans hleft'.2.symm) (hright.2.trans hright'.2.symm)
  refine ⟨_, final, rfl, hfinal, hanticipates, ?_, ?_, ?_, fun hdecided => ?_⟩
  · exact hanticipates.length_eq.trans hlength.symm
  · exact (countP_le_of_anticipates (by decide) hanticipates).trans_eq hregressions.symm
  · exact (countP_le_of_anticipates (by decide) hanticipates).trans_eq himprovements.symm
  · refine List.forall₂_eq_eq_eq ▸ forall₂_of_common (fun taskId item item' hitem hitem' => ?_)
      hresults hreports
    obtain ⟨left, right, hleft, hright, rfl⟩ := hitem
    obtain ⟨left', right', hleft', hright', rfl⟩ := hitem'
    exact report_eq_of_decided hkeyed hbaseline hcandidate h₁ h₂ hleft.1 hright.1
      hcomparable.baseline_once hcomparable.candidate_once h₂u hleft'.1 hright'.1
      (hleft.2.trans hleft'.2.symm) (hright.2.trans hright'.2.symm)
      (passed_ne_none_of_decided hkeyed hcomparable.baseline_once hbaseline h
        (hdecided _ (.inl rfl)) hv₁ hleft.1)
      (passed_ne_none_of_decided hkeyed hcomparable.candidate_once hcandidate h
        (hdecided _ (.inr rfl)) (hv₁.trans h₂) hright.1)

end

omit [Interpreter] [DecidableEq ι] in
/-- Both runs are carried out between the first read and the second: the candidate is found to have
failed, and the baseline not to have ended.  Later it is a regression. -/
theorem compareRuns_meanwhile_idle :
    let _ := cpython
    ∃ early final : RunComparison, early.regressions = 0 ∧
      early.results.map (·.candidatePassed) = [some false] ∧ final.regressions = 1 ∧
      compareRuns (storeOfPair customerRefundWithinPolicy idleScripts) "run 1" "run 2" = .ok final ∧
      List.Forall₂ PairedTaskComparison.Anticipates early.results final.results := by
  intro _
  obtain ⟨u, hreach, hshared⟩ := reachable_storeOfPair customerRefundWithinPolicy idleScripts
  have hcomparable : pairedStore.Comparable "run 1" "run 2" :=
    ⟨by decide, by decide, by unfold OncePerTask; decide, by unfold OncePerTask; decide,
      customerRefundWithinPolicy.taskId, ⟨_, .head _, rfl⟩, ⟨_, .head _, rfl⟩⟩
  have hunrun : ∀ runId, pairedStore.Unrun runId := by
    intro runId execution hmem
    have hall : ∀ entry ∈ pairedStore.executions,
        entry.2.passed = none ∧ pairedStore.events entry.2.id = [] := by decide
    obtain ⟨entry, hentry, rfl⟩ := List.mem_map.mp (List.mem_filter.mp hmem).1
    exact hall entry hentry
  have hmeanwhile : ∃ v', (v' = _ ∨ v' = u) ∧ Meanwhile (compareRunsReads "run 1" "run 2") _ v'
      (answeredTwice (fun c => pairedStore.read c) (fun c => u.shared.read c) 1
        (compareRunsReads "run 1" "run 2")) :=
    Amid.exists_of_answeredTwice (fun _ => .refl) hreach 1 _
  obtain ⟨v', hv', hread⟩ := hmeanwhile
  have hlater : Threads.Reachable PlatformStore.handle v' u := by
    rcases hv' with rfl | rfl
    · exact hreach
    · exact .refl
  obtain ⟨early, final, hearly, hfinal, hanticipates, -⟩ := compareRuns_meanwhile
    ⟨by decide, by decide⟩ hcomparable (hunrun _) (hunrun _) .refl hread hlater
  rw [hshared] at hearly hfinal
  have hearly' : ∃ early, answeredTwice (fun c => pairedStore.read c)
      (fun c => (storeOfPair customerRefundWithinPolicy idleScripts).read c) 1
      (compareRunsReads "run 1" "run 2") = .ok early ∧ early.regressions = 0 ∧
        early.results.map (·.candidatePassed) = [some false] := by
    decide +kernel
  have hfinal' : ∃ final, compareRuns (storeOfPair customerRefundWithinPolicy idleScripts) "run 1"
      "run 2" = .ok final ∧ final.regressions = 1 := by
    decide +kernel
  obtain ⟨early', heq, hzero, hfailed⟩ := hearly'
  obtain ⟨final', heq', hone⟩ := hfinal'
  obtain rfl := Except.ok.inj (heq.symm.trans hearly)
  obtain rfl := Except.ok.inj (heq'.symm.trans hfinal)
  exact ⟨early', final', hzero, hfailed, hone, hfinal, hanticipates⟩

end AgentProof
