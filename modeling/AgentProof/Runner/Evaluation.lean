import AgentProof.Platform.Join
import AgentProof.Runner.Attribution
import AgentProof.Runner.Evidence

/-!
# Runner/Evaluation — an evaluation does not depend on its schedule

The jobs of an evaluation are claimed by whichever worker comes first, in whatever order, and tried
again when they fail.  An execution is settled by the first attempt whose run comes to its end
(`Decides`), and holds what that attempt leaves of the store the evaluation began with
(`decided_of_execution`).

So two evaluations that deliver the attempts of their jobs alike leave the same records and traces,
and `compare_runs` reports the same of them, whoever processed what when
(`compareRuns_schedule_independent`).
-/

open Machinery Machinery.Prog

namespace AgentProof

variable [Interpreter]

/-! ## The attempt that decides -/

/-- **The attempt that decides a job**: the first whose run comes to its end. -/
structure Decides (queue : Queue) (deliver : EvaluationJob → Delivery) (job : EvaluationJob)
    (task : BenchmarkTask) (version : AgentVersion) (attempt : EvaluationJob) : Prop where
  isAttempt : job.IsAttempt queue attempt
  completes : (deliver attempt).Completes version task
  first : ∀ earlier : EvaluationJob, earlier.key = job.key → earlier.attempt < attempt.attempt →
    ¬ (deliver earlier).Completes version task

section

variable {ι : Type} [DecidableEq ι] {queue : Queue} {registry : Dict String BenchmarkTask}
  {deliver : EvaluationJob → Delivery} {job attempt : EvaluationJob} {task : BenchmarkTask}
  {version : AgentVersion} {execution : TaskExecution} {initial store store' : PlatformStore}
  {consumer : ι → Consumer} {pool pool' : Pool ι}

/-- It is the only one. -/
theorem Decides.unique (h : Decides queue deliver job task version attempt)
    {attempt' : EvaluationJob} (h' : Decides queue deliver job task version attempt') :
    attempt = attempt' := by
  refine EvaluationJob.ext_key (h.isAttempt.key.trans h'.isAttempt.key.symm) ?_
  by_contra hne
  rcases Nat.lt_or_gt_of_ne hne with hlt | hlt
  · exact h'.first attempt h.isAttempt.key hlt h.completes
  · exact h.first attempt' h'.isAttempt.key hlt h'.completes

omit [Interpreter] in
theorem PlatformStore.SameView.symm {executionId : UUID}
    (h : PlatformStore.SameView executionId store store') :
    PlatformStore.SameView executionId store' store :=
  ⟨h.versions.symm, h.execution.symm, h.events.symm⟩

/-- An attempt does the same of an execution to stores that hold the same of it. -/
theorem sameView_processCommand (hid : attempt.executionId = job.executionId)
    (h : PlatformStore.SameView job.executionId store store') :
    PlatformStore.SameView job.executionId
      (processCommand registry deliver (.process attempt) store).2
      (processCommand registry deliver (.process attempt) store').2 := by
  have honly := Attempt.concerns registry
    ⟨(deliver attempt).host, attempt, (deliver attempt).modelClient, none⟩
  rw [hid] at honly
  exact ((PlatformStore.frame job.executionId).exec honly (deliver attempt).oracle h).2

/-- **Step lemma**: what settles an execution is the attempt that decides. -/
theorem Unsettled.decides (h : Unsettled queue deliver job task version execution pool store)
    (hfresh : FreshJob registry initial job task version execution)
    (hversions : store.agentVersions = initial.agentVersions)
    (hfault : ∀ attempt n, ((deliver attempt).oracle n).fault = none) {move : WorkerMove ι}
    (hstep : Pool.StoreStep registry deliver queue consumer move (pool, store) (pool', store'))
    (hsettled : Settled queue deliver job task version execution store') :
    ∃ attempt, Decides queue deliver job task version attempt ∧
      store' = (processCommand registry deliver (.process attempt) store).2 := by
  have hchanged : store'.events job.executionId ≠ store.events job.executionId := by
    intro heq
    obtain ⟨event, hmem, -⟩ := hsettled.taken
    rw [heq, h.empty] at hmem
    cases hmem
  cases hstep with
  | idle => exact absurd rfl hchanged
  | @issue _ _ i phase world hphase =>
    have hconsistent := h.phase i
    cases hi : pool.phase i with
    | processing id attempt =>
      rw [hi] at hconsistent hchanged
      by_cases hid : attempt.executionId = job.executionId
      · obtain ⟨hattempt, hfirst⟩ := hconsistent hid
        refine ⟨attempt, ⟨hattempt, ?_, hfirst⟩, rfl⟩
        by_contra hraises
        have hraised : ∃ e, processCommand registry deliver (.process attempt) store =
            (.error e, store) :=
          processCommand_of_not_completes hfresh hversions hattempt (hfault attempt) hraises
        obtain ⟨e, he⟩ := hraised
        exact hchanged (congrArg (fun p => p.2.events job.executionId) he)
      · exact absurd (@processCommand_of_ne _ registry deliver job attempt hid store).2 hchanged
    | _ =>
      rw [hi] at hchanged
      exact absurd rfl hchanged

/-- The execution holds what the attempt that decides leaves of the initial store. -/
def Decided (queue : Queue) (registry : Dict String BenchmarkTask)
    (deliver : EvaluationJob → Delivery) (job : EvaluationJob) (task : BenchmarkTask)
    (version : AgentVersion) (initial store : PlatformStore) : Prop :=
  ∃ attempt, Decides queue deliver job task version attempt ∧
    PlatformStore.SameView job.executionId store
      (processCommand registry deliver (.process attempt) initial).2

/-- The deciding attempt settles the initial store. -/
theorem Decides.settled (h : Decides queue deliver job task version attempt)
    (hfresh : FreshJob registry initial job task version execution)
    (hfault : ∀ attempt n, ((deliver attempt).oracle n).fault = none) :
    Settled queue deliver job task version execution
      (processCommand registry deliver (.process attempt) initial).2 :=
  (processCommand_of_completes hfresh rfl h.isAttempt (hfault attempt) h.completes hfresh.created
    hfresh.empty).2

/-- A decided execution stays so, whatever is processed. -/
theorem Decided.processCommand
    (h : Decided queue registry deliver job task version initial store)
    (hfresh : FreshJob registry initial job task version execution)
    (hfault : ∀ attempt n, ((deliver attempt).oracle n).fault = none) (c : QueueCommand) :
    Decided queue registry deliver job task version initial
      (AgentProof.processCommand registry deliver c store).2 := by
  obtain ⟨attempt, hdecides, hview⟩ := h
  refine ⟨attempt, hdecides, ?_⟩
  have htaken : store.Taken job.executionId := by
    rw [PlatformStore.Taken, hview.events]
    exact (hdecides.settled hfresh hfault).taken
  cases c with
  | process other =>
    by_cases hid : other.executionId = job.executionId
    · have hsame : (AgentProof.processCommand registry deliver (.process other) store).2 = store :=
        Attempt.exec_of_taken
          (a := ⟨(deliver other).host, other, (deliver other).modelClient, none⟩) hid
          (hfault other) htaken
      rw [hsame]
      exact hview
    · obtain ⟨hexecution, hevents⟩ := @processCommand_of_ne _ registry deliver job other hid store
      exact ⟨(processCommand_agentVersions (.process other) store).trans hview.versions,
        hexecution.trans hview.execution, hevents.trans hview.events⟩
  | _ => exact hview

/-- **Run lemma**: in every run the execution is decided or not yet settled. -/
theorem decided_or_unsettled (hfresh : FreshJob registry initial job task version execution)
    (hfault : ∀ attempt n, ((deliver attempt).oracle n).fault = none)
    {moves : List (WorkerMove ι)}
    (hmoves : ∀ added, .enqueue added ∈ moves → added.executionId = job.executionId → added = job)
    (hrun : Execution (Pool.StoreStep registry deliver queue consumer) (Pool.initial {}, initial)
      moves (pool, store)) :
    Decided queue registry deliver job task version initial store ∨
      Unsettled queue deliver job task version execution pool store := by
  have hstart : Unsettled queue deliver job task version execution (Pool.initial {} : Pool ι)
      initial := by
    have hnil : Execution (Pool.StoreStep registry deliver queue consumer)
        (Pool.initial {}, initial) [] (Pool.initial {}, initial) := .nil _
    rcases (settled_or_unsettled hfresh hfault (by simp) hnil).2 with hsettled | hunsettled
    · obtain ⟨event, hmem, -⟩ := hsettled.taken
      rw [hfresh.empty] at hmem
      cases hmem
    · exact hunsettled
  suffices h : Execution (Pool.StoreStep registry deliver queue consumer) (Pool.initial {}, initial)
      moves (pool, store) ∧ (Decided queue registry deliver job task version initial store ∨
        Unsettled queue deliver job task version execution pool store) from h.2
  refine hrun.invariant (P := fun moves (p : Pool ι × PlatformStore) =>
    (∀ added, .enqueue added ∈ moves → added.executionId = job.executionId → added = job) →
      Execution (Pool.StoreStep registry deliver queue consumer) (Pool.initial {}, initial) moves p ∧
        (Decided queue registry deliver job task version initial p.2 ∨
          Unsettled queue deliver job task version execution p.1 p.2))
    (fun _ => ⟨.nil _, .inr hstart⟩) ?_ hmoves
  rintro moves move ⟨pool, store⟩ ⟨pool', store'⟩ ih hstep hmoves
  obtain ⟨hbefore, hstate⟩ := ih fun added hmem => hmoves added (List.mem_append_left _ hmem)
  have hversions := (settled_or_unsettled hfresh hfault
    (fun added hmem => hmoves added (List.mem_append_left _ hmem)) hbefore).1
  refine ⟨hbefore.snoc hstep, ?_⟩
  rcases hstate with hdecided | hunsettled
  · left
    cases hstep with
    | idle => exact hdecided
    | @issue _ _ i =>
      obtain ⟨c, hc⟩ := @Phase.exists_processCommand _ registry deliver (pool.phase i) store
      rw [hc]
      exact hdecided.processCommand hfresh hfault c
  · refine (settled_or_unsettled hfresh hfault hmoves (hbefore.snoc hstep)).2.imp_left ?_
    intro hsettled
    obtain ⟨attempt, hdecides, rfl⟩ :=
      hunsettled.decides hfresh hversions hfault hstep hsettled
    have hview : PlatformStore.SameView job.executionId store initial :=
      ⟨hversions, hunsettled.created.trans hfresh.created.symm,
        hunsettled.empty.trans hfresh.empty.symm⟩
    exact ⟨attempt, hdecides, sameView_processCommand hdecides.isAttempt.eqs.1 hview⟩

/-- **What an execution holds in the end**: what the attempt that decides leaves of the initial
store, or what the initial store holds, if no attempt decides. -/
theorem decided_of_execution (hfresh : FreshJob registry initial job task version execution)
    (hfault : ∀ attempt n, ((deliver attempt).oracle n).fault = none)
    {moves : List (WorkerMove ι)}
    (hmoves : ∀ added, .enqueue added ∈ moves → added.executionId = job.executionId → added = job)
    {t : Deployment ι}
    (hrun : Execution (DeploymentStep registry deliver queue consumer)
      (Deployment.initial queue consumer initial) moves t)
    (hended : t.shared.1.Ended job) :
    Decided queue registry deliver job task version initial t.shared.2 ∨
      (∀ attempt, job.IsAttempt queue attempt → ¬ (deliver attempt).Completes version task) ∧
        PlatformStore.SameView job.executionId t.shared.2 initial := by
  obtain ⟨pool, store, hpool, rfl⟩ := pool_of_deployment hrun
  refine (decided_or_unsettled hfresh hfault hmoves hpool).imp_right fun hunsettled => ?_
  obtain ⟨hversions, -⟩ := settled_or_unsettled hfresh hfault hmoves hpool
  refine ⟨fun attempt hattempt hcompletes => ?_, hversions,
    hunsettled.created.trans hfresh.created.symm, hunsettled.empty.trans hfresh.empty.symm⟩
  rcases hended with ⟨entry, hmem, hid, hok⟩ | ⟨letter, hmem, hid⟩
  · exact absurd hok (by simp [hunsettled.processed entry hmem hid])
  · -- the job was dead-lettered: every attempt there could be was ruled out
    obtain ⟨hdue, hmax⟩ := hunsettled.dead letter hmem
    exact (hdue hid).2 attempt hattempt.key
      (Nat.lt_succ_of_le (hattempt.le.trans (max_le letter.job.attempt_pos hmax))) hcompletes

end

/-! ## What a comparison reads -/

/-- Two stores hold the same of a run: its executions and their traces. -/
structure PlatformStore.SameRunView (runId : UUID) (store store' : PlatformStore) : Prop where
  executions : store.getRunExecutions runId = store'.getRunExecutions runId
  traces : ∀ executions, store.getRunExecutions runId = .ok executions →
    ∀ execution ∈ executions, store.getTrace execution.id = store'.getTrace execution.id

/-- **A comparison reads the executions of its runs and their traces**, and nothing else. -/
theorem compareRuns_congr {store store' : PlatformStore} {baselineRunId candidateRunId : UUID}
    (hbaseline : PlatformStore.SameRunView baselineRunId store store')
    (hcandidate : PlatformStore.SameRunView candidateRunId store store') :
    compareRuns store baselineRunId candidateRunId =
      compareRuns store' baselineRunId candidateRunId := by
  rw [compareRuns, compareRuns, ← hbaseline.executions, ← hcandidate.executions]
  refine Raising.except_bind_congr fun executions hexecutions =>
    Raising.except_bind_congr fun byTasks hbyTasks => ?_
  refine Raising.except_bind_congr fun executions' hexecutions' =>
    Raising.except_bind_congr fun byTasks' hbyTasks' => ?_
  have htask : compareTask store byTasks byTasks' = compareTask store' byTasks byTasks' := by
    funext taskId
    rw [compareTask, compareTask]
    cases hleft : Dict.get? byTasks taskId with
    | none => rfl
    | some left =>
      cases hright : Dict.get? byTasks' taskId with
      | none => rfl
      | some right =>
        have hmem := (mem_of_byTask hbyTasks hleft).resolve_right (by simp)
        have hmem' := (mem_of_byTask hbyTasks' hright).resolve_right (by simp)
        simp only [comparePair, attributePair]
        rw [hbaseline.traces executions hexecutions left hmem,
          hcandidate.traces executions' hexecutions' right hmem']
  rw [htask]

/-! ## What stays of an execution -/

omit [Interpreter] in
/-- What identifies an execution. -/
def TaskExecution.filing (execution : TaskExecution) : UUID × UUID × String :=
  (execution.id, execution.runId, execution.taskId)

namespace PlatformStore

omit [Interpreter] in
/-- The runs are those of the initial store, and so are the executions, but for their results. -/
structure SameFiling (initial store : PlatformStore) : Prop where
  runs : store.runs = initial.runs
  executions : (store.executions.map fun entry => entry.2.filing) =
    initial.executions.map fun entry => entry.2.filing

variable {initial store store' : PlatformStore} {runId : UUID}

omit [Interpreter] in
theorem SameFiling.refl (store : PlatformStore) : SameFiling store store := ⟨rfl, rfl⟩

omit [Interpreter] in
/-- **No command of a worker refiles an execution.** -/
theorem SameFiling.handle (h : SameFiling initial store) (w : Circumstance) (c : StoreCommand) :
    SameFiling initial (handle w c store).2 := by
  have hanswer : SameFiling initial (store.answer w.now w.newId c).2 := by
    cases c with
    | getAgentVersion id => exact h
    | appendTraceEvent id payload =>
      simp only [answer, appendTraceEvent]
      split <;> [exact h; (split <;> exact ⟨h.runs, h.executions⟩)]
    | appendJudgeVerdict id payload =>
      simp only [answer, appendJudgeVerdict]
      split <;> exact ⟨h.runs, h.executions⟩
    | recordResult id payload =>
      simp only [answer, recordResult]
      split
      · exact h
      · rename_i execution hget
        split
        · exact h
        · have hset : (Dict.set store.executions id (execution.finalize payload w.now)).map
              (fun entry => entry.2.filing) = store.executions.map fun entry => entry.2.filing :=
            Dict.map_set (getExecution_eq_ok_iff.mp hget) rfl
          exact ⟨h.runs, hset.trans h.executions⟩
  rcases handle_cases w c store with heq | ⟨e, heq | heq⟩ <;> rw [heq]
  · exact hanswer
  · exact h
  · exact hanswer

omit [Interpreter] in
/-- A run has the executions it had. -/
theorem SameFiling.runExecutions (h : SameFiling initial store) (runId : UUID) :
    (store.runExecutions runId).map TaskExecution.filing =
      (initial.runExecutions runId).map TaskExecution.filing := by
  have hfilter : ∀ store : PlatformStore, (store.runExecutions runId).map TaskExecution.filing =
      (store.executions.map fun entry => entry.2.filing).filter fun filing =>
        filing.2.1 = runId := by
    intro store
    rw [PlatformStore.runExecutions, List.filter_map, List.map_map, List.filter_map]
    rfl
  rw [hfilter, hfilter, h.executions]

omit [Interpreter] in
/-- An execution of a run was one before. -/
theorem SameFiling.exists_initial (h : SameFiling initial store) {execution : TaskExecution}
    (hmem : execution ∈ store.runExecutions runId) :
    ∃ original ∈ initial.runExecutions runId, original.filing = execution.filing := by
  have hfiling : execution.filing ∈ (initial.runExecutions runId).map TaskExecution.filing :=
    h.runExecutions runId ▸ List.mem_map_of_mem hmem
  exact List.mem_map.mp hfiling

omit [Interpreter] in
theorem SameFiling.taskIds (h : SameFiling initial store) (runId : UUID) :
    (store.runExecutions runId).map (·.taskId) = (initial.runExecutions runId).map (·.taskId) := by
  have htaskId : ∀ executions : List TaskExecution, executions.map (·.taskId) =
      (executions.map TaskExecution.filing).map fun filing => filing.2.2 := fun executions => by
    rw [List.map_map]
    rfl
  rw [htaskId, htaskId, h.runExecutions]

omit [Interpreter] in
/-- Runs that can be compared stay so. -/
theorem SameFiling.comparable (h : SameFiling initial store) {baselineRunId candidateRunId : UUID}
    (hcomparable : initial.Comparable baselineRunId candidateRunId) :
    store.Comparable baselineRunId candidateRunId := by
  have honce : ∀ {runId}, OncePerTask (initial.runExecutions runId) →
      OncePerTask (store.runExecutions runId) := fun {runId} honce => by
    rwa [OncePerTask, h.taskIds]
  have hruns : ∀ {runId}, Dict.has initial.runs runId = true →
      Dict.has store.runs runId = true := fun hrun => by rwa [h.runs]
  refine ⟨hruns hcomparable.baseline_exists, hruns hcomparable.candidate_exists,
    honce hcomparable.baseline_once, honce hcomparable.candidate_once, ?_⟩
  refine hcomparable.shares.imp fun taskId => ?_
  have hshares : ∀ store : PlatformStore, store.Shares baselineRunId candidateRunId taskId ↔
      taskId ∈ (store.runExecutions baselineRunId).map (·.taskId) ∧
        taskId ∈ (store.runExecutions candidateRunId).map (·.taskId) := fun store => by
    rw [List.mem_map, List.mem_map]
    rfl
  rw [hshares, hshares, h.taskIds, h.taskIds]
  exact id

omit [Interpreter] in
/-- The executions of a run, read one by one. -/
theorem SameFiling.map_ok (h : SameFiling initial store) (hkeyed : store.Keyed) (runId : UUID) :
    (store.runExecutions runId).map Except.ok =
      (initial.runExecutions runId).map fun original => store.getExecution original.id := by
  calc (store.runExecutions runId).map Except.ok
      = (store.runExecutions runId).map fun execution => store.getExecution execution.id :=
        List.map_congr_left fun _ hmem => (hkeyed.getExecution_of_runExecutions hmem).symm
    _ = ((store.runExecutions runId).map TaskExecution.filing).map fun filing =>
          store.getExecution filing.1 := by
        rw [List.map_map]
        rfl
    _ = (initial.runExecutions runId).map fun original => store.getExecution original.id := by
        rw [h.runExecutions, List.map_map]
        rfl

omit [Interpreter] in
/-- **Stores that hold the same of every execution of a run hold the same of the run.** -/
theorem sameRunView (hkeyed : store.Keyed) (hkeyed' : store'.Keyed)
    (hfiling : SameFiling initial store) (hfiling' : SameFiling initial store')
    (hview : ∀ original ∈ initial.runExecutions runId, SameView original.id store store') :
    SameRunView runId store store' := by
  have hexecutions : store.runExecutions runId = store'.runExecutions runId := by
    have hmap : (store.runExecutions runId).map (Except.ok : _ → Except PyError TaskExecution) =
        (store'.runExecutions runId).map Except.ok := by
      rw [hfiling.map_ok hkeyed, hfiling'.map_ok hkeyed']
      exact List.map_congr_left fun original hmem => (hview original hmem).execution
    exact List.map_injective_iff.mpr (fun _ _ => Except.ok.inj) hmap
  refine ⟨?_, fun executions hget execution hmem => ?_⟩
  · change (if _ then Except.ok (store.runExecutions runId) else _) =
      if _ then Except.ok (store'.runExecutions runId) else _
    rw [hexecutions, hfiling.runs, hfiling'.runs]
  · rw [getRunExecutions] at hget
    split at hget
    · obtain rfl := Except.ok.inj hget
      obtain ⟨original, horiginal, heq⟩ := hfiling.exists_initial hmem
      have hid : original.id = execution.id := congrArg Prod.fst heq
      have hsame := hid ▸ hview original horiginal
      rw [getTrace, getTrace, hsame.execution, hsame.events]
    · cases hget

end PlatformStore

/-! ## Evaluations -/

/-- What an execution is to be run with. -/
structure Assignment where
  job : EvaluationJob
  task : BenchmarkTask
  version : AgentVersion

/-- **A run that was evaluated to its end**: each of its executions had a job of its own, which was
handled to its end. -/
def Evaluated {ι : Type} (registry : Dict String BenchmarkTask) (initial : PlatformStore)
    (assignment : UUID → Assignment) (moves : List (WorkerMove ι)) (world : QueueWorld)
    (runId : UUID) : Prop :=
  ∀ execution ∈ initial.runExecutions runId,
    FreshJob registry initial (assignment execution.id).job (assignment execution.id).task
        (assignment execution.id).version execution ∧
      (∀ added, .enqueue added ∈ moves →
        added.executionId = (assignment execution.id).job.executionId →
          added = (assignment execution.id).job) ∧
      world.Ended (assignment execution.id).job

section

variable {ι κ : Type} [DecidableEq ι] [DecidableEq κ] {queue : Queue}
  {registry : Dict String BenchmarkTask} {deliver : EvaluationJob → Delivery}
  {initial : PlatformStore} {assignment : UUID → Assignment} {consumer : ι → Consumer}
  {consumer' : κ → Consumer} {moves : List (WorkerMove ι)} {moves' : List (WorkerMove κ)}
  {t : Deployment ι} {t' : Deployment κ} {baselineRunId candidateRunId runId : UUID}

/-- **Run lemma**: the executions stay under their ids, and are those there were. -/
theorem filed_of_execution (hkeyed : initial.Keyed)
    (hrun : Execution (DeploymentStep registry deliver queue consumer)
      (Deployment.initial queue consumer initial) moves t) :
    t.shared.2.Keyed ∧ initial.SameFiling t.shared.2 := by
  refine hrun.invariant (P := fun _ (t : Deployment ι) =>
    t.shared.2.Keyed ∧ initial.SameFiling t.shared.2) ⟨hkeyed, .refl initial⟩ ?_
  intro _ move u u' hu hstep
  cases hstep with
  | @issue _ i c next hi =>
    have hprocess : (processCommand registry deliver c u.shared.2).2.Keyed ∧
        initial.SameFiling (processCommand registry deliver c u.shared.2).2 := by
      cases c with
      | process job =>
        exact exec_invariant (P := fun store : PlatformStore =>
          store.Keyed ∧ initial.SameFiling store)
          (fun w c store h => ⟨h.1.handle w c, h.2.handle w c⟩) _ _ hu
      | _ => exact hu
    exact hprocess
  | _ => exact hu

/-- **An execution is left alike by every schedule.** -/
theorem sameView_of_executions {job : EvaluationJob} {task : BenchmarkTask} {version : AgentVersion}
    {execution : TaskExecution} (hfresh : FreshJob registry initial job task version execution)
    (hfault : ∀ attempt n, ((deliver attempt).oracle n).fault = none)
    (hmoves : ∀ added, .enqueue added ∈ moves → added.executionId = job.executionId → added = job)
    (hmoves' : ∀ added, .enqueue added ∈ moves' → added.executionId = job.executionId → added = job)
    (hrun : Execution (DeploymentStep registry deliver queue consumer)
      (Deployment.initial queue consumer initial) moves t)
    (hrun' : Execution (DeploymentStep registry deliver queue consumer')
      (Deployment.initial queue consumer' initial) moves' t')
    (hended : t.shared.1.Ended job) (hended' : t'.shared.1.Ended job) :
    PlatformStore.SameView job.executionId t.shared.2 t'.shared.2 := by
  rcases decided_of_execution hfresh hfault hmoves hrun hended with
    ⟨attempt, hdecides, hview⟩ | ⟨hnone, hview⟩
  · rcases decided_of_execution hfresh hfault hmoves' hrun' hended' with
      ⟨attempt', hdecides', hview'⟩ | ⟨hnone, -⟩
    · obtain rfl := hdecides.unique hdecides'
      exact hview.trans hview'.symm
    · exact absurd hdecides.completes (hnone attempt hdecides.isAttempt)
  · rcases decided_of_execution hfresh hfault hmoves' hrun' hended' with
      ⟨attempt', hdecides', -⟩ | ⟨-, hview'⟩
    · exact absurd hdecides'.completes (hnone attempt' hdecides'.isAttempt)
    · exact hview.trans hview'.symm

/-- **An evaluation does not depend on its schedule.**  Two systems of workers, of any number and
with any crashes, that handle the jobs of two runs to their end and deliver every attempt alike,
leave the same executions and traces, and `compare_runs` reports the same. -/
theorem compareRuns_schedule_independent (hkeyed : initial.Keyed)
    (hfault : ∀ attempt n, ((deliver attempt).oracle n).fault = none)
    (hrun : Execution (DeploymentStep registry deliver queue consumer)
      (Deployment.initial queue consumer initial) moves t)
    (hrun' : Execution (DeploymentStep registry deliver queue consumer')
      (Deployment.initial queue consumer' initial) moves' t')
    (hevaluated : ∀ runId, runId = baselineRunId ∨ runId = candidateRunId →
      Evaluated registry initial assignment moves t.shared.1 runId ∧
        Evaluated registry initial assignment moves' t'.shared.1 runId) :
    (∀ runId, runId = baselineRunId ∨ runId = candidateRunId →
      PlatformStore.SameRunView runId t.shared.2 t'.shared.2) ∧
      compareRuns t.shared.2 baselineRunId candidateRunId =
        compareRuns t'.shared.2 baselineRunId candidateRunId := by
  obtain ⟨hkeyedT, hfiling⟩ := filed_of_execution hkeyed hrun
  obtain ⟨hkeyedT', hfiling'⟩ := filed_of_execution hkeyed hrun'
  have hviews : ∀ runId, runId = baselineRunId ∨ runId = candidateRunId →
      PlatformStore.SameRunView runId t.shared.2 t'.shared.2 := by
    intro runId hrunId
    obtain ⟨hleft, hright⟩ := hevaluated runId hrunId
    refine PlatformStore.sameRunView hkeyedT hkeyedT' hfiling hfiling' fun original hmem => ?_
    obtain ⟨hfresh, hmoves, hended⟩ := hleft original hmem
    obtain ⟨-, hmoves', hended'⟩ := hright original hmem
    rw [hkeyed.id_of_getExecution hfresh.created]
    exact sameView_of_executions hfresh hfault hmoves hmoves' hrun hrun' hended hended'
  exact ⟨hviews, compareRuns_congr (hviews _ (.inl rfl)) (hviews _ (.inr rfl))⟩

/-! ### What is reported -/

/-- What the worker records of a job: the score of the attempt that decides, or nothing. -/
inductive Verdict (queue : Queue) (deliver : EvaluationJob → Delivery) (a : Assignment) :
    Option Bool → Prop where
  | scored {attempt : EvaluationJob} {result : RunnerResult}
      (hdecides : Decides queue deliver a.job a.task a.version attempt)
      (hrun : runJob (deliver attempt).host (deliver attempt).modelClient a.version a.task
        a.job.executionId = .ok result) :
      Verdict queue deliver a (some (scoreExecution a.task result).1.passed)
  | unfinished (h : ∀ attempt, a.job.IsAttempt queue attempt →
      ¬ (deliver attempt).Completes a.version a.task) : Verdict queue deliver a none

/-- The deciding attempt records its score. -/
theorem Decides.recorded {a : Assignment} {attempt : EvaluationJob} {execution : TaskExecution}
    (h : Decides queue deliver a.job a.task a.version attempt)
    (hfresh : FreshJob registry initial a.job a.task a.version execution)
    (hfault : ∀ attempt n, ((deliver attempt).oracle n).fault = none) :
    ∃ final, (processCommand registry deliver (.process attempt) initial).2.getExecution
        a.job.executionId = .ok final ∧ Verdict queue deliver a final.passed := by
  obtain ⟨result, events, hrun, -, hran⟩ := exists_ran hfresh rfl h.isAttempt h.completes
  have hjudges : JudgesAnswer none ⟨a.task, result, events⟩ := fun _ h => by cases h
  obtain ⟨now, store', hexec, hrecorded, -⟩ := hran.exec_of_open h.isAttempt.eqs.1 hjudges
    (hfault attempt) hfresh.created hfresh.isOpen hfresh.empty
  have hprocess : processCommand registry deliver (.process attempt) initial = (.ok (), store') :=
    hexec
  rw [hprocess]
  exact ⟨_, hrecorded, .scored h hrun⟩

end

/-! ### Two jobs in either order -/

/-- A worker that serves jobs that were enqueued. -/
theorem execution_serve_enqueued {queue : Queue} {registry : Dict String BenchmarkTask}
    {deliver : EvaluationJob → Delivery} {worker : Consumer} {n : ℕ} (jobs : List EvaluationJob)
    {queued : QueueWorld} {store : PlatformStore} {world : QueueWorld × PlatformStore}
    (h : serve registry deliver queue worker n (jobs.foldl QueueWorld.xadd queued, store) =
      some world) :
    ∃ moves, (∀ added, .enqueue added ∈ moves → added ∈ jobs) ∧
      Execution (DeploymentStep registry deliver queue fun _ : Unit => worker)
        (Deployment.lone queue worker (queued, store)) moves
        (Deployment.lone queue worker world) := by
  induction jobs generalizing queued with
  | nil =>
    obtain ⟨moves, hmoves, hrun⟩ := execution_serve h
    exact ⟨moves, fun added hmem => absurd hmem (hmoves added), hrun⟩
  | cons job jobs ih =>
    obtain ⟨moves, hmoves, hrun⟩ := ih h
    refine ⟨.enqueue job :: moves, fun added hmem => ?_, .cons (.enqueue _ job) hrun⟩
    rcases List.mem_cons.mp hmem with hadded | hmem
    · exact WorkerMove.enqueue.inj hadded ▸ List.mem_cons_self
    · exact List.mem_cons_of_mem _ (hmoves added hmem)

/-- What each of the paired executions is to be run with. -/
def pairedAssignment (executionId : UUID) : Assignment where
  job := { seedJob with executionId := executionId }
  task := customerRefundWithinPolicy
  version := supportAgent

/-- The two jobs. -/
def pairedJobs : List EvaluationJob :=
  [(pairedAssignment "baseline").job, (pairedAssignment "candidate").job]

/-- The model is down once for the baseline, and throughout for the candidate. -/
def downForCandidate (attempt : EvaluationJob) : Delivery :=
  downFor (if attempt.executionId = "baseline" then 1 else 3) attempt

omit [Interpreter] in
theorem evaluated_pair {moves : List (WorkerMove Unit)} {world : QueueWorld}
    (hmoves : ∀ added, .enqueue added ∈ moves → added ∈ pairedJobs)
    (hended : ∀ job ∈ pairedJobs, world.Ended job) (runId : UUID) :
    Evaluated (pairedRegistry customerRefundWithinPolicy) pairedStore pairedAssignment moves world
      runId := by
  intro execution hmem
  have hstored := (List.mem_filter.mp hmem).1
  have hfresh : FreshJob (pairedRegistry customerRefundWithinPolicy) pairedStore
      (pairedAssignment execution.id).job customerRefundWithinPolicy supportAgent execution ∧
        (pairedAssignment execution.id).job ∈ pairedJobs := by
    simp only [pairedStore, List.map_cons, List.map_nil, List.mem_cons, List.not_mem_nil,
      or_false] at hstored
    rcases hstored with rfl | rfl
    · exact ⟨⟨rfl, rfl, rfl, rfl, rfl, rfl⟩, List.mem_cons_self⟩
    · exact ⟨⟨rfl, rfl, rfl, rfl, rfl, rfl⟩, List.mem_cons_of_mem _ List.mem_cons_self⟩
  refine ⟨hfresh.1, fun added hadded heq => ?_, hended _ hfresh.2⟩
  have hjob : added = (pairedAssignment added.executionId).job := by
    rcases List.mem_cons.mp (hmoves added hadded) with rfl | hcandidate
    · rfl
    · obtain rfl := List.mem_singleton.mp hcandidate
      rfl
  rw [hjob, heq]
  rfl

omit [Interpreter] in
/-- The jobs are enqueued in either order: the same is reported of them. -/
theorem compareRuns_schedule_independent_pair :
    let _ := cpython
    ∃ t t' : Deployment Unit,
      t.shared.1.processed.map (·.1.executionId) ≠ t'.shared.1.processed.map (·.1.executionId) ∧
      compareRuns t.shared.2 "run 1" "run 2" = compareRuns t'.shared.2 "run 1" "run 2" := by
  intro _
  have hserved : ∃ world ∈ serve (pairedRegistry customerRefundWithinPolicy) downForCandidate {}
        "worker" 5 (pairedJobs.foldl QueueWorld.xadd {}, pairedStore),
      ∃ world' ∈ serve (pairedRegistry customerRefundWithinPolicy) downForCandidate {}
        "worker" 5 (pairedJobs.reverse.foldl QueueWorld.xadd {}, pairedStore),
      (∀ job ∈ pairedJobs, world.1.Ended job) ∧ (∀ job ∈ pairedJobs, world'.1.Ended job) ∧
        world.1.processed.map (·.1.executionId) ≠ world'.1.processed.map (·.1.executionId) := by
    decide +kernel
  obtain ⟨world, hserve, world', hserve', hended, hended', hne⟩ := hserved
  obtain ⟨moves, hmoves, hrun⟩ := execution_serve_enqueued pairedJobs hserve
  obtain ⟨moves', hmoves', hrun'⟩ := execution_serve_enqueued pairedJobs.reverse hserve'
  exact ⟨_, _, hne, (compareRuns_schedule_independent
    ⟨by decide, by decide⟩ (fun _ _ => rfl) hrun hrun' fun runId _ =>
      ⟨evaluated_pair hmoves hended runId,
        evaluated_pair (fun added hmem => List.mem_reverse.mp (hmoves' added hmem)) hended'
          runId⟩).2⟩

end AgentProof
