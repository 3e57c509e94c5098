import AgentProof.Runner.Completion
import AgentProof.Runner.Deployment
import AgentProof.Runner.Record

/-!
# Runner/Evidence — which jobs leave evidence

A run that raises takes its trace with it: the runner appends a `ModelError` step when the retries of
a request are used up, and then raises, and `process_job` has nothing to store.  The queue delivers
the job again; when every attempt ends so, the job is dead-lettered and its execution is still
pending, without an event.

`evidence_kept_iff`: once a job was handled to its end, its execution is documented exactly when the
run of one of its attempts came to its end.
-/

open Machinery Machinery.Prog

namespace AgentProof

variable [Interpreter]

/-! ## The run of an attempt -/

/-- The run of a delivery: how it ends, and the steps in memory when it does. -/
def Delivery.session (delivery : Delivery) (version : AgentVersion) (task : BenchmarkTask)
    (executionId : UUID) : Except PyError RunTotals × List TraceStep :=
  let chosen := clientFor delivery.modelClient task
  match runRounds delivery.host chosen.client version defaultMaxSteps defaultMaxModelRetries
      defaultMaxSteps (initialMessages version task) 0 0
      ⟨initialProxy task executionId, chosen.state⟩ with
  | .ok totals s => (.ok totals, (s.proxy.trace.settled s.proxy.environment).steps)
  | .error e s => (.error e, (s.proxy.trace.settled s.proxy.environment).steps)

/-- The run of a delivery comes to its end: the client answers every request before its retries are
used up, with counts that are not negative, and every tool call ends in a result that can be written
as JSON or in an exception the proxy catches. -/
def Delivery.Completes (delivery : Delivery) (version : AgentVersion) (task : BenchmarkTask) :
    Prop :=
  AgentProof.Completes delivery.host (clientFor delivery.modelClient task).client version
    defaultMaxModelRetries defaultMaxSteps (initialMessages version task)
    (clientFor delivery.modelClient task).state (.new task.initialState)

/-- A run comes to its end exactly when it returns. -/
theorem Delivery.completes_iff {delivery : Delivery} {version : AgentVersion}
    {task : BenchmarkTask} {executionId : UUID} :
    delivery.Completes version task ↔
      ∃ result, runJob delivery.host delivery.modelClient version task executionId =
        .ok result := by
  constructor
  · intro hcompletes
    obtain ⟨result, c', hrun⟩ : ∃ result c', runTask delivery.host version task
        (clientFor delivery.modelClient task).client (some executionId) defaultMaxSteps
        defaultMaxModelRetries (clientFor delivery.modelClient task).state = .ok result c' :=
      runTask_returns_iff.mpr hcompletes
    exact ⟨result, by rw [runJob, hrun]⟩
  · rintro ⟨result, hrun⟩
    obtain ⟨c', hrun⟩ := runJob_eq_ok hrun
    exact runTask_returns_iff.mp ⟨result, c', hrun⟩

/-- The steps in memory when a run returns are those of its result. -/
theorem Delivery.session_of_runJob {delivery : Delivery} {version : AgentVersion}
    {task : BenchmarkTask} {executionId : UUID} {result : RunnerResult}
    (h : runJob delivery.host delivery.modelClient version task executionId = .ok result) :
    ∃ totals, delivery.session version task executionId = (.ok totals, result.trace.steps) := by
  obtain ⟨c', hrun⟩ := runJob_eq_ok h
  obtain ⟨totals, s, hrounds, rfl, -⟩ := runRounds_of_runTask hrun
  rw [Option.getD_some] at hrounds
  exact ⟨totals, by rw [session, hrounds]⟩

/-! ## One job -/

/-- A job, as it is first enqueued, of a registered task and a stored version, on an execution that
is open and has no events. -/
structure FreshJob (registry : Dict String BenchmarkTask) (store : PlatformStore)
    (job : EvaluationJob) (task : BenchmarkTask) (version : AgentVersion)
    (execution : TaskExecution) : Prop where
  first : job.attempt = 1
  registered : Dict.get? registry job.taskId = some task
  stored : store.getAgentVersion job.agentVersionId = .ok version
  created : store.getExecution job.executionId = .ok execution
  isOpen : execution.status.terminal = false
  empty : store.events job.executionId = []

/-- An attempt of a job that the queue delivers. -/
structure EvaluationJob.IsAttempt (queue : Queue) (job attempt : EvaluationJob) : Prop where
  key : attempt.key = job.key
  le : attempt.attempt ≤ max 1 queue.maxAttempts

section

variable (queue : Queue) (registry : Dict String BenchmarkTask) (deliver : EvaluationJob → Delivery)
  (job : EvaluationJob) (task : BenchmarkTask) (version : AgentVersion)

/-- **The evidence of a job is kept**: its execution is finalized, and the stored trace is that of
the run of one of its attempts, `ERRORED` if the retries of a request were used up. -/
def EvidenceKept (store : PlatformStore) : Prop :=
  ∃ attempt, job.IsAttempt queue attempt ∧
    ∃ recorded, store.getExecution job.executionId = .ok recorded ∧
      recorded.status.terminal = true ∧
      List.Forall₂ StoredAs ((deliver attempt).session version task job.executionId).2
        (store.events job.executionId) ∧
      ∀ message, ((deliver attempt).session version task job.executionId).1 =
          .error (.transientModelError message) → recorded.status = .errored

/-- The record and the trace are those of a run of an attempt that came to its end. -/
def Settled (execution : TaskExecution) (store : PlatformStore) : Prop :=
  ∃ attempt result now, job.IsAttempt queue attempt ∧
    runJob (deliver attempt).host (deliver attempt).modelClient version task job.executionId =
      .ok result ∧
    ∃ events, EventsOf result.trace events ∧
      store.Stores job.executionId ⟨task, result, events⟩ events.length ∧
      store.getExecution job.executionId =
        .ok (execution.finalize (scoreExecution task result).1 now)

end

section

variable {queue : Queue} {registry : Dict String BenchmarkTask} {deliver : EvaluationJob → Delivery}
  {job attempt : EvaluationJob} {task : BenchmarkTask} {version : AgentVersion}
  {execution : TaskExecution} {initial store : PlatformStore}

omit [Interpreter] in
/-- An attempt is the job, but for its number. -/
theorem EvaluationJob.IsAttempt.eqs (h : job.IsAttempt queue attempt) :
    attempt.executionId = job.executionId ∧ attempt.agentVersionId = job.agentVersionId ∧
      attempt.taskId = job.taskId :=
  have hkey := h.key
  ⟨congrArg (fun j => j.executionId) hkey, congrArg (fun j => j.agentVersionId) hkey,
    congrArg (fun j => j.taskId) hkey⟩

/-- What is settled is documented. -/
theorem Settled.evidenceKept (h : Settled queue deliver job task version execution store) :
    EvidenceKept queue deliver job task version store := by
  obtain ⟨attempt, result, now, hattempt, hrun, events, hevents, hstored, hrecorded⟩ := h
  obtain ⟨totals, hsession⟩ := Delivery.session_of_runJob hrun
  rw [PlatformStore.Stores, List.take_length] at hstored
  refine ⟨attempt, hattempt, _, hrecorded, (scoreExecution task result).1.outcome.1, ?_, ?_⟩
  · rw [hsession]
    exact forall₂_storedAs hevents.toStorage hstored
  · intro message hexhausted
    rw [hsession] at hexhausted
    exact absurd hexhausted (by simp)

/-- What is settled was left by a run that came to its end. -/
theorem Settled.exists_completes (h : Settled queue deliver job task version execution store) :
    ∃ attempt, job.IsAttempt queue attempt ∧ (deliver attempt).Completes version task := by
  obtain ⟨attempt, result, now, hattempt, hrun, -⟩ := h
  exact ⟨attempt, hattempt, Delivery.completes_iff.mpr ⟨result, hrun⟩⟩

/-- A settled execution has an event with number `0`. -/
theorem Settled.taken (h : Settled queue deliver job task version execution store) :
    store.Taken job.executionId := by
  obtain ⟨attempt, result, now, hattempt, hrun, events, hevents, hstored, -⟩ := h
  exact hstored.taken hevents hevents.length_pos le_rfl

/-- Settled is what the store holds of one execution. -/
theorem Settled.congr (h : Settled queue deliver job task version execution store)
    {store' : PlatformStore}
    (hexecution : store'.getExecution job.executionId = store.getExecution job.executionId)
    (hevents : store'.events job.executionId = store.events job.executionId) :
    Settled queue deliver job task version execution store' := by
  obtain ⟨attempt, result, now, hattempt, hrun, events, hof, hstored, hrecorded⟩ := h
  refine ⟨attempt, result, now, hattempt, hrun, events, hof, ?_, hexecution.trans hrecorded⟩
  rw [PlatformStore.Stores, hevents]
  exact hstored

/-! ## Processing an attempt -/

/-- Another job leaves the execution alone. -/
theorem processCommand_of_ne (h : attempt.executionId ≠ job.executionId) (store : PlatformStore) :
    (processCommand registry deliver (.process attempt) store).2.getExecution job.executionId =
        store.getExecution job.executionId ∧
      (processCommand registry deliver (.process attempt) store).2.events job.executionId =
        store.events job.executionId := by
  let a : Attempt := ⟨(deliver attempt).host, attempt, (deliver attempt).modelClient, none⟩
  have hchanges : store.ChangesOnly attempt.executionId
      ((a.program registry).exec PlatformStore.handle (deliver attempt).oracle store).2 :=
    PlatformStore.changesOnly_exec (a.concerns registry) _ store
  exact ⟨hchanges.executions _ h.symm, hchanges.traces _ h.symm⟩

/-- A settled execution stays settled, whatever is processed. -/
theorem Settled.processCommand (h : Settled queue deliver job task version execution store)
    (hfault : ∀ attempt n, ((deliver attempt).oracle n).fault = none) (c : QueueCommand) :
    Settled queue deliver job task version execution
      (AgentProof.processCommand registry deliver c store).2 := by
  cases c with
  | process attempt =>
    by_cases hid : attempt.executionId = job.executionId
    · have hsame : (AgentProof.processCommand registry deliver (.process attempt) store).2 =
          store :=
        Attempt.exec_of_taken
          (a := ⟨(deliver attempt).host, attempt, (deliver attempt).modelClient, none⟩) hid
          (hfault attempt) h.taken
      rw [hsame]
      exact h
    · obtain ⟨hexecution, hevents⟩ := @processCommand_of_ne _ registry deliver job attempt hid store
      exact h.congr hexecution hevents
  | _ => exact h

/-- No job changes the agent versions. -/
theorem processCommand_agentVersions (c : QueueCommand) (store : PlatformStore) :
    (processCommand registry deliver c store).2.agentVersions = store.agentVersions := by
  cases c with
  | process attempt =>
    exact exec_invariant (P := fun s => s.agentVersions = store.agentVersions)
      (fun w c s hs => (PlatformStore.handle_agentVersions w c s).trans hs) _ _ rfl
  | _ => rfl

variable (hfresh : FreshJob registry initial job task version execution)
  (hversions : store.agentVersions = initial.agentVersions)
  (hattempt : job.IsAttempt queue attempt)

include hfresh hversions hattempt

/-- An attempt whose run comes to its end has a product. -/
theorem exists_ran (hcompletes : (deliver attempt).Completes version task) :
    ∃ result events, runJob (deliver attempt).host (deliver attempt).modelClient version task
        job.executionId = .ok result ∧ EventsOf result.trace events ∧
      Attempt.Ran registry store.agentVersions
        ⟨(deliver attempt).host, attempt, (deliver attempt).modelClient, none⟩
        ⟨task, result, events⟩ := by
  obtain ⟨hexecutionId, hversionId, htaskId⟩ := hattempt.eqs
  obtain ⟨result, hrun⟩ : ∃ result, runJob (deliver attempt).host (deliver attempt).modelClient
      version task job.executionId = .ok result := Delivery.completes_iff.mp hcompletes
  obtain ⟨events, hevents⟩ := runJob_events hrun
  have hversion := PlatformStore.getAgentVersion_eq_ok hfresh.stored
  refine ⟨result, events, hrun, hevents, ?_, ⟨version, ?_, ?_⟩, hevents⟩
  · exact (congrArg (Dict.get? registry) htaskId).trans hfresh.registered
  · rw [hversions]
    exact (congrArg (Dict.get? initial.agentVersions) hversionId).trans hversion
  · rw [← hexecutionId] at hrun
    exact hrun

variable (hfault : ∀ n, ((deliver attempt).oracle n).fault = none)

include hfault

/-- An attempt whose run does not come to its end changes nothing. -/
theorem processCommand_of_not_completes (hraises : ¬ (deliver attempt).Completes version task) :
    ∃ e, processCommand registry deliver (.process attempt) store = (.error e, store) := by
  obtain ⟨hexecutionId, hversionId, htaskId⟩ := hattempt.eqs
  cases hrun : runJob (deliver attempt).host (deliver attempt).modelClient version task
      attempt.executionId with
  | ok result => exact absurd (Delivery.completes_iff.mpr ⟨result, hrun⟩) hraises
  | error e =>
    refine ⟨e, Attempt.exec_of_raised
      (a := ⟨(deliver attempt).host, attempt, (deliver attempt).modelClient, none⟩) ?_ ?_ hrun
      (hfault 0)⟩
    · exact (congrArg (Dict.get? registry) htaskId).trans hfresh.registered
    · have hstored := hfresh.stored
      rw [PlatformStore.getAgentVersion, ← hversions, ← hversionId] at hstored
      exact hstored

/-- **An attempt whose run comes to its end settles the execution**, if nothing has yet. -/
theorem processCommand_of_completes (hcompletes : (deliver attempt).Completes version task)
    (hcreated : store.getExecution job.executionId = .ok execution)
    (hempty : store.events job.executionId = []) :
    (processCommand registry deliver (.process attempt) store).1 = .ok () ∧
      Settled queue deliver job task version execution
        (processCommand registry deliver (.process attempt) store).2 := by
  obtain ⟨result, events, hrun, hevents, hran⟩ :=
    exists_ran hfresh hversions hattempt hcompletes
  have hjudges : JudgesAnswer none ⟨task, result, events⟩ := fun _ h => by cases h
  obtain ⟨now, store', hexec, hrecorded, hstored⟩ :=
    hran.exec_of_open hattempt.eqs.1 hjudges hfault hcreated hfresh.isOpen hempty
  have hprocess : processCommand registry deliver (.process attempt) store = (.ok (), store') :=
    hexec
  rw [hprocess]
  exact ⟨rfl, attempt, result, now, hattempt, hrun, events, hevents, hstored, hrecorded⟩

end

/-! ## While nothing is settled -/

section

variable (queue : Queue) (deliver : EvaluationJob → Delivery) (job : EvaluationJob)
  (task : BenchmarkTask) (version : AgentVersion)

/-- No attempt before this number has come to its end. -/
def Due (n : ℕ) (attempt : EvaluationJob) : Prop :=
  attempt.executionId = job.executionId → job.IsAttempt queue attempt ∧
    ∀ earlier : EvaluationJob, earlier.key = job.key → earlier.attempt < n →
      ¬ (deliver earlier).Completes version task

/-- What a worker at this point knows, while nothing is settled. -/
def Phase.Consistent : Phase → Prop
  | .processing _ attempt => Due queue deliver job task version attempt.attempt attempt
  | .succeeded _ attempt => attempt.executionId ≠ job.executionId
  | .failed _ attempt _ | .retrying attempt _ =>
    Due queue deliver job task version (attempt.attempt + 1) attempt
  | .waited attempt =>
    Due queue deliver job task version (attempt.attempt + 1) attempt ∧
      attempt.attempt < queue.maxAttempts
  | _ => True

/-- **Nothing is settled yet**: the execution is as it was created, and every delivery there was
ended in an exception. -/
structure Unsettled {ι : Type} (execution : TaskExecution) (pool : Pool ι)
    (store : PlatformStore) : Prop where
  created : store.getExecution job.executionId = .ok execution
  empty : store.events job.executionId = []
  stream : ∀ attempt ∈ pool.world.redis.stream,
    Due queue deliver job task version attempt.attempt attempt
  phase : ∀ i, (pool.phase i).Consistent queue deliver job task version
  dead : ∀ letter ∈ pool.world.redis.dead,
    Due queue deliver job task version (letter.job.attempt + 1) letter.job ∧
      queue.maxAttempts ≤ letter.job.attempt
  processed : ∀ entry ∈ pool.world.processed, entry.1.executionId = job.executionId →
    entry.2 = false

end

section

variable {ι : Type} [DecidableEq ι] {queue : Queue} {registry : Dict String BenchmarkTask}
  {deliver : EvaluationJob → Delivery} {job attempt : EvaluationJob} {task : BenchmarkTask}
  {version : AgentVersion} {execution : TaskExecution} {initial store : PlatformStore}
  {consumer : ι → Consumer} {pool pool' : Pool ι}

/-- An attempt that did not come to its end was the last to be ruled out. -/
theorem Due.succ (h : Due queue deliver job task version attempt.attempt attempt)
    (hraises : attempt.executionId = job.executionId →
      ¬ (deliver attempt).Completes version task) :
    Due queue deliver job task version (attempt.attempt + 1) attempt := by
  intro hid
  obtain ⟨hattempt, hearlier⟩ := h hid
  refine ⟨hattempt, fun earlier hkey hlt => ?_⟩
  rcases Nat.lt_succ_iff_lt_or_eq.mp hlt with hlt | heq
  · exact hearlier earlier hkey hlt
  · obtain rfl := EvaluationJob.ext_key (hkey.trans hattempt.key.symm) heq
    exact hraises hid

/-- A job that is retried is due. -/
theorem Due.retried (h : Due queue deliver job task version (attempt.attempt + 1) attempt)
    (hlt : attempt.attempt < queue.maxAttempts) :
    Due queue deliver job task version attempt.retried.attempt attempt.retried := by
  intro hid
  obtain ⟨hattempt, hearlier⟩ := h hid
  exact ⟨⟨hattempt.key, le_max_of_le_right hlt⟩, hearlier⟩

/-- A worker moves on, and the queue with it. -/
theorem Unsettled.move (h : Unsettled queue deliver job task version execution pool store)
    {i : ι} {world : QueueWorld} {phase : Phase}
    (hstream : ∀ attempt ∈ world.redis.stream,
      Due queue deliver job task version attempt.attempt attempt)
    (hdead : ∀ letter ∈ world.redis.dead,
      Due queue deliver job task version (letter.job.attempt + 1) letter.job ∧
        queue.maxAttempts ≤ letter.job.attempt)
    (hprocessed : ∀ entry ∈ world.processed, entry.1.executionId = job.executionId →
      entry.2 = false)
    (hphase : phase.Consistent queue deliver job task version) :
    Unsettled queue deliver job task version execution (pool.move i world phase) store where
  created := h.created
  empty := h.empty
  stream := hstream
  phase j := by
    by_cases hji : j = i
    · subst hji
      rw [Pool.move_phase_self]
      exact hphase
    · rw [Pool.move_phase_of_ne _ hji]
      exact h.phase j
  dead := hdead
  processed := hprocessed

/-- A worker moves on in the same queue. -/
theorem Unsettled.move_same (h : Unsettled queue deliver job task version execution pool store)
    {i : ι} {phase : Phase} (hphase : phase.Consistent queue deliver job task version) :
    Unsettled queue deliver job task version execution (pool.move i pool.world phase) store :=
  h.move h.stream h.dead h.processed hphase

omit [DecidableEq ι] in
/-- A job is added. -/
theorem Unsettled.stream_xadd (h : Unsettled queue deliver job task version execution pool store)
    {added : EvaluationJob} (hadded : Due queue deliver job task version added.attempt added) :
    ∀ attempt ∈ (pool.world.xadd added).redis.stream,
      Due queue deliver job task version attempt.attempt attempt := by
  intro attempt hmem
  rcases List.mem_append.mp hmem with hmem | hmem
  · exact h.stream attempt hmem
  · obtain rfl := List.mem_singleton.mp hmem
    exact hadded

/-- **Step lemma, for a processing**: it settles the execution, or rules one more attempt out. -/
theorem Unsettled.process (h : Unsettled queue deliver job task version execution pool store)
    (hfresh : FreshJob registry initial job task version execution)
    (hversions : store.agentVersions = initial.agentVersions)
    (hfault : ∀ attempt n, ((deliver attempt).oracle n).fault = none) {i : ι} {id : MessageId}
    (hi : pool.phase i = .processing id attempt) {outcome : Except PyError Unit}
    {store' : PlatformStore}
    (hprocess : processCommand registry deliver (.process attempt) store = (outcome, store'))
    {phase : Phase} {world : QueueWorld}
    (hphase : (Phase.processing id attempt).step queue (consumer i) outcome pool.world =
      some (phase, world)) :
    Settled queue deliver job task version execution store' ∨
      Unsettled queue deliver job task version execution (pool.move i world phase) store' := by
  simp only [Phase.step, Option.some.injEq, Prod.mk.injEq] at hphase
  obtain ⟨rfl, rfl⟩ := hphase
  have hdue : Due queue deliver job task version attempt.attempt attempt := by
    have hphase := h.phase i
    rw [hi] at hphase
    exact hphase
  by_cases hid : attempt.executionId = job.executionId
  · obtain ⟨hattempt, -⟩ := hdue hid
    by_cases hcompletes : (deliver attempt).Completes version task
    · have hsettled := (processCommand_of_completes hfresh hversions hattempt (hfault attempt)
        hcompletes h.created h.empty).2
      rw [hprocess] at hsettled
      exact .inl hsettled
    · obtain ⟨e, he⟩ := processCommand_of_not_completes hfresh hversions hattempt (hfault attempt)
        hcompletes
      obtain ⟨rfl, rfl⟩ := Prod.mk.inj (hprocess.symm.trans he)
      refine .inr (h.move h.stream h.dead (fun entry hmem hentry => ?_)
        (hdue.succ fun _ => hcompletes))
      rcases List.mem_append.mp hmem with hmem | hmem
      · exact h.processed entry hmem hentry
      · rw [List.mem_singleton.mp hmem]
        rfl
  · obtain ⟨hexecution, hevents⟩ :=
      @processCommand_of_ne _ registry deliver job attempt hid store
    rw [hprocess] at hexecution hevents
    have hview : Unsettled queue deliver job task version execution pool store' :=
      ⟨hexecution.trans h.created, hevents.trans h.empty, h.stream, h.phase, h.dead, h.processed⟩
    refine .inr (hview.move h.stream h.dead (fun entry hmem hentry => ?_) ?_)
    · rcases List.mem_append.mp hmem with hmem | hmem
      · exact h.processed entry hmem hentry
      · rw [List.mem_singleton.mp hmem] at hentry
        exact absurd hentry hid
    · cases outcome with
      | ok _ => exact hid
      | error e => exact fun heq => absurd heq hid

/-- **Step lemma, for a claim**: what is claimed was in the stream. -/
theorem Unsettled.claim (h : Unsettled queue deliver job task version execution pool store) {i : ι}
    {outcome : Except PyError Unit} {phase : Phase} {world : QueueWorld}
    (hphase : Phase.claiming.step queue (consumer i) outcome pool.world = some (phase, world)) :
    Unsettled queue deliver job task version execution (pool.move i world phase) store := by
  cases hundelivered : pool.world.redis.undelivered with
  | nil =>
    simp only [Phase.step, hundelivered, Option.some.injEq, Prod.mk.injEq] at hphase
    obtain ⟨rfl, rfl⟩ := hphase
    exact h.move_same trivial
  | cons attempt attempts =>
    simp only [Phase.step, hundelivered, Option.some.injEq, Prod.mk.injEq] at hphase
    obtain ⟨rfl, rfl⟩ := hphase
    have hmem : attempt ∈ pool.world.redis.stream := by
      refine List.mem_of_mem_drop (i := pool.world.redis.delivered) ?_
      rw [show pool.world.redis.stream.drop pool.world.redis.delivered = attempt :: attempts
        from hundelivered]
      exact List.mem_cons_self
    simp only [Redis.xreadgroup, hundelivered]
    exact h.move h.stream h.dead h.processed (h.stream attempt hmem)

/-- **Step lemma, for a failed attempt**: it is the last one, or one more is due. -/
theorem Unsettled.retry (h : Unsettled queue deliver job task version execution pool store) {i : ι}
    {attempt : EvaluationJob} {e : PyError}
    (hdue : Due queue deliver job task version (attempt.attempt + 1) attempt)
    {outcome : Except PyError Unit} {phase : Phase} {world : QueueWorld}
    (hphase : (Phase.retrying attempt e).step queue (consumer i) outcome pool.world =
      some (phase, world)) :
    Unsettled queue deliver job task version execution (pool.move i world phase) store := by
  rw [Phase.step] at hphase
  split at hphase
  · rename_i hmax
    obtain ⟨rfl, rfl⟩ := Prod.mk.inj (Option.some.inj hphase)
    refine h.move h.stream (fun letter hmem => ?_) h.processed trivial
    rcases List.mem_append.mp hmem with hmem | hmem
    · exact h.dead letter hmem
    · rw [List.mem_singleton.mp hmem]
      exact ⟨hdue, hmax⟩
  · rename_i hmax
    obtain ⟨rfl, rfl⟩ := Prod.mk.inj (Option.some.inj hphase)
    exact h.move_same ⟨hdue, not_le.mp hmax⟩

/-- **Step lemma**: a move settles the execution, or leaves it unsettled. -/
theorem Unsettled.step (h : Unsettled queue deliver job task version execution pool store)
    (hfresh : FreshJob registry initial job task version execution)
    (hversions : store.agentVersions = initial.agentVersions)
    (hfault : ∀ attempt n, ((deliver attempt).oracle n).fault = none) {move : WorkerMove ι}
    {store' : PlatformStore}
    (hmove : ∀ added, move = .enqueue added → added.executionId = job.executionId → added = job)
    (hstep : Pool.StoreStep registry deliver queue consumer move (pool, store) (pool', store')) :
    Settled queue deliver job task version execution store' ∨
      Unsettled queue deliver job task version execution pool' store' := by
  cases hstep with
  | idle _ hnot hstep =>
    cases hstep with
    | issue => exact absurd rfl (hnot _)
    | again => exact .inr (h.move_same trivial)
    | poll => exact .inr (h.move_same trivial)
    | crash => exact .inr (h.move_same trivial)
    | enqueue _ added =>
      have hadded : Due queue deliver job task version added.attempt added := by
        intro hid
        obtain rfl := hmove added rfl hid
        refine ⟨⟨rfl, by rw [hfresh.first]; exact le_max_left _ _⟩, fun earlier _ hlt => ?_⟩
        have hpos := earlier.attempt_pos
        rw [hfresh.first] at hlt
        omega
      exact .inr ⟨h.created, h.empty, h.stream_xadd hadded, h.phase, h.dead, h.processed⟩
  | @issue _ _ i phase world hphase =>
    have hconsistent := h.phase i
    cases hi : pool.phase i with
    | claiming =>
      rw [hi] at hphase
      exact .inr (h.claim hphase)
    | processing id attempt =>
      rw [hi] at hphase
      exact h.process hfresh hversions hfault hi rfl hphase
    | succeeded id attempt =>
      rw [hi] at hphase
      obtain ⟨rfl, rfl⟩ := Prod.mk.inj (Option.some.inj hphase)
      exact .inr (h.move h.stream h.dead h.processed trivial)
    | failed id attempt e =>
      rw [hi] at hphase hconsistent
      obtain ⟨rfl, rfl⟩ := Prod.mk.inj (Option.some.inj hphase)
      exact .inr (h.move h.stream h.dead h.processed hconsistent)
    | retrying attempt e =>
      rw [hi] at hphase hconsistent
      exact .inr (h.retry hconsistent hphase)
    | waited attempt =>
      rw [hi] at hphase hconsistent
      obtain ⟨rfl, rfl⟩ := Prod.mk.inj (Option.some.inj hphase)
      obtain ⟨hdue, hlt⟩ := hconsistent
      exact .inr (h.move (h.stream_xadd (hdue.retried hlt)) h.dead h.processed trivial)
    | returned didWork =>
      rw [hi] at hphase
      simp [Phase.step] at hphase
    | crashed =>
      rw [hi] at hphase
      simp [Phase.step] at hphase

/-- A worker at a control point touches the store only by what it processes. -/
theorem Phase.exists_processCommand (phase : Phase) (store : PlatformStore) :
    ∃ c, phase.effect registry deliver store = processCommand registry deliver c store := by
  cases phase with
  | processing id attempt => exact ⟨.process attempt, rfl⟩
  | _ => exact ⟨.sleep 0, rfl⟩

/-- **Run lemma**: in every run the execution is settled or not yet. -/
theorem settled_or_unsettled (hfresh : FreshJob registry initial job task version execution)
    (hfault : ∀ attempt n, ((deliver attempt).oracle n).fault = none)
    {moves : List (WorkerMove ι)}
    (hmoves : ∀ added, .enqueue added ∈ moves → added.executionId = job.executionId → added = job)
    (hrun : Execution (Pool.StoreStep registry deliver queue consumer) (Pool.initial {}, initial)
      moves (pool, store)) :
    store.agentVersions = initial.agentVersions ∧
      (Settled queue deliver job task version execution store ∨
        Unsettled queue deliver job task version execution pool store) := by
  have hinit : Unsettled queue deliver job task version execution (Pool.initial {} : Pool ι)
      initial :=
    { created := hfresh.created
      empty := hfresh.empty
      stream := fun _ hmem => by simp [Pool.initial] at hmem
      phase := fun _ => trivial
      dead := fun _ hmem => by simp [Pool.initial] at hmem
      processed := fun _ hmem => by simp [Pool.initial] at hmem }
  refine hrun.invariant (P := fun moves (p : Pool ι × PlatformStore) =>
    (∀ added, .enqueue added ∈ moves → added.executionId = job.executionId → added = job) →
      p.2.agentVersions = initial.agentVersions ∧
        (Settled queue deliver job task version execution p.2 ∨
          Unsettled queue deliver job task version execution p.1 p.2))
    (fun _ => ⟨rfl, .inr hinit⟩) ?_ hmoves
  rintro moves move ⟨pool, store⟩ ⟨pool', store'⟩ ih hstep hmoves
  obtain ⟨hversions, hstate⟩ := ih fun added hmem => hmoves added (List.mem_append_left _ hmem)
  have hstore : store' = store ∨ ∃ c, store' = (processCommand registry deliver c store).2 := by
    cases hstep with
    | idle => exact .inl rfl
    | @issue _ _ i =>
      obtain ⟨c, hc⟩ := @Phase.exists_processCommand _ registry deliver (pool.phase i) store
      exact .inr ⟨c, congrArg Prod.snd hc⟩
  refine ⟨?_, ?_⟩
  · rcases hstore with rfl | ⟨c, rfl⟩
    · exact hversions
    · exact (processCommand_agentVersions c store).trans hversions
  · rcases hstate with hsettled | hunsettled
    · rcases hstore with rfl | ⟨c, rfl⟩
      · exact .inl hsettled
      · exact .inl (hsettled.processCommand hfault c)
    · exact hunsettled.step hfresh hversions hfault
        (fun added hadded => hmoves added (by simp [hadded])) hstep

omit [DecidableEq ι] in
/-- While nothing is settled there is no evidence. -/
theorem Unsettled.not_evidenceKept
    (h : Unsettled queue deliver job task version execution pool store)
    (hopen : execution.status.terminal = false) :
    ¬ EvidenceKept queue deliver job task version store := by
  rintro ⟨attempt, -, recorded, hrecorded, hterminal, -⟩
  obtain rfl := Except.ok.inj (h.created.symm.trans hrecorded)
  exact absurd hterminal (by simp [hopen])

/-- The job was handled to its end: it was processed successfully or dead-lettered. -/
def QueueWorld.Ended (world : QueueWorld) (job : EvaluationJob) : Prop :=
  (∃ entry ∈ world.processed, entry.1.executionId = job.executionId ∧ entry.2 = true) ∨
    ∃ letter ∈ world.redis.dead, letter.job.executionId = job.executionId

omit [Interpreter] in
instance (world : QueueWorld) (job : EvaluationJob) : Decidable (world.Ended job) :=
  inferInstanceAs (Decidable (_ ∨ _))

/-- **When a job leaves evidence.**  Any number of workers, on a store that does not fail, handle any
jobs; once a fresh one was handled to its end, its evidence is kept if and only if the run of one of
its attempts came to its end. -/
theorem evidence_kept_iff (hfresh : FreshJob registry initial job task version execution)
    (hfault : ∀ attempt n, ((deliver attempt).oracle n).fault = none)
    {moves : List (WorkerMove ι)}
    (hmoves : ∀ added, .enqueue added ∈ moves → added.executionId = job.executionId → added = job)
    {t : Deployment ι}
    (hrun : Execution (DeploymentStep registry deliver queue consumer)
      (Deployment.initial queue consumer initial) moves t)
    (hended : t.shared.1.Ended job) :
    EvidenceKept queue deliver job task version t.shared.2 ↔
      ∃ attempt, job.IsAttempt queue attempt ∧ (deliver attempt).Completes version task := by
  obtain ⟨pool, store, hpool, rfl⟩ := pool_of_deployment hrun
  obtain ⟨-, hstate⟩ := settled_or_unsettled hfresh hfault hmoves hpool
  rcases hstate with hsettled | hunsettled
  · exact ⟨fun _ => hsettled.exists_completes, fun _ => hsettled.evidenceKept⟩
  · refine ⟨fun hkept => absurd hkept (hunsettled.not_evidenceKept hfresh.isOpen), ?_⟩
    rintro ⟨attempt, hattempt, hcompletes⟩
    rcases hended with ⟨entry, hmem, hid, hok⟩ | ⟨letter, hmem, hid⟩
    · exact absurd hok (by simp [hunsettled.processed entry hmem hid])
    · -- the job was dead-lettered: every attempt there could be was ruled out
      obtain ⟨hdue, hmax⟩ := hunsettled.dead letter hmem
      obtain ⟨-, hraises⟩ := hdue hid
      have hle : attempt.attempt ≤ letter.job.attempt :=
        hattempt.le.trans (max_le letter.job.attempt_pos hmax)
      exact absurd hcompletes (hraises attempt hattempt.key (Nat.lt_succ_of_le hle))

end

/-! ### A model that is down -/

/-- A model that is down for so many attempts; then the reference agent. -/
def downFor (n : ℕ) (attempt : EvaluationJob) : Delivery where
  host := plainHost
  modelClient :=
    if attempt.attempt ≤ n then
      some ⟨_, scriptedModelClient, List.replicate 3 (.transient "down")⟩
    else none
  oracle := noFaults

/-- The pending execution of the job. -/
def seedExecution : TaskExecution where
  id := "execution"
  runId := "run"
  taskId := customerRefundWithinPolicy.taskId
  taskSeed := 1
  createdAt := 0

omit [Interpreter] in
theorem freshJob_seed : FreshJob seedRegistry pendingStore seedJob customerRefundWithinPolicy
    supportAgent seedExecution :=
  ⟨rfl, rfl, rfl, rfl, rfl, rfl⟩

/-- The queue and the store once the job was enqueued. -/
def seedWorld : QueueWorld × PlatformStore := (({} : QueueWorld).xadd seedJob, pendingStore)

/-- A worker that serves the job. -/
theorem execution_seed {deliver : EvaluationJob → Delivery} {n : ℕ}
    {world : QueueWorld × PlatformStore}
    (h : serve seedRegistry deliver {} "worker" n seedWorld = some world) :
    ∃ moves, (∀ added, .enqueue added ∈ moves → added.executionId = seedJob.executionId →
        added = seedJob) ∧
      Execution (DeploymentStep seedRegistry deliver {} fun _ : Unit => "worker")
        (Deployment.initial {} (fun _ => "worker") pendingStore) moves
        (Deployment.lone {} "worker" world) := by
  obtain ⟨moves, hmoves, hrun⟩ := execution_serve h
  refine ⟨.enqueue seedJob :: moves, fun added hmem _ => ?_, .cons (.enqueue _ seedJob) hrun⟩
  rcases List.mem_cons.mp hmem with hadded | hmem
  · exact WorkerMove.enqueue.inj hadded
  · exact absurd hmem (hmoves added)

omit [Interpreter] in
/-- **The evidence of a run is lost**: the model is down for three attempts, each of which logs two
retries and a `ModelError`; the job is dead-lettered, and its execution is as it was created. -/
theorem not_evidence_kept :
    let _ := cpython
    ∃ moves t, Execution
        (DeploymentStep seedRegistry (downFor 3) {} fun _ : Unit => "worker")
        (Deployment.initial {} (fun _ => "worker") pendingStore) moves t ∧
      t.shared.1.Ended seedJob ∧
      ((downFor 3 seedJob).session supportAgent customerRefundWithinPolicy "execution").2.map
        (·.payload.eventType) = [.modelRequest, .retry, .retry, .error] ∧
      t.shared.2.getExecution "execution" = pendingStore.getExecution "execution" ∧
      t.shared.2.events "execution" = [] ∧
      ¬ EvidenceKept {} (downFor 3) seedJob customerRefundWithinPolicy supportAgent t.shared.2 := by
  intro _
  have hserved : ∃ world ∈ serve seedRegistry (downFor 3) {} "worker" 3 seedWorld,
      world.1.Ended seedJob ∧
        world.2.getExecution "execution" = pendingStore.getExecution "execution" ∧
        world.2.events "execution" = [] := by
    decide +kernel
  obtain ⟨world, hserve, hended, hexecution, hevents⟩ := hserved
  obtain ⟨moves, -, hrun⟩ := execution_seed hserve
  refine ⟨moves, _, hrun, hended, by decide +kernel, hexecution, hevents, ?_⟩
  rintro ⟨attempt, -, recorded, hrecorded, hterminal, -⟩
  obtain rfl := Except.ok.inj ((hexecution.trans rfl).symm.trans hrecorded)
  exact absurd hterminal (by decide)

omit [Interpreter] in
/-- The model is down for one attempt only: the second one leaves its evidence. -/
theorem evidence_kept_iff_second :
    let _ := cpython
    ∃ moves t, Execution
        (DeploymentStep seedRegistry (downFor 1) {} fun _ : Unit => "worker")
        (Deployment.initial {} (fun _ => "worker") pendingStore) moves t ∧
      EvidenceKept {} (downFor 1) seedJob customerRefundWithinPolicy supportAgent t.shared.2 := by
  intro _
  have hserved : ∃ world ∈ serve seedRegistry (downFor 1) {} "worker" 2 seedWorld,
      world.1.Ended seedJob := by
    decide +kernel
  obtain ⟨world, hserve, hended⟩ := hserved
  obtain ⟨moves, hmoves, hrun⟩ := execution_seed hserve
  have hok : (runJob plainHost none supportAgent customerRefundWithinPolicy
      "execution").isOk = true := by decide +kernel
  obtain ⟨result, hjob⟩ := Raising.exists_of_isOk hok
  refine ⟨moves, _, hrun, (evidence_kept_iff freshJob_seed (fun _ _ => rfl) hmoves hrun hended).mpr
    ⟨seedJob.retried, ⟨rfl, by decide⟩, ?_⟩⟩
  exact Delivery.completes_iff.mpr ⟨result, hjob⟩

end AgentProof
