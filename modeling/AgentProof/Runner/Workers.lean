import AgentProof.Machinery.Executions
import AgentProof.Runner.Worker

/-!
# Runner/Workers — workers on one queue

Any number of workers run `claim_and_process_one` on one queue, each at its own pace: a worker issues
its next command, begins again after a call that returned, or crashes.

Between two commands a worker stands at a control point, its `Phase`.  `Pool` is the system with the
phases in place of the programs; every step of the workers is a step of the pool
(`WorkerStep.pool`), so what is proved of pools holds of the workers.
-/

open Machinery Machinery.Prog

namespace AgentProof

variable {ι : Type}

/-! ## The workers -/

/-- What happens in a system of workers. -/
inductive WorkerMove (ι : Type) where
  /-- worker `i` issues its next command -/
  | issue (i : ι)
  /-- worker `i` did work and claims again: `run_worker_loop`, `serve_forever` -/
  | again (i : ι)
  /-- worker `i` found nothing and claims again: `serve_forever` -/
  | poll (i : ι)
  /-- worker `i` stops for good, wherever it stands -/
  | crash (i : ι)
  /-- somebody enqueues a job -/
  | enqueue (job : EvaluationJob)

/-- The worker that moves. -/
def WorkerMove.worker? : WorkerMove ι → Option ι
  | .issue i | .again i | .poll i | .crash i => some i
  | .enqueue _ => none

/-- The programs of a system of workers, over Redis. -/
abbrev Workers (ι : Type) := Threads PyError QueueCommand QueueCommand.Resp QueueWorld ι Bool

/-- A crash, as the end of a program. -/
def crashed : Except PyError Bool := .error (.other "SystemExit" "")

/-- `XADD` to the job stream, by a worker or a client. -/
def QueueWorld.xadd (world : QueueWorld) (job : EvaluationJob) : QueueWorld :=
  { world with redis := (world.redis.xadd job).2 }

variable [DecidableEq ι] [Interpreter]

/-- One move of a system of workers. -/
inductive WorkerStep (queue : Queue) (consumer : ι → Consumer) :
    WorkerMove ι → Workers ι → Workers ι → Prop where
  | issue {t : Workers ι} {i : ι} {c : QueueCommand}
      {next : Except PyError c.Resp → QueueProg Bool} (hi : t.thread i = .call c next)
      (outcome : Except PyError Unit) :
      WorkerStep queue consumer (.issue i) t
        (t.advance i (QueueWorld.handle outcome c t.shared).2
          (next (QueueWorld.handle outcome c t.shared).1))
  | again {t : Workers ι} {i : ι} (hi : t.thread i = .done (.ok true)) :
      WorkerStep queue consumer (.again i) t
        (t.advance i t.shared (claimAndProcessOne queue (consumer i)))
  | poll {t : Workers ι} {i : ι} (hi : t.thread i = .done (.ok false)) :
      WorkerStep queue consumer (.poll i) t
        (t.advance i t.shared (claimAndProcessOne queue (consumer i)))
  | crash (t : Workers ι) (i : ι) :
      WorkerStep queue consumer (.crash i) t (t.advance i t.shared (.done crashed))
  | enqueue (t : Workers ι) (job : EvaluationJob) :
      WorkerStep queue consumer (.enqueue job) t { t with shared := t.shared.xadd job }

/-- Workers that have just begun. -/
def Workers.initial (queue : Queue) (consumer : ι → Consumer) (world : QueueWorld) : Workers ι where
  shared := world
  thread i := claimAndProcessOne queue (consumer i)

/-! ## Control points -/

/-- Where a worker stands in `claim_and_process_one`. -/
inductive Phase where
  | claiming
  | processing (id : MessageId) (job : EvaluationJob)
  | succeeded (id : MessageId) (job : EvaluationJob)
  | failed (id : MessageId) (job : EvaluationJob) (e : PyError)
  | retrying (job : EvaluationJob) (e : PyError)
  | waited (job : EvaluationJob)
  | returned (didWork : Bool)
  | crashed

namespace Phase

/-- What is left of `retry_or_deadletter` once the message is acknowledged. -/
def retry (queue : Queue) (job : EvaluationJob) (error : String) : QueueProg Bool :=
  if queue.maxAttempts ≤ job.attempt then do
    let _ ← perform (QueueCommand.xaddDead { job, error, attempts := job.attempt })
    return true
  else do
    let _ ← perform (QueueCommand.sleep (min (2 ^ (job.attempt - 1)) 30))
    let _ ← Queue.enqueue job.retried
    return true

/-- The program a worker at a control point still has to run. -/
def program (queue : Queue) (consumer : Consumer) : Phase → QueueProg Bool
  | .claiming => claimAndProcessOne queue consumer
  | .processing id job => processClaimed queue id job
  | .succeeded id job => settle queue id job (.ok ())
  | .failed id job e => settle queue id job (.error e)
  | .retrying job e => retry queue job (errorLine e)
  | .waited job => do
    let _ ← Queue.enqueue job.retried
    return true
  | .returned didWork => .done (.ok didWork)
  | .crashed => .done AgentProof.crashed

/-- A command at a control point: the next one, and the state it leaves. -/
def step (queue : Queue) (consumer : Consumer) (outcome : Except PyError Unit)
    (world : QueueWorld) : Phase → Option (Phase × QueueWorld)
  | .claiming =>
    match world.redis.undelivered with
    | [] => some (.returned false, world)
    | job :: _ =>
      some (.processing world.redis.delivered job,
        { world with redis := (world.redis.xreadgroup consumer).2 })
  | .processing id job =>
    some (match outcome with
      | .ok _ => .succeeded id job
      | .error e => .failed id job e,
      { world with processed := world.processed ++ [(job, outcome.isOk)] })
  | .succeeded id _ => some (.returned true, { world with redis := world.redis.xack id })
  | .failed id job e => some (.retrying job e, { world with redis := world.redis.xack id })
  | .retrying job e =>
    if queue.maxAttempts ≤ job.attempt then
      some (.returned true, { world with
        redis := world.redis.xaddDead { job, error := errorLine e, attempts := job.attempt } })
    else some (.waited job, world)
  | .waited job => some (.returned true, world.xadd job.retried)
  | .returned _ | .crashed => none

/-- **The control points are those of the program**: the command a worker issues leads it from one
to the next. -/
theorem program_call {queue : Queue} {consumer : Consumer} {phase : Phase} {c : QueueCommand}
    {next : Except PyError c.Resp → QueueProg Bool}
    (h : phase.program queue consumer = .call c next) (outcome : Except PyError Unit)
    (world : QueueWorld) :
    ∃ phase', phase.step queue consumer outcome world =
        some (phase', (QueueWorld.handle outcome c world).2) ∧
      next (QueueWorld.handle outcome c world).1 = phase'.program queue consumer := by
  cases phase with
  | claiming =>
    cases h
    cases hundelivered : world.redis.undelivered with
    | nil =>
      refine ⟨.returned false, ?_, ?_⟩
      · simp only [step, hundelivered, QueueWorld.handle, Redis.xreadgroup]
      · simp only [hundelivered, QueueWorld.handle, Redis.xreadgroup]
        rfl
    | cons job jobs =>
      refine ⟨.processing world.redis.delivered job, ?_, ?_⟩
      · simp only [step, hundelivered, QueueWorld.handle, Redis.xreadgroup]
      · simp only [hundelivered, QueueWorld.handle, Redis.xreadgroup]
        rfl
  | processing id job =>
    cases h
    cases outcome with
    | ok _ => exact ⟨_, rfl, rfl⟩
    | error e => exact ⟨_, rfl, rfl⟩
  | succeeded id job =>
    cases h
    exact ⟨_, rfl, rfl⟩
  | failed id job e =>
    cases h
    refine ⟨_, rfl, ?_⟩
    change ((if queue.maxAttempts ≤ job.attempt then _ else _ : QueueProg Bool) >>= _) =
      retry queue job (errorLine e)
    rw [retry]
    split <;> simp only [bind_assoc, pure_bind]
  | retrying job e =>
    rw [program, retry] at h
    rw [step]
    split at h
    · cases h
      rename_i hmax
      exact ⟨_, if_pos hmax, rfl⟩
    · cases h
      rename_i hmax
      exact ⟨_, if_neg hmax, rfl⟩
  | waited job =>
    cases h
    exact ⟨_, rfl, rfl⟩
  | returned didWork => cases h
  | crashed => cases h

/-- A control point whose program has returned. -/
theorem eq_returned {queue : Queue} {consumer : Consumer} {phase : Phase} {didWork : Bool}
    (h : phase.program queue consumer = .done (.ok didWork)) : phase = .returned didWork := by
  cases phase with
  | returned didWork' =>
    cases h
    rfl
  | retrying job e =>
    rw [program, retry] at h
    split at h <;> cases h
  | _ => cases h

end Phase

/-! ## The pool -/

/-- Redis, and the control point of every worker. -/
structure Pool (ι : Type) where
  world : QueueWorld
  phase : ι → Phase

namespace Pool

/-- Worker `i` moves to a control point, and the world with it. -/
def move (pool : Pool ι) (i : ι) (world : QueueWorld) (phase : Phase) : Pool ι where
  world := world
  phase := Function.update pool.phase i phase

/-- The workers that stand at these control points. -/
def workers (queue : Queue) (consumer : ι → Consumer) (pool : Pool ι) : Workers ι where
  shared := pool.world
  thread i := (pool.phase i).program queue (consumer i)

/-- One move of the pool. -/
inductive Step (queue : Queue) (consumer : ι → Consumer) :
    WorkerMove ι → Pool ι → Pool ι → Prop where
  | issue {pool : Pool ι} {i : ι} {outcome : Except PyError Unit} {phase : Phase}
      {world : QueueWorld}
      (h : (pool.phase i).step queue (consumer i) outcome pool.world = some (phase, world)) :
      Step queue consumer (.issue i) pool (pool.move i world phase)
  | again {pool : Pool ι} {i : ι} (h : pool.phase i = .returned true) :
      Step queue consumer (.again i) pool (pool.move i pool.world .claiming)
  | poll {pool : Pool ι} {i : ι} (h : pool.phase i = .returned false) :
      Step queue consumer (.poll i) pool (pool.move i pool.world .claiming)
  | crash (pool : Pool ι) (i : ι) :
      Step queue consumer (.crash i) pool (pool.move i pool.world .crashed)
  | enqueue (pool : Pool ι) (job : EvaluationJob) :
      Step queue consumer (.enqueue job) pool { pool with world := pool.world.xadd job }

omit [Interpreter] in
@[simp] theorem move_phase_self (pool : Pool ι) (i : ι) (world : QueueWorld) (phase : Phase) :
    (pool.move i world phase).phase i = phase := Function.update_self ..

omit [Interpreter] in
theorem move_phase_of_ne (pool : Pool ι) {i j : ι} (h : j ≠ i) (world : QueueWorld)
    (phase : Phase) : (pool.move i world phase).phase j = pool.phase j :=
  Function.update_of_ne h ..

/-- A move of the pool moves one thread of its workers. -/
theorem workers_move (queue : Queue) (consumer : ι → Consumer) (pool : Pool ι) (i : ι)
    (world : QueueWorld) (phase : Phase) :
    (pool.move i world phase).workers queue consumer =
      (pool.workers queue consumer).advance i world (phase.program queue (consumer i)) := by
  rw [workers, Threads.advance, Threads.mk.injEq]
  refine ⟨rfl, funext fun j => ?_⟩
  by_cases hj : j = i
  · subst hj
    rw [move_phase_self, Function.update_self]
  · rw [move_phase_of_ne _ hj, Function.update_of_ne hj]
    rfl

end Pool

/-- **Simulation**: a step of workers at control points is a step of the pool, to control points. -/
theorem WorkerStep.pool {queue : Queue} {consumer : ι → Consumer} {move : WorkerMove ι}
    {pool : Pool ι} {t' : Workers ι}
    (h : WorkerStep queue consumer move (pool.workers queue consumer) t') :
    ∃ pool', Pool.Step queue consumer move pool pool' ∧ t' = pool'.workers queue consumer := by
  generalize ht : pool.workers queue consumer = t at h
  cases h with
  | @issue _ i c next hi outcome =>
    subst ht
    obtain ⟨phase, hstep, hnext⟩ := Phase.program_call hi outcome pool.world
    refine ⟨_, .issue hstep, ?_⟩
    rw [Pool.workers_move, ← hnext]
    rfl
  | @again _ i hi =>
    subst ht
    refine ⟨_, .again (Phase.eq_returned hi), ?_⟩
    rw [Pool.workers_move]
    rfl
  | @poll _ i hi =>
    subst ht
    refine ⟨_, .poll (Phase.eq_returned hi), ?_⟩
    rw [Pool.workers_move]
    rfl
  | crash _ i =>
    subst ht
    refine ⟨_, .crash pool i, ?_⟩
    rw [Pool.workers_move]
    rfl
  | enqueue _ job =>
    subst ht
    exact ⟨_, .enqueue pool job, rfl⟩

/-- A pool whose workers have just begun. -/
def Pool.initial (world : QueueWorld) : Pool ι where
  world := world
  phase _ := .claiming

/-- **Every run of the workers is a run of the pool.** -/
theorem pool_of_run {queue : Queue} {consumer : ι → Consumer} {world : QueueWorld}
    {moves : List (WorkerMove ι)} {t : Workers ι}
    (h : Execution (WorkerStep queue consumer) (Workers.initial queue consumer world) moves t) :
    ∃ pool, Execution (Pool.Step queue consumer) (Pool.initial world) moves pool ∧
      t = pool.workers queue consumer :=
  h.simulate (R := fun t (pool : Pool ι) => t = pool.workers queue consumer) rfl
    fun _ _ _ _ hR hstep => by
      subst hR
      exact hstep.pool

end AgentProof
