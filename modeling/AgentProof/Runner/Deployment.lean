import AgentProof.Runner.Workers

/-!
# Runner/Deployment — workers, their queue and their store

`Runner/Workers` leaves open how the processing of a job ends.  Here the store is part of the system
and does not fail: a worker that processes a job runs `process_job` on it, with the client and on
the machine of that delivery.

The processing of a job is one step.  What it writes concerns one execution only, and
`Runner/Isolation` says that the attempts on others can be left out.
-/

open Machinery Machinery.Prog

namespace AgentProof

/-- What a delivery of a job is processed with: a machine, a client, and the clock and the ids of
the store. -/
structure Delivery where
  host : Host
  modelClient : Option ClientInstance
  oracle : ℕ → Circumstance

variable {ι : Type} [DecidableEq ι] [Interpreter]

/-! ## The system -/

section

variable (registry : Dict String BenchmarkTask) (deliver : EvaluationJob → Delivery)

/-- How the processing of a command ends, and what it leaves of the store. -/
def processCommand : QueueCommand → PlatformStore → Except PyError Unit × PlatformStore
  | .process job, store =>
    (processJob (deliver job).host registry job (deliver job).modelClient none).exec
      PlatformStore.handle (deliver job).oracle store
  | _, store => (.ok (), store)

/-- The queue and the store, as one server. -/
def deploymentHandle : Prog.Handler PyError QueueCommand QueueCommand.Resp Unit
    (QueueWorld × PlatformStore) := fun _ c world =>
  let (outcome, store) := processCommand registry deliver c world.2
  ((QueueWorld.handle outcome c world.1).1, (QueueWorld.handle outcome c world.1).2, store)

/-- The programs of a system of workers, over Redis and the store. -/
abbrev Deployment (ι : Type) :=
  Threads PyError QueueCommand QueueCommand.Resp (QueueWorld × PlatformStore) ι Bool

/-- One move of the system: `WorkerStep`, with the store. -/
inductive DeploymentStep (queue : Queue) (consumer : ι → Consumer) :
    WorkerMove ι → Deployment ι → Deployment ι → Prop where
  | issue {t : Deployment ι} {i : ι} {c : QueueCommand}
      {next : Except PyError c.Resp → QueueProg Bool} (hi : t.thread i = .call c next) :
      DeploymentStep queue consumer (.issue i) t
        (t.advance i (deploymentHandle registry deliver () c t.shared).2
          (next (deploymentHandle registry deliver () c t.shared).1))
  | again {t : Deployment ι} {i : ι} (hi : t.thread i = .done (.ok true)) :
      DeploymentStep queue consumer (.again i) t
        (t.advance i t.shared (claimAndProcessOne queue (consumer i)))
  | poll {t : Deployment ι} {i : ι} (hi : t.thread i = .done (.ok false)) :
      DeploymentStep queue consumer (.poll i) t
        (t.advance i t.shared (claimAndProcessOne queue (consumer i)))
  | crash (t : Deployment ι) (i : ι) :
      DeploymentStep queue consumer (.crash i) t (t.advance i t.shared (.done crashed))
  | enqueue (t : Deployment ι) (job : EvaluationJob) :
      DeploymentStep queue consumer (.enqueue job) t
        { t with shared := (t.shared.1.xadd job, t.shared.2) }

/-- Workers that have just begun, on an empty queue. -/
def Deployment.initial (queue : Queue) (consumer : ι → Consumer) (store : PlatformStore) :
    Deployment ι where
  shared := ({}, store)
  thread i := claimAndProcessOne queue (consumer i)

end

/-! ## At control points -/

section

variable {registry : Dict String BenchmarkTask} {deliver : EvaluationJob → Delivery}
  {queue : Queue} {consumer : ι → Consumer}

/-- What a worker at a control point does to the store with its next command. -/
def Phase.effect (registry : Dict String BenchmarkTask) (deliver : EvaluationJob → Delivery) :
    Phase → PlatformStore → Except PyError Unit × PlatformStore
  | .processing _ job, store => processCommand registry deliver (.process job) store
  | _, store => (.ok (), store)

/-- Only a worker that processes a job touches the store. -/
theorem Phase.processCommand_eq {phase : Phase} {consumer : Consumer} {c : QueueCommand}
    {next : Except PyError c.Resp → QueueProg Bool}
    (h : phase.program queue consumer = .call c next) (store : PlatformStore) :
    processCommand registry deliver c store = phase.effect registry deliver store := by
  cases phase with
  | retrying job e =>
    rw [program, retry] at h
    split at h <;> cases h <;> rfl
  | returned => cases h
  | crashed => cases h
  | _ => cases h; rfl

/-- The system whose workers stand at these control points. -/
def Pool.deployment (queue : Queue) (consumer : ι → Consumer) (pool : Pool ι)
    (store : PlatformStore) : Deployment ι where
  shared := (pool.world, store)
  thread i := (pool.phase i).program queue (consumer i)

omit [DecidableEq ι] in
variable (registry deliver queue consumer) in
/-- One move of the pool and its store. -/
inductive Pool.StoreStep [DecidableEq ι] :
    WorkerMove ι → Pool ι × PlatformStore → Pool ι × PlatformStore → Prop where
  | issue {pool : Pool ι} {store : PlatformStore} {i : ι} {phase : Phase} {world : QueueWorld}
      (h : (pool.phase i).step queue (consumer i)
        ((pool.phase i).effect registry deliver store).1 pool.world = some (phase, world)) :
      Pool.StoreStep (.issue i) (pool, store)
        (pool.move i world phase, ((pool.phase i).effect registry deliver store).2)
  | idle {move : WorkerMove ι} {pool pool' : Pool ι} (store : PlatformStore)
      (hmove : ∀ i, move ≠ .issue i) (h : Pool.Step queue consumer move pool pool') :
      Pool.StoreStep move (pool, store) (pool', store)

/-- A move of the pool moves one thread of the system. -/
theorem Pool.deployment_move (pool : Pool ι) (i : ι) (world : QueueWorld) (phase : Phase)
    (store store' : PlatformStore) :
    (pool.move i world phase).deployment queue consumer store' =
      (pool.deployment queue consumer store).advance i (world, store')
        (phase.program queue (consumer i)) := by
  rw [deployment, Threads.advance, Threads.mk.injEq]
  exact ⟨rfl, congrArg Threads.thread (Pool.workers_move queue consumer pool i world phase)⟩

/-- **Simulation**: a move of the system at control points is one of the pool and its store. -/
theorem DeploymentStep.pool {move : WorkerMove ι} {pool : Pool ι} {store : PlatformStore}
    {t' : Deployment ι}
    (h : DeploymentStep registry deliver queue consumer move
      (pool.deployment queue consumer store) t') :
    ∃ pool' store', Pool.StoreStep registry deliver queue consumer move (pool, store)
        (pool', store') ∧ t' = pool'.deployment queue consumer store' := by
  generalize ht : pool.deployment queue consumer store = t at h
  cases h with
  | @issue _ i c next hi =>
    subst ht
    have heffect : processCommand registry deliver c store =
        (pool.phase i).effect registry deliver store := Phase.processCommand_eq hi store
    obtain ⟨phase, hstep, hnext⟩ :=
      Phase.program_call hi ((pool.phase i).effect registry deliver store).1 pool.world
    refine ⟨_, _, .issue hstep, ?_⟩
    rw [Pool.deployment_move pool i _ phase store, ← hnext, ← heffect]
    rfl
  | @again _ i hi =>
    subst ht
    refine ⟨_, store, .idle store (by simp) (.again (Phase.eq_returned hi)), ?_⟩
    rw [Pool.deployment_move pool i _ _ store]
    rfl
  | @poll _ i hi =>
    subst ht
    refine ⟨_, store, .idle store (by simp) (.poll (Phase.eq_returned hi)), ?_⟩
    rw [Pool.deployment_move pool i _ _ store]
    rfl
  | crash _ i =>
    subst ht
    refine ⟨_, store, .idle store (by simp) (.crash pool i), ?_⟩
    rw [Pool.deployment_move pool i _ _ store]
    rfl
  | enqueue _ job =>
    subst ht
    exact ⟨_, store, .idle store (by simp) (.enqueue pool job), rfl⟩

/-- **Every run of the system is a run of the pool and its store.** -/
theorem pool_of_deployment {store : PlatformStore} {moves : List (WorkerMove ι)}
    {t : Deployment ι}
    (h : Execution (DeploymentStep registry deliver queue consumer)
      (Deployment.initial queue consumer store) moves t) :
    ∃ pool store', Execution (Pool.StoreStep registry deliver queue consumer)
        (Pool.initial {}, store) moves (pool, store') ∧
      t = pool.deployment queue consumer store' := by
  obtain ⟨⟨pool, store'⟩, hrun, ht⟩ := h.simulate (t := (Pool.initial {}, store))
    (R := fun t (p : Pool ι × PlatformStore) => t = p.1.deployment queue consumer p.2) rfl
    (fun _ _ _ p hR hstep => by
      subst hR
      obtain ⟨pool', store', hstep', ht'⟩ := hstep.pool
      exact ⟨(pool', store'), hstep', ht'⟩)
  exact ⟨pool, store', hrun, ht⟩

/-- A worker that runs its program alone, to its end. -/
theorem DeploymentStep.exec {i : ι} :
    ∀ {p : QueueProg Bool} {t : Deployment ι}, t.thread i = p →
      ∃ moves : List (WorkerMove ι), (∀ move ∈ moves, move = .issue i) ∧
        Execution (DeploymentStep registry deliver queue consumer) t moves
          (t.advance i (p.exec (deploymentHandle registry deliver) (fun _ => ()) t.shared).2
            (.done (p.exec (deploymentHandle registry deliver) (fun _ => ()) t.shared).1))
  | .done r, t, hi => by
    refine ⟨[], by simp, ?_⟩
    rw [exec_done, Threads.advance_self t i hi]
    exact .nil t
  | .call c next, t, hi => by
    obtain ⟨moves, hmoves, hrun⟩ := DeploymentStep.exec
      (t.advance_thread_self i (deploymentHandle registry deliver () c t.shared).2
        (next (deploymentHandle registry deliver () c t.shared).1))
    refine ⟨.issue i :: moves, List.forall_mem_cons.mpr ⟨rfl, hmoves⟩, .cons (.issue hi) ?_⟩
    rw [Threads.advance_advance] at hrun
    exact hrun

variable (registry deliver queue) in
/-- What so many calls of `claim_and_process_one` by one worker make of the queue and the store, if
each finds work to do. -/
def serve (consumer : Consumer) : ℕ → QueueWorld × PlatformStore →
    Option (QueueWorld × PlatformStore)
  | 0, world => some world
  | n + 1, world =>
    match (claimAndProcessOne queue consumer).exec (deploymentHandle registry deliver)
      (fun _ => ()) world with
    | (.ok true, world') => serve consumer n world'
    | _ => none

/-- A single worker, about to claim. -/
def Deployment.lone (queue : Queue) (consumer : Consumer) (world : QueueWorld × PlatformStore) :
    Deployment Unit where
  shared := world
  thread _ := claimAndProcessOne queue consumer

/-- One worker, call after call, is a run of the system. -/
theorem execution_serve {consumer : Consumer} :
    ∀ {n : ℕ} {world world' : QueueWorld × PlatformStore},
      serve registry deliver queue consumer n world = some world' →
      ∃ moves : List (WorkerMove Unit), (∀ job, .enqueue job ∉ moves) ∧
        Execution (DeploymentStep registry deliver queue fun _ => consumer)
          (Deployment.lone queue consumer world) moves (Deployment.lone queue consumer world')
  | 0, world, world', h => by
    obtain rfl := Option.some.inj h
    exact ⟨[], by simp, .nil _⟩
  | n + 1, world, world', h => by
    rw [serve] at h
    split at h
    · rename_i world₁ hexec
      obtain ⟨moves, hmoves, hrest⟩ := execution_serve h
      obtain ⟨issues, hissues, hcall⟩ := @DeploymentStep.exec _ _ _ registry deliver queue
        (fun _ => consumer) () _ (Deployment.lone queue consumer world) rfl
      have hcalled : Deployment.lone queue consumer world₁ =
          ((Deployment.lone queue consumer world).advance () world₁ (.done (.ok true))).advance ()
            world₁ (claimAndProcessOne queue consumer) := by
        rw [Threads.advance_advance, Threads.advance, Deployment.lone, Threads.mk.injEq]
        exact ⟨rfl, funext fun _ => rfl⟩
      have hshared : (Deployment.lone queue consumer world).shared = world := rfl
      have hthread : (Deployment.lone queue consumer world).thread () =
          claimAndProcessOne queue consumer := rfl
      rw [hshared, hthread, hexec] at hcall
      rw [hcalled] at hrest
      refine ⟨issues ++ .again () :: moves, fun job hmem => ?_,
        hcall.append (.cons (.again (Threads.advance_thread_self ..)) hrest)⟩
      rcases List.mem_append.mp hmem with hmem | hmem
      · exact absurd (hissues _ hmem) (by simp)
      · exact hmoves job (by simpa using hmem)
    · exact absurd h (by simp)

end

end AgentProof
