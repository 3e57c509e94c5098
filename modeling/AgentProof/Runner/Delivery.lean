import AgentProof.Runner.Attempts
import AgentProof.Runner.Workers

/-!
# Runner/Delivery — no job is lost, unless a failed one is acknowledged

At-least-once delivery: a job that was enqueued and not processed successfully is undelivered,
pending or dead-lettered.  The failure path acknowledges the message first and adds the job again
afterwards, so the law breaks between the two; `noneLost_of_execution` says that it breaks nowhere
else, whatever the interleaving and wherever workers crash.
-/

open Machinery Machinery.Prog

namespace AgentProof

/-! ## The law -/

/-- The job was processed successfully. -/
def QueueWorld.Succeeded (world : QueueWorld) (job : EvaluationJob) : Prop :=
  ∃ recorded ∈ world.processed, recorded.1.key = job.key ∧ recorded.2 = true

/-- The job is undelivered, pending or dead-lettered. -/
def Redis.Present (redis : Redis) (job : EvaluationJob) : Prop :=
  (∃ copy ∈ redis.undelivered, copy.key = job.key) ∨
    (∃ entry ∈ redis.pending, ∃ copy ∈ redis.stream[entry.1]?, copy.key = job.key) ∨
    ∃ letter ∈ redis.dead, letter.job.key = job.key

/-- **No job is lost**: the stream lists every job that was ever enqueued. -/
def QueueWorld.NoneLost (world : QueueWorld) : Prop :=
  ∀ job ∈ world.redis.stream, world.Succeeded job ∨ world.redis.Present job

instance (world : QueueWorld) (job : EvaluationJob) : Decidable (world.Succeeded job) :=
  inferInstanceAs (Decidable (∃ recorded ∈ world.processed, _))

instance (redis : Redis) (job : EvaluationJob) : Decidable (redis.Present job) :=
  inferInstanceAs (Decidable (_ ∨ _ ∨ _))

instance (world : QueueWorld) : Decidable world.NoneLost :=
  inferInstanceAs (Decidable (∀ job ∈ world.redis.stream, _))

variable {ι : Type}

/-- The move is the acknowledgement that opens `retry_or_deadletter`. -/
def AcksFailure [Interpreter] (queue : Queue) (t : Workers ι) : WorkerMove ι → Prop
  | .issue i => ∃ id job e, t.thread i = settle queue id job (.error e)
  | _ => False

/-! ## The invariant -/

/-- The message a worker has claimed and not acknowledged. -/
def Phase.unacked? : Phase → Option (MessageId × EvaluationJob)
  | .processing id job | .succeeded id job | .failed id job _ => some (id, job)
  | _ => none

/-- Every job is accounted for, and every worker knows what it claimed. -/
structure Pool.Tracked (pool : Pool ι) : Prop where
  delivered_le : pool.world.redis.delivered ≤ pool.world.redis.stream.length
  claimed : ∀ i id job, (pool.phase i).unacked? = some (id, job) →
    pool.world.redis.stream[id]? = some job
  succeeded : ∀ i id job, pool.phase i = .succeeded id job → (job, true) ∈ pool.world.processed
  noneLost : pool.world.NoneLost

/-- Nothing is taken away. -/
structure QueueWorld.Grows (world world' : QueueWorld) : Prop where
  stream : world.redis.stream <+: world'.redis.stream
  undelivered : world.redis.undelivered ⊆ world'.redis.undelivered
  pending : world.redis.pending ⊆ world'.redis.pending
  dead : world.redis.dead ⊆ world'.redis.dead
  processed : world.processed ⊆ world'.processed

namespace QueueWorld.Grows

variable {world world' : QueueWorld} {job : EvaluationJob}

theorem refl (world : QueueWorld) : world.Grows world :=
  ⟨List.prefix_rfl, List.Subset.refl _, List.Subset.refl _, List.Subset.refl _, List.Subset.refl _⟩

/-- A message keeps its id. -/
theorem getElem? (h : world.Grows world') {id : MessageId}
    (hjob : world.redis.stream[id]? = some job) : world'.redis.stream[id]? = some job := by
  obtain ⟨hlt, -⟩ := List.getElem?_eq_some_iff.mp hjob
  obtain ⟨added, hadded⟩ := h.stream
  rw [← hadded, List.getElem?_append_left hlt, hjob]

theorem succeeded (h : world.Grows world') (hjob : world.Succeeded job) : world'.Succeeded job := by
  obtain ⟨recorded, hmem, hkey⟩ := hjob
  exact ⟨recorded, h.processed hmem, hkey⟩

theorem present (h : world.Grows world') (hjob : world.redis.Present job) :
    world'.redis.Present job := by
  rcases hjob with ⟨copy, hmem, hkey⟩ | ⟨entry, hmem, copy, hcopy, hkey⟩ | ⟨letter, hmem, hkey⟩
  · exact .inl ⟨copy, h.undelivered hmem, hkey⟩
  · exact .inr (.inl ⟨entry, h.pending hmem, copy, h.getElem? hcopy, hkey⟩)
  · exact .inr (.inr ⟨letter, h.dead hmem, hkey⟩)

/-- A grown world loses nothing, if what was added to the stream is there. -/
theorem noneLost (h : world.Grows world') (hworld : world.NoneLost)
    (hadded : ∀ job ∈ world'.redis.stream, job ∉ world.redis.stream → world'.redis.Present job) :
    world'.NoneLost := by
  intro job hmem
  by_cases hold : job ∈ world.redis.stream
  · exact (hworld job hold).imp h.succeeded h.present
  · exact .inr (hadded job hmem hold)

end QueueWorld.Grows

/-- A job that is added is undelivered. -/
theorem QueueWorld.grows_xadd {world : QueueWorld} (job : EvaluationJob)
    (hdelivered : world.redis.delivered ≤ world.redis.stream.length) :
    world.Grows (world.xadd job) ∧ job ∈ (world.xadd job).redis.undelivered := by
  have hundelivered : (world.xadd job).redis.undelivered = world.redis.undelivered ++ [job] := by
    simp only [xadd, Redis.xadd, Redis.undelivered]
    exact List.drop_append_of_le_length hdelivered
  refine ⟨⟨List.prefix_append _ _, ?_, List.Subset.refl _, List.Subset.refl _,
    List.Subset.refl _⟩, ?_⟩
  · rw [hundelivered]
    exact List.subset_append_left _ _
  · rw [hundelivered]
    simp

namespace Pool.Tracked

variable [DecidableEq ι] {pool : Pool ι}

/-- A worker moves on, in a world where every message keeps its id and every outcome stays. -/
theorem move (h : pool.Tracked) {i : ι} {world : QueueWorld} {phase : Phase}
    (hstream : ∀ (id : MessageId) (job : EvaluationJob), pool.world.redis.stream[id]? = some job →
      world.redis.stream[id]? = some job)
    (hprocessed : pool.world.processed ⊆ world.processed)
    (hdelivered : world.redis.delivered ≤ world.redis.stream.length)
    (hclaimed : ∀ id job, phase.unacked? = some (id, job) → world.redis.stream[id]? = some job)
    (hsucceeded : ∀ id job, phase = .succeeded id job → (job, true) ∈ world.processed)
    (hnone : world.NoneLost) : (pool.move i world phase).Tracked where
  delivered_le := hdelivered
  claimed j id job hj := by
    by_cases hji : j = i
    · subst hji
      rw [move_phase_self] at hj
      exact hclaimed id job hj
    · rw [move_phase_of_ne _ hji] at hj
      exact hstream id job (h.claimed j id job hj)
  succeeded j id job hj := by
    by_cases hji : j = i
    · subst hji
      rw [move_phase_self] at hj
      exact hsucceeded id job hj
    · rw [move_phase_of_ne _ hji] at hj
      exact hprocessed (h.succeeded j id job hj)
  noneLost := hnone

/-- A worker that holds no message moves on. -/
theorem move_idle (h : pool.Tracked) {i : ι} {world : QueueWorld} {phase : Phase}
    (hgrows : pool.world.Grows world)
    (hdelivered : world.redis.delivered ≤ world.redis.stream.length) (hnone : world.NoneLost)
    (hunacked : phase.unacked? = none) : (pool.move i world phase).Tracked := by
  refine h.move (fun _ _ => hgrows.getElem?) hgrows.processed hdelivered (fun id job hphase => ?_)
    (fun id job hphase => ?_) hnone
  · rw [hunacked] at hphase
    exact absurd hphase (by simp)
  · rw [hphase] at hunacked
    exact absurd hunacked (by simp [Phase.unacked?])

/-- A worker that holds no message moves on in the same world. -/
theorem move_same (h : pool.Tracked) {i : ι} {phase : Phase} (hunacked : phase.unacked? = none) :
    (pool.move i pool.world phase).Tracked :=
  h.move_idle (.refl _) h.delivered_le h.noneLost hunacked

omit [DecidableEq ι] in
/-- Somebody adds a job. -/
theorem xadd (h : pool.Tracked) (job : EvaluationJob) :
    (pool.world.xadd job).redis.delivered ≤ (pool.world.xadd job).redis.stream.length ∧
      (pool.world.xadd job).NoneLost := by
  obtain ⟨hgrows, hmem⟩ := QueueWorld.grows_xadd job h.delivered_le
  refine ⟨h.delivered_le.trans hgrows.stream.length_le, hgrows.noneLost h.noneLost ?_⟩
  intro job' hmem' hnew
  have hjob : job' = job := by
    have hcases : job' ∈ pool.world.redis.stream ++ [job] := hmem'
    simpa [hnew] using hcases
  subst hjob
  exact .inl ⟨job', hmem, rfl⟩

/-- A worker claims the next message, which becomes pending. -/
theorem claim (h : pool.Tracked) (i : ι) (consumer : Consumer) {job : EvaluationJob}
    {jobs : List EvaluationJob} (hundelivered : pool.world.redis.undelivered = job :: jobs) :
    (pool.move i { pool.world with redis := (pool.world.redis.xreadgroup consumer).2 }
      (.processing pool.world.redis.delivered job)).Tracked := by
  have hjob : pool.world.redis.stream[pool.world.redis.delivered]? = some job := by
    rw [← List.head?_drop]
    exact congrArg List.head? hundelivered
  have hjobs : pool.world.redis.stream.drop (pool.world.redis.delivered + 1) = jobs := by
    rw [← List.tail_drop]
    exact congrArg List.tail hundelivered
  have hlt := (List.getElem?_eq_some_iff.mp hjob).1
  simp only [Redis.xreadgroup, hundelivered]
  refine h.move (fun _ _ => id) (List.Subset.refl _) hlt (fun id job' hphase => ?_)
    (fun id job' hphase => by simp at hphase) fun job' hmem => ?_
  · obtain ⟨rfl, rfl⟩ : pool.world.redis.delivered = id ∧ job = job' := by
      simpa [Phase.unacked?] using hphase
    exact hjob
  · rcases h.noneLost job' hmem with hdone | ⟨copy, hcopy, hkey⟩ | ⟨entry, hentry, hcopy⟩ | hdead
    · exact .inl hdone
    · rw [hundelivered] at hcopy
      rcases List.mem_cons.mp hcopy with rfl | hcopy
      · exact .inr (.inr (.inl ⟨_, List.mem_append_right _ (List.mem_singleton.mpr rfl), copy,
          hjob, hkey⟩))
      · exact .inr (.inl ⟨copy, by rw [Redis.undelivered, hjobs]; exact hcopy, hkey⟩)
    · exact .inr (.inr (.inl ⟨entry, List.mem_append_left _ hentry, hcopy⟩))
    · exact .inr (.inr (.inr hdead))

/-- A worker records the end of a processing. -/
theorem process (h : pool.Tracked) {i : ι} {id : MessageId} {job : EvaluationJob}
    (hi : pool.phase i = .processing id job) (outcome : Except PyError Unit) :
    (pool.move i { pool.world with processed := pool.world.processed ++ [(job, outcome.isOk)] }
      (match outcome with
      | .ok _ => .succeeded id job
      | .error e => .failed id job e)).Tracked := by
  have hgrows : pool.world.Grows
      { pool.world with processed := pool.world.processed ++ [(job, outcome.isOk)] } :=
    { QueueWorld.Grows.refl pool.world with processed := List.subset_append_left _ _ }
  have hclaimed := h.claimed i id job (by rw [hi]; rfl)
  refine h.move (fun _ _ => hgrows.getElem?) hgrows.processed h.delivered_le
    (fun id' job' hphase => ?_) (fun id' job' hphase => ?_)
    (hgrows.noneLost h.noneLost fun job' hmem hnew => absurd hmem hnew)
  · obtain ⟨rfl, rfl⟩ : id = id' ∧ job = job' := by
      cases outcome <;> simpa [Phase.unacked?] using hphase
    exact hclaimed
  · cases outcome with
    | error e => simp at hphase
    | ok _ =>
      obtain ⟨rfl, rfl⟩ : id = id' ∧ job = job' := by simpa using hphase
      exact List.mem_append_right _ (List.mem_singleton.mpr rfl)

/-- A worker acknowledges a message it processed successfully. -/
theorem ack (h : pool.Tracked) {i : ι} {id : MessageId} {job : EvaluationJob}
    (hi : pool.phase i = .succeeded id job) :
    (pool.move i { pool.world with redis := pool.world.redis.xack id }
      (.returned true)).Tracked := by
  have hclaimed := h.claimed i id job (by rw [hi]; rfl)
  have hdone := h.succeeded i id job hi
  refine h.move (fun _ _ hjob => hjob) (List.Subset.refl _) h.delivered_le
    (fun _ _ hphase => by simp [Phase.unacked?] at hphase) (fun _ _ hphase => by simp at hphase)
    fun job' hmem => ?_
  rcases h.noneLost job' hmem with hdone' | hundelivered | ⟨entry, hentry, copy, hcopy, hkey⟩ |
    hdead
  · exact .inl hdone'
  · exact .inr (.inl hundelivered)
  · by_cases hid : entry.1 = id
    · -- the message that is acknowledged is the one that was processed
      obtain rfl : copy = job := by
        rw [hid] at hcopy
        exact Option.some.inj (hcopy.symm.trans hclaimed)
      exact .inl ⟨_, hdone, hkey, rfl⟩
    · exact .inr (.inr (.inl ⟨entry, List.mem_filter.mpr ⟨hentry, by simpa using hid⟩, copy,
        hcopy, hkey⟩))
  · exact .inr (.inr (.inr hdead))

end Pool.Tracked

/-! ## The runs that keep it -/

section

variable [DecidableEq ι] [Interpreter] {queue : Queue} {consumer : ι → Consumer}

/-- **Step lemma**: every move but the acknowledgement of a failure keeps track of every job. -/
theorem Pool.Tracked.step {pool pool' : Pool ι} {move : WorkerMove ι} (h : pool.Tracked)
    (hstep : Pool.Step queue consumer move pool pool')
    (hmove : ¬ AcksFailure queue (pool.workers queue consumer) move) : pool'.Tracked := by
  cases hstep with
  | again => exact h.move_same rfl
  | poll => exact h.move_same rfl
  | crash => exact h.move_same rfl
  | enqueue _ job =>
    obtain ⟨hdelivered, hnone⟩ := h.xadd job
    obtain ⟨hgrows, -⟩ := QueueWorld.grows_xadd job h.delivered_le
    exact ⟨hdelivered, fun i id job' hi => hgrows.getElem? (h.claimed i id job' hi), h.succeeded,
      hnone⟩
  | @issue _ i outcome phase world hphase =>
    cases hi : pool.phase i with
    | claiming =>
      cases hundelivered : pool.world.redis.undelivered with
      | nil =>
        simp only [hi, Phase.step, hundelivered, Option.some.injEq, Prod.mk.injEq] at hphase
        obtain ⟨rfl, rfl⟩ := hphase
        exact h.move_same rfl
      | cons job jobs =>
        simp only [hi, Phase.step, hundelivered, Option.some.injEq, Prod.mk.injEq] at hphase
        obtain ⟨rfl, rfl⟩ := hphase
        exact h.claim i (consumer i) hundelivered
    | processing id job =>
      simp only [hi, Phase.step, Option.some.injEq, Prod.mk.injEq] at hphase
      obtain ⟨rfl, rfl⟩ := hphase
      exact h.process hi outcome
    | succeeded id job =>
      rw [hi, Phase.step] at hphase
      obtain ⟨rfl, rfl⟩ := Prod.mk.inj (Option.some.inj hphase)
      exact h.ack hi
    | failed id job e =>
      refine absurd ⟨id, job, e, ?_⟩ hmove
      change (pool.phase i).program queue (consumer i) = _
      rw [hi]
      rfl
    | retrying job e =>
      rw [hi, Phase.step] at hphase
      split at hphase
      · obtain ⟨rfl, rfl⟩ := Prod.mk.inj (Option.some.inj hphase)
        have hgrows : pool.world.Grows { pool.world with
            redis := pool.world.redis.xaddDead ⟨job, errorLine e, job.attempt⟩ } :=
          { QueueWorld.Grows.refl pool.world with dead := List.subset_append_left _ _ }
        exact h.move_idle hgrows h.delivered_le
          (hgrows.noneLost h.noneLost fun job' hmem hnew => absurd hmem hnew) rfl
      · obtain ⟨rfl, rfl⟩ := Prod.mk.inj (Option.some.inj hphase)
        exact h.move_same rfl
    | waited job =>
      rw [hi, Phase.step] at hphase
      obtain ⟨rfl, rfl⟩ := Prod.mk.inj (Option.some.inj hphase)
      obtain ⟨hdelivered, hnone⟩ := h.xadd job.retried
      obtain ⟨hgrows, -⟩ := QueueWorld.grows_xadd job.retried h.delivered_le
      exact h.move_idle hgrows hdelivered hnone rfl
    | returned didWork => simp [hi, Phase.step] at hphase
    | crashed => simp [hi, Phase.step] at hphase

/-- **No job is lost in a run that acknowledges no failure**: for any number of workers, any
interleaving of their commands, any crashes and any jobs that are enqueued meanwhile. -/
theorem noneLost_of_execution {moves : List (WorkerMove ι)} {t : Workers ι}
    (h : Execution
      (fun move t t' => WorkerStep queue consumer move t t' ∧ ¬ AcksFailure queue t move)
      (Workers.initial queue consumer {}) moves t) : t.shared.NoneLost := by
  have hinit : (Pool.initial {} : Pool ι).Tracked :=
    { delivered_le := le_rfl
      claimed := fun _ _ _ hi => by simp [Pool.initial, Phase.unacked?] at hi
      succeeded := fun _ _ _ hi => by simp [Pool.initial] at hi
      noneLost := fun job hmem => by simp [Pool.initial] at hmem }
  have hpool : ∃ pool : Pool ι, t = pool.workers queue consumer ∧ pool.Tracked := by
    refine Execution.invariant
      (P := fun _ t => ∃ pool : Pool ι, t = pool.workers queue consumer ∧ pool.Tracked)
      h ⟨Pool.initial {}, rfl, hinit⟩ ?_
    rintro _ move _ u' ⟨pool, rfl, htracked⟩ ⟨hstep, hmove⟩
    obtain ⟨pool', hstep', rfl⟩ := hstep.pool
    exact ⟨pool', rfl, htracked.step hstep' hmove⟩
  obtain ⟨pool, rfl, htracked⟩ := hpool
  exact htracked.noneLost

end

/-! ### A failed job, acknowledged -/

/-- The workers of a closed run: one, on an empty queue. -/
def loneWorker : Workers Unit := @Workers.initial Unit cpython {} (fun _ => "worker") {}

/-- A failure of `process_job`. -/
def connectionLost : PyError := .other "OperationalError" "connection lost"

/-- A job fails, its message is acknowledged, and the worker dies before it adds the job again. -/
theorem not_noneLost_of_crash :
    ∃ t, Execution (@WorkerStep Unit _ cpython {} fun _ => "worker") loneWorker
      [.enqueue seedJob, .issue (), .issue (), .issue (), .crash ()] t ∧ ¬ t.shared.NoneLost := by
  let _ := cpython
  refine ⟨_, .snoc (.snoc (.snoc (.snoc (.snoc (.nil _) (.enqueue _ _)) (.issue rfl (.ok ())))
    (.issue rfl (.error connectionLost))) (.issue rfl (.ok ()))) (.crash _ _), ?_⟩
  decide

/-- A job that is claimed and processed. -/
theorem noneLost_of_execution_processed :
    ∃ t : Workers Unit, t.shared.processed = [(seedJob, true)] ∧ t.shared.NoneLost := by
  let _ := cpython
  refine ⟨_, ?_, @noneLost_of_execution Unit _ cpython {} (fun _ => "worker") _ _
    (.snoc (.snoc (.snoc (.nil loneWorker) ⟨.enqueue _ seedJob, id⟩)
      ⟨.issue (i := ()) rfl (.ok ()), ?_⟩) ⟨.issue (i := ()) rfl (.ok ()), ?_⟩)⟩
  · rfl
  · rintro ⟨id, job, e, h⟩
    cases h
  · rintro ⟨id, job, e, h⟩
    cases h

end AgentProof
