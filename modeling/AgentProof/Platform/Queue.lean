import AgentProof.Machinery.Prog
import AgentProof.Platform.Schemas

/-!
# Platform/Queue — the evaluation job queue

`app.queue.Queue` over a Redis stream with one consumer group.  Every method is a program of Redis
commands, each of them atomic; what happens between two commands of a worker is up to the other
workers.

A message is numbered by its position in the stream.  Its payload, the JSON text of a job, is the
job itself.
-/

open Machinery

namespace AgentProof

/-- `app.queue.EvaluationJob`; `attempt` is declared `ge=1`. -/
structure EvaluationJob where
  executionId : UUID
  agentVersionId : UUID
  taskId : String
  attempt : ℕ := 1
  attempt_pos : 1 ≤ attempt := by decide
  deriving DecidableEq

/-- `job.model_copy(update={"attempt": job.attempt + 1})` -/
def EvaluationJob.retried (job : EvaluationJob) : EvaluationJob :=
  { job with attempt := job.attempt + 1, attempt_pos := Nat.le_add_left 1 job.attempt }

/-- The job a message is about, whatever its attempt. -/
def EvaluationJob.key (job : EvaluationJob) : EvaluationJob :=
  { job with attempt := 1, attempt_pos := le_rfl }

@[simp] theorem EvaluationJob.key_retried (job : EvaluationJob) : job.retried.key = job.key := rfl

/-- A message is its job and its attempt. -/
theorem EvaluationJob.ext_key {job job' : EvaluationJob} (hkey : job.key = job'.key)
    (hattempt : job.attempt = job'.attempt) : job = job' := by
  cases job
  cases job'
  simp only [key, mk.injEq, and_true] at hkey hattempt ⊢
  exact ⟨hkey.1, hkey.2.1, hkey.2.2, hattempt⟩

/-! ## Redis -/

/-- A message's position in its stream. -/
abbrev MessageId := ℕ

/-- A consumer of the group. -/
abbrev Consumer := String

/-- An entry of the dead-letter stream. -/
structure DeadLetter where
  job : EvaluationJob
  error : String
  attempts : ℕ
  deriving DecidableEq

/-- What Redis keeps: the stream with the jobs ever added, the number of its entries the group was
handed, those of them that are not acknowledged, and the dead-letter stream. -/
structure Redis where
  stream : List EvaluationJob := []
  delivered : ℕ := 0
  pending : List (MessageId × Consumer) := []
  dead : List DeadLetter := []
  deriving DecidableEq

namespace Redis

/-- The entries no consumer has been handed. -/
def undelivered (redis : Redis) : List EvaluationJob := redis.stream.drop redis.delivered

/-- `XADD` to the job stream. -/
def xadd (job : EvaluationJob) (redis : Redis) : MessageId × Redis :=
  (redis.stream.length, { redis with stream := redis.stream ++ [job] })

/-- `XADD` to the dead-letter stream. -/
def xaddDead (letter : DeadLetter) (redis : Redis) : Redis :=
  { redis with dead := redis.dead ++ [letter] }

/-- `XREADGROUP … COUNT 1 STREAMS … >`: the next entry, which becomes pending. -/
def xreadgroup (consumer : Consumer) (redis : Redis) :
    Option (MessageId × EvaluationJob) × Redis :=
  match redis.undelivered with
  | [] => (none, redis)
  | job :: _ =>
    (some (redis.delivered, job),
      { redis with
        delivered := redis.delivered + 1
        pending := redis.pending ++ [(redis.delivered, consumer)] })

/-- `XACK` -/
def xack (id : MessageId) (redis : Redis) : Redis :=
  { redis with pending := redis.pending.filter fun entry => entry.1 ≠ id }

end Redis

/-! ## The commands of a worker -/

/-- What a worker does that another worker can notice: a Redis command, a pause, and the processing
of a job, which ends well or badly. -/
inductive QueueCommand where
  | xadd (job : EvaluationJob)
  | xaddDead (letter : DeadLetter)
  | xreadgroup (consumer : Consumer)
  | xack (id : MessageId)
  | sleep (seconds : ℕ)
  | process (job : EvaluationJob)

/-- What a command returns. -/
abbrev QueueCommand.Resp : QueueCommand → Type
  | .xadd _ => MessageId
  | .xreadgroup _ => Option (MessageId × EvaluationJob)
  | .xaddDead _ | .xack _ | .sleep _ | .process _ => Unit

/-- Redis, and the outcomes of the jobs that were processed, in order. -/
structure QueueWorld where
  redis : Redis := {}
  processed : List (EvaluationJob × Bool) := []

/-- The answer to a command.  The circumstances are how `process_job` ends. -/
def QueueWorld.handle : Prog.Handler PyError QueueCommand QueueCommand.Resp (Except PyError Unit)
    QueueWorld := fun outcome c world =>
  match c with
  | .xadd job => (.ok (world.redis.xadd job).1, { world with redis := (world.redis.xadd job).2 })
  | .xaddDead letter => (.ok (), { world with redis := world.redis.xaddDead letter })
  | .xreadgroup consumer =>
    (.ok (world.redis.xreadgroup consumer).1,
      { world with redis := (world.redis.xreadgroup consumer).2 })
  | .xack id => (.ok (), { world with redis := world.redis.xack id })
  | .sleep _ => (.ok (), world)
  | .process job => (outcome, { world with processed := world.processed ++ [(job, outcome.isOk)] })

/-! ## `Queue` -/

/-- A computation of the queue. -/
abbrev QueueProg := Prog PyError QueueCommand QueueCommand.Resp

/-- `app.queue.Queue`, beside its connection. -/
structure Queue where
  maxAttempts : ℕ := 3

namespace Queue

/-- `Queue.enqueue` -/
def enqueue (job : EvaluationJob) : QueueProg MessageId := .perform (QueueCommand.xadd job)

/-- `Queue.claim` -/
def claim (consumer : Consumer) : QueueProg (Option (MessageId × EvaluationJob)) :=
  .perform (QueueCommand.xreadgroup consumer)

/-- `Queue.ack` -/
def ack (id : MessageId) : QueueProg Unit := .perform (QueueCommand.xack id)

/-- `Queue.retry_or_deadletter` -/
def retryOrDeadletter (queue : Queue) (id : MessageId) (job : EvaluationJob) (error : String) :
    QueueProg Bool := do
  ack id
  if queue.maxAttempts ≤ job.attempt then
    let _ ← Prog.perform (QueueCommand.xaddDead { job, error, attempts := job.attempt })
    return false
  else
    let _ ← Prog.perform (QueueCommand.sleep (min (2 ^ (job.attempt - 1)) 30))
    let _ ← enqueue job.retried
    return true

end Queue

end AgentProof
