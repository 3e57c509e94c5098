import AgentProof.Runner.Delivery

/-!
# Runner/Ledger — the ledger a pool of workers keeps

Workers that do not crash drain a queue.  A retry is a new message, so one job is a chain of messages
whose attempt travels in the payload.  The abstract state of a job is its `Status`: where its chain
ends, and at which attempt.

`Pool.Accounts` says that a pool refines a ledger of statuses.  Every command of a worker changes the
status of at most one job (`Pool.Accounts.step`), so the pool refines a ledger throughout.
-/

open Machinery Machinery.Prog

namespace AgentProof

variable {ι : Type}

/-! ## The ledger -/

/-- Where a job is. -/
inductive Place (ι : Type) where
  | undelivered
  | held (i : ι)
  | succeeded
  | deadLettered
  deriving DecidableEq

/-- How far a job is, with the attempt its newest message carries. -/
inductive Status (ι : Type) where
  | undelivered (attempt : ℕ)
  | processing (i : ι) (attempt : ℕ)
  | passed (i : ι) (attempt : ℕ)
  | failing (i : ι) (attempt : ℕ)
  | succeeded (attempt : ℕ)
  | deadLettered (attempt : ℕ)

namespace Status

/-- The attempt of the newest message. -/
def attempt : Status ι → ℕ
  | .undelivered a | .processing _ a | .passed _ a | .failing _ a | .succeeded a
  | .deadLettered a => a

/-- The place of the job. -/
def place : Status ι → Place ι
  | .undelivered _ => .undelivered
  | .processing i _ | .passed i _ | .failing i _ => .held i
  | .succeeded _ => .succeeded
  | .deadLettered _ => .deadLettered

/-- How its processings ended, in order. -/
def outcomes : Status ι → List Bool
  | .undelivered a | .processing _ a => List.replicate (a - 1) false
  | .passed _ a | .succeeded a => List.replicate (a - 1) false ++ [true]
  | .failing _ a | .deadLettered a => List.replicate a false

/-- The attempt of the message that waits in the stream. -/
def waiting? : Status ι → Option ℕ
  | .undelivered a => some a
  | _ => none

/-- The job is dead-lettered. -/
def isDead : Status ι → Bool
  | .deadLettered _ => true
  | _ => false

/-- No more attempts than permitted, and dead only after the last one. -/
def Valid (maxAttempts : ℕ) (s : Status ι) : Prop :=
  1 ≤ s.attempt ∧ s.attempt ≤ maxAttempts ∧ (s.isDead = true → s.attempt = maxAttempts)

/-- A job is processed at most as often as its attempts allow. -/
theorem length_outcomes_le {maxAttempts : ℕ} {s : Status ι} (h : s.Valid maxAttempts) :
    s.outcomes.length ≤ maxAttempts := by
  obtain ⟨hpos, hle, -⟩ := h
  cases s <;> simp [outcomes, attempt] at hpos hle ⊢ <;> omega

end Status

/-- The message of a job that carries an attempt. -/
def EvaluationJob.withAttempt (job : EvaluationJob) (attempt : ℕ) (h : 1 ≤ attempt) :
    EvaluationJob :=
  { job with attempt := attempt, attempt_pos := h }

/-- The outcomes of a job's processings, in order. -/
def QueueWorld.outcomes (world : QueueWorld) (job : EvaluationJob) : List Bool :=
  (world.processed.filter fun recorded => recorded.1.key = job).map Prod.snd

namespace Phase

/-- The message a worker is busy with. -/
def job? : Phase → Option EvaluationJob
  | .processing _ job | .succeeded _ job | .failed _ job _ | .retrying job _ | .waited job =>
    some job
  | .claiming | .returned _ | .crashed => none

/-- The job a worker is busy with, and its status. -/
def status? (i : ι) : Phase → Option (EvaluationJob × Status ι)
  | .processing _ job => some (job.key, .processing i job.attempt)
  | .succeeded _ job => some (job.key, .passed i job.attempt)
  | .failed _ job _ | .retrying job _ | .waited job => some (job.key, .failing i job.attempt)
  | .claiming | .returned _ | .crashed => none

theorem place_of_status? {i : ι} {phase : Phase} {job : EvaluationJob} {s : Status ι}
    (h : phase.status? i = some (job, s)) : s.place = .held i := by
  cases phase <;> simp [status?] at h <;> rw [← h.2] <;> rfl

theorem status?_of_job? {i : ι} {phase : Phase} {job : EvaluationJob}
    (h : phase.job? = some job) : ∃ s, phase.status? i = some (job.key, s) := by
  cases phase <;> simp [job?] at h <;> subst h <;> exact ⟨_, rfl⟩

theorem job?_of_status? {i : ι} {phase : Phase} {job : EvaluationJob} {s : Status ι}
    (h : phase.status? i = some (job, s)) : ∃ copy, phase.job? = some copy ∧ copy.key = job := by
  cases phase <;> simp [status?] at h <;> exact ⟨_, rfl, h.1⟩

theorem job?_of_unacked? {phase : Phase} {id : MessageId} {job : EvaluationJob}
    (h : phase.unacked? = some (id, job)) : phase.job? = some job := by
  cases phase <;> simp [unacked?] at h <;> rw [← h.2] <;> rfl

end Phase

/-! ## The pool refines the ledger -/

/-- The workers hold the jobs the ledger says they hold. -/
structure Holds (jobs : List EvaluationJob) (phase : ι → Phase) (status : EvaluationJob → Status ι) :
    Prop where
  held : ∀ i job s, (phase i).status? i = some (job, s) → job ∈ jobs ∧ status job = s
  holder : ∀ job ∈ jobs, ∀ i, (status job).place = .held i →
    (phase i).status? i = some (job, status job)

/-- Redis and the outcomes are what the ledger says. -/
structure Booked (jobs : List EvaluationJob) (world : QueueWorld)
    (status : EvaluationJob → Status ι) : Prop where
  delivered_le : world.redis.delivered ≤ world.redis.stream.length
  keys : ∀ copy ∈ world.redis.stream, copy.key ∈ jobs
  copies : ∀ job ∈ jobs, (world.redis.stream.map EvaluationJob.key).count job =
    (status job).attempt
  undelivered_nodup : (world.redis.undelivered.map EvaluationJob.key).Nodup
  undelivered_iff : ∀ copy, copy.key ∈ jobs →
    (copy ∈ world.redis.undelivered ↔ (status copy.key).waiting? = some copy.attempt)
  dead_keys : ∀ letter ∈ world.redis.dead, letter.job.key ∈ jobs
  dead_nodup : (world.redis.dead.map fun letter => letter.job.key).Nodup
  dead_iff : ∀ job ∈ jobs, (∃ letter ∈ world.redis.dead, letter.job.key = job) ↔
    (status job).isDead = true
  outcomes : ∀ job ∈ jobs, world.outcomes job = (status job).outcomes

/-- The pending messages are those the workers have claimed and not acknowledged. -/
structure Claimed (redis : Redis) (phase : ι → Phase) : Prop where
  unacked : ∀ i id job, (phase i).unacked? = some (id, job) →
    redis.stream[id]? = some job ∧ ∃ entry ∈ redis.pending, entry.1 = id
  pending : ∀ entry ∈ redis.pending, ∃ i job, (phase i).unacked? = some (entry.1, job)

/-- **The refinement**: the pool is in the state the ledger describes. -/
structure Pool.Accounts (maxAttempts : ℕ) (jobs : List EvaluationJob) (pool : Pool ι)
    (status : EvaluationJob → Status ι) : Prop where
  valid : ∀ job ∈ jobs, (status job).Valid maxAttempts
  holds : Holds jobs pool.phase status
  booked : Booked jobs pool.world status
  claimed : Claimed pool.world.redis pool.phase
  waited : ∀ i job, pool.phase i = .waited job → job.attempt < maxAttempts
  running : ∀ i, pool.phase i ≠ .crashed

/-! ### One entry of the ledger -/

section

variable {jobs : List EvaluationJob} {status : EvaluationJob → Status ι} {job : EvaluationJob}
  {s : Status ι}

/-- What an entry does not change can be read off the old ledger. -/
theorem update_observed {β : Type} (f : Status ι → β) (h : f s = f (status job))
    (other : EvaluationJob) : f (Function.update status job s other) = f (status other) := by
  by_cases hother : other = job
  · subst hother
    rw [Function.update_self, h]
  · rw [Function.update_of_ne hother]

/-- **One worker moves, and with it the entry of the job it holds, takes or gives back.** -/
theorem Holds.move [DecidableEq ι] {phase : ι → Phase} (h : Holds jobs phase status) {i : ι}
    {phase' : Phase} (hjob : job ∈ jobs)
    (hold : (phase i).status? i = some (job, status job) ∨
      (phase i).status? i = none ∧ ∀ k, (status job).place ≠ .held k)
    (hnew : phase'.status? i = some (job, s) ∨
      phase'.status? i = none ∧ ∀ k, s.place ≠ .held k) :
    Holds jobs (Function.update phase i phase') (Function.update status job s) where
  held k other s' hk := by
    by_cases hki : k = i
    · subst hki
      rw [Function.update_self] at hk
      rcases hnew with hnew | ⟨hnew, -⟩
      · obtain ⟨rfl, rfl⟩ := Prod.mk.inj (Option.some.inj (hnew.symm.trans hk))
        exact ⟨hjob, Function.update_self ..⟩
      · exact absurd (hnew.symm.trans hk) (by simp)
    · rw [Function.update_of_ne hki] at hk
      obtain ⟨hmem, hstatus⟩ := h.held k other s' hk
      have hplace : s'.place = .held k := Phase.place_of_status? hk
      have hother : other ≠ job := by
        rintro rfl
        rcases hold with hold | ⟨-, hold⟩
        · have hplace' := Phase.place_of_status? hold
          rw [hstatus, hplace] at hplace'
          exact hki (Place.held.inj hplace')
        · exact hold k (hstatus ▸ hplace)
      exact ⟨hmem, by rw [Function.update_of_ne hother, hstatus]⟩
  holder other hother k hk := by
    by_cases hjob' : other = job
    · subst hjob'
      rw [Function.update_self] at hk ⊢
      rcases hnew with hnew | ⟨-, hnew⟩
      · have hplace := Phase.place_of_status? hnew
        obtain rfl : k = i := Place.held.inj (hk.symm.trans hplace)
        rw [Function.update_self]
        exact hnew
      · exact absurd hk (hnew k)
    · rw [Function.update_of_ne hjob'] at hk ⊢
      have hholder := h.holder other hother k hk
      have hki : k ≠ i := by
        rintro rfl
        rcases hold with hold | ⟨hold, -⟩
        · exact hjob' (Prod.mk.inj (Option.some.inj (hholder.symm.trans hold))).1
        · exact absurd (hold.symm.trans hholder) (by simp)
      rw [Function.update_of_ne hki]
      exact hholder

/-- A worker that holds nothing, before and after. -/
theorem Holds.idle [DecidableEq ι] {phase : ι → Phase} (h : Holds jobs phase status) {i : ι}
    {phase' : Phase} (hold : (phase i).status? i = none) (hnew : phase'.status? i = none) :
    Holds jobs (Function.update phase i phase') status where
  held k other s' hk := by
    by_cases hki : k = i
    · subst hki
      rw [Function.update_self] at hk
      exact absurd (hnew.symm.trans hk) (by simp)
    · rw [Function.update_of_ne hki] at hk
      exact h.held k other s' hk
  holder other hother k hk := by
    have hholder := h.holder other hother k hk
    have hki : k ≠ i := by
      rintro rfl
      exact absurd (hold.symm.trans hholder) (by simp)
    rw [Function.update_of_ne hki]
    exact hholder

namespace Booked

variable {world : QueueWorld}

/-- An entry that says the same about Redis and the outcomes. -/
theorem relabel (h : Booked jobs world status) (hattempt : s.attempt = (status job).attempt)
    (hwaiting : s.waiting? = (status job).waiting?) (hdead : s.isDead = (status job).isDead)
    (houtcomes : s.outcomes = (status job).outcomes) :
    Booked jobs world (Function.update status job s) where
  delivered_le := h.delivered_le
  keys := h.keys
  copies other hother := by rw [update_observed _ hattempt, h.copies other hother]
  undelivered_nodup := h.undelivered_nodup
  undelivered_iff copy hcopy := by rw [update_observed _ hwaiting, h.undelivered_iff copy hcopy]
  dead_keys := h.dead_keys
  dead_nodup := h.dead_nodup
  dead_iff other hother := by rw [update_observed _ hdead, h.dead_iff other hother]
  outcomes other hother := by rw [update_observed _ houtcomes, h.outcomes other hother]

/-- An acknowledgement is not booked. -/
theorem xack (h : Booked jobs world status) (id : MessageId) :
    Booked jobs { world with redis := world.redis.xack id } status :=
  ⟨h.delivered_le, h.keys, h.copies, h.undelivered_nodup, h.undelivered_iff, h.dead_keys,
    h.dead_nodup, h.dead_iff, h.outcomes⟩

/-- What the ledger says of a message nobody was handed. -/
theorem of_undelivered (h : Booked jobs world status) (copy : EvaluationJob)
    (hmem : copy ∈ world.redis.undelivered) :
    copy.key ∈ jobs ∧ status copy.key = .undelivered copy.attempt := by
  have hkey : copy.key ∈ jobs := h.keys copy (List.mem_of_mem_drop hmem)
  have hwaiting := (h.undelivered_iff copy hkey).mp hmem
  refine ⟨hkey, ?_⟩
  cases hs : status copy.key <;> simp [hs, Status.waiting?] at hwaiting ⊢
  exact hwaiting

/-- The next message is handed out. -/
theorem xreadgroup (h : Booked jobs world status) {copy : EvaluationJob}
    {rest : List EvaluationJob} (hundelivered : world.redis.undelivered = copy :: rest)
    (consumer : Consumer) (i : ι) :
    Booked jobs { world with redis := (world.redis.xreadgroup consumer).2 }
      (Function.update status copy.key (.processing i copy.attempt)) := by
  have hrest : world.redis.stream.drop (world.redis.delivered + 1) = rest := by
    rw [← List.tail_drop]
    exact congrArg List.tail hundelivered
  have hget : world.redis.stream[world.redis.delivered]? = some copy := by
    rw [← List.head?_drop]
    exact congrArg List.head? hundelivered
  have hlt := (List.getElem?_eq_some_iff.mp hget).1
  obtain ⟨hkey, hstatus⟩ := h.of_undelivered copy (by rw [hundelivered]; simp)
  have hnodup := h.undelivered_nodup
  rw [hundelivered, List.map_cons, List.nodup_cons] at hnodup
  simp only [Redis.xreadgroup, hundelivered]
  refine ⟨hlt, h.keys, fun other hother => ?_, ?_, fun other hother => ?_, h.dead_keys,
    h.dead_nodup, fun other hother => ?_, fun other hother => ?_⟩
  · rw [update_observed Status.attempt (by rw [hstatus]; rfl), h.copies other hother]
  · rw [Redis.undelivered, hrest]
    exact hnodup.2
  · rw [Redis.undelivered, hrest]
    by_cases hother' : other.key = copy.key
    · rw [hother', Function.update_self]
      refine ⟨fun hmem => absurd ?_ hnodup.1, fun hnone => by simp [Status.waiting?] at hnone⟩
      rw [← hother']
      exact List.mem_map_of_mem hmem
    · rw [Function.update_of_ne hother', ← h.undelivered_iff other hother, hundelivered,
        List.mem_cons]
      refine (or_iff_right ?_).symm
      rintro rfl
      exact hother' rfl
  · rw [update_observed Status.isDead (by rw [hstatus]; rfl), h.dead_iff other hother]
  · rw [update_observed Status.outcomes (by rw [hstatus]; rfl)]
    exact h.outcomes other hother

/-- A processing ends. -/
theorem process (h : Booked jobs world status) {copy : EvaluationJob} {ok : Bool}
    (hkey : copy.key = job)
    (hattempt : s.attempt = (status job).attempt)
    (hwaiting : s.waiting? = (status job).waiting?) (hdead : s.isDead = (status job).isDead)
    (houtcomes : s.outcomes = (status job).outcomes ++ [ok]) :
    Booked jobs { world with processed := world.processed ++ [(copy, ok)] }
      (Function.update status job s) where
  delivered_le := h.delivered_le
  keys := h.keys
  copies other hother := by rw [update_observed _ hattempt]; exact h.copies other hother
  undelivered_nodup := h.undelivered_nodup
  undelivered_iff other hother := by
    rw [update_observed _ hwaiting]
    exact h.undelivered_iff other hother
  dead_keys := h.dead_keys
  dead_nodup := h.dead_nodup
  dead_iff other hother := by rw [update_observed _ hdead]; exact h.dead_iff other hother
  outcomes other hother := by
    by_cases hother' : other = job
    · subst hother'
      rw [Function.update_self, houtcomes, ← h.outcomes other hother]
      simp [QueueWorld.outcomes, List.filter_append, hkey]
    · rw [Function.update_of_ne hother', ← h.outcomes other hother]
      have hne : copy.key ≠ other := fun heq => hother' (heq.symm.trans hkey)
      simp [QueueWorld.outcomes, List.filter_append, hne]

/-- A job that failed for the last time is dead-lettered. -/
theorem xaddDead (h : Booked jobs world status) (letter : DeadLetter) {i : ι}
    (hkey : letter.job.key = job) (hjob : job ∈ jobs)
    (hstatus : status job = .failing i letter.job.attempt) :
    Booked jobs { world with redis := world.redis.xaddDead letter }
      (Function.update status job (.deadLettered letter.job.attempt)) where
  delivered_le := h.delivered_le
  keys := h.keys
  copies other hother := by
    rw [update_observed Status.attempt (by rw [hstatus]; rfl)]
    exact h.copies other hother
  undelivered_nodup := h.undelivered_nodup
  undelivered_iff other hother := by
    rw [update_observed Status.waiting? (by rw [hstatus]; rfl)]
    exact h.undelivered_iff other hother
  dead_keys letter' hmem := by
    rcases List.mem_append.mp hmem with hmem | hmem
    · exact h.dead_keys letter' hmem
    · rw [List.mem_singleton.mp hmem, hkey]
      exact hjob
  dead_nodup := by
    have hnew : job ∉ world.redis.dead.map fun letter => letter.job.key := by
      intro hmem
      obtain ⟨letter', hmem', hletter⟩ := List.mem_map.mp hmem
      have hdead := (h.dead_iff job hjob).mp ⟨letter', hmem', hletter⟩
      rw [hstatus] at hdead
      exact absurd hdead (by simp [Status.isDead])
    simp only [Redis.xaddDead, List.map_append, List.map_cons, List.map_nil, hkey]
    exact List.nodup_append.mpr ⟨h.dead_nodup, List.nodup_singleton _, by
      rintro _ hmem _ hjob' rfl
      rw [List.mem_singleton.mp hjob'] at hmem
      exact hnew hmem⟩
  dead_iff other hother := by
    by_cases hother' : other = job
    · subst hother'
      rw [Function.update_self]
      exact ⟨fun _ => rfl, fun _ => ⟨letter, List.mem_append_right _ (by simp), hkey⟩⟩
    · rw [Function.update_of_ne hother', ← h.dead_iff other hother]
      refine ⟨fun ⟨letter', hmem, hletter⟩ => ?_, fun ⟨letter', hmem, hletter⟩ =>
        ⟨letter', List.mem_append_left _ hmem, hletter⟩⟩
      rcases List.mem_append.mp hmem with hmem | hmem
      · exact ⟨letter', hmem, hletter⟩
      · rw [List.mem_singleton.mp hmem] at hletter
        exact absurd (hletter.symm.trans hkey) hother'
  outcomes other hother := by
    rw [update_observed Status.outcomes (by rw [hstatus]; rfl)]
    exact h.outcomes other hother

/-- A job that failed is added once more. -/
theorem xadd (h : Booked jobs world status) {copy : EvaluationJob} {i : ι}
    (hkey : copy.key = job) (hjob : job ∈ jobs) (hstatus : status job = .failing i copy.attempt) :
    Booked jobs (world.xadd copy.retried)
      (Function.update status job (.undelivered (copy.attempt + 1))) := by
  have hundelivered : (world.xadd copy.retried).redis.undelivered =
      world.redis.undelivered ++ [copy.retried] :=
    List.drop_append_of_le_length h.delivered_le
  have hkey' : copy.retried.key = job := hkey
  have hnone : ∀ other ∈ world.redis.undelivered, other.key ≠ job := by
    intro other hmem hother
    have hwaiting := (h.undelivered_iff other (hother ▸ hjob)).mp hmem
    rw [hother, hstatus] at hwaiting
    exact absurd hwaiting (by simp [Status.waiting?])
  refine ⟨h.delivered_le.trans (by simp [QueueWorld.xadd, Redis.xadd]), ?_, fun other hother => ?_,
    ?_, fun other hother => ?_, h.dead_keys, h.dead_nodup, fun other hother => ?_,
    fun other hother => ?_⟩
  · intro other hmem
    rcases List.mem_append.mp hmem with hmem | hmem
    · exact h.keys other hmem
    · rw [List.mem_singleton.mp hmem, hkey']
      exact hjob
  · have hcount := h.copies other hother
    simp only [QueueWorld.xadd, Redis.xadd, List.map_append, List.map_cons, List.map_nil, hkey',
      List.count_append]
    by_cases hother' : other = job
    · subst hother'
      rw [Function.update_self, hcount, hstatus]
      simp [Status.attempt]
    · rw [Function.update_of_ne hother', hcount, List.count_singleton]
      simp [Ne.symm hother']
  · rw [hundelivered, List.map_append, List.map_cons, List.map_nil, hkey']
    refine List.nodup_append.mpr ⟨h.undelivered_nodup, List.nodup_singleton _, ?_⟩
    rintro _ hmem _ hjob' rfl
    obtain ⟨other, hmem', hother⟩ := List.mem_map.mp hmem
    exact hnone other hmem' (hother.trans (List.mem_singleton.mp hjob'))
  · rw [hundelivered, List.mem_append, List.mem_singleton]
    by_cases hother' : other.key = job
    · rw [hother', Function.update_self]
      refine ⟨fun hmem => ?_, fun hattempt => .inr ?_⟩
      · rcases hmem with hmem | rfl
        · exact absurd hother' (hnone other hmem)
        · rfl
      · refine EvaluationJob.ext_key (hother'.trans hkey'.symm) ?_
        exact (Option.some.inj hattempt).symm
    · rw [Function.update_of_ne hother', ← h.undelivered_iff other hother]
      refine or_iff_left ?_
      rintro rfl
      exact hother' hkey'
  · rw [update_observed Status.isDead (by rw [hstatus]; rfl)]
    exact h.dead_iff other hother
  · rw [update_observed Status.outcomes (by rw [hstatus]; simp [Status.outcomes])]
    exact h.outcomes other hother

end Booked

namespace Claimed

variable [DecidableEq ι] {redis : Redis} {phase : ι → Phase}

/-- A worker moves on with the message it had, or without one, and nothing is acknowledged. -/
theorem keep (h : Claimed redis phase) {i : ι} {phase' : Phase} {redis' : Redis}
    (hstream : ∀ (id : MessageId) (job : EvaluationJob), redis.stream[id]? = some job →
      redis'.stream[id]? = some job)
    (hpending : redis'.pending = redis.pending)
    (hsame : phase'.unacked? = (phase i).unacked?) :
    Claimed redis' (Function.update phase i phase') := by
  have hunacked : ∀ k, (Function.update phase i phase' k).unacked? = (phase k).unacked? := by
    intro k
    by_cases hki : k = i
    · subst hki
      rw [Function.update_self, hsame]
    · rw [Function.update_of_ne hki]
  refine ⟨fun k id job hk => ?_, fun entry hmem => ?_⟩
  · rw [hunacked] at hk
    obtain ⟨hjob, hentry⟩ := h.unacked k id job hk
    exact ⟨hstream id job hjob, hpending ▸ hentry⟩
  · rw [hpending] at hmem
    obtain ⟨k, job, hk⟩ := h.pending entry hmem
    exact ⟨k, job, by rw [hunacked, hk]⟩

/-- A worker is handed the next message. -/
theorem xreadgroup (h : Claimed redis phase) {i : ι} (hi : (phase i).unacked? = none)
    {copy : EvaluationJob} {rest : List EvaluationJob}
    (hundelivered : redis.undelivered = copy :: rest) (consumer : Consumer) :
    Claimed (redis.xreadgroup consumer).2
      (Function.update phase i (.processing redis.delivered copy)) := by
  have hget : redis.stream[redis.delivered]? = some copy := by
    rw [← List.head?_drop]
    exact congrArg List.head? hundelivered
  simp only [Redis.xreadgroup, hundelivered]
  refine ⟨fun k id job hk => ?_, fun entry hmem => ?_⟩
  · by_cases hki : k = i
    · subst hki
      rw [Function.update_self] at hk
      obtain ⟨rfl, rfl⟩ := Prod.mk.inj (Option.some.inj hk)
      exact ⟨hget, _, List.mem_append_right _ (List.mem_singleton.mpr rfl), rfl⟩
    · rw [Function.update_of_ne hki] at hk
      obtain ⟨hjob, entry, hmem, hentry⟩ := h.unacked k id job hk
      exact ⟨hjob, entry, List.mem_append_left _ hmem, hentry⟩
  · rcases List.mem_append.mp hmem with hmem | hmem
    · obtain ⟨k, job, hk⟩ := h.pending entry hmem
      have hki : k ≠ i := by
        rintro rfl
        exact absurd (hi.symm.trans hk) (by simp)
      exact ⟨k, job, by rw [Function.update_of_ne hki, hk]⟩
    · rw [List.mem_singleton.mp hmem]
      exact ⟨i, copy, by rw [Function.update_self]; rfl⟩

/-- A worker acknowledges its message, which no other worker holds. -/
theorem xack (h : Claimed redis phase) {i : ι} {id : MessageId} {job : EvaluationJob}
    (hi : (phase i).unacked? = some (id, job))
    (hother : ∀ k, k ≠ i → ∀ job', (phase k).unacked? ≠ some (id, job')) {phase' : Phase}
    (hnone : phase'.unacked? = none) :
    Claimed (redis.xack id) (Function.update phase i phase') := by
  refine ⟨fun k id' job' hk => ?_, fun entry hmem => ?_⟩
  · by_cases hki : k = i
    · subst hki
      rw [Function.update_self] at hk
      exact absurd (hnone.symm.trans hk) (by simp)
    · rw [Function.update_of_ne hki] at hk
      obtain ⟨hjob', entry, hmem, rfl⟩ := h.unacked k id' job' hk
      have hne : entry.1 ≠ id := by
        rintro rfl
        exact hother k hki job' hk
      exact ⟨hjob', entry, List.mem_filter.mpr ⟨hmem, by simpa using hne⟩, rfl⟩
  · obtain ⟨hmem, hne⟩ := List.mem_filter.mp hmem
    obtain ⟨k, job', hk⟩ := h.pending entry hmem
    have hki : k ≠ i := by
      rintro rfl
      obtain ⟨heq, -⟩ := Prod.mk.inj (Option.some.inj (hi.symm.trans hk))
      rw [heq] at hne
      exact absurd hne (by simp)
    exact ⟨k, job', by rw [Function.update_of_ne hki, hk]⟩

end Claimed

end

/-! ### One step of a worker -/

namespace Pool.Accounts

variable {maxAttempts : ℕ} {jobs : List EvaluationJob} {pool : Pool ι}
  {status : EvaluationJob → Status ι}

/-- What the ledger says of the job a worker holds. -/
theorem entry (h : pool.Accounts maxAttempts jobs status) {i : ι} {job : EvaluationJob}
    {s : Status ι} (hi : (pool.phase i).status? i = some (job, s)) :
    job ∈ jobs ∧ status job = s ∧ s.Valid maxAttempts ∧
      (pool.phase i).status? i = some (job, status job) := by
  obtain ⟨hmem, hstatus⟩ := h.holds.held i job s hi
  exact ⟨hmem, hstatus, hstatus ▸ h.valid job hmem, hstatus.symm ▸ hi⟩

/-- No message is held twice. -/
theorem unacked_unique (h : pool.Accounts maxAttempts jobs status) {i k : ι} {id : MessageId}
    {job job' : EvaluationJob} (hi : (pool.phase i).unacked? = some (id, job))
    (hk : (pool.phase k).unacked? = some (id, job')) : k = i := by
  obtain ⟨hjob, -⟩ := h.claimed.unacked i id job hi
  obtain ⟨hjob', -⟩ := h.claimed.unacked k id job' hk
  obtain rfl : job = job' := Option.some.inj (hjob.symm.trans hjob')
  obtain ⟨s, hs⟩ := Phase.status?_of_job? (i := i) (Phase.job?_of_unacked? hi)
  obtain ⟨s', hs'⟩ := Phase.status?_of_job? (i := k) (Phase.job?_of_unacked? hk)
  obtain ⟨-, hstatus⟩ := h.holds.held i _ s hs
  obtain ⟨-, hstatus'⟩ := h.holds.held k _ s' hs'
  have hplace := Phase.place_of_status? hs
  have hplace' := Phase.place_of_status? hs'
  rw [← hstatus', hstatus, hplace] at hplace'
  exact (Place.held.inj hplace').symm

section

variable [DecidableEq ι]

/-- A worker moves on, and one entry of the ledger with it. -/
theorem move (h : pool.Accounts maxAttempts jobs status) {i : ι} {job : EvaluationJob}
    {world : QueueWorld} {phase : Phase} {s : Status ι} (hjob : job ∈ jobs)
    (hvalid : s.Valid maxAttempts)
    (hold : (pool.phase i).status? i = some (job, status job) ∨
      (pool.phase i).status? i = none ∧ ∀ k, (status job).place ≠ .held k)
    (hnew : phase.status? i = some (job, s) ∨
      phase.status? i = none ∧ ∀ k, s.place ≠ .held k)
    (hbooked : Booked jobs world (Function.update status job s))
    (hclaimed : Claimed world.redis (Function.update pool.phase i phase))
    (hwaited : ∀ job, phase = .waited job → job.attempt < maxAttempts)
    (hrunning : phase ≠ .crashed) :
    (pool.move i world phase).Accounts maxAttempts jobs (Function.update status job s) where
  valid other hother := by
    by_cases hother' : other = job
    · subst hother'
      rw [Function.update_self]
      exact hvalid
    · rw [Function.update_of_ne hother']
      exact h.valid other hother
  holds := h.holds.move hjob hold hnew
  booked := hbooked
  claimed := hclaimed
  waited k job' hk := by
    by_cases hki : k = i
    · subst hki
      rw [move_phase_self] at hk
      exact hwaited job' hk
    · rw [move_phase_of_ne _ hki] at hk
      exact h.waited k job' hk
  running k := by
    by_cases hki : k = i
    · subst hki
      rw [move_phase_self]
      exact hrunning
    · rw [move_phase_of_ne _ hki]
      exact h.running k

/-- A worker that holds nothing moves on, before and after. -/
theorem idle (h : pool.Accounts maxAttempts jobs status) {i : ι} {phase : Phase}
    (hold : (pool.phase i).status? i = none) (hnew : phase.status? i = none)
    (hunacked : phase.unacked? = (pool.phase i).unacked?)
    (hwaited : ∀ job, phase ≠ .waited job) (hrunning : phase ≠ .crashed) :
    (pool.move i pool.world phase).Accounts maxAttempts jobs status where
  valid := h.valid
  holds := h.holds.idle hold hnew
  booked := h.booked
  claimed := h.claimed.keep (fun _ _ hjob => hjob) rfl hunacked
  waited k job' hk := by
    by_cases hki : k = i
    · subst hki
      rw [move_phase_self] at hk
      exact absurd hk (hwaited job')
    · rw [move_phase_of_ne _ hki] at hk
      exact h.waited k job' hk
  running k := by
    by_cases hki : k = i
    · subst hki
      rw [move_phase_self]
      exact hrunning
    · rw [move_phase_of_ne _ hki]
      exact h.running k

section Issue

variable [Interpreter] {queue : Queue} {consumer : Consumer} {i : ι} {outcome : Except PyError Unit}
  {phase : Phase} {world : QueueWorld} {id : MessageId} {copy : EvaluationJob}

/-- **A worker claims**: the job it is given is with it. -/
theorem claim (h : pool.Accounts queue.maxAttempts jobs status) (hi : pool.phase i = .claiming)
    (hstep : Phase.claiming.step queue consumer outcome pool.world = some (phase, world)) :
    ∃ status', (pool.move i world phase).Accounts queue.maxAttempts jobs status' := by
  cases hundelivered : pool.world.redis.undelivered with
  | nil =>
    simp only [Phase.step, hundelivered, Option.some.injEq, Prod.mk.injEq] at hstep
    obtain ⟨rfl, rfl⟩ := hstep
    exact ⟨status, h.idle (by rw [hi]; rfl) rfl (by rw [hi]; rfl) (by simp) (by simp)⟩
  | cons copy rest =>
    simp only [Phase.step, hundelivered, Option.some.injEq, Prod.mk.injEq] at hstep
    obtain ⟨rfl, rfl⟩ := hstep
    obtain ⟨hkey, hstatus⟩ := h.booked.of_undelivered copy (by rw [hundelivered]; simp)
    have hvalid := h.valid copy.key hkey
    rw [hstatus] at hvalid
    refine ⟨_, h.move hkey (s := .processing i copy.attempt)
      ⟨hvalid.1, hvalid.2.1, by simp [Status.isDead]⟩
      (.inr ⟨by rw [hi]; rfl, by simp [hstatus, Status.place]⟩) (.inl rfl)
      (h.booked.xreadgroup hundelivered consumer i)
      (h.claimed.xreadgroup (by rw [hi]; rfl) hundelivered consumer) (by simp) (by simp)⟩

/-- **A worker processes a job**: the outcome is one more of the job's. -/
theorem processed (h : pool.Accounts queue.maxAttempts jobs status)
    (hi : pool.phase i = .processing id copy)
    (hstep : (Phase.processing id copy).step queue consumer outcome pool.world =
      some (phase, world)) :
    ∃ status', (pool.move i world phase).Accounts queue.maxAttempts jobs status' := by
  obtain ⟨hkey, hstatus, hvalid, hold⟩ := h.entry (i := i) (by rw [hi]; rfl)
  simp only [Phase.step, Option.some.injEq, Prod.mk.injEq] at hstep
  obtain ⟨rfl, rfl⟩ := hstep
  cases outcome with
  | ok _ =>
    refine ⟨_, h.move hkey (s := .passed i copy.attempt)
      ⟨hvalid.1, hvalid.2.1, by simp [Status.isDead]⟩ (.inl hold) (.inl rfl)
      (h.booked.process rfl ?_ ?_ ?_ ?_)
      (h.claimed.keep (fun _ _ hjob => hjob) rfl (by rw [hi]; rfl)) (by simp) (by simp)⟩ <;>
      rw [hstatus] <;> rfl
  | error e =>
    have hpos : 1 ≤ copy.attempt := hvalid.1
    refine ⟨_, h.move hkey (s := .failing i copy.attempt)
      ⟨hvalid.1, hvalid.2.1, by simp [Status.isDead]⟩ (.inl hold) (.inl rfl)
      (h.booked.process rfl ?_ ?_ ?_ ?_)
      (h.claimed.keep (fun _ _ hjob => hjob) rfl (by rw [hi]; rfl)) (by simp) (by simp)⟩
    · rw [hstatus]; rfl
    · rw [hstatus]; rfl
    · rw [hstatus]; rfl
    · rw [hstatus]
      obtain ⟨n, hn⟩ : ∃ n, copy.attempt = n + 1 := ⟨copy.attempt - 1, by omega⟩
      simp only [Status.outcomes, hn, Nat.add_sub_cancel]
      exact List.replicate_succ'

/-- **A worker acknowledges a job that succeeded.** -/
theorem acknowledged (h : pool.Accounts queue.maxAttempts jobs status)
    (hi : pool.phase i = .succeeded id copy)
    (hstep : (Phase.succeeded id copy).step queue consumer outcome pool.world =
      some (phase, world)) :
    ∃ status', (pool.move i world phase).Accounts queue.maxAttempts jobs status' := by
  obtain ⟨hkey, hstatus, hvalid, hold⟩ := h.entry (i := i) (by rw [hi]; rfl)
  have hunacked : (pool.phase i).unacked? = some (id, copy) := by rw [hi]; rfl
  simp only [Phase.step, Option.some.injEq, Prod.mk.injEq] at hstep
  obtain ⟨rfl, rfl⟩ := hstep
  refine ⟨_, h.move hkey (s := .succeeded copy.attempt)
    ⟨hvalid.1, hvalid.2.1, by simp [Status.isDead]⟩ (.inl hold)
    (.inr ⟨rfl, by simp [Status.place]⟩) ((h.booked.relabel ?_ ?_ ?_ ?_).xack id)
    (h.claimed.xack hunacked (fun k hk job' hother => hk (h.unacked_unique hunacked hother)) rfl)
    (by simp) (by simp)⟩ <;> rw [hstatus] <;> rfl

/-- **A worker acknowledges a job that failed**: the job stays with it. -/
theorem acknowledged_failed (h : pool.Accounts queue.maxAttempts jobs status) {e : PyError}
    (hi : pool.phase i = .failed id copy e)
    (hstep : (Phase.failed id copy e).step queue consumer outcome pool.world =
      some (phase, world)) :
    ∃ status', (pool.move i world phase).Accounts queue.maxAttempts jobs status' := by
  obtain ⟨hkey, hstatus, hvalid, hold⟩ := h.entry (i := i) (by rw [hi]; rfl)
  have hunacked : (pool.phase i).unacked? = some (id, copy) := by rw [hi]; rfl
  simp only [Phase.step, Option.some.injEq, Prod.mk.injEq] at hstep
  obtain ⟨rfl, rfl⟩ := hstep
  refine ⟨_, h.move hkey (s := .failing i copy.attempt) hvalid (.inl hold) (.inl rfl)
    ((h.booked.relabel ?_ ?_ ?_ ?_).xack id)
    (h.claimed.xack hunacked (fun k hk job' hother => hk (h.unacked_unique hunacked hother)) rfl)
    (by simp) (by simp)⟩ <;> rw [hstatus]

/-- **A job that failed is a dead letter after its last attempt**, and waits for the next one before
that. -/
theorem retried (h : pool.Accounts queue.maxAttempts jobs status) {e : PyError}
    (hi : pool.phase i = .retrying copy e)
    (hstep : (Phase.retrying copy e).step queue consumer outcome pool.world =
      some (phase, world)) :
    ∃ status', (pool.move i world phase).Accounts queue.maxAttempts jobs status' := by
  obtain ⟨hkey, hstatus, hvalid, hold⟩ := h.entry (i := i) (by rw [hi]; rfl)
  rw [Phase.step] at hstep
  split at hstep
  · rename_i hmax
    obtain ⟨rfl, rfl⟩ := Prod.mk.inj (Option.some.inj hstep)
    have hlast : copy.attempt = queue.maxAttempts := le_antisymm hvalid.2.1 hmax
    refine ⟨_, h.move hkey (s := .deadLettered copy.attempt)
      ⟨hvalid.1, hvalid.2.1, fun _ => hlast⟩ (.inl hold) (.inr ⟨rfl, by simp [Status.place]⟩)
      (h.booked.xaddDead ⟨copy, errorLine e, copy.attempt⟩ rfl hkey hstatus)
      (h.claimed.keep (fun _ _ hjob => hjob) rfl (by rw [hi]; rfl)) (by simp) (by simp)⟩
  · rename_i hmax
    obtain ⟨rfl, rfl⟩ := Prod.mk.inj (Option.some.inj hstep)
    refine ⟨_, h.move hkey (s := .failing i copy.attempt) hvalid (.inl hold) (.inl rfl)
      (h.booked.relabel ?_ ?_ ?_ ?_)
      (h.claimed.keep (fun _ _ hjob => hjob) rfl (by rw [hi]; rfl))
      (fun job' hjob' => ?_) (by simp)⟩
    · rw [hstatus]
    · rw [hstatus]
    · rw [hstatus]
    · rw [hstatus]
    · obtain rfl := Phase.waited.inj hjob'
      omega

/-- **A job that waited is in the stream again**, for its next attempt. -/
theorem requeued (h : pool.Accounts queue.maxAttempts jobs status)
    (hi : pool.phase i = .waited copy)
    (hstep : (Phase.waited copy).step queue consumer outcome pool.world = some (phase, world)) :
    ∃ status', (pool.move i world phase).Accounts queue.maxAttempts jobs status' := by
  obtain ⟨hkey, hstatus, hvalid, hold⟩ := h.entry (i := i) (by rw [hi]; rfl)
  have hlt := h.waited i copy hi
  simp only [Phase.step, Option.some.injEq, Prod.mk.injEq] at hstep
  obtain ⟨rfl, rfl⟩ := hstep
  obtain ⟨hgrows, -⟩ := QueueWorld.grows_xadd copy.retried h.booked.delivered_le
  refine ⟨_, h.move hkey (s := .undelivered (copy.attempt + 1))
    ⟨Nat.le_add_left 1 _, hlt, by simp [Status.isDead]⟩ (.inl hold)
    (.inr ⟨rfl, by simp [Status.place]⟩) (h.booked.xadd rfl hkey hstatus)
    (h.claimed.keep (fun _ _ => hgrows.getElem?) rfl (by rw [hi]; rfl)) (by simp) (by simp)⟩

/-- **A worker issues a command**: the ledger follows. -/
theorem issue (h : pool.Accounts queue.maxAttempts jobs status)
    (hstep : (pool.phase i).step queue consumer outcome pool.world = some (phase, world)) :
    ∃ status', (pool.move i world phase).Accounts queue.maxAttempts jobs status' := by
  cases hi : pool.phase i with
  | claiming => exact h.claim hi (hi ▸ hstep)
  | processing id copy => exact h.processed hi (hi ▸ hstep)
  | succeeded id copy => exact h.acknowledged hi (hi ▸ hstep)
  | failed id copy e => exact h.acknowledged_failed hi (hi ▸ hstep)
  | retrying copy e => exact h.retried hi (hi ▸ hstep)
  | waited copy => exact h.requeued hi (hi ▸ hstep)
  | returned didWork => simp [hi, Phase.step] at hstep
  | crashed => simp [hi, Phase.step] at hstep

end Issue

end

end Pool.Accounts

/-! ## The accounts of a run -/

/-- A move of `run_worker_loop`: nobody crashes, polls an empty queue or enqueues. -/
def WorkerMove.isLoop : WorkerMove ι → Bool
  | .issue _ | .again _ => true
  | _ => false

section

variable [Interpreter] {queue : Queue} [DecidableEq ι] {consumer : ι → Consumer}

/-- **Step lemma**: whatever a worker does, the pool stays in a state the ledger describes. -/
theorem Pool.Accounts.step {jobs : List EvaluationJob} {pool pool' : Pool ι}
    {move : WorkerMove ι} {status : EvaluationJob → Status ι}
    (h : pool.Accounts queue.maxAttempts jobs status)
    (hstep : Pool.Step queue consumer move pool pool') (hloop : move.isLoop = true) :
    ∃ status', pool'.Accounts queue.maxAttempts jobs status' := by
  cases hstep with
  | issue hphase => exact h.issue hphase
  | again hphase =>
    exact ⟨status, h.idle (by rw [hphase]; rfl) rfl (by rw [hphase]; rfl) (by simp) (by simp)⟩
  | poll => exact absurd hloop (by simp [WorkerMove.isLoop])
  | crash => exact absurd hloop (by simp [WorkerMove.isLoop])
  | enqueue => exact absurd hloop (by simp [WorkerMove.isLoop])

omit [Interpreter] [DecidableEq ι] in
/-- A queue of fresh jobs, before any worker begins. -/
theorem Pool.Accounts.initial {maxAttempts : ℕ} (hmax : 1 ≤ maxAttempts)
    {jobs : List EvaluationJob} (hnodup : jobs.Nodup) (hkey : ∀ job ∈ jobs, job.key = job) :
    (Pool.initial { redis := { stream := jobs } } : Pool ι).Accounts maxAttempts jobs
      fun _ => .undelivered 1 where
  valid _ _ := ⟨le_rfl, hmax, by simp [Status.isDead]⟩
  holds := ⟨fun _ _ _ h => by simp [Pool.initial, Phase.status?] at h, fun _ _ _ h => by
    simp [Status.place] at h⟩
  booked := by
    have hmap : jobs.map EvaluationJob.key = jobs := by
      conv_rhs => rw [← List.map_id jobs]
      exact List.map_congr_left hkey
    refine ⟨Nat.zero_le _, fun copy hmem => (hkey copy hmem).symm ▸ hmem, fun job hjob => ?_, ?_,
      fun copy hcopy => ?_, by simp [Pool.initial], by simp [Pool.initial],
      by simp [Pool.initial, Status.isDead], fun _ _ => rfl⟩
    · simp only [Pool.initial, hmap]
      exact List.count_eq_one_of_mem hnodup hjob
    · simpa [Pool.initial, Redis.undelivered, hmap] using hnodup
    · simp only [Pool.initial, Redis.undelivered, List.drop_zero, Status.waiting?,
        Option.some.injEq]
      refine ⟨fun hmem => ?_, fun hattempt => ?_⟩
      · rw [← hkey copy hmem]
        rfl
      · have heq : copy.key = copy := EvaluationJob.ext_key rfl hattempt
        exact heq ▸ hcopy
  claimed := ⟨fun _ _ _ h => by simp [Pool.initial, Phase.unacked?] at h, fun _ h => by
    simp [Pool.initial] at h⟩
  waited _ _ h := by simp [Pool.initial] at h
  running _ := by simp [Pool.initial]

end

end AgentProof
