import AgentProof.Runner.Ledger
import Mathlib.Algebra.BigOperators.Group.Finset.Basic
import Mathlib.Algebra.Order.BigOperators.Group.Finset

/-!
# Runner/Accounting — every job is in one place

What the ledger says of the workers' runs: every job is in exactly one place, is processed at most
`max_attempts` times, and is dead-lettered once, after exactly that many failures.  The messages
handed out pay for the steps of the workers, so a `run_worker_loop` ends (`accounting`).
-/

open Machinery Machinery.Prog

namespace AgentProof

variable {ι : Type}

/-! ## The places of a job -/

/-- The job is in a place: in the stream, with a worker, processed successfully with no message of it
pending, or dead-lettered. -/
def Pool.At (pool : Pool ι) (job : EvaluationJob) : Place ι → Prop
  | .undelivered => ∃ copy ∈ pool.world.redis.undelivered, copy.key = job
  | .held i => ∃ copy ∈ (pool.phase i).job?, copy.key = job
  | .succeeded => true ∈ pool.world.outcomes job ∧
    ∀ entry ∈ pool.world.redis.pending, ∀ copy ∈ pool.world.redis.stream[entry.1]?, copy.key ≠ job
  | .deadLettered => ∃ letter ∈ pool.world.redis.dead, letter.job.key = job

namespace Pool.Accounts

variable {maxAttempts : ℕ} {jobs : List EvaluationJob} {pool : Pool ι}
  {status : EvaluationJob → Status ι} {job : EvaluationJob}

theorem at_undelivered (h : pool.Accounts maxAttempts jobs status) (hjob : job ∈ jobs)
    (hkey : job.key = job) : pool.At job .undelivered ↔ (status job).place = .undelivered := by
  constructor
  · rintro ⟨copy, hmem, rfl⟩
    rw [(h.booked.of_undelivered _ hmem).2]
    rfl
  · intro hplace
    obtain ⟨a, ha⟩ : ∃ a, status job = .undelivered a := by
      cases hs : status job <;> simp [hs, Status.place] at hplace ⊢
    have hpos : 1 ≤ a := by
      have hvalid := (h.valid job hjob).1
      rwa [ha] at hvalid
    have hkey' : (job.withAttempt a hpos).key = job := hkey
    refine ⟨job.withAttempt a hpos, ?_, hkey'⟩
    rw [h.booked.undelivered_iff _ (hkey'.symm ▸ hjob), hkey', ha]
    rfl

theorem at_held (h : pool.Accounts maxAttempts jobs status) (hjob : job ∈ jobs) (i : ι) :
    pool.At job (.held i) ↔ (status job).place = .held i := by
  constructor
  · rintro ⟨copy, hcopy, rfl⟩
    obtain ⟨s, hs⟩ := Phase.status?_of_job? (i := i) hcopy
    rw [(h.holds.held i _ s hs).2]
    exact Phase.place_of_status? hs
  · intro hplace
    obtain ⟨copy, hcopy, hkey⟩ := Phase.job?_of_status? (h.holds.holder job hjob i hplace)
    exact ⟨copy, hcopy, hkey⟩

theorem at_deadLettered (h : pool.Accounts maxAttempts jobs status) (hjob : job ∈ jobs) :
    pool.At job .deadLettered ↔ (status job).place = .deadLettered := by
  refine (h.booked.dead_iff job hjob).trans ?_
  cases status job <;> simp [Status.isDead, Status.place]

/-- A job has a successful processing when it passed, acknowledged or not. -/
theorem true_mem_outcomes (h : pool.Accounts maxAttempts jobs status) (hjob : job ∈ jobs) :
    true ∈ pool.world.outcomes job ↔
      (∃ i a, status job = .passed i a) ∨ ∃ a, status job = .succeeded a := by
  rw [h.booked.outcomes job hjob]
  cases status job <;> simp [Status.outcomes]

theorem at_succeeded (h : pool.Accounts maxAttempts jobs status) (hjob : job ∈ jobs) :
    pool.At job .succeeded ↔ (status job).place = .succeeded := by
  constructor
  · rintro ⟨hdone, hpending⟩
    rcases (h.true_mem_outcomes hjob).mp hdone with ⟨i, a, hpassed⟩ | ⟨a, hsucceeded⟩
    · have hholder := h.holds.holder job hjob i (by rw [hpassed]; rfl)
      rw [hpassed] at hholder
      obtain ⟨id, copy, hi⟩ : ∃ id copy, pool.phase i = .succeeded id copy := by
        cases hi : pool.phase i <;> simp [hi, Phase.status?] at hholder ⊢
      have hkey : copy.key = job := by
        rw [hi] at hholder
        exact (Prod.mk.inj (Option.some.inj hholder)).1
      obtain ⟨hget, entry, hmem, rfl⟩ := h.claimed.unacked i id copy (by rw [hi]; rfl)
      exact absurd hkey (hpending entry hmem copy hget)
    · rw [hsucceeded]
      rfl
  · intro hplace
    obtain ⟨a, ha⟩ : ∃ a, status job = .succeeded a := by
      cases hs : status job <;> simp [hs, Status.place] at hplace ⊢
    refine ⟨(h.true_mem_outcomes hjob).mpr (.inr ⟨a, ha⟩), ?_⟩
    rintro entry hmem copy hcopy rfl
    obtain ⟨i, copy', hi⟩ := h.claimed.pending entry hmem
    obtain rfl : copy = copy' :=
      Option.some.inj (hcopy.symm.trans (h.claimed.unacked i _ _ hi).1)
    obtain ⟨s, hs⟩ := Phase.status?_of_job? (i := i) (Phase.job?_of_unacked? hi)
    have hheld := Phase.place_of_status? hs
    rw [← (h.holds.held i _ s hs).2, hplace] at hheld
    exact absurd hheld (by simp)

/-- **The ledger says where a job is.** -/
theorem at_iff (h : pool.Accounts maxAttempts jobs status) (hjob : job ∈ jobs)
    (hkey : job.key = job) (place : Place ι) :
    pool.At job place ↔ (status job).place = place := by
  cases place with
  | undelivered => exact h.at_undelivered hjob hkey
  | held i => exact h.at_held hjob i
  | succeeded => exact h.at_succeeded hjob
  | deadLettered => exact h.at_deadLettered hjob

/-- A dead-lettered job failed as often as permitted, and never succeeded. -/
theorem outcomes_of_dead (h : pool.Accounts maxAttempts jobs status) (hjob : job ∈ jobs)
    (hdead : pool.At job .deadLettered) :
    pool.world.outcomes job = List.replicate maxAttempts false := by
  have hplace := (h.at_deadLettered hjob).mp hdead
  obtain ⟨a, ha⟩ : ∃ a, status job = .deadLettered a := by
    cases hs : status job <;> simp [hs, Status.place] at hplace ⊢
  have hlast := (h.valid job hjob).2.2
  rw [ha] at hlast
  rw [h.booked.outcomes job hjob, ha, ← hlast rfl]
  rfl

/-- **The stream is never longer than the attempts permit.** -/
theorem length_stream_le (h : pool.Accounts maxAttempts jobs status) :
    pool.world.redis.stream.length ≤ maxAttempts * jobs.length := by
  have hkeys : ∀ key ∈ (pool.world.redis.stream.map EvaluationJob.key : Multiset EvaluationJob),
      key ∈ jobs.toFinset := by
    intro key hkey
    obtain ⟨copy, hmem, rfl⟩ := List.mem_map.mp (Multiset.mem_coe.mp hkey)
    exact List.mem_toFinset.mpr (h.booked.keys copy hmem)
  have hsum := Multiset.sum_count_eq_card hkeys
  have hbound : ∀ job ∈ jobs.toFinset,
      (pool.world.redis.stream.map EvaluationJob.key : Multiset EvaluationJob).count job ≤
        maxAttempts := by
    intro job hjob
    rw [Multiset.coe_count, h.booked.copies job (List.mem_toFinset.mp hjob)]
    exact (h.valid job (List.mem_toFinset.mp hjob)).2.1
  calc pool.world.redis.stream.length
      = (pool.world.redis.stream.map EvaluationJob.key : Multiset EvaluationJob).card := by
        rw [Multiset.coe_card, List.length_map]
    _ = ∑ job ∈ jobs.toFinset,
          (pool.world.redis.stream.map EvaluationJob.key : Multiset EvaluationJob).count job :=
        hsum.symm
    _ ≤ jobs.toFinset.card * maxAttempts := Finset.sum_le_card_nsmul _ _ _ hbound
    _ ≤ maxAttempts * jobs.length := by
        rw [Nat.mul_comm]
        exact Nat.mul_le_mul_left _ (List.toFinset_card_le jobs)

end Pool.Accounts

/-! ## The steps of a worker -/

/-- How many steps a worker still takes, if the stream has nothing more for it. -/
def Phase.slack : Phase → ℕ
  | .claiming => 1
  | .processing _ _ => 6
  | .succeeded _ _ => 3
  | .failed _ _ _ => 5
  | .retrying _ _ => 4
  | .waited _ => 3
  | .returned true => 2
  | .returned false | .crashed => 0

section

variable [Interpreter] {queue : Queue}

/-- A command brings its worker nearer to the end, unless it claims a message. -/
theorem Phase.slack_step {consumer : Consumer} {outcome : Except PyError Unit} {phase phase' : Phase}
    {world world' : QueueWorld}
    (h : phase.step queue consumer outcome world = some (phase', world')) :
    (phase'.slack < phase.slack ∧ world'.redis.delivered = world.redis.delivered) ∨
      (phase'.slack = phase.slack + 5 ∧ world'.redis.delivered = world.redis.delivered + 1) := by
  cases phase with
  | claiming =>
    cases hundelivered : world.redis.undelivered with
    | nil =>
      simp only [step, hundelivered, Option.some.injEq, Prod.mk.injEq] at h
      obtain ⟨rfl, rfl⟩ := h
      exact .inl ⟨Nat.zero_lt_one, rfl⟩
    | cons job jobs =>
      simp only [step, hundelivered, Option.some.injEq, Prod.mk.injEq, Redis.xreadgroup] at h
      obtain ⟨rfl, rfl⟩ := h
      exact .inr ⟨rfl, rfl⟩
  | retrying job e =>
    rw [step] at h
    split at h <;> obtain ⟨rfl, rfl⟩ := Prod.mk.inj (Option.some.inj h) <;>
      exact .inl ⟨by simp [slack], rfl⟩
  | processing id job =>
    simp only [step, Option.some.injEq, Prod.mk.injEq] at h
    obtain ⟨rfl, rfl⟩ := h
    cases outcome <;> exact .inl ⟨by simp [slack], rfl⟩
  | succeeded id job =>
    simp only [step, Option.some.injEq, Prod.mk.injEq] at h
    obtain ⟨rfl, rfl⟩ := h
    exact .inl ⟨by simp [slack], rfl⟩
  | failed id job e =>
    simp only [step, Option.some.injEq, Prod.mk.injEq] at h
    obtain ⟨rfl, rfl⟩ := h
    exact .inl ⟨by simp [slack], rfl⟩
  | waited job =>
    simp only [step, Option.some.injEq, Prod.mk.injEq] at h
    obtain ⟨rfl, rfl⟩ := h
    exact .inl ⟨by simp [slack], rfl⟩
  | returned didWork => simp [step] at h
  | crashed => simp [step] at h

/-- A worker that has not crashed has ended its loop, or has a next move. -/
theorem Phase.progress (queue : Queue) (consumer : Consumer) {phase : Phase} (h : phase ≠ .crashed) :
    (∃ didWork, phase = .returned didWork) ∨
      ∃ c next, phase.program queue consumer = .call c next := by
  cases phase with
  | crashed => exact absurd rfl h
  | returned didWork => exact .inl ⟨didWork, rfl⟩
  | retrying job e =>
    refine .inr ?_
    rw [program, retry]
    split <;> exact ⟨_, _, rfl⟩
  | _ => exact .inr ⟨_, _, rfl⟩

variable [DecidableEq ι] {consumer : ι → Consumer}

/-- The steps of one worker. -/
def stepsOf (i : ι) (moves : List (WorkerMove ι)) : ℕ :=
  moves.countP fun move => decide (move.worker? = some i)

omit [Interpreter] in
theorem stepsOf_concat (i : ι) (moves : List (WorkerMove ι)) (move : WorkerMove ι) :
    stepsOf i (moves ++ [move]) = stepsOf i moves + if move.worker? = some i then 1 else 0 := by
  rw [stepsOf, stepsOf, List.countP_append, List.countP_singleton]
  by_cases h : move.worker? = some i <;> simp [h]

/-- A worker's steps are paid for by the messages it was handed. -/
def Paid (i : ι) (moves : List (WorkerMove ι)) (pool : Pool ι) : Prop :=
  ∃ claims ≤ pool.world.redis.delivered,
    stepsOf i moves + (pool.phase i).slack ≤ 6 * claims + 1

omit [Interpreter] [DecidableEq ι] in
/-- A step of another worker costs nothing. -/
theorem Paid.other [DecidableEq ι] {i k : ι} {moves : List (WorkerMove ι)} {move : WorkerMove ι}
    {pool : Pool ι} {world : QueueWorld} {phase : Phase} (h : Paid i moves pool)
    (hmove : move.worker? = some k) (hk : i ≠ k)
    (hdelivered : pool.world.redis.delivered ≤ world.redis.delivered) :
    Paid i (moves ++ [move]) (pool.move k world phase) := by
  obtain ⟨claims, hclaims, hsteps⟩ := h
  refine ⟨claims, hclaims.trans hdelivered, ?_⟩
  rw [stepsOf_concat, hmove, if_neg (fun heq => hk (Option.some.inj heq).symm),
    Pool.move_phase_of_ne _ hk]
  exact hsteps

theorem Paid.step {i : ι} {moves : List (WorkerMove ι)} {move : WorkerMove ι} {pool pool' : Pool ι}
    (h : Paid i moves pool) (hstep : Pool.Step queue consumer move pool pool')
    (hloop : move.isLoop = true) : Paid i (moves ++ [move]) pool' := by
  cases hstep with
  | @issue _ k outcome phase world hphase =>
    have hslack := Phase.slack_step hphase
    by_cases hk : i = k
    · subst hk
      obtain ⟨claims, hclaims, hsteps⟩ := h
      rw [Paid, stepsOf_concat, Pool.move_phase_self]
      simp only [WorkerMove.worker?, if_true, Pool.move]
      rcases hslack with ⟨hlt, hdelivered⟩ | ⟨hslack, hdelivered⟩
      · exact ⟨claims, by omega, by omega⟩
      · exact ⟨claims + 1, by omega, by omega⟩
    · refine h.other rfl hk ?_
      rcases hslack with ⟨-, hdelivered⟩ | ⟨-, hdelivered⟩ <;> omega
  | @again _ k hphase =>
    by_cases hk : i = k
    · subst hk
      obtain ⟨claims, hclaims, hsteps⟩ := h
      rw [hphase, Phase.slack] at hsteps
      rw [Paid, stepsOf_concat, Pool.move_phase_self]
      simp only [WorkerMove.worker?, if_true, Pool.move, Phase.slack]
      exact ⟨claims, hclaims, by omega⟩
    · exact h.other rfl hk le_rfl
  | poll => exact absurd hloop (by simp [WorkerMove.isLoop])
  | crash => exact absurd hloop (by simp [WorkerMove.isLoop])
  | enqueue => exact absurd hloop (by simp [WorkerMove.isLoop])

/-! ## The accounts of a run -/

/-- **Job accounting.**  Workers in `run_worker_loop` drain a queue of fresh jobs.  At every moment,
and for any interleaving and any failures: every job is in exactly one place; no stream holds it
twice; it is processed at most `max_attempts` times; it is dead-lettered only after exactly that
many failures and no success.  The messages handed out are at most `max_attempts` for each job, so
the steps of every worker are bounded; and a worker that has not ended its loop has a next step. -/
theorem accounting (hmax : 1 ≤ queue.maxAttempts) {jobs : List EvaluationJob} (hnodup : jobs.Nodup)
    (hattempt : ∀ job ∈ jobs, job.attempt = 1) {moves : List (WorkerMove ι)} {t : Workers ι}
    (hloop : ∀ move ∈ moves, move.isLoop = true)
    (h : Execution (WorkerStep queue consumer)
      (Workers.initial queue consumer { redis := { stream := jobs } }) moves t) :
    ∃ pool : Pool ι, t = pool.workers queue consumer ∧
      (∀ job ∈ jobs, ∃! place, pool.At job place) ∧
      (t.shared.redis.undelivered.map EvaluationJob.key).Nodup ∧
      (∀ job ∈ jobs, (t.shared.outcomes job).length ≤ queue.maxAttempts) ∧
      (t.shared.redis.dead.map fun letter => letter.job.key).Nodup ∧
      (∀ letter ∈ t.shared.redis.dead, letter.job.key ∈ jobs ∧
        t.shared.outcomes letter.job.key = List.replicate queue.maxAttempts false) ∧
      t.shared.redis.delivered ≤ queue.maxAttempts * jobs.length ∧
      (∀ i, stepsOf i moves ≤ 6 * (queue.maxAttempts * jobs.length) + 1) ∧
      (∀ i, t.thread i = .done (.ok false) ∨ ∃ move t', move.worker? = some i ∧
        move.isLoop = true ∧ WorkerStep queue consumer move t t') := by
  have hkey : ∀ job ∈ jobs, job.key = job := fun job hmem =>
    EvaluationJob.ext_key rfl (hattempt job hmem).symm
  obtain ⟨pool, hpool, rfl⟩ := pool_of_run h
  have hinv : (∃ status, pool.Accounts queue.maxAttempts jobs status) ∧ ∀ i, Paid i moves pool := by
    refine Execution.invariant (P := fun moves pool => (∀ move ∈ moves, move.isLoop = true) →
      (∃ status, pool.Accounts queue.maxAttempts jobs status) ∧ ∀ i, Paid i moves pool) hpool ?_ ?_
      hloop
    · exact fun _ => ⟨⟨_, .initial hmax hnodup hkey⟩, fun i => ⟨0, le_rfl, le_rfl⟩⟩
    · intro moves move u u' ih hstep hloop
      have hlast : move.isLoop = true := hloop move (by simp)
      obtain ⟨⟨status, haccounts⟩, hpaid⟩ :=
        ih fun move hmem => hloop move (List.mem_append_left _ hmem)
      exact ⟨haccounts.step hstep hlast, fun i => (hpaid i).step hstep hlast⟩
  obtain ⟨⟨status, haccounts⟩, hpaid⟩ := hinv
  have hdelivered := haccounts.booked.delivered_le.trans haccounts.length_stream_le
  refine ⟨pool, rfl, fun job hjob => ?_, haccounts.booked.undelivered_nodup, fun job hjob => ?_,
    haccounts.booked.dead_nodup, fun letter hmem => ?_, hdelivered, fun i => ?_, fun i => ?_⟩
  · refine ⟨(status job).place, (haccounts.at_iff hjob (hkey job hjob) _).mpr rfl, ?_⟩
    intro place hplace
    exact ((haccounts.at_iff hjob (hkey job hjob) place).mp hplace).symm
  · change (pool.world.outcomes job).length ≤ _
    rw [haccounts.booked.outcomes job hjob]
    exact Status.length_outcomes_le (haccounts.valid job hjob)
  · have hjob := haccounts.booked.dead_keys letter hmem
    exact ⟨hjob, haccounts.outcomes_of_dead hjob ⟨letter, hmem, rfl⟩⟩
  · obtain ⟨claims, hclaims, hsteps⟩ := hpaid i
    have hbound : claims ≤ queue.maxAttempts * jobs.length := hclaims.trans hdelivered
    omega
  · rcases Phase.progress queue (consumer i) (haccounts.running i) with
      ⟨didWork, hi⟩ | ⟨c, next, hi⟩
    · have hthread : (pool.workers queue consumer).thread i = .done (.ok didWork) := by
        change (pool.phase i).program queue (consumer i) = _
        rw [hi]
        rfl
      cases didWork with
      | false => exact .inl hthread
      | true => exact .inr ⟨.again i, _, rfl, rfl, .again hthread⟩
    · exact .inr ⟨.issue i, _, rfl, rfl, .issue hi (.ok ())⟩

end

/-- A job that may fail once only. -/
theorem accounting_one_attempt :
    ∃ t : Workers Unit, t.thread () = .done (.ok false) ∧
      ∃ letter ∈ t.shared.redis.dead, t.shared.outcomes letter.job.key = [false] := by
  let _ := cpython
  have hrun : ∃ t, t.thread () = .done (.ok false) ∧ t.shared.redis.dead.length = 1 ∧
      Execution (WorkerStep { maxAttempts := 1 } fun _ => "worker")
        (Workers.initial { maxAttempts := 1 } (fun _ : Unit => "worker")
          { redis := { stream := [seedJob] } })
        [.issue (), .issue (), .issue (), .issue (), .again (), .issue ()] t :=
    ⟨_, rfl, rfl, .snoc (.snoc (.snoc (.snoc (.snoc (.snoc (.nil _) (.issue rfl (.ok ())))
      (.issue rfl (.error connectionLost))) (.issue rfl (.ok ()))) (.issue rfl (.ok ())))
      (.again rfl)) (.issue rfl (.ok ()))⟩
  obtain ⟨t, hended, hlength, hrun⟩ := hrun
  obtain ⟨letter, hletter⟩ := List.length_eq_one_iff.mp hlength
  obtain ⟨_, -, -, -, -, -, hdead, -⟩ :=
    @accounting Unit cpython { maxAttempts := 1 } _ (fun _ => "worker") le_rfl [seedJob]
      (List.nodup_singleton seedJob) (by simp [seedJob]) _ _ (by simp [WorkerMove.isLoop]) hrun
  have hmem : letter ∈ t.shared.redis.dead := by rw [hletter]; exact List.mem_singleton.mpr rfl
  exact ⟨t, hended, letter, hmem, (hdead letter hmem).2⟩

end AgentProof
