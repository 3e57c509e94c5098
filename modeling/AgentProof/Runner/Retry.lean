import AgentProof.Runner.Attempts

/-!
# Runner/Retry — when a failed attempt can be repeated

A job whose attempt failed is enqueued again and processed on the store the failure left.  The second
attempt begins at sequence number `0` like the first, so it goes through exactly when the first
failed before its first event was stored (`retrySafe_iff`): from there on, the number is taken.
-/

open Machinery Machinery.Prog

namespace AgentProof

/-! ## An attempt that meets no fault -/

section Complete

variable {executionId : UUID} {oracle : ℕ → Circumstance}

/-- A store that does not fail answers. -/
theorem PlatformStore.handle_of_no_fault {w : Circumstance} (h : w.fault = none) (c : StoreCommand)
    (store : PlatformStore) : handle w c store = store.answer w.now w.newId c := by
  rw [handle, h]

/-- Verdicts that are valid are all appended. -/
theorem exec_appendVerdicts {answers : List JudgeAnswer}
    (hvalid : ∀ answer ∈ answers, ∃ payload, answer.toCreate = .ok payload) :
    ∀ {oracle : ℕ → Circumstance} {store : PlatformStore} {execution : TaskExecution},
      (∀ n, (oracle n).fault = none) → store.getExecution executionId = .ok execution →
      ((appendVerdicts executionId answers).exec PlatformStore.handle oracle store).1 = .ok () := by
  induction answers with
  | nil => intros; rfl
  | cons answer answers ih =>
    intro oracle store execution hfault hexecution
    obtain ⟨⟨payload, hpayload⟩, hrest⟩ := List.forall_mem_cons.mp hvalid
    rw [appendVerdicts, hpayload, lift_ok_bind, perform, call_bind, exec_call,
      PlatformStore.handle_of_no_fault (hfault 0)]
    simp only [PlatformStore.answer, PlatformStore.appendJudgeVerdict, hexecution]
    exact ih hrest (fun n => hfault (n + 1)) hexecution

variable [Interpreter]

/-- The judges of an attempt give verdicts the platform accepts. -/
def JudgesAnswer (judgeModel : Option JudgeModel) (p : RunProduct) : Prop :=
  ∀ model, judgeModel = some model → ∃ answers, runJudges p.task p.result model = .ok answers ∧
    ∀ answer ∈ answers, ∃ payload, answer.toCreate = .ok payload

omit [Interpreter] in
theorem exec_judgeRun {judgeModel : Option JudgeModel} {p : RunProduct}
    (hjudges : JudgesAnswer judgeModel p) (hfault : ∀ n, (oracle n).fault = none)
    {store : PlatformStore} (execution : TaskExecution)
    (hexecution : store.getExecution executionId = .ok execution) :
    ((judgeRun executionId p.task p.result judgeModel).exec PlatformStore.handle oracle store).1 =
      .ok () := by
  cases judgeModel with
  | none => rfl
  | some model =>
    obtain ⟨answers, hanswers, hvalid⟩ := hjudges model rfl
    rw [judgeRun, hanswers, lift_ok_bind]
    exact exec_appendVerdicts hvalid hfault hexecution

/-- **What is left of an attempt is stored**, from wherever it stands. -/
theorem exec_persistFrom {judgeModel : Option JudgeModel} {p : RunProduct}
    (hp : EventsOf p.result.trace p.events) (hjudges : JudgesAnswer judgeModel p)
    {execution : TaskExecution} (hopen : execution.status.terminal = false) :
    ∀ (remaining : ℕ) {k : ℕ} {oracle : ℕ → Circumstance} {store : PlatformStore},
      k + remaining = p.events.length → (∀ n, (oracle n).fault = none) →
      store.getExecution executionId = .ok execution → store.Stores executionId p k →
      ∃ now store', (p.persistFrom executionId judgeModel k).exec PlatformStore.handle oracle store =
          (.ok (), store') ∧
        store'.getExecution executionId = .ok (execution.finalize p.outcome now) ∧
        store'.Stores executionId p p.events.length := by
  intro remaining
  induction remaining with
  | zero =>
    intro k oracle store hk hfault hexecution hstored
    obtain rfl : k = p.events.length := by omega
    obtain ⟨next, hnext, hok, -⟩ := p.persistFrom_length executionId judgeModel
    have hrecord := PlatformStore.recordResult_of_open (oracle 0).now p.outcome hexecution hopen
    rw [hnext, exec_call, PlatformStore.handle_of_no_fault (hfault 0)]
    simp only [PlatformStore.answer, hrecord]
    rw [hok]
    set recorded : PlatformStore := { store with
      executions := Dict.set store.executions executionId
        (execution.finalize p.outcome (oracle 0).now) }
    have hrecorded : recorded.getExecution executionId =
        .ok (execution.finalize p.outcome (oracle 0).now) := by
      simp only [recorded, PlatformStore.getExecution, Dict.get?_set_self]
    obtain ⟨hevents, hexecution'⟩ := (onlyVerdicts_judgeRun executionId p.task p.result
      judgeModel).exec executionId (fun n => oracle (n + 1)) recorded
    refine ⟨(oracle 0).now, _, Prod.ext (exec_judgeRun hjudges (fun n => hfault (n + 1)) _ hrecorded)
      rfl, hexecution'.trans hrecorded, ?_⟩
    rw [PlatformStore.Stores, hevents]
    exact hstored
  | succ remaining ih =>
    intro k oracle store hk hfault hexecution hstored
    have hlt : k < p.events.length := by omega
    obtain ⟨next, hnext, hok, -⟩ := p.persistFrom_of_lt executionId judgeModel hlt
    obtain ⟨event, store', happend, hstored', hexecution'⟩ :=
      hstored.append hp hlt hexecution (oracle 0).now
    rw [hnext, exec_call, PlatformStore.handle_of_no_fault (hfault 0)]
    simp only [PlatformStore.answer, happend]
    rw [hok]
    exact ih (by omega) (fun n => hfault (n + 1)) hexecution' hstored'

end Complete

/-! ## Number `0` stays taken -/

/-- An event with number `0` is stored. -/
def PlatformStore.Taken (executionId : UUID) (store : PlatformStore) : Prop :=
  ∃ event ∈ store.events executionId, event.sequenceNo = 0

/-- No command removes an event. -/
theorem PlatformStore.Taken.answer {executionId : UUID} {store : PlatformStore}
    (h : store.Taken executionId) (now : Timestamp) (newId : UUID) (c : StoreCommand) :
    (store.answer now newId c).2.Taken executionId := by
  obtain ⟨event, hmem, hzero⟩ := h
  cases c with
  | getAgentVersion id => exact ⟨event, hmem, hzero⟩
  | recordResult id payload =>
    refine ⟨event, ?_, hzero⟩
    simp only [PlatformStore.answer, recordResult]
    split
    · exact hmem
    · split <;> exact hmem
  | appendJudgeVerdict id payload =>
    refine ⟨event, ?_, hzero⟩
    simp only [PlatformStore.answer, appendJudgeVerdict]
    split <;> exact hmem
  | appendTraceEvent id payload =>
    refine ⟨event, ?_, hzero⟩
    simp only [PlatformStore.answer, appendTraceEvent]
    split
    · exact hmem
    · split
      · exact hmem
      · by_cases hid : id = executionId
        · subst hid
          simp only [events, Dict.get?_set_self, Option.getD_some, sortBySequenceNo]
          rw [List.mem_insertionSort]
          exact List.mem_append_left _ hmem
        · simpa only [events, Dict.get?_set_of_ne _ hid] using hmem

theorem PlatformStore.Taken.handle {executionId : UUID} (w : Circumstance) (c : StoreCommand)
    (store : PlatformStore) (h : store.Taken executionId) :
    (handle w c store).2.Taken executionId := by
  rcases handle_cases w c store with h' | ⟨e, h' | h'⟩ <;> rw [h']
  · exact h.answer w.now w.newId c
  · exact h
  · exact h.answer w.now w.newId c

/-! ## An attempt from its beginning -/

variable [Interpreter] {registry : Dict String BenchmarkTask} {executionId : UUID}

/-- An attempt whose run returns has a product. -/
theorem Attempt.exists_ran {a : Attempt} {versions : Dict UUID AgentVersion} {task : BenchmarkTask}
    {version : AgentVersion} {result : RunnerResult}
    (htask : Dict.get? registry a.job.taskId = some task)
    (hversion : Dict.get? versions a.job.agentVersionId = some version)
    (hrun : runJob a.host a.modelClient version task a.job.executionId = .ok result) :
    ∃ p, a.Ran registry versions p := by
  obtain ⟨events, hevents⟩ := runJob_events hrun
  exact ⟨⟨task, result, events⟩, htask, ⟨version, hversion, hrun⟩, hevents⟩

/-- An attempt with a run reads its version, and then stores the run. -/
theorem Attempt.Ran.program_eq {a : Attempt} (hjob : a.job.executionId = executionId)
    {versions : Dict UUID AgentVersion} {p : RunProduct} (h : a.Ran registry versions p) :
    ∃ next : Except PyError AgentVersion → StoreProg Unit,
      a.program registry = .call (.getAgentVersion a.job.agentVersionId) next ∧
      (∀ version, Dict.get? versions a.job.agentVersionId = some version →
        next (.ok version) = p.persistFrom executionId a.judgeModel 0) ∧
      ∀ e, next (.error e) = .done (.error e) := by
  obtain ⟨version, hversion, hrun⟩ := h.run
  refine ⟨_, by rw [program, processJob, h.task]; rfl, fun version' hversion' => ?_, fun _ => rfl⟩
  obtain rfl : version' = version := Option.some.inj (hversion'.symm.trans hversion)
  change (Prog.lift (runJob a.host a.modelClient version' p.task a.job.executionId) >>= _) = _
  rw [hrun, lift_ok_bind, h.events.toStorage, lift_ok_bind, hjob]
  rfl

/-- The version is read: what follows is the storing of the run. -/
theorem Attempt.Ran.exec_of_read {a : Attempt} (hjob : a.job.executionId = executionId)
    {store : PlatformStore} {p : RunProduct} (h : a.Ran registry store.agentVersions p)
    {oracle : ℕ → Circumstance} (hfault : (oracle 0).fault = none) :
    (a.program registry).exec PlatformStore.handle oracle store =
      (p.persistFrom executionId a.judgeModel 0).exec PlatformStore.handle
        (fun n => oracle (n + 1)) store := by
  obtain ⟨version, hversion, -⟩ := h.run
  obtain ⟨next, hprogram, hok, -⟩ := h.program_eq hjob
  have hread : store.getAgentVersion a.job.agentVersionId = .ok version := by
    rw [PlatformStore.getAgentVersion, hversion]
  rw [hprogram, exec_call, PlatformStore.handle_of_no_fault hfault]
  simp only [PlatformStore.answer, hread]
  rw [hok version hversion]

/-- The version is not read: the attempt is over, and the store as it was. -/
theorem Attempt.Ran.exec_of_unread {a : Attempt} {store : PlatformStore} {p : RunProduct}
    (h : a.Ran registry store.agentVersions p) {oracle : ℕ → Circumstance}
    (hfault : (oracle 0).fault ≠ none) :
    ((a.program registry).exec PlatformStore.handle oracle store).2 = store := by
  obtain ⟨next, hprogram, -, herror⟩ := h.program_eq rfl
  cases hw : (oracle 0).fault with
  | none => exact absurd hw hfault
  | some fault =>
    have hhandle : ∃ e, PlatformStore.handle (oracle 0) (.getAgentVersion a.job.agentVersionId)
        store = (.error e, store) := by
      rw [PlatformStore.handle, hw]
      cases fault with
      | before e => exact ⟨e, rfl⟩
      | after e => exact ⟨e, rfl⟩
    obtain ⟨e, he⟩ := hhandle
    rw [hprogram, exec_call, he]
    simp only [herror, exec_done]

/-- **Where number `0` is taken, an attempt raises**, and changes nothing. -/
theorem Attempt.Ran.exec_of_taken {a : Attempt} (hjob : a.job.executionId = executionId)
    {store : PlatformStore} {p : RunProduct} (h : a.Ran registry store.agentVersions p)
    {oracle : ℕ → Circumstance} (hfault : ∀ n, (oracle n).fault = none)
    (htaken : store.Taken executionId) :
    ∃ e, (a.program registry).exec PlatformStore.handle oracle store = (.error e, store) := by
  have hpos := h.events.length_pos
  obtain ⟨next, hnext, -, herror⟩ :=
    p.persistFrom_of_lt executionId a.judgeModel hpos
  obtain ⟨event, hmem, hzero⟩ := htaken
  obtain ⟨e, he⟩ := PlatformStore.appendTraceEvent_of_taken (oracle 1).now hmem
    (hzero.trans (h.events.sequenceNo_getElem hpos).symm)
  refine ⟨e, ?_⟩
  rw [h.exec_of_read hjob (hfault 0), hnext, exec_call,
    PlatformStore.handle_of_no_fault (hfault (0 + 1))]
  simp only [PlatformStore.answer, he, herror, exec_done]

/-- **On an open execution without events, an attempt with a run records it.** -/
theorem Attempt.Ran.exec_of_open {a : Attempt} (hjob : a.job.executionId = executionId)
    {store : PlatformStore} {p : RunProduct} (h : a.Ran registry store.agentVersions p)
    (hjudges : JudgesAnswer a.judgeModel p) {oracle : ℕ → Circumstance}
    (hfault : ∀ n, (oracle n).fault = none) {execution : TaskExecution}
    (hexecution : store.getExecution executionId = .ok execution)
    (hopen : execution.status.terminal = false) (hempty : store.events executionId = []) :
    ∃ now store', (a.program registry).exec PlatformStore.handle oracle store = (.ok (), store') ∧
      store'.getExecution executionId = .ok (execution.finalize p.outcome now) ∧
      store'.Stores executionId p p.events.length := by
  have hstored : store.Stores executionId p 0 := by
    rw [PlatformStore.Stores, hempty]
    rfl
  rw [h.exec_of_read hjob (hfault 0)]
  exact exec_persistFrom h.events hjudges hopen p.events.length (Nat.zero_add _)
    (fun n => hfault (n + 1)) hexecution hstored

/-- An attempt whose run raises stores nothing. -/
theorem Attempt.exec_of_raised {a : Attempt} {store : PlatformStore} {task : BenchmarkTask}
    {version : AgentVersion} {e : PyError} {oracle : ℕ → Circumstance}
    (htask : Dict.get? registry a.job.taskId = some task)
    (hversion : store.getAgentVersion a.job.agentVersionId = .ok version)
    (hrun : runJob a.host a.modelClient version task a.job.executionId = .error e)
    (hfault : (oracle 0).fault = none) :
    (a.program registry).exec PlatformStore.handle oracle store = (.error e, store) := by
  rw [program, processJob, htask]
  simp only [perform, call_bind]
  rw [exec_call, PlatformStore.handle_of_no_fault hfault]
  simp only [PlatformStore.answer, hversion, done_ok_bind]
  rw [hrun]
  rfl

/-- **Where number `0` is taken, no attempt changes anything.** -/
theorem Attempt.exec_of_taken {a : Attempt} (hjob : a.job.executionId = executionId)
    {store : PlatformStore} {oracle : ℕ → Circumstance} (hfault : ∀ n, (oracle n).fault = none)
    (htaken : store.Taken executionId) :
    ((a.program registry).exec PlatformStore.handle oracle store).2 = store := by
  cases htask : Dict.get? registry a.job.taskId with
  | none =>
    rw [program, processJob, htask]
    rfl
  | some task =>
    cases hversion : store.getAgentVersion a.job.agentVersionId with
    | error e =>
      rw [program, processJob, htask]
      simp only [perform, call_bind]
      rw [exec_call, PlatformStore.handle_of_no_fault (hfault 0)]
      simp only [PlatformStore.answer, hversion, done_error_bind, exec_done]
    | ok version =>
      cases hrun : runJob a.host a.modelClient version task a.job.executionId with
      | error e => rw [exec_of_raised htask hversion hrun (hfault 0)]
      | ok result =>
        obtain ⟨p, hran⟩ := exists_ran htask (PlatformStore.getAgentVersion_eq_ok hversion) hrun
        obtain ⟨e, hexec⟩ := hran.exec_of_taken hjob hfault htaken
        rw [hexec]

/-! ## The second attempt -/

/-- The second attempt, on the store the first one left, ends without raising, and the record, the
trace and the verdicts are those of one attempt on the store as it was before both. -/
def RetrySafe (registry : Dict String BenchmarkTask) (store : PlatformStore) (first : Attempt)
    (faults : ℕ → Circumstance) (second : Attempt) (oracle : ℕ → Circumstance) : Prop :=
  let left := ((first.program registry).exec PlatformStore.handle faults store).2
  let (outcome, retried) := (second.program registry).exec PlatformStore.handle oracle left
  let (clean, single) := (second.program registry).exec PlatformStore.handle oracle store
  outcome = .ok () ∧ clean = .ok () ∧
    retried.getExecution second.job.executionId = single.getExecution second.job.executionId ∧
    retried.events second.job.executionId = single.events second.job.executionId ∧
    retried.verdicts second.job.executionId = single.verdicts second.job.executionId

/-- The first attempt fails at reading the agent version, or at storing its first event before the
event is stored. -/
def FailsBeforeFirstWrite (faults : ℕ → Circumstance) : Prop :=
  (faults 0).fault ≠ none ∨ ∃ e, (faults 1).fault = some (.before e)

/-- A first attempt that got its first event stored leaves number `0` taken. -/
theorem Attempt.Ran.taken_of_written {a : Attempt} (hjob : a.job.executionId = executionId)
    {store : PlatformStore} {p : RunProduct} (h : a.Ran registry store.agentVersions p)
    {execution : TaskExecution} (hexecution : store.getExecution executionId = .ok execution)
    (hempty : store.events executionId = []) {faults : ℕ → Circumstance}
    (hwritten : ¬ FailsBeforeFirstWrite faults) :
    ((a.program registry).exec PlatformStore.handle faults store).2.Taken executionId := by
  rw [FailsBeforeFirstWrite, not_or, not_not, not_exists] at hwritten
  obtain ⟨hread, hbefore⟩ := hwritten
  have hpos := h.events.length_pos
  have hstored : store.Stores executionId p 0 := by rw [PlatformStore.Stores, hempty]; rfl
  obtain ⟨event, store', happend, hstored', -⟩ :=
    hstored.append h.events hpos hexecution (faults 1).now
  have htaken : (PlatformStore.handle (faults 1) (.appendTraceEvent executionId p.events[0])
      store).2.Taken executionId := by
    have htaken' : store'.Taken executionId := hstored'.taken h.events le_rfl hpos
    rw [PlatformStore.handle]
    cases hw : (faults 1).fault with
    | none => simpa only [PlatformStore.answer, happend] using htaken'
    | some fault =>
      cases fault with
      | before e => exact absurd hw (hbefore e)
      | after e => simpa only [PlatformStore.answer, happend] using htaken'
  obtain ⟨next, hnext, -, -⟩ :=
    p.persistFrom_of_lt executionId a.judgeModel hpos
  rw [h.exec_of_read hjob hread, hnext, exec_call]
  exact exec_invariant PlatformStore.Taken.handle _ _ htaken

/-- A first attempt that failed before its first event was stored leaves the store as it was. -/
theorem Attempt.Ran.exec_of_unwritten {a : Attempt} (hjob : a.job.executionId = executionId)
    {store : PlatformStore} {p : RunProduct} (h : a.Ran registry store.agentVersions p)
    {faults : ℕ → Circumstance} (hunwritten : FailsBeforeFirstWrite faults) :
    ((a.program registry).exec PlatformStore.handle faults store).2 = store := by
  by_cases hread : (faults 0).fault = none
  · obtain ⟨e, he⟩ := hunwritten.resolve_left (not_not.mpr hread)
    have hpos := h.events.length_pos
    obtain ⟨next, hnext, -, herror⟩ :=
      p.persistFrom_of_lt executionId a.judgeModel hpos
    have hhandle : PlatformStore.handle (faults (0 + 1))
        (.appendTraceEvent executionId p.events[0]) store = (.error e, store) := by
      rw [PlatformStore.handle, he]
    rw [h.exec_of_read hjob hread, hnext, exec_call, hhandle]
    simp only [herror, exec_done]
  · exact h.exec_of_unread hread

/-- **When a retry is safe**: on an open execution without events, a second attempt that meets no
fault repairs the first exactly when the first failed before its first event was stored. -/
theorem retrySafe_iff {store : PlatformStore} {first second : Attempt} {p q : RunProduct}
    {execution : TaskExecution} {faults oracle : ℕ → Circumstance}
    (hretried : second.job = first.job.retried)
    (hexecution : store.getExecution first.job.executionId = .ok execution)
    (hopen : execution.status.terminal = false)
    (hempty : store.events first.job.executionId = [])
    (hfirst : first.Ran registry store.agentVersions p)
    (hsecond : second.Ran registry store.agentVersions q)
    (hjudges : JudgesAnswer second.judgeModel q) (hfault : ∀ n, (oracle n).fault = none) :
    RetrySafe registry store first faults second oracle ↔ FailsBeforeFirstWrite faults := by
  have hjob : second.job.executionId = first.job.executionId := by rw [hretried]; rfl
  constructor
  · intro hsafe
    by_contra hwritten
    have htaken := hfirst.taken_of_written rfl hexecution hempty hwritten
    have hversions : ((first.program registry).exec PlatformStore.handle faults
        store).2.agentVersions = store.agentVersions :=
      exec_invariant (P := fun s => s.agentVersions = store.agentVersions)
        (fun w c s hs => (PlatformStore.handle_agentVersions w c s).trans hs) _ _ rfl
    rw [← hversions] at hsecond
    obtain ⟨e, he⟩ := hsecond.exec_of_taken hjob hfault htaken
    exact absurd ((congrArg Prod.fst he).symm.trans hsafe.1) (by simp)
  · intro hunwritten
    have hclean : ((second.program registry).exec PlatformStore.handle oracle store).1 = .ok () := by
      obtain ⟨now, store', hexec, -⟩ :=
        hsecond.exec_of_open hjob hjudges hfault hexecution hopen hempty
      rw [hexec]
    have hleft := hfirst.exec_of_unwritten rfl hunwritten
    rw [RetrySafe, hleft]
    exact ⟨hclean, hclean, rfl, rfl, rfl⟩

/-! ### A failure before and after the first event -/

/-- A store that refuses the `n`-th call of an attempt. -/
def refusesCall (n : ℕ) : ℕ → Circumstance := fun m =>
  { now := m
    newId := toString m
    fault := if m = n then some (.before (.other "OperationalError" "connection lost")) else none }

/-- The job's second delivery. -/
def retriedAttempt : Attempt := { seedAttempt with job := seedJob.retried }

omit [Interpreter] in
/-- The store refuses the second event of the first attempt: the second attempt is refused its
first. -/
theorem not_retrySafe_second_event :
    ((@Attempt.program cpython seedRegistry seedAttempt).exec PlatformStore.handle
        (refusesCall 2) pendingStore).1 = .error (.other "OperationalError" "connection lost") ∧
      ¬ @RetrySafe cpython seedRegistry pendingStore seedAttempt (refusesCall 2) retriedAttempt
        noFaults ∧
      ((@Attempt.program cpython seedRegistry retriedAttempt).exec PlatformStore.handle noFaults
        ((@Attempt.program cpython seedRegistry seedAttempt).exec PlatformStore.handle
          (refusesCall 2) pendingStore).2).1 =
        .error (.httpException 409 "duplicate trace sequence number") := by
  have hraises : ((@Attempt.program cpython seedRegistry retriedAttempt).exec PlatformStore.handle
      noFaults ((@Attempt.program cpython seedRegistry seedAttempt).exec PlatformStore.handle
        (refusesCall 2) pendingStore).2).1 =
      .error (.httpException 409 "duplicate trace sequence number") := by decide +kernel
  refine ⟨by decide +kernel, fun hsafe => ?_, hraises⟩
  exact absurd (hraises.symm.trans hsafe.1) (by simp)

omit [Interpreter] in
theorem retrySafe_iff_first_event :
    @RetrySafe cpython seedRegistry pendingStore seedAttempt (refusesCall 1) retriedAttempt
      noFaults := by
  have hok : (@runJob cpython plainHost none supportAgent customerRefundWithinPolicy
      "execution").isOk = true := by decide +kernel
  obtain ⟨result, hrun⟩ := Raising.exists_of_isOk hok
  obtain ⟨p, hfirst⟩ := @Attempt.exists_ran cpython seedRegistry seedAttempt
    pendingStore.agentVersions _ _ _ rfl rfl hrun
  obtain ⟨q, hsecond⟩ := @Attempt.exists_ran cpython seedRegistry retriedAttempt
    pendingStore.agentVersions _ _ _ rfl rfl hrun
  exact (@retrySafe_iff cpython seedRegistry pendingStore seedAttempt retriedAttempt p q _
    (refusesCall 1) noFaults rfl rfl rfl rfl hfirst hsecond (fun model h => by cases h)
    (fun _ => rfl)).mpr (.inr ⟨_, rfl⟩)

end AgentProof
