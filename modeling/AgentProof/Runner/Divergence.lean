import AgentProof.Machinery.Closed
import AgentProof.Runner.Attribution

/-!
# Runner/Divergence — no run is a prefix of another

A run logs its terminal step last and never before: the only errors besides it are those of tools,
whose class is one the proxy catches (`RunTrace.closedBy`).  So two stored runs in which no pair of
events is told apart are equally long, and a divergence between them is always a pair of events
(`traces_prefix_free`): `PREMATURE_TERMINATION` is never reported for what a worker wrote.
-/

open Machinery Machinery.Raising

namespace AgentProof

/-! ## Terminal steps and events -/

/-- The payload ends a run. -/
def StepPayload.IsTerminal : StepPayload → Prop
  | .finalAnswer _ => True
  | .error errorType _ => errorType = "MaxStepsExceeded"
  | _ => False

/-- A result that is read later ends no run either. -/
theorem StepPayload.isTerminal_settle (env : SupportToolEnvironment) (payload : StepPayload) :
    (payload.settle env).IsTerminal ↔ payload.IsTerminal := by
  cases payload <;> exact Iff.rfl

/-- The event ends a stored run. -/
def TraceEvent.IsTerminal (event : TraceEvent) : Prop :=
  event.eventType = .finalAnswer ∨
    event.eventType = .error ∧ event.field "error_type" = .str "MaxStepsExceeded"

/-- A step that ends a run is stored as an event that does. -/
theorem StoredAs.isTerminal_iff {step : TraceStep} {event : TraceEvent} (h : StoredAs step event) :
    step.payload.IsTerminal ↔ event.IsTerminal := by
  rw [TraceEvent.IsTerminal, h.eventType]
  cases hpayload : step.payload with
  | finalAnswer content => simp [StepPayload.IsTerminal, StepPayload.eventType]
  | error errorType message =>
    have hfield : event.field "error_type" = .str errorType :=
      h.field_eq (congrArg StepPayload.dumpFields hpayload)
        (show isSensitive "error_type" = false by decide) rfl
    simp [StepPayload.IsTerminal, StepPayload.eventType, hfield]
  | _ => simp [StepPayload.IsTerminal, StepPayload.eventType]

/-- Events that are not told apart end their runs together. -/
theorem isTerminal_iff_of_eventDivergence {left right : TraceEvent}
    (h : eventDivergence left right = none) : left.IsTerminal ↔ right.IsTerminal := by
  have htype := (eventDivergence_eq_none h).1
  rw [TraceEvent.IsTerminal, TraceEvent.IsTerminal, htype]
  refine or_congr_right (and_congr_right fun herror => ?_)
  exact (TraceEvent.field_alike (eventDivergence_error h (htype ▸ herror)) "error_type").str_iff

/-! ## Where a run ends -/

/-- The classes of the exceptions the proxy catches. -/
theorem className_of_caught {e : PyError} (h : e.caughtByProxy = true) :
    e.className ∈ ["NotFoundError", "PolicyViolationError", "UnknownToolError", "TypeError"] := by
  cases e with
  | notFound | policyViolation | unknownTool | typeError => simp [PyError.className]
  | _ => exact absurd h (by simp [PyError.caughtByProxy])

variable [Interpreter] {σ : Type} {client : ModelClient σ} {version : AgentVersion}
  {maxSteps maxModelRetries remaining : ℕ} {messages : Messages} {c c' : σ}
  {host : Host} {env env' : SupportToolEnvironment}

/-- What a call is closed with does not end the run, whatever the error looks like. -/
theorem Closing.not_isTerminal {call : ToolCallRequest} {payload : StepPayload}
    (h : Closing host call env payload env') : ¬ payload.IsTerminal := by
  cases h with
  | result _ => exact id
  | error _ hcaught =>
    intro hterminal
    have hclass := className_of_caught hcaught
    rw [StepPayload.IsTerminal] at hterminal
    rw [hterminal] at hclass
    exact absurd hclass (by decide)

theorem CallsRun.not_isTerminal {calls : List ToolCallRequest} {steps : List TraceStep}
    {answers : Messages} (h : CallsRun host calls env steps answers env') :
    ∀ step ∈ steps, ¬ step.payload.IsTerminal := by
  induction h with
  | nil => simp
  | cons hcall _ hclosing _ _ _ ih =>
    refine List.forall_mem_cons.mpr ⟨?_, List.forall_mem_cons.mpr ⟨hclosing.not_isTerminal, ih⟩⟩
    rw [hcall]
    exact id

omit [Interpreter] in
theorem Opening.not_isTerminal {reply : ModelReply} {request response : TraceStep}
    {retries : List TraceStep}
    (h : Opening client version maxModelRetries messages c reply c' request retries response) :
    ∀ step ∈ request :: retries ++ [response], ¬ step.payload.IsTerminal := by
  intro step hmem hterminal
  have htype := h.eventType step hmem
  cases hpayload : step.payload with
  | finalAnswer content => simp [hpayload, StepPayload.eventType] at htype
  | error errorType message => simp [hpayload, StepPayload.eventType] at htype
  | _ =>
    rw [hpayload] at hterminal
    exact hterminal

/-- **A run ends with its only terminal step.** -/
theorem RunTrace.closedBy {replies : List ModelReply} {steps : List TraceStep}
    {finalOutput : Option String}
    (h : RunTrace host client version maxSteps maxModelRetries remaining messages c env replies steps
      finalOutput c' env') : ClosedBy (fun step => step.payload.IsTerminal) steps := by
  induction h with
  | exceeded hterminal _ =>
    refine .last ?_
    rw [hterminal]
    exact rfl
  | @answered _ _ _ _ _ _ request response terminal retries hopening _ hterminal _ =>
    rw [show request :: retries ++ response :: [terminal] =
      (request :: retries ++ [response]) ++ [terminal] by simp]
    refine .append hopening.not_isTerminal (.last ?_)
    rw [hterminal]
    exact trivial
  | @round _ _ _ _ _ _ _ _ _ _ _ request response retries calls steps _ hopening _ hcalls _ ih =>
    rw [show request :: retries ++ response :: (calls ++ steps) =
      (request :: retries ++ [response]) ++ (calls ++ steps) by simp]
    exact .append hopening.not_isTerminal (.append hcalls.not_isTerminal ih)

/-! ## Two stored runs -/

/-- The events are a run's, as they are stored. -/
def StoredRun (events : List TraceEvent) : Prop :=
  ∃ (σ : Type) (host : Host) (version : AgentVersion) (task : BenchmarkTask)
    (client : ModelClient σ) (executionId : Option UUID) (maxSteps maxModelRetries : ℕ) (c c' : σ)
    (result : RunnerResult),
    runTask host version task client executionId maxSteps maxModelRetries c = .ok result c' ∧
      List.Forall₂ StoredAs result.trace.steps events

theorem StoredRun.closedBy {events : List TraceEvent} (h : StoredRun events) :
    ClosedBy TraceEvent.IsTerminal events := by
  obtain ⟨σ, host, version, task, client, executionId, maxSteps, maxModelRetries, c, c', result, hrun,
    hstored⟩ := h
  obtain ⟨replies, steps, env', htrace, hread, -⟩ := runTask_eq_ok hrun
  rw [hread, List.forall₂_map_left_iff] at hstored
  exact htrace.closedBy.of_forall₂
    (fun step _ hevent => (step.payload.isTerminal_settle env').symm.trans hevent.isTerminal_iff)
    hstored

/-- **Stored runs in which no pair of events is told apart are equally long.** -/
theorem StoredRun.length_eq {left right : List TraceEvent} (hleft : StoredRun left)
    (hright : StoredRun right)
    (h : ∀ pair ∈ left.zip right, eventDivergence pair.1 pair.2 = none) :
    left.length = right.length :=
  hleft.closedBy.length_eq hright.closedBy fun pair hmem =>
    isTerminal_iff_of_eventDivergence (h pair hmem)

/-- The attribution is to one event of each trace, at the same position. -/
def TraceAttribution.NamesPair (left right : List TraceEvent) (attribution : TraceAttribution) :
    Prop :=
  attribution.divergenceType ≠ .prematureTermination ∧
    ∃ (i : ℕ) (event event' : TraceEvent), left[i]? = some event ∧ right[i]? = some event' ∧
      attribution.baselineEventId = some event.id ∧ attribution.candidateEventId = some event'.id

omit [Interpreter] in
/-- No pair of events is a premature termination. -/
theorem eventDivergence_ne_premature (left right : TraceEvent) :
    eventDivergence left right ≠ some .prematureTermination := by
  rw [eventDivergence]
  split_ifs <;> simp

/-- **A divergence between stored runs is a pair of events.** -/
theorem StoredRun.namesPair {left right : List TraceEvent} (hleft : StoredRun left)
    (hright : StoredRun right) {taskId : String} {baseline candidate : TaskExecution}
    {attribution : TraceAttribution}
    (h : firstDivergence taskId baseline candidate left right = some attribution) :
    attribution.NamesPair left right := by
  rw [firstDivergence] at h
  split at h
  · rename_i found hfound
    obtain rfl := Option.some.inj h
    obtain ⟨pair, hmem, hpair⟩ := List.exists_of_findSome?_eq_some hfound
    obtain ⟨divergence, hdivergence, rfl⟩ := Option.map_eq_some_iff.mp hpair
    obtain ⟨i, hi⟩ := List.mem_iff_getElem?.mp hmem
    obtain ⟨hl, hr⟩ := List.getElem?_zip_eq_some.mp hi
    refine ⟨fun hpremature => ?_, i, pair.1, pair.2, hl, hr, rfl, rfl⟩
    exact eventDivergence_ne_premature _ _ (hdivergence.trans (congrArg some hpremature))
  · rename_i hnone
    have hlength := hleft.length_eq hright fun pair hmem =>
      Option.map_eq_none_iff.mp (List.findSome?_eq_none_iff.mp hnone pair hmem)
    rw [if_neg (not_not.mpr hlength)] at h
    exact absurd h (by simp)

/-! ## What workers wrote -/

/-- The execution is a worker's: it has no result yet, or its result was left by attempts on it. -/
inductive PlatformStore.WrittenByWorker (store : PlatformStore) (executionId : UUID) : Prop where
  | pending {execution : TaskExecution} (h : store.getExecution executionId = .ok execution)
      (hpassed : execution.passed = none)
  | persisted {ι : Type} [DecidableEq ι] {registry : Dict String BenchmarkTask}
      {attempts : ι → Attempt} {initial : PlatformStore}
      (h : store.PersistedBy registry executionId attempts initial)

/-- A worker's execution that has a result holds a stored run. -/
theorem PlatformStore.WrittenByWorker.storedRun {store : PlatformStore} {executionId : UUID}
    (h : store.WrittenByWorker executionId) {execution : TaskExecution} {passed : Bool}
    (hexecution : store.getExecution executionId = .ok execution)
    (hpassed : execution.passed = some passed) : StoredRun (store.events executionId) := by
  cases h with
  | pending h hnone =>
    obtain rfl := Except.ok.inj (h.symm.trans hexecution)
    exact absurd (hnone.symm.trans hpassed) (by simp)
  | persisted h =>
    obtain ⟨i, p, hran, hstored, -⟩ := h.exists_run
    obtain ⟨_, _, _, _, _, hrun⟩ := hran.exists_runTask rfl
    rw [PlatformStore.Stores, List.take_length] at hstored
    exact ⟨_, _, _, _, _, _, _, _, _, _, _, hrun,
      forall₂_storedAs hran.events.toStorage hstored⟩

omit [Interpreter] in
/-- A command leaves the record of an execution as it was, or finalizes it. -/
theorem PlatformStore.handle_getExecution (w : Circumstance) (c : StoreCommand)
    (store : PlatformStore) (executionId : UUID) :
    (handle w c store).2.getExecution executionId = store.getExecution executionId ∨
      (handle w c store).2.Finalized executionId := by
  have hanswer : (store.answer w.now w.newId c).2.getExecution executionId =
      store.getExecution executionId ∨ (store.answer w.now w.newId c).2.Finalized executionId := by
    by_cases hignores : c.Ignores executionId
    · exact .inl (sameView_answer w.now w.newId hignores store).execution
    cases c with
    | getAgentVersion => exact .inl rfl
    | appendTraceEvent id payload =>
      simp only [answer, appendTraceEvent]
      split <;> [exact .inl rfl; (split <;> exact .inl rfl)]
    | appendJudgeVerdict id payload =>
      simp only [answer, appendJudgeVerdict]
      split <;> exact .inl rfl
    | recordResult id payload =>
      obtain rfl : id = executionId := not_not.mp fun hne => hignores fun h => hne (Option.some.inj h)
      simp only [answer, recordResult]
      split
      · exact .inl rfl
      · rename_i execution _
        split
        · exact .inl rfl
        · exact .inr ⟨execution.finalize payload w.now,
            by simp only [getExecution, Dict.get?_set_self], payload.outcome.1⟩
  rcases handle_cases w c store with h | ⟨e, h | h⟩ <;> rw [h]
  · exact hanswer
  · exact .inl rfl
  · exact hanswer

/-- **Attempts on fresh executions write them**, whatever the interleaving and the faults. -/
theorem writtenByWorker_of_reachable {ι : Type} [DecidableEq ι]
    {registry : Dict String BenchmarkTask} {attempts : ι → Attempt} {initial : PlatformStore}
    {t : Threads PyError StoreCommand StoreCommand.Resp PlatformStore ι Unit} {executionId : UUID}
    {execution : TaskExecution} (hfresh : initial.getExecution executionId = .ok execution)
    (hopen : execution.status.terminal = false) (hpassed : execution.passed = none)
    (hempty : initial.events executionId = [])
    (h : Threads.Reachable PlatformStore.handle
      ⟨initial, fun i => (attempts i).program registry⟩ t) :
    t.shared.WrittenByWorker executionId := by
  have hnot : ¬ initial.Finalized executionId := by
    rintro ⟨execution', hexecution', hterminal⟩
    obtain rfl := Except.ok.inj (hfresh.symm.trans hexecution')
    exact absurd hterminal (by simp [hopen])
  by_cases hfinal : t.shared.Finalized executionId
  · exact .persisted (persisted_of_reachable hempty hnot h hfinal)
  · have hsame := h.invariant (P := fun u => ¬ u.shared.Finalized executionId →
        u.shared.getExecution executionId = initial.getExecution executionId) (fun _ => rfl)
      fun u u' hu hstep hfinal' => by
        obtain @⟨_, c, _, _, w⟩ := hstep
        have hrecord := PlatformStore.handle_getExecution w c u.shared executionId
        have hsame := hrecord.resolve_right hfinal'
        refine hsame.trans (hu fun hfinal => hfinal' ?_)
        rw [PlatformStore.Finalized] at hfinal ⊢
        rwa [show (u.advance _ _ _).shared.getExecution executionId = _ from hsame]
    exact .pending ((hsame hfinal).trans hfresh) hpassed

/-- **Runner traces are prefix-free.**  Two stored runs in which no pair of events is told apart are
equally long; and whatever a comparison attributes between two executions that workers wrote, it
attributes to a pair of events. -/
theorem traces_prefix_free :
    (∀ left right, StoredRun left → StoredRun right →
      (∀ pair ∈ left.zip right, eventDivergence pair.1 pair.2 = none) →
      left.length = right.length) ∧
    ∀ store : PlatformStore, store.Keyed → ∀ baselineRunId candidateRunId comparison,
      compareRuns store baselineRunId candidateRunId = .ok comparison →
      ∀ item ∈ comparison.results, store.WrittenByWorker item.baselineExecutionId →
        store.WrittenByWorker item.candidateExecutionId →
        ∀ attribution, item.attribution = some attribution →
          attribution.NamesPair (store.events item.baselineExecutionId)
            (store.events item.candidateExecutionId) := by
  refine ⟨fun left right hleft hright h => hleft.length_eq hright h, ?_⟩
  intro store hkeyed baselineRunId candidateRunId comparison hcompare item hitem hleft hright
    attribution hattribution
  have hregression := compareRuns_attribution hcompare hitem (by simp [hattribution])
  obtain ⟨left, right, ⟨entry, hentry, rfl⟩, ⟨entry', hentry', rfl⟩, hleftId, hrightId, hpassed,
    hfailed, hdivergence⟩ := compareRuns_regression hcompare hitem hregression
  rw [hleftId] at hleft ⊢
  rw [hrightId] at hright ⊢
  have hrun := hleft.storedRun (hkeyed.getExecution_of_mem hentry) hpassed
  have hrun' := hright.storedRun (hkeyed.getExecution_of_mem hentry') hfailed
  exact hrun.namesPair hrun' (hdivergence.symm.trans hattribution)

omit [Interpreter] in
theorem traces_prefix_free_idle :
    let _ := cpython
    let store := storeOfPair customerRefundWithinPolicy idleScripts
    ∃ comparison, compareRuns store "run 1" "run 2" = .ok comparison ∧
      ∃ item ∈ comparison.results, ∃ attribution, item.attribution = some attribution ∧
        attribution.NamesPair (store.events item.baselineExecutionId)
          (store.events item.candidateExecutionId) := by
  intro _ store
  obtain ⟨t, hreach, hshared⟩ := reachable_storeOfPair customerRefundWithinPolicy idleScripts
  have hwritten : ∀ b, store.WrittenByWorker (pairedExecution b) := by
    intro b
    rw [show store = t.shared from hshared.symm]
    cases b
    · exact writtenByWorker_of_reachable rfl rfl rfl rfl hreach
    · exact writtenByWorker_of_reachable rfl rfl rfl rfl hreach
  have hcomputed : ∃ comparison, compareRuns store "run 1" "run 2" = .ok comparison ∧
      ∃ item ∈ comparison.results, item.baselineExecutionId = pairedExecution true ∧
        item.candidateExecutionId = pairedExecution false ∧ item.attribution ≠ none := by
    decide +kernel
  obtain ⟨comparison, hcompare, item, hitem, hbaseline, hcandidate, hsome⟩ := hcomputed
  obtain ⟨attribution, hattribution⟩ := Option.ne_none_iff_exists'.mp hsome
  refine ⟨comparison, hcompare, item, hitem, attribution, hattribution, ?_⟩
  exact traces_prefix_free.2 store (keyed_storeOfPair _ _) _ _ comparison hcompare item hitem
    (hbaseline ▸ hwritten true) (hcandidate ▸ hwritten false) attribution hattribution

end AgentProof
