import AgentProof.Platform.Invariant

/-!
# Platform/History — what the store never forgets

An operation that is refused leaves the store as it is.  One that succeeds adds at most one entity
and changes at most one: `record_result` finalizes an open execution.  `PlatformStore.Extends` is
the relation between a store and a later one; it is reflexive and transitive, so it holds along runs.
-/

open Machinery

namespace AgentProof

/-! ## Earlier and later stores -/

/-- An open execution and what it became: only its result and `finished_at` are new. -/
structure TaskExecution.FinalizedTo (execution execution' : TaskExecution) : Prop where
  isOpen : execution.status.terminal = false
  terminal : execution'.status.terminal = true
  result : ∃ payload now, execution' = execution.finalize payload now

/-- What a store holds.  An execution counts by its id, since a result changes it. -/
inductive Entity where
  | version (version : AgentVersion)
  | run (run : EvaluationRun)
  | execution (id : UUID)
  | event (event : TraceEvent)
  | verdict (verdict : JudgeVerdict)

namespace PlatformStore

/-- Everything a store holds. -/
def entities (store : PlatformStore) : List Entity :=
  (store.agentVersions.map fun entry => .version entry.2) ++
    (store.runs.map fun entry => .run entry.2) ++
    (store.executions.map Prod.fst).map .execution ++
    (Dict.items store.eventsByExecution).map .event ++
    (Dict.items store.verdictsByExecution).map .verdict

/-- **A later store**: nothing is lost, and nothing changes but open executions that were
finalized. -/
structure Extends (store store' : PlatformStore) : Prop where
  versions : ∀ {id version}, Dict.get? store.agentVersions id = some version →
    Dict.get? store'.agentVersions id = some version
  runs : ∀ {id run}, Dict.get? store.runs id = some run → Dict.get? store'.runs id = some run
  events : ∀ id, (store.events id).Sublist (store'.events id)
  verdicts : ∀ id, store.verdicts id <+: store'.verdicts id
  executions : ∀ {id execution}, store.getExecution id = .ok execution →
    ∃ execution', store'.getExecution id = .ok execution' ∧
      (execution' = execution ∨ execution.FinalizedTo execution')

namespace Extends

variable {store store' store'' : PlatformStore}

theorem refl (store : PlatformStore) : store.Extends store :=
  ⟨id, id, fun _ => .refl _, fun _ => List.prefix_refl _, fun h => ⟨_, h, .inl rfl⟩⟩

theorem trans (h : store.Extends store') (h' : store'.Extends store'') : store.Extends store'' where
  versions hget := h'.versions (h.versions hget)
  runs hget := h'.runs (h.runs hget)
  events id := (h.events id).trans (h'.events id)
  verdicts id := (h.verdicts id).trans (h'.verdicts id)
  executions hget := by
    obtain ⟨execution', hget', hsame⟩ := h.executions hget
    obtain ⟨execution'', hget'', hsame'⟩ := h'.executions hget'
    refine ⟨execution'', hget'', ?_⟩
    rcases hsame' with rfl | hfinal
    · exact hsame
    · rcases hsame with rfl | hfinalized
      · exact .inr hfinal
      · -- what was finalized is not open
        exact absurd hfinal.isOpen (by simp [hfinalized.terminal])

/-- A finalized execution stays as it is. -/
theorem getExecution_of_terminal (h : store.Extends store') {id : UUID}
    {execution : TaskExecution} (hget : store.getExecution id = .ok execution)
    (hterminal : execution.status.terminal = true) : store'.getExecution id = .ok execution := by
  obtain ⟨execution', hget', rfl | hfinal⟩ := h.executions hget
  · exact hget'
  · exact absurd hfinal.isOpen (by simp [hterminal])

end Extends

end PlatformStore

/-! ## One operation -/

/-- The operation recorded a result of the execution. -/
def Performed.finalizes (id : UUID) (performed : Performed) : Bool :=
  match performed.op with
  | .recordResult executionId _ => executionId = id && performed.outcome.isOk
  | _ => false

variable [Interpreter] [Sha256]

namespace PlatformStore

variable {store store' : PlatformStore}

/-- What a successful operation leaves of the store it was carried out on. -/
structure Advances (performed : Performed) (store store' : PlatformStore) : Prop extends
    Extends store store' where
  /-- at most one entity is new -/
  added : ∃ new : Option Entity, (entities store').Perm (entities store ++ new.toList)
  /-- only `record_result` changes an execution, and only its own -/
  others : ∀ {id execution}, performed.finalizes id = false →
    store.getExecution id = .ok execution → store'.getExecution id = .ok execution
  /-- it takes an open execution to a final one -/
  recorded : ∀ {id}, performed.finalizes id = true → ∃ execution execution',
    store.getExecution id = .ok execution ∧ store'.getExecution id = .ok execution' ∧
      execution.FinalizedTo execution'

/-! ### The entities -/

omit [Interpreter] [Sha256] in
theorem entities_addVersion {id : UUID} (h : Dict.get? store.agentVersions id = none)
    (version : AgentVersion) :
    (entities { store with agentVersions := Dict.set store.agentVersions id version }).Perm
      (entities store ++ [.version version]) := by
  classical
  refine List.perm_iff_count.mpr fun x => ?_
  simp only [entities, Dict.set_of_get?_eq_none h, List.map_append, List.count_append,
    List.map_cons, List.map_nil]
  omega

omit [Interpreter] [Sha256] in
theorem entities_addRun {id : UUID} (h : Dict.get? store.runs id = none) (run : EvaluationRun) :
    (entities { store with runs := Dict.set store.runs id run }).Perm
      (entities store ++ [.run run]) := by
  classical
  refine List.perm_iff_count.mpr fun x => ?_
  simp only [entities, Dict.set_of_get?_eq_none h, List.map_append, List.count_append,
    List.map_cons, List.map_nil]
  omega

omit [Interpreter] [Sha256] in
theorem entities_addExecution {id : UUID} (h : Dict.get? store.executions id = none)
    (execution : TaskExecution) :
    (entities { store with executions := Dict.set store.executions id execution }).Perm
      (entities store ++ [.execution id]) := by
  classical
  refine List.perm_iff_count.mpr fun x => ?_
  simp only [entities, Dict.set_of_get?_eq_none h, List.map_append, List.count_append,
    List.map_cons, List.map_nil]
  omega

omit [Interpreter] [Sha256] in
theorem entities_setExecution {id : UUID} (h : Dict.has store.executions id = true)
    (execution : TaskExecution) :
    entities { store with executions := Dict.set store.executions id execution } =
      entities store := by
  simp only [entities, Dict.map_fst_set h]

omit [Interpreter] [Sha256] in
theorem entities_addEvent {id : UUID} {events : List TraceEvent} {event : TraceEvent}
    (h : events.Perm (store.events id ++ [event])) :
    (entities { store with
      eventsByExecution := Dict.set store.eventsByExecution id events }).Perm
      (entities store ++ [.event event]) := by
  have hitems : ((Dict.items (Dict.set store.eventsByExecution id events)).map Entity.event).Perm
      ((Dict.items store.eventsByExecution).map .event ++ [.event event]) := by
    simpa using (Dict.perm_items_set h).map Entity.event
  classical
  refine List.perm_iff_count.mpr fun x => ?_
  simp only [entities, List.count_append, hitems.count_eq x]
  omega

omit [Interpreter] [Sha256] in
theorem entities_addVerdict {id : UUID} (verdict : JudgeVerdict) :
    (entities { store with
      verdictsByExecution :=
        Dict.set store.verdictsByExecution id (store.verdicts id ++ [verdict]) }).Perm
      (entities store ++ [.verdict verdict]) := by
  have hitems : ((Dict.items (Dict.set store.verdictsByExecution id
      (store.verdicts id ++ [verdict]))).map Entity.verdict).Perm
      ((Dict.items store.verdictsByExecution).map .verdict ++ [.verdict verdict]) := by
    simpa using (Dict.perm_items_set (List.Perm.refl (store.verdicts id ++ [verdict]))).map
      Entity.verdict
  classical
  refine List.perm_iff_count.mpr fun x => ?_
  simp only [entities, List.count_append, hitems.count_eq x]
  omega

/-! ### The operations that succeed -/

section

variable {now : Timestamp} {newId : UUID} {op : StoreOp} {reply : StoreReply}

omit [Interpreter] [Sha256] in
/-- An operation that finalizes nothing. -/
theorem Advances.of_kept {performed : Performed} (hno : ∀ id, performed.finalizes id = false)
    (hextends : store.Extends store') (new : Option Entity)
    (hadded : (entities store').Perm (entities store ++ new.toList))
    (hexecutions : ∀ {id execution}, store.getExecution id = .ok execution →
      store'.getExecution id = .ok execution) : Advances performed store store' where
  toExtends := hextends
  added := ⟨new, hadded⟩
  others _ hget := hexecutions hget
  recorded hfinal := absurd hfinal (by simp [hno])

omit [Interpreter] [Sha256] in
/-- An operation that reads. -/
theorem Advances.of_read {performed : Performed} (hno : ∀ id, performed.finalizes id = false)
    (hversions : store'.agentVersions = store.agentVersions) (hruns : store'.runs = store.runs)
    (hexecutions : store'.executions = store.executions)
    (hevents : ∀ id, store'.events id = store.events id)
    (hverdicts : ∀ id, store'.verdicts id = store.verdicts id)
    (hentities : entities store' = entities store) : Advances performed store store' := by
  have hget : ∀ {id execution}, store.getExecution id = .ok execution →
      store'.getExecution id = .ok execution := by
    intro id execution h
    rw [getExecution_eq_ok_iff, hexecutions]
    exact getExecution_eq_ok_iff.mp h
  refine .of_kept hno ⟨?_, ?_, ?_, ?_, fun h => ⟨_, hget h, .inl rfl⟩⟩ none ?_ hget
  · rw [hversions]
    exact id
  · rw [hruns]
    exact id
  · exact fun id => (hevents id).symm ▸ List.Sublist.refl _
  · exact fun id => (hverdicts id).symm ▸ List.prefix_refl _
  · simp [hentities]

omit [Interpreter] [Sha256] in
/-- **An operation that finalizes an open execution.** -/
theorem Advances.of_finalized {executionId : UUID} {execution : TaskExecution}
    (hexecution : store.getExecution executionId = .ok execution)
    (hopen : execution.status.terminal = false) (payload : TaskExecutionResult) :
    Advances ⟨⟨.recordResult executionId payload, now, newId⟩,
      .ok (.execution (execution.finalize payload now))⟩ store
      { store with
        executions := Dict.set store.executions executionId (execution.finalize payload now) } := by
  have hread := getExecution_eq_ok_iff.mp hexecution
  have hfinal : execution.FinalizedTo (execution.finalize payload now) :=
    ⟨hopen, payload.outcome.1, payload, now, rfl⟩
  have hself := getExecution_set_self store executionId (execution.finalize payload now)
  have hothers := fun {id} (hne : executionId ≠ id) =>
    getExecution_set_of_ne store hne (execution.finalize payload now)
  refine ⟨⟨id, id, fun _ => .refl _, fun _ => List.prefix_refl _, fun {id execution'} h => ?_⟩,
    ⟨none, ?_⟩, fun {id execution'} hno h => ?_, fun {id} hyes => ?_⟩
  · by_cases hid : executionId = id
    · subst hid
      obtain rfl := Except.ok.inj (hexecution.symm.trans h)
      exact ⟨_, hself, .inr hfinal⟩
    · exact ⟨_, (hothers hid).trans h, .inl rfl⟩
  · rw [entities_setExecution (Dict.has_iff.mpr ⟨execution, hread⟩)]
    simp
  · refine (hothers fun hid => ?_).trans h
    simp [Performed.finalizes, hid, Except.isOk, Except.toBool] at hno
  · obtain rfl : executionId = id := by
      simpa [Performed.finalizes, Except.isOk, Except.toBool] using hyes
    exact ⟨execution, _, hexecution, hself, hfinal⟩

/-- **What an operation that succeeds leaves of the store.** -/
theorem Effect.advances (hstore : store.WellFormed) (hfresh : newId ∉ store.ids)
    (h : Effect now newId store op (.ok reply) store') :
    Advances ⟨⟨op, now, newId⟩, .ok reply⟩ store store' := by
  obtain ⟨hversions, hruns, hexecutions⟩ := get?_of_fresh hfresh
  cases h with
  | versionFound | versionRead | executionRead | executionsRead =>
    exact .of_read (fun _ => rfl) rfl rfl rfl (fun _ => rfl) (fun _ => rfl) rfl
  | @traceRead id =>
    refine .of_read (fun _ => rfl) rfl rfl rfl (fun _ => Dict.getD_get?_setDefault _ _ _ _)
      (fun _ => rfl) ?_
    simp only [entities, touchEvents, Dict.items_setDefault]
  | @verdictsRead id =>
    refine .of_read (fun _ => rfl) rfl rfl rfl (fun _ => rfl)
      (fun _ => Dict.getD_get?_setDefault _ _ _ _) ?_
    simp only [entities, touchVerdicts, Dict.items_setDefault]
  | @versionCreated payload version hversion hnew =>
    refine .of_kept (fun _ => rfl) ⟨fun {id _} hget => ?_, id, fun _ => .refl _,
      fun _ => List.prefix_refl _, fun h => ⟨_, h, .inl rfl⟩⟩ (some (.version version))
      (entities_addVersion hversions version) id
    have hne : newId ≠ id := by
      rintro rfl
      simp [hversions] at hget
    rwa [Dict.get?_set_of_ne _ hne]
  | @runCreated payload hversion =>
    refine .of_kept (fun _ => rfl) ⟨id, fun {id _} hget => ?_, fun _ => .refl _,
      fun _ => List.prefix_refl _, fun h => ⟨_, h, .inl rfl⟩⟩ (some (.run (payload.run newId now)))
      (entities_addRun hruns _) id
    have hne : newId ≠ id := by
      rintro rfl
      simp [hruns] at hget
    rwa [Dict.get?_set_of_ne _ hne]
  | @executionCreated runId payload hrun =>
    have hget : ∀ {id execution}, store.getExecution id = .ok execution → newId ≠ id := by
      rintro id execution h rfl
      simp [getExecution_eq_ok_iff, hexecutions] at h
    exact .of_kept (fun _ => rfl) ⟨id, id, fun _ => .refl _, fun _ => List.prefix_refl _,
      fun h => ⟨_, (getExecution_set_of_ne store (hget h) _).trans h, .inl rfl⟩⟩
      (some (.execution newId)) (entities_addExecution hexecutions _)
      fun h => (getExecution_set_of_ne store (hget h) _).trans h
  | @eventAppended executionId payload execution hexecution hfree =>
    refine .of_kept (fun _ => rfl) ⟨id, id, fun id => ?_, fun _ => List.prefix_refl _,
      fun h => ⟨_, h, .inl rfl⟩⟩ (some (.event (storedEvent now executionId payload)))
      (entities_addEvent (List.perm_insertionSort _ _)) (fun h => h)
    rw [events, events, Dict.get?_set]
    split_ifs with hid
    · subst hid
      have hsorted : (store.events executionId).Pairwise fun a b => a.sequenceNo ≤ b.sequenceNo :=
        (isTrace_events hstore.events_trace executionId).increasing.imp le_of_lt
      exact List.sublist_insertionSort hsorted (List.sublist_append_left _ _)
    · exact .refl _
  | @verdictAppended executionId payload execution hexecution =>
    refine .of_kept (fun _ => rfl) ⟨id, id, fun _ => .refl _, fun id => ?_,
      fun h => ⟨_, h, .inl rfl⟩⟩ (some (.verdict (payload.verdict newId executionId now)))
      (entities_addVerdict _) (fun h => h)
    rw [verdicts, verdicts, Dict.get?_set]
    split_ifs with hid
    · subst hid
      exact List.prefix_append _ _
    · exact List.prefix_refl _
  | resultRecorded hexecution hopen => exact .of_finalized hexecution hopen _

end

/-! ## Every operation, and every run -/

/-- The outcome of a refused operation: a 404 or a 409. -/
def IsRefusal (e : PyError) : Prop :=
  ∃ detail, e = .httpException 404 detail ∨ e = .httpException 409 detail

variable {next : Performed}

/-- **A refused operation leaves the store as it is.** -/
theorem Step.refused (h : Step next store store') {e : PyError} (he : next.outcome = .error e) :
    IsRefusal e ∧ store' = store := by
  obtain ⟨-, heffect⟩ := h.effect
  obtain ⟨⟨op, now, newId⟩, outcome⟩ := next
  obtain rfl : outcome = .error e := he
  cases heffect with
  | refused detail hstatus =>
    rcases hstatus with rfl | rfl
    · exact ⟨⟨detail, .inl rfl⟩, rfl⟩
    · exact ⟨⟨detail, .inr rfl⟩, rfl⟩

theorem Step.advances (hstore : store.WellFormed) (h : Step next store store') {reply : StoreReply}
    (hreply : next.outcome = .ok reply) : Advances next store store' := by
  obtain ⟨hfresh, heffect⟩ := h.effect
  obtain ⟨call, outcome⟩ := next
  obtain rfl : outcome = .ok reply := hreply
  exact heffect.advances hstore hfresh

/-- An operation leaves a later store. -/
theorem Step.extends (hstore : store.WellFormed) (h : Step next store store') :
    store.Extends store' := by
  cases houtcome : next.outcome with
  | error e =>
    obtain ⟨-, rfl⟩ := h.refused houtcome
    exact .refl _
  | ok reply => exact (h.advances hstore houtcome).toExtends

/-- **Runs leave later stores.** -/
theorem extends_of_execution {later : List Performed} (hstore : store.Reachable)
    (h : Execution Step store later store') : store.Extends store' := by
  obtain ⟨performed, hrun⟩ := hstore
  have hboth : (∃ performed, Execution Step {} performed store') ∧ store.Extends store' := by
    refine h.invariant (P := fun _ u => (∃ performed, Execution Step {} performed u) ∧
      store.Extends u) ⟨⟨performed, hrun⟩, .refl store⟩ ?_
    rintro _ next u u' ⟨⟨performed, hrun⟩, hextends⟩ hstep
    exact ⟨⟨_, hrun.snoc hstep⟩,
      hextends.trans (hstep.extends (.of_execution hrun))⟩
  exact hboth.2

/-- The execution is finalized. -/
def IsFinal (store : PlatformStore) (id : UUID) : Prop :=
  ∃ execution, store.getExecution id = .ok execution ∧ execution.status.terminal = true

omit [Interpreter] [Sha256] in
/-- What is final stays final. -/
theorem IsFinal.of_extends {id : UUID} (h : store.IsFinal id) (hextends : store.Extends store') :
    store'.IsFinal id := by
  obtain ⟨execution, hget, hterminal⟩ := h
  exact ⟨execution, hextends.getExecution_of_terminal hget hterminal, hterminal⟩

/-- An operation that finalizes found the execution open, and leaves it final. -/
theorem Step.finalizes (hstore : store.WellFormed) (h : Step next store store') {id : UUID}
    (hfinal : next.finalizes id = true) : ¬ store.IsFinal id ∧ store'.IsFinal id := by
  obtain ⟨reply, hreply⟩ : ∃ reply, next.outcome = .ok reply := by
    obtain ⟨⟨op, now, newId⟩, outcome⟩ := next
    cases outcome with
    | ok reply => exact ⟨reply, rfl⟩
    | error e => cases op <;> simp [Performed.finalizes, Except.isOk, Except.toBool] at hfinal
  obtain ⟨execution, execution', hget, hget', hfinalized⟩ :=
    (h.advances hstore hreply).recorded hfinal
  refine ⟨?_, execution', hget', hfinalized.terminal⟩
  rintro ⟨execution'', hget'', hterminal⟩
  obtain rfl := Except.ok.inj (hget.symm.trans hget'')
  exact absurd hterminal (by simp [hfinalized.isOpen])

/-- **An execution is finalized at most once**, and it is final from then on. -/
theorem finalized_once {performed : List Performed} (h : Execution Step {} performed store)
    (id : UUID) :
    (performed.filter (Performed.finalizes id)).length ≤ 1 ∧
      (performed.filter (Performed.finalizes id) ≠ [] → store.IsFinal id) := by
  have hall : store.WellFormed ∧ (performed.filter (Performed.finalizes id)).length ≤ 1 ∧
      (performed.filter (Performed.finalizes id) ≠ [] → store.IsFinal id) := by
    refine h.invariant (P := fun performed u => u.WellFormed ∧
      (performed.filter (Performed.finalizes id)).length ≤ 1 ∧
        (performed.filter (Performed.finalizes id) ≠ [] → u.IsFinal id))
      ⟨.empty, by simp, fun hne => absurd rfl hne⟩ ?_
    rintro performed next u u' ⟨hu, hle, hfinal⟩ hstep
    refine ⟨hu.effect hstep.effect.1 hstep.effect.2, ?_⟩
    rw [List.filter_append, List.filter_singleton]
    by_cases hnext : next.finalizes id = true
    · obtain ⟨hopen, hfinal'⟩ := hstep.finalizes hu hnext
      have hnil : performed.filter (Performed.finalizes id) = [] := by
        by_contra hne
        exact hopen (hfinal hne)
      exact ⟨by simp [hnil, hnext], fun _ => hfinal'⟩
    · rw [Bool.not_eq_true] at hnext
      simp only [hnext, cond_false, List.append_nil]
      exact ⟨hle, fun hne => (hfinal hne).of_extends (hstep.extends hu)⟩
  exact hall.2

/-- **The history of the store is append-only, and errors are atomic.** -/
theorem history_append_only {performed : List Performed}
    (hrun : Execution Step {} performed store) :
    (∀ next store', Step next store store' →
      (∀ e, next.outcome = .error e → IsRefusal e ∧ store' = store) ∧
        ∀ reply, next.outcome = .ok reply → Advances next store store') ∧
      (∀ later store', Execution Step store later store' → store.Extends store' ∧
        ∀ id execution, store.getExecution id = .ok execution →
          execution.status.terminal = true → store'.getExecution id = .ok execution) ∧
      ∀ id, (performed.filter (Performed.finalizes id)).length ≤ 1 := by
  have hstore := WellFormed.of_execution hrun
  refine ⟨fun next store' hstep => ⟨fun e => hstep.refused, fun reply => hstep.advances hstore⟩,
    fun later store' hlater => ?_, fun id => (finalized_once hrun id).1⟩
  have hextends := extends_of_execution ⟨performed, hrun⟩ hlater
  exact ⟨hextends, fun id execution => hextends.getExecution_of_terminal⟩

omit [Interpreter] [Sha256] in
/-- In a session, the second result is refused. -/
theorem history_append_only_session :
    let _ := cpython
    let _ := sha256
    ∃ run ∈ performAll session {},
      (run.1.map fun performed => performed.outcome.isOk) =
        [true, true, true, true, true, true, false, true, false] ∧
      run.2.IsFinal "execution" ∧
      ∀ later store', Execution Step run.2 later store' → run.2.Extends store' := by
  intro _ _
  have hrun : ∃ run ∈ performAll session {},
      (run.1.map fun performed => performed.outcome.isOk) =
        [true, true, true, true, true, true, false, true, false] ∧
      (run.2.getExecution "execution").toOption.any (fun execution => execution.status.terminal) =
        true := by decide +kernel
  obtain ⟨run, hperform, houtcomes, hfinal⟩ := hrun
  refine ⟨run, hperform, houtcomes, ?_, fun later store' hlater =>
    ((history_append_only (execution_performAll hperform)).2.1 later store' hlater).1⟩
  cases hget : run.2.getExecution "execution" with
  | error e => simp [hget, Except.toOption] at hfinal
  | ok execution => exact ⟨execution, hget, by simpa [hget, Except.toOption] using hfinal⟩

end PlatformStore

end AgentProof
