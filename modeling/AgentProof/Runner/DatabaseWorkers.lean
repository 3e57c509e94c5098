import AgentProof.Runner.Serving

/-!
# Runner/DatabaseWorkers — workers on one database

Any number of workers process jobs on one `PostgresStore`, whose sessions interleave statement by
statement at READ COMMITTED; a worker may stop anywhere.

`workers_refine`: they are workers on the in-memory store.  A late `UPDATE`, which would finalize an
execution twice, does not occur: `record_result` is called by the one attempt that owns the trace.
-/

open Machinery Machinery.Prog

namespace AgentProof

/-- Workers on one database. -/
abbrev DatabaseWorkers (ι : Type) : Type :=
  Threads PyError SessionCommand SessionCommand.Resp Tables ι Unit

/-- Workers on the in-memory store. -/
abbrev StoreWorkers (ι : Type) : Type :=
  Threads PyError StoreCommand StoreCommand.Resp PlatformStore ι Unit

/-- Workers on one database, which carries out their calls at once. -/
abbrev CallWorkers (ι : Type) : Type :=
  Threads PyError WorkerCall (fun c => c.1.Resp) Tables ι Unit

section

variable {ι : Type} [Interpreter] (registry : Dict String BenchmarkTask) (attempts : ι → Attempt)
  (stamps : ι → ℕ → Timestamp × UUID)

/-- Every worker is to process its job. -/
def StoreWorkers.initial (store : PlatformStore) : StoreWorkers ι where
  shared := store
  thread i := (attempts i).program registry

/-- …each of its calls at a time and with an id that the database is given. -/
def CallWorkers.initial (db : Tables) : CallWorkers ι where
  shared := db
  thread i := ((attempts i).program registry).supply (stamps i)

/-- …each of its calls a transaction. -/
def DatabaseWorkers.initial (db : Tables) : DatabaseWorkers ι where
  shared := db
  thread i := (((attempts i).program registry).supply (stamps i)).expand PostgresStore.serve

omit [Interpreter] in
/-- The ids that are generated on the way are new: those the database is given, and those of the
events. -/
structure NewIds (store : PlatformStore) : Prop where
  generated : ∀ i n, (stamps i n).2 ∉ store.ids
  generated_injective : ∀ i n j m, (stamps i n).2 = (stamps j m).2 → i = j ∧ n = m
  events : ∀ i n, ¬ store.HasEvent ((attempts i).host.stepId n)
  events_injective : ∀ i n j m,
    (attempts i).host.stepId n = (attempts j).host.stepId m → i = j ∧ n = m

end

/-! ## Call by call -/

/-- The only event a call adds is the one it appends. -/
theorem PlatformStore.mem_events_answer {now : Timestamp} {newId id : UUID} {c : StoreCommand}
    {store : PlatformStore} {event : TraceEvent}
    (hmem : event ∈ (store.answer now newId c).2.events id) :
    event ∈ store.events id ∨
      ∃ payload, c = .appendTraceEvent id payload ∧ event = storedEvent now id payload := by
  cases c with
  | getAgentVersion _ => exact .inl hmem
  | recordResult id' payload =>
    rw [answer, recordResult] at hmem
    cases hexecution : store.getExecution id' with
    | error e =>
      rw [hexecution] at hmem
      exact .inl hmem
    | ok execution =>
      rw [hexecution] at hmem
      dsimp only at hmem
      split_ifs at hmem <;> exact .inl hmem
  | appendJudgeVerdict id' payload =>
    rw [answer, appendJudgeVerdict] at hmem
    cases hexecution : store.getExecution id' <;> rw [hexecution] at hmem <;> exact .inl hmem
  | appendTraceEvent id' payload =>
    rw [answer, appendTraceEvent] at hmem
    cases hexecution : store.getExecution id' with
    | error e =>
      rw [hexecution] at hmem
      exact .inl hmem
    | ok execution =>
      rw [hexecution] at hmem
      dsimp only at hmem
      split_ifs at hmem
      · exact .inl hmem
      · rw [events, Dict.get?_set] at hmem
        split_ifs at hmem with hid
        · subst hid
          rw [Option.getD_some, sortBySequenceNo, List.mem_insertionSort, List.mem_append,
            List.mem_singleton] at hmem
          exact hmem.imp_right fun heq => ⟨payload, rfl, heq⟩
        · exact .inl hmem

/-- An event that is stored stays. -/
theorem PlatformStore.subset_events_answer (now : Timestamp) (newId : UUID) (c : StoreCommand)
    (store : PlatformStore) (id : UUID) :
    store.events id ⊆ (store.answer now newId c).2.events id := by
  cases c with
  | getAgentVersion _ => exact List.Subset.refl _
  | recordResult id' payload =>
    rw [answer, recordResult]
    split <;> [exact List.Subset.refl _; (split <;> exact List.Subset.refl _)]
  | appendJudgeVerdict id' payload =>
    rw [answer, appendJudgeVerdict]
    split <;> exact List.Subset.refl _
  | appendTraceEvent id' payload =>
    rw [answer, appendTraceEvent]
    split
    · exact List.Subset.refl _
    · split
      · exact List.Subset.refl _
      · intro event hmem
        rw [events, Dict.get?_set]
        split_ifs with hid
        · subst hid
          rw [Option.getD_some, sortBySequenceNo, List.mem_insertionSort]
          exact List.mem_append_left _ hmem
        · exact hmem

/-- An event that was appended is there. -/
theorem PlatformStore.mem_events_of_append {now : Timestamp} {id : UUID}
    {payload : TraceEventCreate} {store : PlatformStore} {event : TraceEvent}
    (h : (store.appendTraceEvent now id payload).1 = .ok event) :
    event ∈ (store.appendTraceEvent now id payload).2.events id ∧
      event.sequenceNo = payload.sequenceNo := by
  rw [appendTraceEvent] at h ⊢
  split at h
  · cases h
  · dsimp only at h ⊢
    split_ifs at h ⊢
    obtain rfl := Except.ok.inj h
    refine ⟨?_, rfl⟩
    rw [events, Dict.get?_set_self, Option.getD_some, sortBySequenceNo, List.mem_insertionSort]
    exact List.mem_append_right _ (List.mem_singleton_self _)

section

variable {ι : Type} [Interpreter] [Sha256] {registry : Dict String BenchmarkTask}
  {attempts : ι → Attempt} {stamps : ι → ℕ → Timestamp × UUID} {store : PlatformStore}
  {issued : ι → ℕ} {u u' : CallWorkers ι} {v v' : StoreWorkers ι}

variable (attempts stamps store) in
/-- Workers on the database and workers on the in-memory store are at the same point, after so many
calls of each. -/
structure Simulates (issued : ι → ℕ) (u : CallWorkers ι) (v : StoreWorkers ι) : Prop where
  stands : ∀ i, u.thread i = (v.thread i).supply (fun n => stamps i (issued i + n)) ∨
    ∃ e e', u.thread i = .done (.error e) ∧ v.thread i = .done (.error e')
  tolerant : ∀ i, Tolerant (v.thread i)
  names : ∀ i, (v.thread i).Only (attempts i).Names
  mirrors : Mirrors id v.shared u.shared
  wellFormed : v.shared.WellFormed
  ids : ∀ id ∈ v.shared.ids, id ∈ store.ids ∨ ∃ i n, n < issued i ∧ (stamps i n).2 = id
  events : ∀ id, ∀ event ∈ v.shared.events id, store.HasEvent event.id ∨
    ∃ i, (attempts i).job.executionId = id ∧ (attempts i).host.stepId event.sequenceNo = event.id

theorem Simulates.initial {db : Tables} (hstore : store.WellFormed)
    (hmirrors : Mirrors id store db) :
    Simulates attempts stamps store (fun _ => 0) (CallWorkers.initial registry attempts stamps db)
      (StoreWorkers.initial registry attempts store) where
  stands i := .inl (by simp only [Nat.zero_add]; rfl)
  tolerant i := (attempts i).tolerant registry
  names i := (attempts i).names registry
  mirrors := hmirrors
  wellFormed := hstore
  ids _ hid := .inl hid
  events id event hmem := .inl (PlatformStore.hasEvent_iff.mpr ⟨id, event, hmem, rfl⟩)

/-- The id that the next call is given is new. -/
theorem Simulates.fresh (hnew : NewIds attempts stamps store)
    (h : Simulates attempts stamps store issued u v) (i : ι) :
    (stamps i (issued i)).2 ∉ v.shared.ids := by
  intro hmem
  rcases h.ids _ hmem with hmem | ⟨j, n, hn, heq⟩
  · exact hnew.generated i _ hmem
  · obtain ⟨rfl, rfl⟩ := hnew.generated_injective _ _ _ _ heq
    exact hn.false

/-- The id of an event that is appended at a free number is new. -/
theorem Simulates.not_reusesEventId (hnew : NewIds attempts stamps store)
    (h : Simulates attempts stamps store issued u v) {i : ι} {c : StoreCommand}
    (hnames : (attempts i).Names c) : ¬ v.shared.ReusesEventId c.op := by
  cases c with
  | appendTraceEvent executionId payload =>
    rintro ⟨-, hfree, hused⟩
    obtain ⟨rfl, hid⟩ := hnames
    obtain ⟨executionId', event, hmem, heq⟩ := PlatformStore.hasEvent_iff.mp hused
    rcases h.events executionId' event hmem with hold | ⟨j, rfl, hstep⟩
    · rw [heq, hid] at hold
      exact hnew.events i _ hold
    · obtain ⟨rfl, hno⟩ := hnew.events_injective _ _ _ _ (hstep.trans (heq.trans hid))
      exact hfree event hmem hno
  | _ => exact id

/-- **A call is answered alike** by the two stores, which it leaves alike. -/
theorem Simulates.call (hnew : NewIds attempts stamps store)
    (h : Simulates attempts stamps store issued u v) {i : ι} {c : StoreCommand}
    (hname : (attempts i).Names c) (scans : ℕ → Scan) {now : Timestamp} {newId : UUID}
    (hstamp : stamps i (issued i) = (now, newId)) :
    newId ∉ v.shared.ids ∧
      c.AlikeOutcomes (v.shared.answer now newId c).1
        (ofBlocks Tables.handle PostgresStore.serve scans (c, stamps i (issued i)) u.shared).1 ∧
      Mirrors id (v.shared.answer now newId c).2
        (ofBlocks Tables.handle PostgresStore.serve scans (c, stamps i (issued i)) u.shared).2 := by
  have hfresh : newId ∉ v.shared.ids := by
    have hfresh := h.fresh hnew i
    rwa [hstamp] at hfresh
  have hcorresponds : Corresponds id (v.shared.perform now newId c.op)
      ((PostgresStore.transaction now (id newId) (c.op.rename id)).exec Tables.handle scans
        u.shared) :=
    h.mirrors.corresponds h.wellFormed Function.injective_id hfresh
      (h.not_reusesEventId hnew hname)
  rw [StoreOp.rename_id, id_eq, PostgresStore.transaction_op, exec_map,
    PlatformStore.perform_op] at hcorresponds
  rw [hstamp]
  exact ⟨hfresh, .of_sameOutcome hcorresponds.1, hcorresponds.2⟩

variable [DecidableEq ι]

/-- **Step lemma**: the workers go on alike. -/
theorem Simulates.step (hnew : NewIds attempts stamps store)
    (h : Simulates attempts stamps store issued u v) {i : ι}
    (hstep : Threads.Issues (ofBlocks Tables.handle PostgresStore.serve) i u u') :
    ∃ v', Threads.Step PlatformStore.unfailing v v' ∧
      Simulates attempts stamps store (Function.update issued i (issued i + 1)) u' v' := by
  obtain @⟨c, k, hi, scans⟩ := hstep
  rcases h.stands i with hu | ⟨e, e', hu, -⟩
  · cases hv : v.thread i with
    | done r =>
      rw [hi, hv] at hu
      cases hu
    | call c₀ k₀ =>
      rw [hi, hv] at hu
      cases hu
      have htolerant := h.tolerant i
      have hnames := h.names i
      rw [hv] at htolerant hnames
      obtain ⟨hname, hnamesNext⟩ : (attempts i).Names c₀ ∧ ∀ r, (k₀ r).Only (attempts i).Names := by
        cases hnames with
        | call hc hk => exact ⟨hc, hk⟩
      obtain ⟨now, newId, hstamp⟩ : ∃ now newId, stamps i (issued i) = (now, newId) := ⟨_, _, rfl⟩
      obtain ⟨hfresh, halike, hmirrors⟩ := h.call hnew hname scans hstamp
      have heffect := PlatformStore.perform_effect now newId v.shared c₀.op
      rw [PlatformStore.perform_op] at heffect
      have hissued : issued ≤ Function.update issued i (issued i + 1) :=
        le_update_self_iff.mpr (Nat.le_succ _)
      have hcall : Threads.Step PlatformStore.unfailing v (v.advance i
          (v.shared.answer now newId c₀).2 (k₀ (v.shared.answer now newId c₀).1)) :=
        .call hv (now, newId)
      refine ⟨_, hcall, fun j => ?_,
        Threads.forall_advance (Q := fun _ p => Tolerant p) h.tolerant (htolerant.answer _),
        Threads.forall_advance (Q := fun j p => p.Only (attempts j).Names) h.names (hnamesNext _),
        hmirrors, h.wellFormed.effect hfresh heffect, fun id hid => ?_, fun id event hmem => ?_⟩
      · by_cases hji : j = i
        · subst hji
          rw [Threads.advance_thread_self, Threads.advance_thread_self, Function.update_self]
          have hnext : (fun n => stamps j (issued j + (n + 1))) =
              fun n => stamps j (issued j + 1 + n) := by
            funext n
            rw [Nat.add_right_comm, Nat.add_assoc]
          simp only [hnext, Nat.add_zero]
          rcases htolerant.alike halike with hsame | ⟨e, e', hended, hended'⟩
          · exact .inl (by rw [hsame])
          · exact .inr ⟨e, e', by rw [hended]; rfl, hended'⟩
        · rw [Threads.advance_thread_of_ne _ _ _ _ hji, Threads.advance_thread_of_ne _ _ _ _ hji,
            Function.update_of_ne hji]
          exact h.stands j
      · rcases heffect.mem_ids hid with hid | rfl
        · refine (h.ids id hid).imp_right ?_
          rintro ⟨j, n, hn, heq⟩
          exact ⟨j, n, hn.trans_le (hissued j), heq⟩
        · refine .inr ⟨i, issued i, ?_, congrArg Prod.snd hstamp⟩
          rw [Function.update_self]
          exact Nat.lt_succ_self _
      · rcases PlatformStore.mem_events_answer hmem with hmem | ⟨payload, rfl, rfl⟩
        · exact h.events id event hmem
        · exact .inr ⟨i, hname.1.symm, hname.2.symm⟩
  · rw [hi] at hu
    cases hu

/-! ## Who finalizes -/

omit [Sha256] in
/-- An attempt that has stored nothing does not record its result next. -/
theorem Attempt.Fresh.ne_recordResult {a : Attempt} {versions : Dict UUID AgentVersion}
    {executionId id : UUID} {payload : TaskExecutionResult}
    {k : Except PyError TaskExecution → StoreProg Unit} :
    ¬ a.Fresh registry versions executionId (.call (.recordResult id payload) k) := by
  rintro (hprogram | ⟨p, hran, hpersist⟩ | ⟨r, hr⟩)
  · rw [program, processJob] at hprogram
    cases htask : Dict.get? registry a.job.taskId with
    | none =>
      rw [htask] at hprogram
      cases hprogram
    | some task =>
      rw [htask] at hprogram
      cases hprogram
  · obtain ⟨next, happend, -⟩ := p.persistFrom_of_lt executionId a.judgeModel hran.events.length_pos
    rw [happend] at hpersist
    cases hpersist
  · cases hr

/-- The first event of a run is stored of the execution. -/
def PlatformStore.Begun (store : PlatformStore) (executionId : UUID) : Prop :=
  ∃ event ∈ store.events executionId, event.sequenceNo = 0

omit [Interpreter] [Sha256] in
theorem PlatformStore.Begun.handle {executionId : UUID} (h : store.Begun executionId)
    (w : Circumstance) (c : StoreCommand) : (handle w c store).2.Begun executionId := by
  obtain ⟨event, hmem, hno⟩ := h
  refine ⟨event, ?_, hno⟩
  rcases handle_cases w c store with h | ⟨e, h | h⟩ <;> rw [h]
  · exact subset_events_answer _ _ _ _ _ hmem
  · exact hmem
  · exact subset_events_answer _ _ _ _ _ hmem

omit [Sha256] in
/-- **A step of a fresh attempt**: it is still fresh, or its first event is stored. -/
theorem Attempt.Fresh.step {a : Attempt} {versions : Dict UUID AgentVersion} {executionId : UUID}
    (hjob : a.job.executionId = executionId) (hversions : store.agentVersions = versions)
    (w : Circumstance) {c : StoreCommand} {next : Except PyError c.Resp → StoreProg Unit}
    (h : a.Fresh registry versions executionId (.call c next)) :
    a.Fresh registry versions executionId (next (PlatformStore.handle w c store).1) ∨
      (PlatformStore.handle w c store).2.Begun executionId := by
  rcases h with h | ⟨p, hran, h⟩ | ⟨r, h⟩
  · exact .inl (Attempt.Fresh.of_program hjob hversions w h.symm).2
  · have hpos : 0 < p.events.length := hran.events.length_pos
    obtain ⟨next', hnext, -, herror⟩ := p.persistFrom_of_lt executionId a.judgeModel hpos
    rw [hnext] at h
    cases h
    cases hanswer : (PlatformStore.handle w (.appendTraceEvent executionId p.events[0]) store).1 with
    | error e => exact .inl (.inr (.inr ⟨.error e, herror e⟩))
    | ok event =>
      have hhandle := PlatformStore.handle_eq_ok hanswer
      rw [hhandle] at hanswer ⊢
      obtain ⟨hmem, hno⟩ := PlatformStore.mem_events_of_append hanswer
      exact .inr ⟨event, hmem, hno.trans (hran.events.sequenceNo_getElem hpos)⟩
  · exact absurd h (by simp)

omit [Sha256] in
/-- The workers on one execution, among the others: it is owned. -/
theorem exists_ownership {executionId : UUID} (hempty : store.events executionId = [])
    (h : Threads.Reachable PlatformStore.handle (StoreWorkers.initial registry attempts store) v) :
    ∃ w : StoreWorkers { i // (attempts i).job.executionId = executionId },
      Ownership (fun i => attempts i.1) store registry executionId w ∧
      (∀ i, w.thread i = v.thread i.1) ∧ PlatformStore.SameView executionId v.shared w.shared := by
  have hwithout : Threads.Without (StoreCommand.Concerns executionId)
      (StoreCommand.Ignores executionId) (PlatformStore.SameView executionId)
      (fun i => (attempts i).job.executionId = executionId)
      (StoreWorkers.initial registry attempts store)
      ⟨store, fun i => (attempts i.1).program registry⟩ := by
    refine ⟨fun i => ⟨?_, rfl⟩, fun i hi => ?_, ⟨rfl, rfl, rfl⟩⟩
    · have hown := (attempts i.1).concerns registry
      rw [i.2] at hown
      exact hown
    · exact ((attempts i).concerns registry).mono fun _ hc => hc.ignores hi
  obtain ⟨w, hreach, hview⟩ := h.restrict (PlatformStore.frame executionId) hwithout
  exact ⟨w, .of_reachable (fun i => i.2) hempty hreach, fun i => (hview.kept i).2, hview.shared⟩

variable (registry attempts) in
/-- At most one attempt on the execution has stored an event: all others are as good as new, and
stay so, because an event is in their way. -/
inductive SoleWriter (versions : Dict UUID AgentVersion) (executionId : UUID) (v : StoreWorkers ι) :
    Prop where
  | nobody (hfresh : ∀ i, (attempts i).job.executionId = executionId →
      (attempts i).Fresh registry versions executionId (v.thread i))
  | owned (owner : ι) (hbegun : v.shared.Begun executionId)
      (hothers : ∀ i, (attempts i).job.executionId = executionId → i ≠ owner →
        (attempts i).Fresh registry versions executionId (v.thread i))

omit [Sha256] in
/-- **Step lemma**: whoever makes a call, one attempt at most has stored an event. -/
theorem SoleWriter.step {versions : Dict UUID AgentVersion} {executionId : UUID}
    (hversions : v.shared.agentVersions = versions)
    (h : SoleWriter registry attempts versions executionId v)
    (hstep : Threads.Step PlatformStore.handle v v') :
    SoleWriter registry attempts versions executionId v' := by
  obtain @⟨i, c, next, hi, w⟩ := hstep
  cases h with
  | nobody hfresh =>
    by_cases hbegun : (PlatformStore.handle w c v.shared).2.Begun executionId
    · refine .owned i hbegun (Threads.forall_advance (Q := fun j program =>
        (attempts j).job.executionId = executionId → j ≠ i →
          (attempts j).Fresh registry versions executionId program)
        (fun j hjob _ => hfresh j hjob) ?_)
      exact fun _ hne => absurd rfl hne
    · refine .nobody (Threads.forall_advance (Q := fun j program =>
        (attempts j).job.executionId = executionId →
          (attempts j).Fresh registry versions executionId program) hfresh fun hjob => ?_)
      exact ((hi ▸ hfresh i hjob).step hjob hversions w).resolve_right hbegun
  | owned owner hbegun hothers =>
    refine .owned owner (hbegun.handle w c) (Threads.forall_advance (Q := fun j program =>
      (attempts j).job.executionId = executionId → j ≠ owner →
        (attempts j).Fresh registry versions executionId program) hothers ?_)
    exact fun hjob hne => ((hi ▸ hothers i hjob hne).of_taken hjob hversions hbegun w).2

omit [Sha256] in
/-- **One attempt on an execution records its result**: the one that stored its first event. -/
theorem recordResult_unique
    (h : Threads.Reachable PlatformStore.handle (StoreWorkers.initial registry attempts store) v)
    {i j : ι} {executionId : UUID} {payload payload' : TaskExecutionResult}
    {k k' : Except PyError TaskExecution → StoreProg Unit}
    (hi : v.thread i = .call (.recordResult executionId payload) k)
    (hj : v.thread j = .call (.recordResult executionId payload') k') : i = j := by
  have hconcerns := h.only (P := fun i => StoreCommand.Concerns (attempts i).job.executionId)
    fun i => (attempts i).concerns registry
  have hjob : ∀ {i payload k}, v.thread i = .call (.recordResult executionId payload) k →
      (attempts i).job.executionId = executionId := by
    intro i payload k hi
    have honly := hconcerns i
    rw [hi] at honly
    cases honly with
    | call hc _ => exact (hc executionId rfl).symm
  have hnot : ∀ {i payload k}, v.thread i = .call (.recordResult executionId payload) k →
      ¬ (attempts i).Fresh registry store.agentVersions executionId (v.thread i) := by
    intro i payload k hi
    rw [hi]
    exact Attempt.Fresh.ne_recordResult
  have hsole : v.shared.agentVersions = store.agentVersions ∧
      SoleWriter registry attempts store.agentVersions executionId v := by
    refine h.invariant (P := fun v => v.shared.agentVersions = store.agentVersions ∧
      SoleWriter registry attempts store.agentVersions executionId v)
      ⟨rfl, .nobody fun i _ => .inl rfl⟩ fun u u' hu hstep => ⟨?_, hu.2.step hu.1 hstep⟩
    cases hstep with
    | call hi w => rw [Threads.advance_shared, PlatformStore.handle_agentVersions, hu.1]
  cases hsole.2 with
  | nobody hfresh => exact absurd (hfresh i (hjob hi)) (hnot hi)
  | owned owner _ hothers =>
    have howner : ∀ {l payload k}, v.thread l = .call (.recordResult executionId payload) k →
        l = owner := fun hl => by_contra fun hne => hnot hl (hothers _ (hjob hl) hne)
    exact (howner hi).trans (howner hj).symm

/-! ## Statement by statement -/

omit [Interpreter] [Sha256] in
/-- A command that does not update a row leaves it. -/
theorem Tables.row_handle {command : SessionCommand} {db : Tables} {id : UUID} {row : TaskExecution}
    (hrow : Dict.get? db.taskExecutions id = some row) (scan : Scan)
    (hother : ∀ loaded assigned, command ≠ .row (.commit id loaded assigned)) :
    Dict.get? (handle scan command db).2.taskExecutions id = some row := by
  cases command with
  | row command =>
    cases command with
    | get id' => exact hrow
    | commit id' loaded assigned =>
      have hne : id' ≠ id := by
        rintro rfl
        exact hother loaded assigned rfl
      have hcommit : Dict.get? (Database.handle () (.commit id' loaded assigned)
          db.toDatabase).2.taskExecutions id = some row := by
        rw [Database.handle]
        split
        · exact hrow
        · exact (Dict.get?_set_of_ne _ hne _).trans hrow
      exact hcommit
  | _ =>
    refine execution_handle ?_ hrow scan
    trivial

omit [Interpreter] [Sha256] in
/-- An `UPDATE` stays on time as long as no other is of its row. -/
theorem Tables.OnTime.handle {command other : SessionCommand} {db : Tables}
    (h : OnTime command db) (scan : Scan)
    (hother : ∀ id loaded assigned loaded' assigned', command = .row (.commit id loaded assigned) →
      other ≠ .row (.commit id loaded' assigned')) :
    OnTime command (Tables.handle scan other db).2 := by
  cases command with
  | row command =>
    cases command with
    | get id => trivial
    | commit id loaded assigned =>
      exact row_handle h scan fun loaded' assigned' => hother id loaded assigned _ _ rfl
  | _ => trivial

variable (registry attempts stamps store) in
/-- The workers on the database are workers on the in-memory store, and none of them is about to
update a row that has changed. -/
structure Serves (t : DatabaseWorkers ι) (v : StoreWorkers ι) : Prop where
  reached : Threads.Reachable PlatformStore.unfailing
    (StoreWorkers.initial registry attempts store) v
  simulated : ∃ issued u, Threads.Blockwise Tables.handle Tables.Grows Tables.OnTime
    PostgresStore.serve t u ∧ Simulates attempts stamps store issued u v
  loads : ∀ i, PostgresStore.Loads (t.thread i)
  onTime : ∀ i, PostgresStore.NextOnTime t.shared (t.thread i)

namespace Serves

variable {db : Tables} {t t' : DatabaseWorkers ι}

theorem initial (hstore : store.WellFormed) (hmirrors : Mirrors id store db) :
    Serves registry attempts stamps store (DatabaseWorkers.initial registry attempts stamps db)
      (StoreWorkers.initial registry attempts store) where
  reached := .refl
  simulated := ⟨_, CallWorkers.initial registry attempts stamps db,
    ⟨rfl, fun _ => .expand (fun c => PostgresStore.atomic_serve c db) _⟩, .initial hstore hmirrors⟩
  loads _ := PostgresStore.loads_expand _
  onTime _ := PostgresStore.nextOnTime_expand _ db

/-- A store that may fail need not. -/
theorem faulty (h : Serves registry attempts stamps store t v) :
    Threads.Reachable PlatformStore.handle (StoreWorkers.initial registry attempts store) v :=
  h.reached.mono fun (stamp : Timestamp × UUID) _ _ => ⟨⟨stamp.1, stamp.2, none⟩, rfl⟩

/-- A worker that is about to update a row is recording the result of that execution. -/
theorem records (h : Serves registry attempts stamps store t v) {i : ι} {id : UUID}
    {loaded assigned : TaskExecution} {k : Except PyError Unit → Session Unit}
    (hi : t.thread i = .call (.row (.commit id loaded assigned)) k) :
    ∃ payload k', v.thread i = .call (.recordResult id payload) k' := by
  obtain ⟨issued, u, hblockwise, hsimulates⟩ := h.simulated
  have hstands := hblockwise.stands i
  rw [hi] at hstands
  obtain ⟨c, k', kRest, hu, -, hresidual, -⟩ := hstands.call
  obtain ⟨payload, hc⟩ : ∃ payload, c.1 = .recordResult id payload := by
    have honly := (PostgresStore.updatesFor_serve c).residual hresidual
    cases honly with
    | call hupdates _ => exact hupdates id loaded assigned rfl
  rcases hsimulates.stands i with hv | ⟨e, e', hv, -⟩
  · rw [hu] at hv
    cases hvi : v.thread i with
    | done r =>
      rw [hvi] at hv
      cases hv
    | call c' k'' =>
      rw [hvi] at hv
      cases hv
      obtain rfl : c' = .recordResult id payload := hc
      exact ⟨payload, k'', rfl⟩
  · rw [hu] at hv
    cases hv

/-- **Step lemma**: every statement is on time, and the workers go on. -/
theorem step (hnew : NewIds attempts stamps store)
    (h : Serves registry attempts stamps store t v) {i : ι}
    (hstep : Threads.Issues Tables.handle i t t') :
    Threads.IssuesTimely Tables.handle Tables.OnTime i t t' ∧
      ∃ v', Serves registry attempts stamps store t' v' := by
  have htimely : Threads.IssuesTimely Tables.handle Tables.OnTime i t t' := ⟨hstep, h.onTime i⟩
  refine ⟨htimely, ?_⟩
  obtain ⟨issued, u, hblockwise, hsimulates⟩ := h.simulated
  have hloads : ∀ j, PostgresStore.Loads (t'.thread j) ∧
      PostgresStore.NextOnTime t'.shared (t'.thread j) := by
    obtain @⟨c, k, hi, scan⟩ := hstep
    intro j
    by_cases hji : j = i
    · subst hji
      have hown := h.loads j
      rw [hi] at hown
      rw [Threads.advance_thread_self]
      cases hown with
      | call hnext hk => exact ⟨hk _, hnext scan t.shared⟩
    · rw [Threads.advance_thread_of_ne _ _ _ _ hji]
      refine ⟨h.loads j, fun c' k' hj => (h.onTime j c' k' hj).handle scan ?_⟩
      rintro id loaded assigned loaded' assigned' rfl rfl
      obtain ⟨payload, _, hvj⟩ := h.records hj
      obtain ⟨payload', _, hvi⟩ := h.records hi
      exact hji (recordResult_unique h.faulty hvj hvi)
  rcases hblockwise.step Tables.growth (fun db _ c => PostgresStore.atomic_serve c db) htimely with
    hblockwise' | ⟨u', hcall, hblockwise'⟩
  · exact ⟨v, h.reached, ⟨issued, u, hblockwise', hsimulates⟩, fun j => (hloads j).1,
      fun j => (hloads j).2⟩
  · obtain ⟨v', hv', hsimulates'⟩ := hsimulates.step hnew hcall
    exact ⟨v', h.reached.tail hv', ⟨_, u', hblockwise', hsimulates'⟩,
      fun j => (hloads j).1, fun j => (hloads j).2⟩

/-- The same workers have ended, and as well. -/
theorem outcome?_eq (h : Serves registry attempts stamps store t v) (i : ι) :
    (t.outcome? i).map Except.isOk = (v.outcome? i).map Except.isOk := by
  obtain ⟨issued, u, hblockwise, hsimulates⟩ := h.simulated
  have hu : (u.outcome? i).map Except.isOk = (v.outcome? i).map Except.isOk := by
    rcases hsimulates.stands i with hu | ⟨e, e', hu, hv⟩
    · cases hv : v.thread i with
      | done r => rw [Threads.outcome?, Threads.outcome?, hu, hv, supply]
      | call c k => rw [Threads.outcome?, Threads.outcome?, hu, hv, supply]
    · rw [Threads.outcome?, Threads.outcome?, hu, hv]
      rfl
  rw [← hu]
  rcases hblockwise.stands i with ⟨r, hu, ht⟩ | ⟨c, k, rest, hu, ht, -, hatomic⟩
  · rw [Threads.outcome?, Threads.outcome?, hu, ht]
  · cases rest with
    | done r => exact hatomic.elim
    | call c' k' =>
      rw [Threads.outcome?, Threads.outcome?, hu, ht]
      rfl

end Serves

/-- **Workers on a database are workers on the in-memory store.**  Whatever the interleaving of their
statements, every `UPDATE` is on time, and workers on the in-memory store could have come as far:
as many have ended, as well, and the tables hold what that store holds. -/
theorem workers_refine {db : Tables} (hstore : store.WellFormed) (hmirrors : Mirrors id store db)
    (hnew : NewIds attempts stamps store) {labels : List ι}
    {t : DatabaseWorkers ι} (h : Execution (Threads.Issues Tables.handle)
      (DatabaseWorkers.initial registry attempts stamps db) labels t) :
    Execution (Threads.IssuesTimely Tables.handle Tables.OnTime)
        (DatabaseWorkers.initial registry attempts stamps db) labels t ∧
      ∃ v, Threads.Reachable PlatformStore.unfailing
          (StoreWorkers.initial registry attempts store) v ∧
        Mirrors id v.shared t.shared ∧
        ∀ i, (t.outcome? i).map Except.isOk = (v.outcome? i).map Except.isOk := by
  obtain ⟨htimely, v, hserves⟩ : Execution (Threads.IssuesTimely Tables.handle Tables.OnTime)
      (DatabaseWorkers.initial registry attempts stamps db) labels t ∧
      ∃ v, Serves registry attempts stamps store t v := by
    refine h.invariant (P := fun labels t => Execution
      (Threads.IssuesTimely Tables.handle Tables.OnTime)
      (DatabaseWorkers.initial registry attempts stamps db) labels t ∧
      ∃ v, Serves registry attempts stamps store t v)
      ⟨.nil _, _, .initial hstore hmirrors⟩ ?_
    rintro labels i t t' ⟨hrun, v, hserves⟩ hstep
    obtain ⟨htimely, v', hserves'⟩ := hserves.step hnew hstep
    exact ⟨hrun.snoc htimely, v', hserves'⟩
  obtain ⟨issued, u, hblockwise, hsimulates⟩ := hserves.simulated
  exact ⟨htimely, v, hserves.reached, hblockwise.shared ▸ hsimulates.mirrors, hserves.outcome?_eq⟩

/-! ## What the tables hold of an execution -/

omit [DecidableEq ι] in
/-- The row of an execution, as any reader finds it. -/
theorem Mirrors.read_execution {db : Tables} (h : Mirrors id store db) {executionId : UUID}
    {execution : TaskExecution} (hexecution : store.getExecution executionId = .ok execution)
    (scans : ℕ → Scan) : ∃ row,
      ((PostgresStore.getExecution executionId).exec Tables.handle scans db).1 = .ok row ∧
        execution.upTo id = row.upTo id := by
  have hcorresponds : Corresponds id (store.perform 0 "" (.getExecution executionId))
      ((PostgresStore.transaction 0 "" (.getExecution executionId)).exec Tables.handle scans db) :=
    h.getExecution Function.injective_id executionId
  have hsame := hcorresponds.1
  rw [PostgresStore.transaction, exec_map, PlatformStore.perform, hexecution] at hsame
  rcases hread : (PostgresStore.getExecution executionId).exec Tables.handle scans db with
      ⟨e | row, db'⟩
  · rw [hread] at hsame
    exact hsame.elim
  · rw [hread] at hsame
    exact ⟨row, rfl, hsame⟩

/-- The rows of its trace, as any reader finds them. -/
theorem Mirrors.read_trace {db : Tables} (h : Mirrors id store db) (hstore : store.WellFormed)
    {executionId : UUID} {execution : TaskExecution}
    (hexecution : store.getExecution executionId = .ok execution) (scans : ℕ → Scan) : ∃ rows,
      ((PostgresStore.getTrace executionId).exec Tables.handle scans db).1 = .ok rows ∧
        (store.events executionId).map (·.toTraceEventCreate) =
          rows.map (·.toTraceEventCreate) := by
  have hcorresponds : Corresponds id (store.perform 0 "" (.getTrace executionId))
      ((PostgresStore.transaction 0 "" (.getTrace executionId)).exec Tables.handle scans db) :=
    h.getTrace hstore Function.injective_id executionId
  have hsame := hcorresponds.1
  have htrace : store.getTrace executionId = .ok (store.events executionId) := by
    rw [PlatformStore.getTrace, hexecution]
    rfl
  rw [PostgresStore.transaction, exec_map, PlatformStore.perform, htrace] at hsame
  rcases hread : (PostgresStore.getTrace executionId).exec Tables.handle scans db with
      ⟨e | rows, db'⟩
  · rw [hread] at hsame
    exact hsame.elim
  · rw [hread] at hsame
    have halike : (store.events executionId).map (TraceEvent.upTo id) =
        rows.map (TraceEvent.upTo id) := hsame
    have hcreate := congrArg (List.map fun event => event.toTraceEventCreate) halike
    rw [List.map_map, List.map_map] at hcreate
    exact ⟨rows, rfl, hcreate⟩

/-- **Attempts do not mix on a database.**  Whatever the interleaving of the statements of the
workers, a reader finds of an open execution, on which some of them work, the beginning of the trace
of one attempt; and if it is finalized, that whole trace, with the result of that attempt. -/
theorem database_attempts_never_mix {db : Tables} (hstore : store.WellFormed)
    (hmirrors : Mirrors id store db) (hnew : NewIds attempts stamps store) {labels : List ι}
    {t : DatabaseWorkers ι} (h : Execution (Threads.Issues Tables.handle)
      (DatabaseWorkers.initial registry attempts stamps db) labels t) {i₀ : ι}
    (hempty : store.events (attempts i₀).job.executionId = [])
    {execution : TaskExecution}
    (hexecution : store.getExecution (attempts i₀).job.executionId = .ok execution)
    (hopen : execution.status.terminal = false) (scans : ℕ → Scan) :
    let executionId := (attempts i₀).job.executionId
    ∃ row rows,
      ((PostgresStore.getExecution executionId).exec Tables.handle scans t.shared).1 = .ok row ∧
      ((PostgresStore.getTrace executionId).exec Tables.handle scans t.shared).1 = .ok rows ∧
      ((rows = [] ∧ row.status.terminal = false) ∨
        ∃ i p k, (attempts i).job.executionId = executionId ∧
          (attempts i).Ran registry store.agentVersions p ∧ k ≤ p.events.length ∧
          rows.map (·.toTraceEventCreate) = (p.events.take k).map (·.redacted) ∧
          (row.status.terminal = true → k = p.events.length ∧
            ∃ now, row.upTo id = (execution.finalize p.outcome now).upTo id)) := by
  intro executionId
  obtain ⟨v, hserves⟩ : ∃ v, Serves registry attempts stamps store t v := by
    refine h.invariant (P := fun _ t => ∃ v, Serves registry attempts stamps store t v)
      ⟨_, .initial hstore hmirrors⟩ ?_
    rintro _ i t t' ⟨v, hserves⟩ hstep
    obtain ⟨-, v', hserves'⟩ := hserves.step hnew hstep
    exact ⟨v', hserves'⟩
  obtain ⟨issued, u, hblockwise, hsimulates⟩ := hserves.simulated
  have hmirrors' : Mirrors id v.shared t.shared := hblockwise.shared ▸ hsimulates.mirrors
  obtain ⟨w, howned, -, hview⟩ := exists_ownership hempty hserves.faulty
  have hread : ∀ {execution' : TaskExecution}, w.shared.getExecution executionId = .ok execution' →
      ∃ row rows,
        ((PostgresStore.getExecution executionId).exec Tables.handle scans t.shared).1 = .ok row ∧
        ((PostgresStore.getTrace executionId).exec Tables.handle scans t.shared).1 = .ok rows ∧
        row.upTo id = execution'.upTo id ∧ row.status = execution'.status ∧
        rows.map (·.toTraceEventCreate) =
          (w.shared.events executionId).map (·.toTraceEventCreate) := by
    intro execution' hexecution'
    have hexecution'' := hview.execution.trans hexecution'
    obtain ⟨row, hrow, hupTo⟩ := hmirrors'.read_execution hexecution'' scans
    obtain ⟨rows, hrows, hevents⟩ :=
      hmirrors'.read_trace hsimulates.wellFormed hexecution'' scans
    have hstatus : (row.upTo id).status = (execution'.upTo id).status := by rw [hupTo]
    exact ⟨row, rows, hrow, hrows, hupTo.symm, hstatus, hevents.symm.trans (by rw [hview.events])⟩
  cases howned with
  | nobody hnone hsame _ =>
    obtain ⟨row, rows, hrow, hrows, -, hstatus, hevents⟩ := hread (hsame.trans hexecution)
    rw [hnone, List.map_nil, List.map_eq_nil_iff] at hevents
    exact ⟨row, rows, hrow, hrows, .inl ⟨hevents, by rw [hstatus, hopen]⟩⟩
  | @writing i p k hran _ hk hstored hsame _ _ =>
    obtain ⟨row, rows, hrow, hrows, -, hstatus, hevents⟩ := hread (hsame.trans hexecution)
    refine ⟨row, rows, hrow, hrows, .inr ⟨i.1, p, k, i.2, hran, hk, hevents.trans hstored, ?_⟩⟩
    rw [hstatus, hopen]
    exact fun hfinal => absurd hfinal (by simp)
  | @recorded i p hran hstored hrecords _ _ =>
    obtain ⟨original, now, horiginal, hrecorded⟩ := hrecords
    obtain rfl := Except.ok.inj (horiginal.symm.trans hexecution)
    obtain ⟨row, rows, hrow, hrows, hupTo, -, hevents⟩ := hread hrecorded
    exact ⟨row, rows, hrow, hrows, .inr ⟨i.1, p, p.events.length, i.2, hran, le_rfl,
      hevents.trans hstored, fun _ => ⟨rfl, now, hupTo⟩⟩⟩

end

/-! ### Two deliveries of one job on a database -/

/-- The store in which two jobs wait. -/
def createdStore : PlatformStore :=
  ((@PlatformStore.performAll cpython sha256 pairCreation {}).map Prod.snd).getD {}

/-- The tables that hold what it holds. -/
def createdTables : Tables where
  agentVersions := createdStore.agentVersions
  evaluationRuns := createdStore.runs
  taskExecutions := createdStore.executions

theorem mirrors_created : Mirrors id createdStore createdTables where
  versions := List.forall₂_same.mpr fun _ _ => ⟨rfl, rfl⟩
  runs := List.forall₂_same.mpr fun _ _ => ⟨rfl, rfl⟩
  executions := List.forall₂_same.mpr fun _ _ => ⟨rfl, rfl⟩
  events := .nil
  verdicts := .nil
  event_keys := by decide
  verdict_keys := by decide

theorem wellFormed_created :
    let _ := cpython
    let _ := sha256
    createdStore.WellFormed := by
  intro _ _
  have hrun : ∃ run, PlatformStore.performAll pairCreation {} = some run ∧ run.2 = createdStore :=
    ⟨_, rfl, rfl⟩
  obtain ⟨run, hrun, hstore⟩ := hrun
  rw [← hstore]
  exact .of_execution (PlatformStore.execution_performAll hrun)

/-- So many marks, and one. -/
def marks (mark : Char) (n : ℕ) : UUID := String.ofList (List.replicate (n + 1) mark)

theorem marks_inj {mark mark' : Char} {n m : ℕ} (h : marks mark n = marks mark' m) :
    mark = mark' ∧ n = m := by
  obtain ⟨hlength, hmark⟩ := List.replicate_inj.mp (String.ofList_injective h)
  exact ⟨hmark.resolve_left (by simp), Nat.succ.inj hlength⟩

theorem marks_ne {mark : Char} {s : UUID} (h : s.toList.head? ≠ some mark) (n : ℕ) :
    marks mark n ≠ s := by
  rintro rfl
  exact h (by rw [marks, String.toList_ofList]; rfl)

/-- A machine that marks its steps. -/
def markHost (mark : Char) : Host where
  stepId := marks mark
  durationMs n := n
  latencyMs := 0
  newExecutionId := "execution"
  objectMethod _ _ name arguments := .error (.builtinCall name (arguments.map Prod.fst))

/-- One job, delivered to two workers. -/
def deliveredTwice (again : Bool) : Attempt where
  host := markHost (if again then '+' else '-')
  job := { seedJob with executionId := "left" }
  modelClient := none
  judgeModel := none

/-- What the database is given for the calls of a worker. -/
def twoClocks (again : Bool) (n : ℕ) : Timestamp × UUID := (n, marks (if again then '2' else '1') n)

theorem newIds_created : NewIds deliveredTwice twoClocks createdStore where
  generated again n := by
    have hids : createdStore.ids = ["version", "baseline", "candidate", "left", "right"] := by
      decide +kernel
    have hheads : ∀ s ∈ createdStore.ids, s.toList.head? ≠ some (if again then '2' else '1') := by
      rw [hids]
      cases again <;> decide
    exact fun hmem => marks_ne (hheads _ hmem) n rfl
  generated_injective again n again' m h := by
    obtain ⟨hmark, rfl⟩ := marks_inj h
    exact ⟨by revert hmark; cases again <;> cases again' <;> decide, rfl⟩
  events again n := by
    rintro ⟨_, hid, -⟩
    cases hid
  events_injective again n again' m h := by
    obtain ⟨hmark, rfl⟩ := marks_inj h
    exact ⟨by revert hmark; cases again <;> cases again' <;> decide, rfl⟩

/-- The second delivery reads its version first, and is refused while the first persists its run. -/
def overtaken : List Bool :=
  true :: List.replicate 40 false ++ List.replicate 3 true ++ List.replicate 9 false

/-- Both deliveries have ended, and one of them well. -/
theorem workers_refine_overtaken :
    let _ := cpython
    let _ := sha256
    ∃ (t : DatabaseWorkers Bool) (v : StoreWorkers Bool), Threads.Reachable PlatformStore.unfailing
        (StoreWorkers.initial seedRegistry deliveredTwice createdStore) v ∧
      Mirrors id v.shared t.shared ∧
      (v.outcome? false).map Except.isOk = some true ∧
      (v.outcome? true).map Except.isOk = some false := by
  intro _ _
  have hplay : ∃ t ∈ (DatabaseWorkers.initial seedRegistry deliveredTwice twoClocks
        createdTables).play Tables.handle default overtaken,
      (t.outcome? false).map Except.isOk = some true ∧
        (t.outcome? true).map Except.isOk = some false := by
    decide +kernel
  obtain ⟨t, hplay, hfirst, hsecond⟩ := hplay
  obtain ⟨-, v, hreach, hmirrors, houtcome⟩ := workers_refine wellFormed_created mirrors_created
    newIds_created (Threads.execution_play hplay)
  exact ⟨t, v, hreach, hmirrors, (houtcome false).symm.trans hfirst,
    (houtcome true).symm.trans hsecond⟩

/-- What is found of the execution is the run of one delivery. -/
theorem database_attempts_never_mix_overtaken :
    let _ := cpython
    let _ := sha256
    ∃ again, ∃ p : RunProduct, ∃ rows : List TraceEvent,
      (deliveredTwice again).Ran seedRegistry createdStore.agentVersions p ∧
        rows.map (·.toTraceEventCreate) = p.events.map (·.redacted) := by
  intro _ _
  have hplay : ∃ t ∈ (DatabaseWorkers.initial seedRegistry deliveredTwice twoClocks
        createdTables).play Tables.handle default overtaken,
      ∃ row ∈ ((PostgresStore.getExecution "left").exec Tables.handle default t.shared).1.toOption,
        row.status.terminal = true := by
    decide +kernel
  obtain ⟨t, hplay, row, hrow, hfinal⟩ := hplay
  have hexecution : ∃ execution,
      createdStore.getExecution (deliveredTwice true).job.executionId = .ok execution ∧
        execution.status.terminal = false := ⟨_, rfl, rfl⟩
  obtain ⟨execution, hexecution, hopen⟩ := hexecution
  obtain ⟨row', rows, hrow', -, hmixed⟩ := database_attempts_never_mix wellFormed_created
    mirrors_created newIds_created (Threads.execution_play hplay) rfl hexecution hopen
    default
  have hsame : row' = row := by
    have hread : Except.toOption _ = some row := hrow
    rw [show (deliveredTwice true).job.executionId = "left" from rfl] at hrow'
    rw [hrow'] at hread
    exact Option.some.inj hread
  subst hsame
  rcases hmixed with ⟨-, hopen⟩ | ⟨again, p, k, -, hran, -, hrows, hcomplete⟩
  · rw [hfinal] at hopen
    cases hopen
  · rw [(hcomplete hfinal).1, List.take_length] at hrows
    exact ⟨again, p, rows, hran, hrows⟩

end AgentProof
