import AgentProof.Platform.Serializability

/-!
# Platform/Sessions — a database with many sessions

Any number of callers, each with an operation of its own, on one `PostgresStore`.

`serializable_iff`: a run is serializable exactly if every `UPDATE` in it is on time.  A late one
finalizes an execution a second time, which no order of the operations does.
-/

open Machinery Machinery.Prog

namespace AgentProof

/-- Sessions on one database. -/
abbrev Sessions (ι : Type) : Type :=
  Threads PyError SessionCommand SessionCommand.Resp Tables ι StoreReply

variable {ι : Type} [Interpreter] [Sha256] (calls : ι → StoreCall)

/-- Every session is to carry out its operation. -/
def Sessions.initial (db : Tables) : Sessions ι where
  shared := db
  thread i := PostgresStore.transaction (calls i).now (calls i).newId (calls i).op

/-! ## Updates -/

/-- A command that is no `UPDATE`. -/
def SessionCommand.NoUpdate : SessionCommand → Prop
  | .row (.commit _ _ _) => False
  | _ => True

omit [Interpreter] [Sha256] in
/-- Any other leaves the executions there are. -/
theorem Tables.execution_handle {command : SessionCommand} (h : command.NoUpdate) {db : Tables}
    {id : UUID} {row : TaskExecution} (hrow : Dict.get? db.taskExecutions id = some row)
    (scan : Scan) :
    Dict.get? (handle scan command db).2.taskExecutions id = some row := by
  cases command with
  | insertExecution row' =>
    rw [handle, commit]
    split_ifs with hconflict
    · exact hrow
    · have hne : row'.id ≠ id := by
        rintro rfl
        exact hconflict (.inl (Dict.has_iff.mpr ⟨row, hrow⟩))
      rw [Dict.get?_set_of_ne _ hne, hrow]
  | insertVersion row' | insertRun row' | insertEvent row' | insertVerdict row' =>
    rw [handle, commit]
    split_ifs <;> exact hrow
  | row command =>
    cases command with
    | get id' => exact hrow
    | commit id' loaded assigned => exact h.elim
  | _ => exact hrow

omit [Interpreter] [Sha256] in
/-- It is never late. -/
theorem Tables.onTime_of_noUpdate {command : SessionCommand} (h : command.NoUpdate) (db : Tables) :
    OnTime command db := by
  cases command with
  | row command =>
    cases command with
    | get id => trivial
    | commit id loaded assigned => exact h.elim
  | _ => trivial

namespace PostgresStore

omit [Interpreter] [Sha256] in
theorem noUpdate_found {α : Type} (detail : String) (row : Option α) :
    (found detail row).Only SessionCommand.NoUpdate := by
  cases row with
  | none => exact .done _
  | some row => exact .done _

omit [Interpreter] [Sha256] in
/-- The operations that look up a row, and then issue one command. -/
theorem noUpdate_lookup {α β : Type} {c : SessionCommand} (hc : c.NoUpdate) {detail : String}
    (row : c.Resp → Option α) {f : Session β} (hf : f.Only SessionCommand.NoUpdate) :
    (issue c >>= fun answer => found detail (row answer) >>= fun _ => f).Only
      SessionCommand.NoUpdate :=
  .bind (.perform hc) fun _ => .bind (noUpdate_found _ _) fun _ => hf

omit [Interpreter] [Sha256] in
theorem noUpdate_insertVersion (row : AgentVersion) :
    (insertVersion row).Only SessionCommand.NoUpdate := by
  rw [insertVersion_eq]
  refine .call trivial fun r => ?_
  rcases r with e | _
  · dsimp only
    split_ifs
    · exact .bind (.perform trivial) fun _ => .bind (.perform trivial) fun _ => .lift _
    · exact .done _
  · exact .done _

omit [Interpreter] [Sha256] in
theorem noUpdate_insertTraceEvent (row : TraceEvent) :
    (insertTraceEvent row).Only SessionCommand.NoUpdate := by
  refine .call trivial fun r => ?_
  rcases r with e | _
  · change (if _ then _ else _ : Session TraceEvent).Only _
    split_ifs
    · exact .bind (.perform trivial) fun _ => .lift _
    · exact .done _
  · exact .done _

/-- **Only `record_result` updates.** -/
theorem noUpdate_transaction (now : Timestamp) (newId : UUID) {op : StoreOp}
    (h : ∀ id payload, op ≠ .recordResult id payload) :
    (transaction now newId op).Only SessionCommand.NoUpdate := by
  cases op with
  | recordResult id payload => exact absurd rfl (h id payload)
  | createAgentVersion payload =>
    refine .bind (.bind (.perform trivial) fun existing => .bind (.lift _) fun row => ?_) fun _ =>
      .done _
    cases row with
    | none => exact noUpdate_insertVersion _
    | some row => exact .done _
  | getAgentVersion id =>
    exact .bind (.bind (.perform trivial) fun row => noUpdate_found _ row) fun _ => .done _
  | createRun payload =>
    exact .bind (noUpdate_lookup (c := .getVersion payload.agentVersionId) trivial id
      (.bind (.perform trivial) fun _ => .done _)) fun _ => .done _
  | createExecution runId payload =>
    exact .bind (noUpdate_lookup (c := .getRun runId) trivial id
      (.bind (.perform trivial) fun _ => .done _)) fun _ => .done _
  | appendTraceEvent executionId payload =>
    exact .bind (noUpdate_lookup (c := .row (.get executionId)) trivial id
      (noUpdate_insertTraceEvent _)) fun _ => .done _
  | getExecution id =>
    exact .bind (.bind (.perform trivial) fun row => noUpdate_found _ row) fun _ => .done _
  | getRunExecutions runId =>
    exact .bind (noUpdate_lookup (c := .getRun runId) trivial id (.perform trivial))
      fun _ => .done _
  | getTrace executionId =>
    exact .bind (noUpdate_lookup (c := .row (.get executionId)) trivial id
      (.perform trivial)) fun _ => .done _
  | appendJudgeVerdict executionId payload =>
    exact .bind (noUpdate_lookup (c := .row (.get executionId)) trivial id
      (.bind (.perform trivial) fun _ => .done _)) fun _ => .done _
  | getJudgeVerdicts executionId =>
    exact .bind (noUpdate_lookup (c := .row (.get executionId)) trivial id
      (.perform trivial)) fun _ => .done _

end PostgresStore

/-! ## Sessions that finalize -/

namespace Sessions

variable {calls} {t t' u : Sessions ι}

variable (calls) in
/-- The session is to record a result of the execution. -/
def Records (id : UUID) (i : ι) : Prop := ∃ payload, (calls i).op = .recordResult id payload

variable (calls) in
/-- The session has finalized the execution. -/
def Finalized (id : UUID) (i : ι) (t : Sessions ι) : Prop :=
  Records calls id i ∧ ∃ reply, t.thread i = .done (.ok reply)

variable (calls) in
/-- **Two sessions have finalized one execution.** -/
def FinalizedTwice (t : Sessions ι) : Prop :=
  ∃ id i j, i ≠ j ∧ Finalized calls id i t ∧ Finalized calls id j t

/-! ### One after the other -/

omit [Interpreter] [Sha256] in
theorem Finalized.issues [DecidableEq ι] {id : UUID} {i j : ι} (h : Finalized calls id j t)
    (hstep : Threads.Issues Tables.handle i t t') : Finalized calls id j t' := by
  obtain ⟨hrecords, reply, hj⟩ := h
  exact ⟨hrecords, reply, hstep.thread_of_done hj⟩

variable (calls) in
/-- What the sessions that ran alone have left: an execution is finalized by one of them at most,
and its row says so. -/
structure OneEach (db : Tables) (u : Sessions ι) : Prop where
  stands : ∀ i, u.thread i = (initial calls db).thread i ∨ ∃ r, u.thread i = .done r
  row : ∀ id i, Finalized calls id i u →
    ∃ row, Dict.get? u.shared.taskExecutions id = some row ∧ row.status.terminal = true
  one : ∀ id i j, Finalized calls id i u → Finalized calls id j u → i = j

/-- A session alone leaves a finalized row, and does not finalize it again. -/
theorem exec_of_terminal {db : Tables} {id : UUID} {row : TaskExecution}
    (hrow : Dict.get? db.taskExecutions id = some row) (hterminal : row.status.terminal = true)
    (call : StoreCall) (scans : ℕ → Scan) :
    let (outcome, db') :=
      (PostgresStore.transaction call.now call.newId call.op).exec Tables.handle scans db
    Dict.get? db'.taskExecutions id = some row ∧
      ∀ payload, call.op = .recordResult id payload → outcome = .error alreadyFinalized := by
  by_cases hrecords : ∃ id' payload, call.op = .recordResult id' payload
  · obtain ⟨id', payload, hop⟩ := hrecords
    rw [hop, PostgresStore.transaction, exec_map, PostgresStore.exec_recordResultRow]
    by_cases hid : id' = id
    · subst hid
      rw [hrow]
      simp only [if_pos hterminal]
      exact ⟨hrow, fun _ _ => rfl⟩
    · refine ⟨?_, fun payload' heq => absurd (StoreOp.recordResult.inj heq).1 hid⟩
      cases Dict.get? db.taskExecutions id' with
      | none => exact hrow
      | some row' =>
        dsimp only
        split_ifs
        · exact hrow
        · exact (Dict.get?_set_of_ne _ hid _).trans hrow
  · have hno : ∀ id' payload, call.op ≠ .recordResult id' payload :=
      fun id' payload heq => hrecords ⟨id', payload, heq⟩
    refine ⟨?_, fun payload heq => absurd heq (hno id payload)⟩
    exact (PostgresStore.noUpdate_transaction call.now call.newId hno).exec_invariant
      (P := fun db : Tables => Dict.get? db.taskExecutions id = some row)
      (fun scan c db hc hrow => Tables.execution_handle hc hrow scan) scans hrow

/-- A session that finalizes an execution alone leaves a row that says so. -/
theorem exec_of_finalized {db : Tables} {id : UUID} {call : StoreCall} {scans : ℕ → Scan}
    {reply : StoreReply} {payload : TaskExecutionResult} (hop : call.op = .recordResult id payload)
    (hreply : ((PostgresStore.transaction call.now call.newId call.op).exec Tables.handle scans db).1 =
      .ok reply) :
    ∃ row, Dict.get? ((PostgresStore.transaction call.now call.newId call.op).exec Tables.handle
      scans db).2.taskExecutions id = some row ∧ row.status.terminal = true := by
  rw [hop, PostgresStore.transaction, exec_map, PostgresStore.exec_recordResultRow] at hreply ⊢
  cases hread : Dict.get? db.taskExecutions id with
  | none =>
    rw [hread] at hreply
    cases hreply
  | some row =>
    rw [hread] at hreply
    dsimp only at hreply ⊢
    split_ifs at hreply ⊢
    · cases hreply
    · exact ⟨_, Dict.get?_set_self .., row.finalize_terminal payload call.now⟩

theorem OneEach.initial {db : Tables} : OneEach calls db (Sessions.initial calls db) := by
  have hnone : ∀ id i, ¬ Finalized calls id i (Sessions.initial calls db) := by
    rintro id i ⟨⟨payload, hop⟩, reply, hi⟩
    change PostgresStore.transaction (calls i).now (calls i).newId (calls i).op = _ at hi
    rw [hop, PostgresStore.transaction, PostgresStore.recordResultRow_eq] at hi
    cases hi
  exact ⟨fun i => .inl rfl, fun id i hi => absurd hi (hnone id i),
    fun id i j hi => absurd hi (hnone id i)⟩

variable [DecidableEq ι]

/-- **Step lemma**: a session that runs alone finalizes what no other has. -/
theorem OneEach.step {db : Tables} (h : OneEach calls db u) {i : ι} {u' : Sessions ι}
    (hstep : Threads.RunsAlone Tables.handle i u u') : OneEach calls db u' := by
  obtain @⟨c, k, hi, scans⟩ := hstep
  have hstart : u.thread i = PostgresStore.transaction (calls i).now (calls i).newId
      (calls i).op := by
    rcases h.stands i with hstart | ⟨r, hr⟩
    · exact hstart
    · rw [hi] at hr
      cases hr
  -- who has finalized an execution by now
  have hcases : ∀ id j, Finalized calls id j (u.advance i
      ((u.thread i).exec Tables.handle scans u.shared).2
      (.done ((u.thread i).exec Tables.handle scans u.shared).1)) →
      j ≠ i ∧ Finalized calls id j u ∨ j = i ∧ Records calls id i ∧
        ∃ reply, ((u.thread i).exec Tables.handle scans u.shared).1 = .ok reply := by
    rintro id j ⟨hrecords, reply, hj⟩
    by_cases hji : j = i
    · subst hji
      rw [u.advance_thread_self] at hj
      exact .inr ⟨rfl, hrecords, reply, Prog.done.inj hj⟩
    · rw [u.advance_thread_of_ne _ _ _ hji] at hj
      exact .inl ⟨hji, hrecords, reply, hj⟩
  have hterminal : ∀ id j, Finalized calls id j u → ∃ row,
      Dict.get? ((u.thread i).exec Tables.handle scans u.shared).2.taskExecutions id = some row ∧
        row.status.terminal = true ∧ (Records calls id i →
          ((u.thread i).exec Tables.handle scans u.shared).1 = .error alreadyFinalized) := by
    intro id j hj
    obtain ⟨row, hrow, hterminal⟩ := h.row id j hj
    have halone := exec_of_terminal hrow hterminal (calls i) scans
    rw [← hstart] at halone
    exact ⟨row, halone.1, hterminal, fun ⟨payload, hop⟩ => halone.2 payload hop⟩
  refine ⟨fun j => ?_, fun id j hj => ?_, fun id j j' hj hj' => ?_⟩
  · by_cases hji : j = i
    · subst hji
      exact .inr ⟨_, u.advance_thread_self _ _ _⟩
    · rw [u.advance_thread_of_ne _ _ _ hji]
      exact h.stands j
  · rcases hcases id j hj with ⟨-, hj⟩ | ⟨-, ⟨payload, hop⟩, reply, hreply⟩
    · obtain ⟨row, hrow, hrowTerminal, -⟩ := hterminal id j hj
      exact ⟨row, hrow, hrowTerminal⟩
    · rw [hstart] at hreply ⊢
      exact exec_of_finalized hop hreply
  · rcases hcases id j hj with ⟨-, hj⟩ | ⟨rfl, hrecords, reply, hreply⟩
    · rcases hcases id j' hj' with ⟨-, hj'⟩ | ⟨-, hrecords, reply, hreply⟩
      · exact h.one id j j' hj hj'
      · obtain ⟨-, -, -, hrefused⟩ := hterminal id j hj
        rw [hrefused hrecords] at hreply
        cases hreply
    · rcases hcases id j' hj' with ⟨-, hj'⟩ | ⟨rfl, -⟩
      · obtain ⟨-, -, -, hrefused⟩ := hterminal id j' hj'
        rw [hrefused hrecords] at hreply
        cases hreply
      · rfl

/-- **What no order of the operations does.** -/
theorem not_finalizedTwice_of_serializable {db : Tables} {labels : List ι}
    (h : Threads.Serializable Tables.handle (initial calls db) labels t) :
    ¬ FinalizedTwice calls t := by
  obtain ⟨order, u, -, hrun, -, houtcome⟩ := h
  have hone : OneEach calls db u := hrun.invariant (P := fun _ u => OneEach calls db u)
    .initial fun _ _ _ _ hu hstep => hu.step hstep
  have hended : ∀ id i, Finalized calls id i t → Finalized calls id i u := by
    rintro id i ⟨hrecords, reply, hi⟩
    have hi' := houtcome i
    rw [Threads.outcome?, Threads.outcome?, hi] at hi'
    cases hu : u.thread i with
    | done r =>
      rw [hu] at hi'
      exact ⟨hrecords, reply, hu.trans (congrArg Prog.done (Option.some.inj hi'))⟩
    | call c k =>
      rw [hu] at hi'
      cases hi'
  rintro ⟨id, i, j, hne, hi, hj⟩
  exact hne (hone.one id i j (hended id i hi) (hended id j hj))

/-! ### At the same time -/

/-- Where a session stands that is to record a result: at its start, before the `UPDATE` of a row it
loaded, or at its end. -/
inductive Recording (now : Timestamp) (id : UUID) (payload : TaskExecutionResult)
    (Loaded : TaskExecution → Prop) : Session StoreReply → Prop where
  | start : Recording now id payload Loaded
      (.execution <$> PostgresStore.recordResultRow now id payload)
  | updating {row : TaskExecution} (h : Loaded row) : Recording now id payload Loaded
      (.execution <$> PostgresStore.updateRow id row (row.finalize payload now))
  | ended (r : Except PyError StoreReply) : Recording now id payload Loaded (.done r)

omit [Interpreter] [Sha256] [DecidableEq ι] in
theorem Recording.mono {now : Timestamp} {id : UUID} {payload : TaskExecutionResult}
    {Loaded Loaded' : TaskExecution → Prop} {p : Session StoreReply}
    (h : Recording now id payload Loaded p) (himp : ∀ row, Loaded row → Loaded' row) :
    Recording now id payload Loaded' p := by
  cases h with
  | start => exact .start
  | updating hrow => exact .updating (himp _ hrow)
  | ended r => exact .ended r

variable (calls) in
/-- The row that session `i` loaded is still there, or another has finalized the execution. -/
def StillThere (id : UUID) (i : ι) (t : Sessions ι) (row : TaskExecution) : Prop :=
  Dict.has t.shared.taskExecutions id = true ∧
    (Dict.get? t.shared.taskExecutions id = some row ∨ ∃ j, j ≠ i ∧ Finalized calls id j t)

variable (calls) in
/-- Where the sessions stand, in any interleaving. -/
structure Tracks (t : Sessions ι) : Prop where
  records : ∀ i id payload, (calls i).op = .recordResult id payload →
    Recording (calls i).now id payload (StillThere calls id i t) (t.thread i)
  others : ∀ i, (∀ id payload, (calls i).op ≠ .recordResult id payload) →
    (t.thread i).Only SessionCommand.NoUpdate

omit [DecidableEq ι] in
theorem Tracks.initial {db : Tables} : Tracks calls (Sessions.initial calls db) where
  records i id payload hop := by
    change Recording _ _ _ _ (PostgresStore.transaction _ _ (calls i).op)
    rw [hop]
    exact .start
  others i hno := PostgresStore.noUpdate_transaction _ _ hno

omit [Interpreter] [Sha256] in
/-- A session that has finalized stays where it is. -/
theorem Finalized.advance {id : UUID} {i j : ι} (h : Finalized calls id j t) {c : SessionCommand}
    {k : Except PyError c.Resp → Session StoreReply} (hi : t.thread i = .call c k) (db : Tables)
    (p : Session StoreReply) : Finalized calls id j (t.advance i db p) := by
  obtain ⟨hrecords, reply, hj⟩ := h
  exact ⟨hrecords, reply, by rw [t.advance_thread_of_ne _ _ _ (Threads.ne_of_call hi hj), hj]⟩

omit [Interpreter] [Sha256] in
/-- A session moves on, and the executions stay, but for one that it finalizes. -/
theorem Tracks.advance (h : Tracks calls t) {i : ι} {c : SessionCommand}
    {k : Except PyError c.Resp → Session StoreReply} (hi : t.thread i = .call c k) {db : Tables}
    {p : Session StoreReply} (hgrows : Tables.Grows t.shared db)
    (hrows : ∀ id row, Dict.get? t.shared.taskExecutions id = some row →
      Dict.get? db.taskExecutions id = some row ∨ Finalized calls id i (t.advance i db p))
    (hrecords : ∀ id payload, (calls i).op = .recordResult id payload →
      Recording (calls i).now id payload (StillThere calls id i (t.advance i db p)) p)
    (hothers : (∀ id payload, (calls i).op ≠ .recordResult id payload) →
      p.Only SessionCommand.NoUpdate) : Tracks calls (t.advance i db p) := by
  refine ⟨fun j id payload hop => ?_, fun j hno => ?_⟩
  · by_cases hji : j = i
    · subst hji
      rw [t.advance_thread_self]
      exact hrecords id payload hop
    · rw [t.advance_thread_of_ne _ _ _ hji]
      refine (h.records j id payload hop).mono fun row hstill => ⟨hgrows.executions id hstill.1, ?_⟩
      rcases hstill.2 with hrow | ⟨j', hne, hj'⟩
      · exact (hrows id row hrow).imp_right fun hfinalized => ⟨i, Ne.symm hji, hfinalized⟩
      · exact .inr ⟨j', hne, hj'.advance hi db p⟩
  · exact Threads.forall_advance (Q := fun j p => (∀ id payload, (calls j).op ≠
      .recordResult id payload) → p.Only SessionCommand.NoUpdate) h.others hothers j hno

omit [Interpreter] [Sha256] in
/-- **Step lemma**: an `UPDATE` that is late finalizes an execution that is finalized. -/
theorem Tracks.step (h : Tracks calls t) {i : ι} (hstep : Threads.Issues Tables.handle i t t') :
    Tracks calls t' ∧ (Threads.IssuesTimely Tables.handle Tables.OnTime i t t' ∨
      FinalizedTwice calls t') := by
  have hissues := hstep
  obtain @⟨c, k, hi, scan⟩ := hstep
  have hgrows := Tables.grows_handle scan c t.shared
  by_cases hrecords : ∃ id payload, (calls i).op = .recordResult id payload
  · obtain ⟨id, payload, hop⟩ := hrecords
    have hstands := h.records i id payload hop
    rw [hi] at hstands
    generalize hp : (Prog.call c k : Session StoreReply) = p at hstands
    cases hstands with
    | ended r => cases hp
    | start =>
      rw [PostgresStore.recordResultRow_eq] at hp
      obtain ⟨rfl, hk⟩ := Prog.call.inj hp
      obtain rfl := eq_of_heq hk
      refine ⟨h.advance hi hgrows (fun _ _ hrow => .inl hrow) (fun id' payload' hop' => ?_)
        (fun hno => absurd hop (hno id payload)), .inl ⟨hissues, fun c' k' hcall => ?_⟩⟩
      · obtain ⟨rfl, rfl⟩ := StoreOp.recordResult.inj (hop.symm.trans hop')
        have hanswer : (Tables.handle scan (.row (.get id)) t.shared).1 =
            .ok (Dict.get? t.shared.taskExecutions id) := rfl
        rw [hanswer]
        cases hread : Dict.get? t.shared.taskExecutions id with
        | none => exact .ended _
        | some row =>
          dsimp only
          split_ifs
          · exact .ended _
          · exact .updating ⟨Dict.has_iff.mpr ⟨row, hread⟩, .inl hread⟩
      · obtain ⟨rfl, -⟩ := Prog.call.inj (hi.symm.trans hcall)
        trivial
    | updating hstill =>
      rename_i row
      obtain ⟨rfl, hk⟩ := Prog.call.inj hp
      obtain rfl := eq_of_heq hk
      obtain ⟨current, hcurrent⟩ := Dict.has_iff.mp hstill.1
      have hanswer : (Tables.handle scan (.row (.commit id row (row.finalize payload (calls i).now)))
          t.shared).1 = .ok () := by
        simp only [Tables.handle, Database.handle, hcurrent]
      have hwins : ∀ db, Finalized calls id i (t.advance i db
          (.done (.ok (.execution (row.finalize payload (calls i).now))))) :=
        fun db => ⟨⟨payload, hop⟩, _, t.advance_thread_self _ _ _⟩
      rw [hanswer] at hissues ⊢
      refine ⟨h.advance hi hgrows (fun id' row' hrow => ?_) (fun _ _ _ => .ended _)
        (fun _ => .done _), ?_⟩
      · by_cases hid : id = id'
        · subst hid
          exact .inr (hwins _)
        · left
          simp only [Tables.handle, Database.handle, hcurrent]
          rw [Dict.get?_set_of_ne _ hid, hrow]
      · rcases hstill.2 with hrow | ⟨j, hne, hj⟩
        · refine .inl ⟨hissues, fun c' k' hcall => ?_⟩
          obtain ⟨rfl, -⟩ := Prog.call.inj (hi.symm.trans hcall)
          exact hrow
        · exact .inr ⟨id, j, i, hne, hj.advance hi _ _, hwins _⟩
  · have hno : ∀ id payload, (calls i).op ≠ .recordResult id payload :=
      fun id payload hop => hrecords ⟨id, payload, hop⟩
    have honly := h.others i hno
    rw [hi] at honly
    cases honly with
    | call hc hk =>
      refine ⟨h.advance hi hgrows (fun id row hrow => .inl (Tables.execution_handle hc hrow scan))
        (fun id payload hop => absurd hop (hno id payload)) fun _ => hk _, .inl ⟨hissues, ?_⟩⟩
      intro c' k' hcall
      obtain ⟨rfl, -⟩ := Prog.call.inj (hi.symm.trans hcall)
      exact Tables.onTime_of_noUpdate hc t.shared

/-- **Run lemma**: in a run in which no execution is finalized twice, every `UPDATE` was on time. -/
theorem timely_or_finalizedTwice {db : Tables} {labels : List ι}
    (h : Execution (Threads.Issues Tables.handle) (Sessions.initial calls db) labels t) :
    Execution (Threads.IssuesTimely Tables.handle Tables.OnTime) (Sessions.initial calls db) labels t ∨
      FinalizedTwice calls t := by
  have htracks : Tracks calls t ∧ (Execution (Threads.IssuesTimely Tables.handle Tables.OnTime)
      (Sessions.initial calls db) labels t ∨ FinalizedTwice calls t) := by
    refine h.invariant (P := fun labels t => Tracks calls t ∧
      (Execution (Threads.IssuesTimely Tables.handle Tables.OnTime) (Sessions.initial calls db) labels
        t ∨ FinalizedTwice calls t)) ⟨.initial, .inl (.nil _)⟩ ?_
    rintro labels i u u' ⟨hu, htimely⟩ hstep
    obtain ⟨hu', hnext⟩ := hu.step hstep
    refine ⟨hu', ?_⟩
    rcases htimely with hrun | ⟨id, j, j', hne, hj, hj'⟩
    · exact hnext.imp_left hrun.snoc
    · exact .inr ⟨id, j, j', hne, hj.issues hstep, hj'.issues hstep⟩
  exact htracks.2

/-- **A run of any operations, by any number of sessions and in any interleaving, is serializable
exactly if every `UPDATE` in it is on time.** -/
theorem serializable_iff {db : Tables} (hhashes : db.HashesNodup) {labels : List ι}
    (h : Execution (Threads.Issues Tables.handle) (Sessions.initial calls db) labels t) :
    Threads.Serializable Tables.handle (Sessions.initial calls db) labels t ↔
      Execution (Threads.IssuesTimely Tables.handle Tables.OnTime) (Sessions.initial calls db) labels
        t := by
  constructor
  · intro hserializable
    exact (timely_or_finalizedTwice h).resolve_right
      (not_finalizedTwice_of_serializable hserializable)
  · exact Threads.serializable Tables.growth fun i =>
      PostgresStore.atomic_transaction _ _ hhashes _

end Sessions

/-! ### A few sessions -/

/-- Two callers create a version with the same content. -/
def bothCreate (renamed : Bool) : StoreCall :=
  ⟨.createAgentVersion (sameContent renamed), 1, callerKey renamed⟩

/-- Two callers record a result of one execution. -/
def bothRecord (passed : Bool) : StoreCall :=
  ⟨.recordResult "execution" (rivalResult passed), 1, ""⟩

/-- The database in which an execution is pending. -/
def pendingTables : Tables := { taskExecutions := [("execution", pendingExecution)] }

/-- The two who record a result, and one who creates a version. -/
def recordersAndCreator : Option Bool → StoreCall
  | some passed => bothRecord passed
  | none => bothCreate true

omit [Interpreter] [Sha256] in
/-- The version is created around an `UPDATE`, and the second result is refused: as if they had come
one after the other. -/
theorem serializable_iff_race :
    let _ := cpython
    let _ := sha256
    ∃ t ∈ (Sessions.initial recordersAndCreator pendingTables).play Tables.handle default
        [some true, none, some true, none, some false],
      (t.outcome? (some true)).map Except.isOk = some true ∧
        (t.outcome? none).map Except.isOk = some true ∧
        (t.outcome? (some false)).map Except.isOk = some false ∧
        Threads.Serializable Tables.handle (Sessions.initial recordersAndCreator pendingTables)
          [some true, none, some true, none, some false] t := by
  intro _ _
  have hrun : ∃ t ∈ (Sessions.initial recordersAndCreator pendingTables).play Tables.handle default
      [some true, none, some true, none, some false],
      (t.outcome? (some true)).map Except.isOk = some true ∧
        (t.outcome? none).map Except.isOk = some true ∧
        (t.outcome? (some false)).map Except.isOk = some false := by decide +kernel
  obtain ⟨t, hplay, htrue, hnone, hfalse⟩ := hrun
  have hissues := Threads.execution_play hplay
  -- only the one who was not refused has finalized the execution
  have honly : ∀ id i, Sessions.Finalized recordersAndCreator id i t → i = some true := by
    rintro id (_ | passed) ⟨⟨payload, hop⟩, reply, hi⟩
    · cases hop
    · cases passed with
      | true => rfl
      | false =>
        rw [Threads.outcome?, hi] at hfalse
        cases hfalse
  have hnot : ¬ Sessions.FinalizedTwice recordersAndCreator t := by
    rintro ⟨id, i, j, hne, hi, hj⟩
    exact hne ((honly id i hi).trans (honly id j hj).symm)
  have htimely := (Sessions.timely_or_finalizedTwice hissues).resolve_right hnot
  have hhashes : Tables.HashesNodup pendingTables := List.nodup_nil
  exact ⟨t, hplay, htrue, hnone, hfalse, (Sessions.serializable_iff hhashes hissues).mpr htimely⟩

omit [Interpreter] [Sha256] in
/-- **Both read the open execution, and both finalize it**: no order of the two does that. -/
theorem not_serializable_of_both_read :
    let _ := cpython
    let _ := sha256
    ∃ t, Execution (Threads.Issues Tables.handle)
        (Sessions.initial bothRecord pendingTables)
        [true, false, true, false] t ∧
      ¬ Threads.Serializable Tables.handle
        (Sessions.initial bothRecord pendingTables)
        [true, false, true, false] t := by
  intro _ _
  have hrun : ∃ t, Execution (Threads.Issues Tables.handle)
      (Sessions.initial bothRecord pendingTables)
      [true, false, true, false] t ∧
      (∃ reply, t.thread true = .done (.ok reply)) ∧ ∃ reply, t.thread false = .done (.ok reply) :=
    ⟨_, .snoc (.snoc (.snoc (.snoc (.nil _) (.call rfl default)) (.call rfl default))
      (.call rfl default)) (.call rfl default), ⟨_, rfl⟩, ⟨_, rfl⟩⟩
  obtain ⟨t, hissues, htrue, hfalse⟩ := hrun
  have htwice : Sessions.FinalizedTwice bothRecord t :=
    ⟨"execution", true, false, by decide, ⟨⟨_, rfl⟩, htrue⟩, ⟨⟨_, rfl⟩, hfalse⟩⟩
  exact ⟨t, hissues, fun h => Sessions.not_finalizedTwice_of_serializable h htwice⟩

end AgentProof
