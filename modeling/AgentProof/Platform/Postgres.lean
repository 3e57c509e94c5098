import AgentProof.Platform.Finalization
import AgentProof.Platform.Operations
import Mathlib.Data.List.FinRange

/-!
# Platform/Postgres — the `Store` protocol on `PostgresStore`

The operations of the protocol as transactions: programs that issue the statements of their session.
Other transactions see the statements and the commits and nothing between them, so an insert and the
commit after it are one command, as the `UPDATE` of `record_result` is.

PostgreSQL enforces the constraints `app.models` declares and nothing else: every column takes the
value it is given and gives it back.  A `SELECT` without an `ORDER BY` returns its rows in an order
nobody controls.
-/

open Machinery Machinery.Prog

namespace AgentProof

open PlatformStore (storedEvent sortBySequenceNo)

/-! ## The tables -/

/-- The committed rows of all tables, each under its primary key. -/
structure Tables extends Database where
  agentVersions : Dict UUID AgentVersion := []
  evaluationRuns : Dict UUID EvaluationRun := []
  traceEvents : Dict UUID TraceEvent := []
  judgeVerdicts : Dict UUID JudgeVerdict := []

namespace Tables

variable (db : Tables)

/-- The rows of `agent_versions`. -/
def versions : List AgentVersion := db.agentVersions.map Prod.snd

/-- The rows of `trace_events`. -/
def events : List TraceEvent := db.traceEvents.map Prod.snd

/-- A row `agent_versions` does not take: its key or its `content_hash` is taken. -/
def VersionConflict (row : AgentVersion) : Prop :=
  Dict.has db.agentVersions row.id = true ∨
    ∃ existing ∈ db.versions, existing.contentHash = row.contentHash

/-- A row `evaluation_runs` does not take: its key is taken, or it refers to no version. -/
def RunConflict (row : EvaluationRun) : Prop :=
  Dict.has db.evaluationRuns row.id = true ∨ Dict.has db.agentVersions row.agentVersionId = false

/-- A row `task_executions` does not take: its key is taken, or it refers to no run. -/
def ExecutionConflict (row : TaskExecution) : Prop :=
  Dict.has db.taskExecutions row.id = true ∨ Dict.has db.evaluationRuns row.runId = false

/-- A row `trace_events` does not take: its key is taken, or its execution and number are
(`uq_trace_events_execution_sequence`), or it refers to no execution. -/
def EventConflict (row : TraceEvent) : Prop :=
  Dict.has db.traceEvents row.id = true ∨
    (∃ event ∈ db.events, event.executionId = row.executionId ∧ event.sequenceNo = row.sequenceNo) ∨
    Dict.has db.taskExecutions row.executionId = false

/-- A row `judge_verdicts` does not take: its key is taken, or it refers to no execution. -/
def VerdictConflict (row : JudgeVerdict) : Prop :=
  Dict.has db.judgeVerdicts row.id = true ∨ Dict.has db.taskExecutions row.executionId = false

instance (row : AgentVersion) : Decidable (db.VersionConflict row) :=
  inferInstanceAs (Decidable (_ ∨ _))

instance (row : EvaluationRun) : Decidable (db.RunConflict row) :=
  inferInstanceAs (Decidable (_ ∨ _))

instance (row : TaskExecution) : Decidable (db.ExecutionConflict row) :=
  inferInstanceAs (Decidable (_ ∨ _))

instance (row : TraceEvent) : Decidable (db.EventConflict row) :=
  inferInstanceAs (Decidable (_ ∨ _))

instance (row : JudgeVerdict) : Decidable (db.VerdictConflict row) :=
  inferInstanceAs (Decidable (_ ∨ _))

end Tables

/-- What a session sends.  An insert is its `INSERT` and the commit after it. -/
inductive SessionCommand where
  | rollback
  | getVersion (agentVersionId : UUID)
  | selectVersions (contentHash : String)
  | insertVersion (row : AgentVersion)
  | getRun (runId : UUID)
  | insertRun (row : EvaluationRun)
  /-- `session.get` of an execution, and its `UPDATE` -/
  | row (command : RowCommand)
  | insertExecution (row : TaskExecution)
  | selectExecutions (runId : UUID)
  | insertEvent (row : TraceEvent)
  | selectEvents (executionId : UUID)
  | insertVerdict (row : JudgeVerdict)
  | selectVerdicts (executionId : UUID)

/-- What it gets back. -/
abbrev SessionCommand.Resp : SessionCommand → Type
  | .rollback => Unit
  | .getVersion _ => Option AgentVersion
  | .selectVersions _ => List AgentVersion
  | .insertVersion _ => Unit
  | .getRun _ => Option EvaluationRun
  | .insertRun _ => Unit
  | .row command => command.Resp
  | .insertExecution _ => Unit
  | .selectExecutions _ => List TaskExecution
  | .insertEvent _ => Unit
  | .selectEvents _ => List TraceEvent
  | .insertVerdict _ => Unit
  | .selectVerdicts _ => List JudgeVerdict

/-- The order in which a `SELECT` comes upon its rows. -/
abbrev Scan : Type := (n : ℕ) → Equiv.Perm (Fin n)

/-- Rows in the order of a scan. -/
def Scan.rows {α : Type} (scan : Scan) (rows : List α) : List α :=
  List.ofFn fun i => rows.get (scan rows.length i)

/-- A scan comes upon every row once. -/
theorem Scan.rows_perm {α : Type} (scan : Scan) (rows : List α) : (scan.rows rows).Perm rows := by
  have hperm := (scan rows.length).ofFn_comp_perm rows.get
  rwa [List.ofFn_get] at hperm

@[simp] theorem Scan.rows_nil {α : Type} (scan : Scan) : scan.rows ([] : List α) = [] := rfl

@[simp] theorem Scan.rows_singleton {α : Type} (scan : Scan) (row : α) : scan.rows [row] = [row] :=
  List.perm_singleton.mp (scan.rows_perm [row])

/-- `sqlalchemy.exc.IntegrityError`, with the table whose constraint is violated. -/
def integrityError (table : String) : PyError := .other "IntegrityError" table

/-- The commit of an insert: nothing, where it violates a constraint. -/
def Tables.commit (db : Tables) (table : String) (conflict : Prop) [Decidable conflict]
    (committed : Tables) : Except PyError Unit × Tables :=
  if conflict then (.error (integrityError table), db) else (.ok (), committed)

/-- The database at READ COMMITTED, its constraints enforced. -/
def Tables.handle : Handler PyError SessionCommand SessionCommand.Resp Scan Tables :=
  fun scan command db =>
    match command with
    | .rollback => (.ok (), db)
    | .getVersion id => (.ok (Dict.get? db.agentVersions id), db)
    | .selectVersions contentHash =>
      (.ok (scan.rows (db.versions.filter fun row => row.contentHash = contentHash)), db)
    | .insertVersion row =>
      db.commit "agent_versions" (db.VersionConflict row)
        { db with agentVersions := Dict.set db.agentVersions row.id row }
    | .getRun id => (.ok (Dict.get? db.evaluationRuns id), db)
    | .insertRun row =>
      db.commit "evaluation_runs" (db.RunConflict row)
        { db with evaluationRuns := Dict.set db.evaluationRuns row.id row }
    | .row command =>
      let (answer, database) := Database.handle () command db.toDatabase
      (answer, { db with toDatabase := database })
    | .insertExecution row =>
      db.commit "task_executions" (db.ExecutionConflict row)
        { db with taskExecutions := Dict.set db.taskExecutions row.id row }
    | .selectExecutions runId =>
      (.ok (scan.rows ((db.taskExecutions.map Prod.snd).filter fun row => row.runId = runId)), db)
    | .insertEvent row =>
      db.commit "trace_events" (db.EventConflict row)
        { db with traceEvents := Dict.set db.traceEvents row.id row }
    | .selectEvents executionId =>
      -- `.order_by(TraceEventModel.sequence_no)`
      (.ok (sortBySequenceNo
        (scan.rows (db.events.filter fun row => row.executionId = executionId))), db)
    | .insertVerdict row =>
      db.commit "judge_verdicts" (db.VerdictConflict row)
        { db with judgeVerdicts := Dict.set db.judgeVerdicts row.id row }
    | .selectVerdicts executionId =>
      (.ok (scan.rows ((db.judgeVerdicts.map Prod.snd).filter fun row =>
        row.executionId = executionId)), db)

/-! ## The transactions -/

/-- A transaction. -/
abbrev Session (α : Type) : Type := Prog PyError SessionCommand SessionCommand.Resp α

/-- One command of a session. -/
abbrev issue (command : SessionCommand) : Session command.Resp := perform command

/-- `result.scalar_one_or_none()` -/
def scalarOneOrNone {α : Type} : List α → Except PyError (Option α)
  | [] => .ok none
  | [row] => .ok (some row)
  | _ => .error (.other "MultipleResultsFound" "Multiple rows were found when one or none was required")

/-- `result.scalar_one()` -/
def scalarOne {α : Type} : List α → Except PyError α
  | [] => .error (.other "NoResultFound" "No row was found when one was required")
  | [row] => .ok row
  | _ => .error (.other "MultipleResultsFound" "Multiple rows were found when exactly one was required")

namespace PostgresStore

/-- The row that `session.get` loaded, or the 404 that says what is missing. -/
def found {α : Type} (detail : String) : Option α → Session α
  | some row => return row
  | none => lift (.error (.httpException 404 detail))

/-- The second lookup of `create_agent_version`, after the uniqueness failure. -/
def requery (contentHash : String) : Session AgentVersion := do
  issue .rollback
  let result ← issue (.selectVersions contentHash)
  lift (scalarOne result)

/-- The insert of `create_agent_version`. -/
def insertVersion (row : AgentVersion) : Session AgentVersion :=
  (issue (.insertVersion row)).andThen fun
    | .ok () => return row
    | .error e =>
      if e.className = "IntegrityError" then requery row.contentHash else lift (.error e)

section

variable [Interpreter] [Sha256]

/-- `create_agent_version` -/
def createAgentVersion (now : Timestamp) (newId : UUID) (payload : AgentVersionCreate) :
    Session AgentVersion := do
  let contentHash := computeAgentVersionContentHash payload.content
  let existing ← issue (.selectVersions contentHash)
  match ← lift (scalarOneOrNone existing) with
  | some existingRow => return existingRow
  | none => insertVersion (payload.version contentHash newId now)

end

/-- `get_agent_version` -/
def getAgentVersion (agentVersionId : UUID) : Session AgentVersion := do
  found "agent version not found" (← issue (.getVersion agentVersionId))

/-- `create_run` -/
def createRun (now : Timestamp) (newId : UUID) (payload : EvaluationRunCreate) :
    Session EvaluationRun := do
  let _ ← found "agent version not found" (← issue (.getVersion payload.agentVersionId))
  let row := payload.run newId now
  issue (.insertRun row)
  return row

/-- `create_execution` -/
def createExecution (now : Timestamp) (newId runId : UUID) (payload : TaskExecutionCreate) :
    Session TaskExecution := do
  let _ ← found "evaluation run not found" (← issue (.getRun runId))
  let row := payload.execution newId runId now
  issue (.insertExecution row)
  return row

/-- `record_result`, in a session of all tables. -/
def recordResultRow (now : Timestamp) (executionId : UUID) (payload : TaskExecutionResult) :
    Session TaskExecution :=
  (recordResult now executionId payload).embed SessionCommand.row fun _ answer => answer

/-- `append_trace_event` -/
def appendTraceEvent (now : Timestamp) (executionId : UUID) (payload : TraceEventCreate) :
    Session TraceEvent := do
  let _ ← found "task execution not found" (← issue (.row (.get executionId)))
  let row := storedEvent now executionId payload
  (issue (.insertEvent row)).andThen fun
    | .ok () => return row
    | .error e =>
      if e.className = "IntegrityError" then do
        issue .rollback
        lift (.error (.httpException 409 "duplicate trace sequence number"))
      else lift (.error e)

/-- `get_execution` -/
def getExecution (executionId : UUID) : Session TaskExecution := do
  found "task execution not found" (← issue (.row (.get executionId)))

/-- `get_run_executions` -/
def getRunExecutions (runId : UUID) : Session (List TaskExecution) := do
  let _ ← found "evaluation run not found" (← issue (.getRun runId))
  issue (.selectExecutions runId)

/-- `get_trace` -/
def getTrace (executionId : UUID) : Session (List TraceEvent) := do
  let _ ← found "task execution not found" (← issue (.row (.get executionId)))
  issue (.selectEvents executionId)

/-- `append_judge_verdict` -/
def appendJudgeVerdict (now : Timestamp) (newId executionId : UUID) (payload : JudgeVerdictCreate) :
    Session JudgeVerdict := do
  let _ ← found "task execution not found" (← issue (.row (.get executionId)))
  let row := payload.verdict newId executionId now
  issue (.insertVerdict row)
  return row

/-- `get_judge_verdicts` -/
def getJudgeVerdicts (executionId : UUID) : Session (List JudgeVerdict) := do
  let _ ← found "task execution not found" (← issue (.row (.get executionId)))
  issue (.selectVerdicts executionId)

variable [Interpreter] [Sha256]

/-- The transaction of an operation. -/
def transaction (now : Timestamp) (newId : UUID) : StoreOp → Session StoreReply
  | .createAgentVersion payload => .version <$> createAgentVersion now newId payload
  | .getAgentVersion id => .version <$> getAgentVersion id
  | .createRun payload => .run <$> createRun now newId payload
  | .createExecution runId payload => .execution <$> createExecution now newId runId payload
  | .recordResult id payload => .execution <$> recordResultRow now id payload
  | .appendTraceEvent id payload => .event <$> appendTraceEvent now id payload
  | .getExecution id => .execution <$> getExecution id
  | .getRunExecutions runId => .executions <$> getRunExecutions runId
  | .getTrace id => .trace <$> getTrace id
  | .appendJudgeVerdict id payload => .verdict <$> appendJudgeVerdict now newId id payload
  | .getJudgeVerdicts id => .verdicts <$> getJudgeVerdicts id

end PostgresStore

/-! ## Lookup by hash -/

/-- Where no two items have the same key, at most one has a given one. -/
theorem filter_eq_of_nodup_map {α β : Type} [DecidableEq β] {f : α → β} {b : β} :
    ∀ {l : List α}, (l.map f).Nodup →
      (l.filter fun a => f a = b) = [] ∧ (∀ a ∈ l, f a ≠ b) ∨
        ∃ a ∈ l, f a = b ∧ (l.filter fun a => f a = b) = [a]
  | [], _ => .inl ⟨rfl, by simp⟩
  | a :: l, h => by
    obtain ⟨ha, hl⟩ := List.nodup_cons.mp h
    by_cases hab : f a = b
    · have hnone : (l.filter fun a => f a = b) = [] :=
        List.filter_eq_nil_iff.mpr fun c hc => by
          have hne : f c ≠ b := fun hcb => ha (List.mem_map.mpr ⟨c, hc, hcb.trans hab.symm⟩)
          simpa using hne
      refine .inr ⟨a, List.mem_cons_self, hab, ?_⟩
      rw [List.filter_cons_of_pos (by simpa using hab), hnone]
    · rw [List.filter_cons_of_neg (by simpa using hab)]
      rcases filter_eq_of_nodup_map hl with ⟨hnil, hne⟩ | ⟨c, hc, hcb, hone⟩
      · exact .inl ⟨hnil, fun c hc => (List.mem_cons.mp hc).elim (fun heq => heq ▸ hab) (hne c)⟩
      · exact .inr ⟨c, List.mem_cons_of_mem a hc, hcb, hone⟩

/-- The rows' content hashes are distinct. -/
def Tables.HashesNodup (db : Tables) : Prop := (db.versions.map fun row => row.contentHash).Nodup

/-- **A lookup by hash finds one row or none.** -/
theorem Tables.handle_selectVersions {db : Tables} (h : db.HashesNodup) (scan : Scan)
    (contentHash : String) :
    handle scan (.selectVersions contentHash) db = (.ok [], db) ∧
        (∀ row ∈ db.versions, row.contentHash ≠ contentHash) ∨
      ∃ row ∈ db.versions, row.contentHash = contentHash ∧
        handle scan (.selectVersions contentHash) db = (.ok [row], db) := by
  rcases filter_eq_of_nodup_map h with ⟨hnil, hne⟩ | ⟨row, hmem, hhash, hone⟩
  · exact .inl ⟨by rw [handle, hnil, Scan.rows_nil], hne⟩
  · exact .inr ⟨row, hmem, hhash, by rw [handle, hone, Scan.rows_singleton]⟩

/-- An insert whose hash is taken is refused. -/
theorem Tables.handle_insertVersion_of_taken {db : Tables} {row existing : AgentVersion}
    (hmem : existing ∈ db.versions) (hhash : existing.contentHash = row.contentHash) (scan : Scan) :
    handle scan (.insertVersion row) db = (.error (integrityError "agent_versions"), db) := by
  have hconflict : db.VersionConflict row := .inr ⟨existing, hmem, hhash⟩
  rw [handle, commit, if_pos hconflict]

/-- Any other is committed at the end. -/
theorem Tables.handle_insertVersion_of_free {db : Tables} {row : AgentVersion}
    (hkey : Dict.get? db.agentVersions row.id = none)
    (hhash : ∀ existing ∈ db.versions, existing.contentHash ≠ row.contentHash) (scan : Scan) :
    handle scan (.insertVersion row) db =
      (.ok (), { db with agentVersions := db.agentVersions ++ [(row.id, row)] }) := by
  have hfree : ¬ db.VersionConflict row := by
    rintro (hhas | ⟨existing, hmem, heq⟩)
    · rw [Dict.has, hkey] at hhas
      cases hhas
    · exact hhash existing hmem heq
  rw [handle, commit, if_neg hfree, Dict.set_of_get?_eq_none hkey]

/-! ## The programs, command by command -/

namespace PostgresStore

theorem createAgentVersion_eq [Interpreter] [Sha256] (now : Timestamp) (newId : UUID)
    (payload : AgentVersionCreate) :
    createAgentVersion now newId payload =
      .call (.selectVersions (computeAgentVersionContentHash payload.content)) fun
        | .error e => .done (.error e)
        | .ok existing =>
          match scalarOneOrNone existing with
          | .error e => .done (.error e)
          | .ok (some row) => .done (.ok row)
          | .ok none => insertVersion
            (payload.version (computeAgentVersionContentHash payload.content) newId now) := by
  rw [createAgentVersion, issue, perform_bind]
  congr 1
  funext r
  rcases r with e | existing
  · rfl
  · rcases h : scalarOneOrNone existing with e | _ | row <;> simp [h]

theorem insertVersion_eq (row : AgentVersion) :
    insertVersion row = .call (.insertVersion row) fun
      | .ok () => .done (.ok row)
      | .error e =>
        if e.className = "IntegrityError" then requery row.contentHash else .done (.error e) := rfl

/-- The second lookup, after the rollback. -/
def lookupAgain (contentHash : String) : Session AgentVersion :=
  .call (.selectVersions contentHash) fun
    | .error e => .done (.error e)
    | .ok result => .done (scalarOne result)

theorem requery_eq (contentHash : String) :
    requery contentHash = .call .rollback fun
      | .error e => .done (.error e)
      | .ok () => lookupAgain contentHash := by
  rw [requery, issue, perform_bind]
  congr 1
  funext r
  rcases r with e | _
  · rfl
  · rw [issue, perform_bind]
    change call _ _ = call _ _
    congr 1
    funext r
    rcases r with e | result <;> rfl

end PostgresStore

/-! ## A transaction alone

What the commands of a transaction answer when no other is there, one after the other. -/

namespace PostgresStore

variable {α β : Type} {scans : ℕ → Scan} {db : Tables}

@[simp] theorem found_some_bind (detail : String) (row : α) (f : α → Session β) :
    (found detail (some row) >>= f) = f row := rfl

@[simp] theorem found_none_bind (detail : String) (f : α → Session β) :
    (found detail none >>= f) = .done (.error (.httpException 404 detail)) := rfl

theorem exec_getVersion (id : UUID) (f : Option AgentVersion → Session β) :
    (issue (.getVersion id) >>= f).exec Tables.handle scans db =
      (f (Dict.get? db.agentVersions id)).exec Tables.handle (fun n => scans (n + 1)) db := rfl

theorem exec_getRun (id : UUID) (f : Option EvaluationRun → Session β) :
    (issue (.getRun id) >>= f).exec Tables.handle scans db =
      (f (Dict.get? db.evaluationRuns id)).exec Tables.handle (fun n => scans (n + 1)) db := rfl

theorem exec_getExecution (id : UUID) (f : Option TaskExecution → Session β) :
    (issue (.row (.get id)) >>= f).exec Tables.handle scans db =
      (f (Dict.get? db.taskExecutions id)).exec Tables.handle (fun n => scans (n + 1)) db := rfl

theorem exec_insertRun {row : EvaluationRun} (hfree : ¬ db.RunConflict row) (f : Unit → Session β) :
    (issue (.insertRun row) >>= f).exec Tables.handle scans db =
      (f ()).exec Tables.handle (fun n => scans (n + 1))
        { db with evaluationRuns := Dict.set db.evaluationRuns row.id row } := by
  have hhandle : Tables.handle (scans 0) (.insertRun row) db =
      (.ok (), { db with evaluationRuns := Dict.set db.evaluationRuns row.id row }) := by
    rw [Tables.handle, Tables.commit, if_neg hfree]
  rw [issue, exec_perform_bind (congrArg Prod.fst hhandle), hhandle]

theorem exec_insertExecution {row : TaskExecution} (hfree : ¬ db.ExecutionConflict row)
    (f : Unit → Session β) :
    (issue (.insertExecution row) >>= f).exec Tables.handle scans db =
      (f ()).exec Tables.handle (fun n => scans (n + 1))
        { db with taskExecutions := Dict.set db.taskExecutions row.id row } := by
  have hhandle : Tables.handle (scans 0) (.insertExecution row) db =
      (.ok (), { db with taskExecutions := Dict.set db.taskExecutions row.id row }) := by
    rw [Tables.handle, Tables.commit, if_neg hfree]
  rw [issue, exec_perform_bind (congrArg Prod.fst hhandle), hhandle]

theorem exec_insertVerdict {row : JudgeVerdict} (hfree : ¬ db.VerdictConflict row)
    (f : Unit → Session β) :
    (issue (.insertVerdict row) >>= f).exec Tables.handle scans db =
      (f ()).exec Tables.handle (fun n => scans (n + 1))
        { db with judgeVerdicts := Dict.set db.judgeVerdicts row.id row } := by
  have hhandle : Tables.handle (scans 0) (.insertVerdict row) db =
      (.ok (), { db with judgeVerdicts := Dict.set db.judgeVerdicts row.id row }) := by
    rw [Tables.handle, Tables.commit, if_neg hfree]
  rw [issue, exec_perform_bind (congrArg Prod.fst hhandle), hhandle]

/-- A version with a new key and a new hash is committed. -/
theorem exec_insertVersion {row : AgentVersion} (hkey : Dict.get? db.agentVersions row.id = none)
    (hhash : ∀ existing ∈ db.versions, existing.contentHash ≠ row.contentHash) :
    (insertVersion row).exec Tables.handle scans db =
      (.ok row, { db with agentVersions := Dict.set db.agentVersions row.id row }) := by
  rw [insertVersion_eq, exec_call, Tables.handle_insertVersion_of_free hkey hhash,
    Dict.set_of_get?_eq_none hkey]
  rfl

/-- An event that is no conflict is appended. -/
theorem exec_appendTraceEvent_of_free (now : Timestamp) {id : UUID} {payload : TraceEventCreate}
    {execution : TaskExecution} (hexecution : Dict.get? db.taskExecutions id = some execution)
    (hfree : ¬ db.EventConflict (storedEvent now id payload)) :
    (appendTraceEvent now id payload).exec Tables.handle scans db =
      (.ok (storedEvent now id payload), { db with
        traceEvents := Dict.set db.traceEvents payload.id (storedEvent now id payload) }) := by
  have hhandle : Tables.handle (scans 1) (.insertEvent (storedEvent now id payload)) db =
      (.ok (), { db with
        traceEvents := Dict.set db.traceEvents payload.id (storedEvent now id payload) }) := by
    rw [Tables.handle, Tables.commit, if_neg hfree]
    rfl
  rw [appendTraceEvent, exec_getExecution, hexecution, found_some_bind, issue,
    exec_perform_andThen, hhandle]
  rfl

/-- Any other is a duplicate. -/
theorem exec_appendTraceEvent_of_conflict (now : Timestamp) {id : UUID} {payload : TraceEventCreate}
    {execution : TaskExecution} (hexecution : Dict.get? db.taskExecutions id = some execution)
    (hconflict : db.EventConflict (storedEvent now id payload)) :
    (appendTraceEvent now id payload).exec Tables.handle scans db =
      (.error (.httpException 409 "duplicate trace sequence number"), db) := by
  have hhandle : Tables.handle (scans 1) (.insertEvent (storedEvent now id payload)) db =
      (.error (integrityError "trace_events"), db) := by
    rw [Tables.handle, Tables.commit, if_pos hconflict]
  rw [appendTraceEvent, exec_getExecution, hexecution, found_some_bind, issue,
    exec_perform_andThen, hhandle]
  rfl

/-- The commands on executions touch `task_executions` and nothing else. -/
theorem extends_database :
    Extends Tables.handle Database.handle SessionCommand.row (fun _ answer => answer) (fun _ => ())
      Tables.toDatabase fun db database => { db with toDatabase := database } where
  view_put _ _ := rfl
  put_view _ := rfl
  put_put _ _ _ := rfl
  answer scan command db := by
    change (Database.handle () command db.toDatabase).1.map id = _
    rw [Except.map_id]
    rfl
  state _ _ _ := rfl

/-- What `record_result` returns and leaves, alone. -/
theorem exec_recordResult (now : Timestamp) (id : UUID) (payload : TaskExecutionResult)
    (oracle : ℕ → Unit) (db : Database) :
    (recordResult now id payload).exec Database.handle oracle db =
      match Dict.get? db.taskExecutions id with
      | none => (.error (.httpException 404 "task execution not found"), db)
      | some execution =>
        if execution.status.terminal then (.error alreadyFinalized, db)
        else (.ok (execution.finalize payload now), { db with
          taskExecutions := Dict.set db.taskExecutions id (execution.finalize payload now) }) := by
  rw [recordResult_eq, exec_call]
  cases hread : Dict.get? db.taskExecutions id with
  | none =>
    simp only [Database.handle, hread]
    rfl
  | some execution =>
    have hcommit := Database.handle_commit hread payload now
    simp only [Database.handle, hread]
    split_ifs with hterminal
    · rfl
    · rw [commitResult, exec_perform_bind (congrArg Prod.fst (hcommit _)), hcommit]
      rfl

/-- `record_result` in a session of all tables. -/
theorem exec_recordResultRow (now : Timestamp) (id : UUID) (payload : TaskExecutionResult) :
    (recordResultRow now id payload).exec Tables.handle scans db =
      match Dict.get? db.taskExecutions id with
      | none => (.error (.httpException 404 "task execution not found"), db)
      | some execution =>
        if execution.status.terminal then (.error alreadyFinalized, db)
        else (.ok (execution.finalize payload now), { db with
          taskExecutions := Dict.set db.taskExecutions id (execution.finalize payload now) }) := by
  rw [recordResultRow, extends_database.exec_embed, exec_recordResult]
  cases Dict.get? db.taskExecutions id with
  | none => rfl
  | some execution =>
    dsimp only
    split_ifs <;> rfl

end PostgresStore

end AgentProof
