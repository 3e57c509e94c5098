import AgentProof.Machinery.Atomicity
import AgentProof.Platform.Creation

/-!
# Platform/Serializability — concurrent transactions, one after the other

READ COMMITTED promises little, and the transactions of `PostgresStore` ask for no more: any number
of them, of any operations and in any interleaving, do what they would do alone, one after the
other, as long as no `UPDATE` is late (`Tables.OnTime`) — that is, as long as `record_result` commits
to the row it checked.
-/

open Machinery Machinery.Prog

namespace AgentProof

open PlatformStore (storedEvent sortBySequenceNo)

/-! ## What stays -/

/-- A dictionary that has only grown has the entries it had. -/
theorem Dict.get?_of_prefix {κ α : Type} [DecidableEq κ] {k : κ} {v : α} :
    ∀ {d d' : Dict κ α}, d <+: d' → Dict.get? d k = some v → Dict.get? d' k = some v := by
  intro d
  induction d with
  | nil => exact fun _ hk => by cases hk
  | cons entry d ih =>
    rintro _ ⟨rest, rfl⟩ hk
    by_cases hkey : entry.1 = k
    · subst hkey
      rw [Dict.get?_cons_self] at hk
      rw [List.cons_append, Dict.get?_cons_self, hk]
    · rw [Dict.get?_cons_of_ne hkey] at hk
      rw [List.cons_append, Dict.get?_cons_of_ne hkey]
      exact ih ⟨rest, rfl⟩ hk

/-- What a command leaves of the tables: versions, runs and events are never changed, executions
stay there, and hashes stay distinct. -/
structure Tables.Grows (db db' : Tables) : Prop where
  versions : db.agentVersions <+: db'.agentVersions
  runs : db.evaluationRuns <+: db'.evaluationRuns
  executions : ∀ id, Dict.has db.taskExecutions id = true → Dict.has db'.taskExecutions id = true
  events : db.traceEvents <+: db'.traceEvents
  hashes : db.HashesNodup → db'.HashesNodup

/-- An `UPDATE` is on time if it finds the row as its session loaded it. -/
def Tables.OnTime : SessionCommand → Tables → Prop
  | .row (.commit executionId loaded _), db => Dict.get? db.taskExecutions executionId = some loaded
  | _, _ => True

namespace Tables

variable {db db' : Tables}

theorem Grows.refl (db : Tables) : Grows db db :=
  ⟨List.prefix_refl _, List.prefix_refl _, fun _ => id, List.prefix_refl _, id⟩

theorem Grows.trans {db'' : Tables} (h : Grows db db') (h' : Grows db' db'') : Grows db db'' where
  versions := h.versions.trans h'.versions
  runs := h.runs.trans h'.runs
  executions id hid := h'.executions id (h.executions id hid)
  events := h.events.trans h'.events
  hashes hnodup := h'.hashes (h.hashes hnodup)

/-- A version that is no conflict has a hash of its own. -/
theorem hashesNodup_set {row : AgentVersion} (h : db.HashesNodup) (hfree : ¬ db.VersionConflict row) :
    HashesNodup { db with agentVersions := Dict.set db.agentVersions row.id row } := by
  rw [VersionConflict, not_or, Bool.not_eq_true, Dict.has_eq_false_iff] at hfree
  rw [HashesNodup, versions, Dict.set_of_get?_eq_none hfree.1, List.map_append, List.map_append]
  refine List.nodup_append.mpr ⟨h, List.nodup_singleton _, ?_⟩
  intro contentHash hmem contentHash' hmem' heq
  obtain ⟨existing, hexisting, rfl⟩ := List.mem_map.mp hmem
  exact hfree.2 ⟨existing, hexisting, heq.trans (List.mem_singleton.mp hmem')⟩

/-- An entry under a free key is put at the end. -/
theorem prefix_set {α : Type} {d : Dict UUID α} {id : UUID} (h : ¬ Dict.has d id = true) (row : α) :
    d <+: Dict.set d id row := by
  rw [Bool.not_eq_true, Dict.has_eq_false_iff] at h
  rw [Dict.set_of_get?_eq_none h]
  exact List.prefix_append _ _

/-- **Every command lets the tables grow.** -/
theorem grows_handle (scan : Scan) (command : SessionCommand) (db : Tables) :
    Grows db (handle scan command db).2 := by
  have hrefl := Grows.refl db
  cases command with
  | insertVersion row =>
    rw [handle, commit]
    split_ifs with hconflict
    · exact hrefl
    · exact { hrefl with
        versions := prefix_set (fun hhas => hconflict (.inl hhas)) row
        hashes := fun hnodup => hashesNodup_set hnodup hconflict }
  | insertRun row =>
    rw [handle, commit]
    split_ifs with hconflict
    · exact hrefl
    · exact { hrefl with runs := prefix_set (fun hhas => hconflict (.inl hhas)) row }
  | insertExecution row =>
    rw [handle, commit]
    split_ifs
    · exact hrefl
    · exact { hrefl with executions := fun id hid => Dict.has_set hid _ _ }
  | insertEvent row =>
    rw [handle, commit]
    split_ifs with hconflict
    · exact hrefl
    · exact { hrefl with events := prefix_set (fun hhas => hconflict (.inl hhas)) row }
  | insertVerdict row =>
    rw [handle, commit]
    split_ifs
    · exact hrefl
    · exact { hrefl with }
  | row command =>
    cases command with
    | get id => exact hrefl
    | commit id loaded assigned =>
      have hgrows : Grows db { db with
          toDatabase := (Database.handle () (.commit id loaded assigned) db.toDatabase).2 } := by
        rw [Database.handle]
        split
        · exact hrefl
        · exact { hrefl with executions := fun id hid => Dict.has_set hid _ _ }
      exact hgrows
  | _ => exact hrefl

theorem growth : Growth handle Grows where
  refl := .refl
  trans := .trans
  handle := grows_handle

/-- A conflict stays one. -/
theorem VersionConflict.mono {row : AgentVersion} (h : db.VersionConflict row) (hgrows : Grows db db') :
    db'.VersionConflict row := by
  rcases h with hkey | ⟨existing, hmem, hhash⟩
  · obtain ⟨version, hversion⟩ := Dict.has_iff.mp hkey
    exact .inl (Dict.has_iff.mpr ⟨version, Dict.get?_of_prefix hgrows.versions hversion⟩)
  · exact .inr ⟨existing, (hgrows.versions.map Prod.snd).subset hmem, hhash⟩

theorem EventConflict.mono {row : TraceEvent} (h : db.EventConflict row)
    (hexecution : Dict.has db.taskExecutions row.executionId = true) (hgrows : Grows db db') :
    db'.EventConflict row := by
  rcases h with hkey | ⟨event, hmem, htaken⟩ | hmissing
  · obtain ⟨event, hevent⟩ := Dict.has_iff.mp hkey
    exact .inl (Dict.has_iff.mpr ⟨event, Dict.get?_of_prefix hgrows.events hevent⟩)
  · exact .inr (.inl ⟨event, (hgrows.events.map Prod.snd).subset hmem, htaken⟩)
  · rw [hexecution] at hmissing
    cases hmissing

/-- A version that is a conflict is refused. -/
theorem handle_insertVersion_of_conflict {row : AgentVersion} (h : db.VersionConflict row)
    (scan : Scan) :
    handle scan (.insertVersion row) db = (.error (integrityError "agent_versions"), db) := by
  rw [handle, commit, if_pos h]

/-- An event that is a conflict is refused. -/
theorem handle_insertEvent_of_conflict {row : TraceEvent} (h : db.EventConflict row) (scan : Scan) :
    handle scan (.insertEvent row) db = (.error (integrityError "trace_events"), db) := by
  rw [handle, commit, if_pos h]

end Tables

/-! ## The transactions -/

namespace PostgresStore

/-- The transaction, or what is left of it, is atomic. -/
abbrev IsAtomic {α : Type} (session rest : Session α) (db : Tables) : Prop :=
  Atomic Tables.handle Tables.Grows Tables.OnTime session rest db

variable {db : Tables}

theorem atomic_getAgentVersion (id : UUID) :
    IsAtomic (getAgentVersion id) (getAgentVersion id) db := by
  rw [IsAtomic, getAgentVersion, issue, perform_bind]
  refine .single fun scan db => ?_
  rw [Tables.handle]
  cases Dict.get? db.agentVersions id with
  | none => exact ⟨_, rfl⟩
  | some row => exact ⟨_, rfl⟩

theorem atomic_createRun (now : Timestamp) (newId : UUID) (payload : EvaluationRunCreate) :
    IsAtomic (createRun now newId payload) (createRun now newId payload) db := by
  rw [IsAtomic, createRun, issue, perform_bind]
  refine .check (fun db => .ok (Dict.get? db.agentVersions payload.agentVersionId))
    (fun _ _ => rfl) fun db hgrows => ?_
  cases hread : Dict.get? db.agentVersions payload.agentVersionId with
  | none => exact .inl ⟨_, rfl⟩
  | some version =>
    refine .inr ⟨_, _, rfl, fun scan db => ?_, fun db' hgrows' _ => ?_⟩
    · rcases (Tables.handle scan _ db).1 with e | _ <;> exact ⟨_, rfl⟩
    · rw [Dict.get?_of_prefix hgrows'.versions hread]

theorem atomic_createExecution (now : Timestamp) (newId runId : UUID)
    (payload : TaskExecutionCreate) :
    IsAtomic (createExecution now newId runId payload) (createExecution now newId runId payload)
      db := by
  rw [IsAtomic, createExecution, issue, perform_bind]
  refine .check (fun db => .ok (Dict.get? db.evaluationRuns runId)) (fun _ _ => rfl)
    fun db hgrows => ?_
  cases hread : Dict.get? db.evaluationRuns runId with
  | none => exact .inl ⟨_, rfl⟩
  | some run =>
    refine .inr ⟨_, _, rfl, fun scan db => ?_, fun db' hgrows' _ => ?_⟩
    · rcases (Tables.handle scan _ db).1 with e | _ <;> exact ⟨_, rfl⟩
    · rw [Dict.get?_of_prefix hgrows'.runs hread]

theorem atomic_getRunExecutions (runId : UUID) :
    IsAtomic (getRunExecutions runId) (getRunExecutions runId) db := by
  rw [IsAtomic, getRunExecutions, issue, perform_bind]
  refine .check (fun db => .ok (Dict.get? db.evaluationRuns runId)) (fun _ _ => rfl)
    fun db hgrows => ?_
  cases hread : Dict.get? db.evaluationRuns runId with
  | none => exact .inl ⟨_, rfl⟩
  | some run =>
    refine .inr ⟨_, _, rfl, fun scan db => ⟨_, rfl⟩, fun db' hgrows' _ => ?_⟩
    rw [Dict.get?_of_prefix hgrows'.runs hread]

/-! ### On an execution -/

/-- The operations on an execution find it first, and what they go on with does not depend on it. -/
theorem atomic_onExecution {α : Type} (id : UUID) {c : SessionCommand}
    {k : Except PyError c.Resp → Session α} (hlast : ∀ r, ∃ r', k r = .done r') :
    IsAtomic (issue (.row (.get id)) >>= fun row =>
        found "task execution not found" row >>= fun _ => .call c k)
      (issue (.row (.get id)) >>= fun row =>
        found "task execution not found" row >>= fun _ => .call c k) db := by
  rw [IsAtomic, issue, perform_bind]
  refine .check (fun db => .ok (Dict.get? db.taskExecutions id)) (fun _ _ => rfl)
    fun db hgrows => ?_
  cases hread : Dict.get? db.taskExecutions id with
  | none => exact .inl ⟨_, rfl⟩
  | some execution =>
    refine .inr ⟨c, k, rfl, fun scan db => hlast _, fun db' hgrows' _ => ?_⟩
    obtain ⟨execution', hread'⟩ :=
      Dict.has_iff.mp (hgrows'.executions id (Dict.has_iff.mpr ⟨execution, hread⟩))
    rw [hread']
    rfl

theorem atomic_getExecution (id : UUID) : IsAtomic (getExecution id) (getExecution id) db := by
  rw [IsAtomic, getExecution, issue, perform_bind]
  refine .single fun scan db => ?_
  change ∃ r, found "task execution not found" (Dict.get? db.taskExecutions id) = .done r
  cases Dict.get? db.taskExecutions id with
  | none => exact ⟨_, rfl⟩
  | some row => exact ⟨_, rfl⟩

theorem atomic_getTrace (id : UUID) : IsAtomic (getTrace id) (getTrace id) db :=
  atomic_onExecution id (k := .done) fun r => ⟨r, rfl⟩

theorem atomic_getJudgeVerdicts (id : UUID) :
    IsAtomic (getJudgeVerdicts id) (getJudgeVerdicts id) db :=
  atomic_onExecution id (k := .done) fun r => ⟨r, rfl⟩

theorem atomic_appendJudgeVerdict (now : Timestamp) (newId id : UUID)
    (payload : JudgeVerdictCreate) :
    IsAtomic (appendJudgeVerdict now newId id payload) (appendJudgeVerdict now newId id payload)
      db := by
  refine atomic_onExecution id (c := .insertVerdict (payload.verdict newId id now)) fun r => ?_
  rcases r with e | _ <;> exact ⟨_, rfl⟩

/-- A session that loaded a row, from its `UPDATE` on. -/
def updateRow (id : UUID) (row assigned : TaskExecution) : Session TaskExecution :=
  .call (.row (.commit id row assigned)) fun
    | .error e => .done (.error e)
    | .ok () => .done (.ok assigned)

/-- What `record_result` goes on with, in a session of all tables. -/
theorem recordResultRow_eq (now : Timestamp) (id : UUID) (payload : TaskExecutionResult) :
    recordResultRow now id payload =
      .call (.row (.get id)) fun
        | .error e => .done (.error e)
        | .ok none => .done (.error (.httpException 404 "task execution not found"))
        | .ok (some row) =>
          if row.status.terminal then .done (.error alreadyFinalized)
          else updateRow id row (row.finalize payload now) := by
  rw [recordResultRow, recordResult_eq, embed]
  congr 1
  funext r
  rcases r with e | _ | row
  · rfl
  · rfl
  · dsimp only [Except.map]
    split_ifs
    · rfl
    · rw [commitResult, perform_bind, embed, updateRow]
      congr 1
      funext r
      rcases r with e | _ <;> rfl

/-- **`record_result` is atomic where its `UPDATE` is on time.** -/
theorem atomic_recordResultRow (now : Timestamp) (id : UUID) (payload : TaskExecutionResult) :
    IsAtomic (recordResultRow now id payload) (recordResultRow now id payload) db := by
  rw [IsAtomic, recordResultRow_eq]
  refine .check (fun db => .ok (Dict.get? db.taskExecutions id)) (fun _ _ => rfl)
    fun db hgrows => ?_
  cases hread : Dict.get? db.taskExecutions id with
  | none => exact .inl ⟨_, rfl⟩
  | some row =>
    by_cases hterminal : row.status.terminal = true
    · exact .inl ⟨_, if_pos hterminal⟩
    · refine .inr ⟨_, _, if_neg hterminal, fun scan db => ?_, fun db' _ htimely => ?_⟩
      · rcases (Tables.handle scan _ db).1 with e | _ <;> exact ⟨_, rfl⟩
      · -- the row is as it was loaded
        have hread' : Dict.get? db'.taskExecutions id = some row := htimely
        rw [hread']

/-! ### After a refused insert -/

/-- The insert of `append_trace_event`. -/
def insertTraceEvent (row : TraceEvent) : Session TraceEvent :=
  (issue (.insertEvent row)).andThen fun
    | .ok () => return row
    | .error e =>
      if e.className = "IntegrityError" then do
        issue .rollback
        lift (.error (.httpException 409 "duplicate trace sequence number"))
      else lift (.error e)

theorem appendTraceEvent_eq (now : Timestamp) (id : UUID) (payload : TraceEventCreate) :
    appendTraceEvent now id payload =
      .call (.row (.get id)) fun
        | .error e => .done (.error e)
        | .ok none => .done (.error (.httpException 404 "task execution not found"))
        | .ok (some _) => insertTraceEvent (storedEvent now id payload) := by
  rw [appendTraceEvent, issue, perform_bind]
  congr 1
  funext r
  rcases r with e | _ | row <;> rfl

/-- **`append_trace_event` is atomic**: a number or an id that is taken stays so. -/
theorem atomic_appendTraceEvent (now : Timestamp) (id : UUID) (payload : TraceEventCreate) :
    IsAtomic (appendTraceEvent now id payload) (appendTraceEvent now id payload) db := by
  have hfound : ∀ {db : Tables}, Dict.has db.taskExecutions id = true →
      Replays Tables.handle (appendTraceEvent now id payload)
        (insertTraceEvent (storedEvent now id payload)) db := by
    intro db hhas
    obtain ⟨execution, hread⟩ := Dict.has_iff.mp hhas
    have hhandle : Tables.handle default (.row (.get id)) db = (.ok (some execution), db) := by
      rw [← hread]
      rfl
    rw [appendTraceEvent_eq]
    exact .call hhandle
  rw [IsAtomic, appendTraceEvent_eq]
  refine .read (fun db => .ok (Dict.get? db.taskExecutions id)) (fun _ _ => rfl)
    fun db hgrows => ?_
  rw [← appendTraceEvent_eq]
  cases hread : Dict.get? db.taskExecutions id with
  | none => exact .inl ⟨_, rfl⟩
  | some execution =>
    have hhas := Dict.has_iff.mpr ⟨execution, hread⟩
    refine .inr fun db' hgrows' _ => ⟨hfound (hgrows'.executions id hhas), fun scan => ?_⟩
    by_cases hconflict : db'.EventConflict (storedEvent now id payload)
    · rw [Tables.handle_insertEvent_of_conflict hconflict]
      refine .inr ⟨rfl, .last (fun db'' hgrows'' _ => ?_) fun scan db => ⟨_, rfl⟩⟩
      have hhas' := hgrows'.executions id hhas
      exact (hfound (hgrows''.executions id hhas')).trans
        (.call (Tables.handle_insertEvent_of_conflict (hconflict.mono hhas' hgrows'') default))
    · refine .inl ⟨.ok (storedEvent now id payload), ?_⟩
      rw [Tables.handle, Tables.commit, if_neg hconflict]
      rfl

/-- An insert whose hash is taken ends with the row that took it. -/
theorem exec_insertVersion_of_taken {scans : ℕ → Scan} (hhashes : db.HashesNodup)
    {row existing : AgentVersion} (hmem : existing ∈ db.versions)
    (hhash : existing.contentHash = row.contentHash) :
    (insertVersion row).exec Tables.handle scans db = (.ok existing, db) := by
  rw [insertVersion_eq, exec_call, Tables.handle_insertVersion_of_taken hmem hhash]
  change (requery row.contentHash).exec _ _ _ = _
  rw [requery_eq, exec_call]
  change (lookupAgain row.contentHash).exec _ _ db = _
  rw [lookupAgain, exec_call]
  rcases Tables.handle_selectVersions hhashes (scans (0 + 1 + 1)) row.contentHash with
    ⟨-, hnone⟩ | ⟨found, hfound, heq, hhandle⟩
  · exact absurd hhash (hnone existing hmem)
  · obtain rfl := List.inj_on_of_nodup_map hhashes hfound hmem (heq.trans hhash.symm)
    rw [hhandle]
    rfl

/-- A session that stands before its second lookup is atomic. -/
theorem atomic_requery {session : Session AgentVersion} {contentHash : String}
    (h : ∀ db', Tables.Grows db db' → Replays Tables.handle session (requery contentHash) db') :
    IsAtomic session (requery contentHash) db := by
  rw [requery_eq] at h ⊢
  refine fun db' hgrows _ => ⟨h db' hgrows, fun scan => .inr ⟨rfl, ?_⟩⟩
  refine .last (fun db'' hgrows' _ => ?_) fun scan db => ?_
  · exact (h db'' (hgrows.trans hgrows')).trans (.call (w := default) (r := .ok ()) rfl)
  · rcases (Tables.handle scan _ db).1 with e | result <;> exact ⟨_, rfl⟩

/-- A session that stands before its insert is atomic: a conflict is there to stay. -/
theorem atomic_insertVersion {session : Session AgentVersion} {row : AgentVersion}
    (h : ∀ db', Tables.Grows db db' → Replays Tables.handle session (insertVersion row) db') :
    IsAtomic session (insertVersion row) db := by
  rw [insertVersion_eq] at h ⊢
  refine fun db' hgrows _ => ⟨h db' hgrows, fun scan => ?_⟩
  by_cases hconflict : db'.VersionConflict row
  · rw [Tables.handle_insertVersion_of_conflict hconflict]
    refine .inr ⟨rfl, atomic_requery fun db'' hgrows' => ?_⟩
    exact (h db'' (hgrows.trans hgrows')).trans
      (.call (Tables.handle_insertVersion_of_conflict (hconflict.mono hgrows') default))
  · refine .inl ⟨.ok row, ?_⟩
    rw [Tables.handle, Tables.commit, if_neg hconflict]

section

variable [Interpreter] [Sha256] (now : Timestamp) (newId : UUID) (payload : AgentVersionCreate)

/-- The lookup and the insert of `create_agent_version` do what the insert would do at once. -/
theorem replays_insertVersion (hhashes : db.HashesNodup) :
    Replays Tables.handle (createAgentVersion now newId payload)
      (insertVersion
        (payload.version (computeAgentVersionContentHash payload.content) newId now)) db := by
  rw [createAgentVersion_eq]
  rcases Tables.handle_selectVersions hhashes default
    (computeAgentVersionContentHash payload.content) with
    ⟨hhandle, -⟩ | ⟨existing, hmem, hhash, hhandle⟩
  · exact .call hhandle
  · intro scans
    refine ⟨fun _ => default, ?_⟩
    rw [exec_insertVersion_of_taken hhashes hmem hhash, exec_call, hhandle]
    rfl

/-- **`create_agent_version` is atomic.** -/
theorem atomic_createAgentVersion (hhashes : db.HashesNodup) :
    IsAtomic (createAgentVersion now newId payload) (createAgentVersion now newId payload) db := by
  have hinsert : ∀ db', Tables.Grows db db' → Replays Tables.handle
      (createAgentVersion now newId payload) _ db' := fun db' hgrows =>
    replays_insertVersion now newId payload (hgrows.hashes hhashes)
  rw [createAgentVersion_eq] at hinsert ⊢
  refine fun db' hgrows _ => ⟨.refl _ db', fun scan => ?_⟩
  rcases Tables.handle_selectVersions (hgrows.hashes hhashes) scan
    (computeAgentVersionContentHash payload.content) with
    ⟨hhandle, -⟩ | ⟨existing, -, -, hhandle⟩
  · rw [hhandle]
    exact .inr ⟨rfl, atomic_insertVersion fun db'' hgrows' => hinsert db'' (hgrows.trans hgrows')⟩
  · rw [hhandle]
    exact .inl ⟨.ok existing, rfl⟩

/-! ### Every operation -/

/-- **Every transaction is atomic.** -/
theorem atomic_transaction (hhashes : db.HashesNodup) (op : StoreOp) :
    IsAtomic (transaction now newId op) (transaction now newId op) db := by
  cases op with
  | createAgentVersion payload => exact (atomic_createAgentVersion now newId payload hhashes).map _
  | getAgentVersion id => exact (atomic_getAgentVersion id).map _
  | createRun payload => exact (atomic_createRun now newId payload).map _
  | createExecution runId payload => exact (atomic_createExecution now newId runId payload).map _
  | recordResult id payload => exact (atomic_recordResultRow now id payload).map _
  | appendTraceEvent id payload => exact (atomic_appendTraceEvent now id payload).map _
  | getExecution id => exact (atomic_getExecution id).map _
  | getRunExecutions runId => exact (atomic_getRunExecutions runId).map _
  | getTrace id => exact (atomic_getTrace id).map _
  | appendJudgeVerdict id payload => exact (atomic_appendJudgeVerdict now newId id payload).map _
  | getJudgeVerdicts id => exact (atomic_getJudgeVerdicts id).map _

end

end PostgresStore

end AgentProof
