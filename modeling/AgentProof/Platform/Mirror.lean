import AgentProof.Platform.Invariant
import AgentProof.Platform.Postgres

/-!
# Platform/Mirror — a database that holds what the in-memory store holds

Each store generates its own ids and reads its own clock.  `upTo` renames the ids of a record and
forgets its timestamps; two stores mirror each other when their records are the same up to it
(`Mirrors`), in whatever order the tables hold them.

One operation, carried out on both, is answered alike and leaves stores that mirror each other
(`Mirrors.corresponds`), unless it appends an event whose id is taken: that id is a primary key of
the table, and nothing in the in-memory store.
-/

open Machinery Machinery.Prog

namespace AgentProof

open PlatformStore (storedEvent sortBySequenceNo)

/-! ## Up to generated ids and timestamps -/

section UpTo

variable (σ : UUID → UUID)

def AgentVersion.upTo (version : AgentVersion) : AgentVersion :=
  { version with id := σ version.id, createdAt := 0 }

def EvaluationRun.upTo (run : EvaluationRun) : EvaluationRun :=
  { run with
    id := σ run.id
    agentVersionId := σ run.agentVersionId
    createdAt := 0
    finishedAt := run.finishedAt.map fun _ => 0 }

def TaskExecution.upTo (execution : TaskExecution) : TaskExecution :=
  { execution with
    id := σ execution.id
    runId := σ execution.runId
    createdAt := 0
    finishedAt := execution.finishedAt.map fun _ => 0 }

/-- The id of an event is the client's. -/
def TraceEvent.upTo (event : TraceEvent) : TraceEvent :=
  { event with executionId := σ event.executionId, createdAt := 0 }

def JudgeVerdict.upTo (verdict : JudgeVerdict) : JudgeVerdict :=
  { verdict with id := σ verdict.id, executionId := σ verdict.executionId, createdAt := 0 }

/-- A record of the one store is a record of the other; lists hold the same records, and a trace
holds them in the same order. -/
def StoreReply.Alike : StoreReply → StoreReply → Prop
  | .version a, .version b => a.upTo σ = b.upTo id
  | .run a, .run b => a.upTo σ = b.upTo id
  | .execution a, .execution b => a.upTo σ = b.upTo id
  | .event a, .event b => a.upTo σ = b.upTo id
  | .executions as, .executions bs =>
    (as.map (TaskExecution.upTo σ)).Perm (bs.map (TaskExecution.upTo id))
  | .trace as, .trace bs => as.map (TraceEvent.upTo σ) = bs.map (TraceEvent.upTo id)
  | .verdict a, .verdict b => a.upTo σ = b.upTo id
  | .verdicts as, .verdicts bs =>
    (as.map (JudgeVerdict.upTo σ)).Perm (bs.map (JudgeVerdict.upTo id))
  | _, _ => False

/-- **The same outcome**: the same HTTP error status, or success with the same record. -/
def SameOutcome : Except PyError StoreReply → Except PyError StoreReply → Prop
  | .ok reply, .ok reply' => reply.Alike σ reply'
  | .error (.httpException statusCode _), .error (.httpException statusCode' _) =>
    statusCode = statusCode'
  | _, _ => False

def EvaluationRunCreate.rename (payload : EvaluationRunCreate) : EvaluationRunCreate :=
  { payload with agentVersionId := σ payload.agentVersionId }

/-- The operation of a client that got its ids from the other store. -/
def StoreOp.rename : StoreOp → StoreOp
  | .createAgentVersion payload => .createAgentVersion payload
  | .getAgentVersion id => .getAgentVersion (σ id)
  | .createRun payload => .createRun (payload.rename σ)
  | .createExecution runId payload => .createExecution (σ runId) payload
  | .recordResult id payload => .recordResult (σ id) payload
  | .appendTraceEvent id payload => .appendTraceEvent (σ id) payload
  | .getExecution id => .getExecution (σ id)
  | .getRunExecutions runId => .getRunExecutions (σ runId)
  | .getTrace id => .getTrace (σ id)
  | .appendJudgeVerdict id payload => .appendJudgeVerdict (σ id) payload
  | .getJudgeVerdicts id => .getJudgeVerdicts (σ id)

end UpTo

/-- Some event of the store has the id. -/
def PlatformStore.HasEvent (store : PlatformStore) (eventId : UUID) : Prop :=
  ∃ id ∈ store.eventsByExecution.map Prod.fst, ∃ event ∈ store.events id, event.id = eventId

instance (store : PlatformStore) (eventId : UUID) : Decidable (store.HasEvent eventId) :=
  inferInstanceAs (Decidable (∃ _ ∈ _, ∃ _ ∈ _, _))

/-- The operation appends an event to an execution that exists, at a number that is free, and the id
of the event is that of a stored one. -/
def PlatformStore.ReusesEventId (store : PlatformStore) : StoreOp → Prop
  | .appendTraceEvent id payload =>
    Dict.has store.executions id = true ∧
      (∀ event ∈ store.events id, event.sequenceNo ≠ payload.sequenceNo) ∧
      store.HasEvent payload.id
  | _ => False

instance (store : PlatformStore) : ∀ op, Decidable (store.ReusesEventId op)
  | .appendTraceEvent _ _ => inferInstanceAs (Decidable (_ ∧ _ ∧ _))
  | .createAgentVersion _ | .getAgentVersion _ | .createRun _ | .createExecution _ _
  | .recordResult _ _ | .getExecution _ | .getRunExecutions _ | .getTrace _
  | .appendJudgeVerdict _ _ | .getJudgeVerdicts _ => inferInstanceAs (Decidable False)

/-! ## Stores that mirror each other -/

/-- **The database holds what the in-memory store holds**, up to generated ids and timestamps. -/
structure Mirrors (σ : UUID → UUID) (store : PlatformStore) (db : Tables) : Prop where
  versions : Dict.Alike σ (fun version row => version.upTo σ = row.upTo id) store.agentVersions
    db.agentVersions
  runs : Dict.Alike σ (fun run row => run.upTo σ = row.upTo id) store.runs db.evaluationRuns
  executions : Dict.Alike σ (fun execution row => execution.upTo σ = row.upTo id) store.executions
    db.taskExecutions
  events : Dict.Owned σ (fun row => row.executionId) (TraceEvent.upTo σ) (TraceEvent.upTo id)
    store.eventsByExecution db.traceEvents
  verdicts : Dict.Owned σ (fun row => row.executionId) (JudgeVerdict.upTo σ) (JudgeVerdict.upTo id)
    store.verdictsByExecution db.judgeVerdicts
  event_keys : ∀ entry ∈ db.traceEvents, entry.2.id = entry.1
  verdict_keys : ∀ entry ∈ db.judgeVerdicts, entry.2.id = entry.1

/-- What the two stores return and leave. -/
def Corresponds (σ : UUID → UUID) (memory : Except PyError StoreReply × PlatformStore)
    (database : Except PyError StoreReply × Tables) : Prop :=
  SameOutcome σ memory.1 database.1 ∧ Mirrors σ memory.2 database.2

/-- The ids of the stored verdicts are generated ids. -/
theorem PlatformStore.verdict_mem_ids {store : PlatformStore} {executionId : UUID}
    {verdict : JudgeVerdict} (hmem : verdict ∈ store.verdicts executionId) :
    verdict.id ∈ store.ids := by
  rw [verdicts] at hmem
  cases hread : Dict.get? store.verdictsByExecution executionId with
  | none => simp [hread] at hmem
  | some verdicts =>
    rw [hread, Option.getD_some] at hmem
    have hitem : verdict ∈ store.verdictsByExecution.flatMap Prod.snd :=
      List.mem_flatMap.mpr ⟨_, Dict.mem_of_get?_eq_some hread, hmem⟩
    exact List.mem_append_right _ (List.mem_map.mpr ⟨verdict, hitem, rfl⟩)

namespace Mirrors

variable [Interpreter] [Sha256] {σ : UUID → UUID} {store : PlatformStore} {db : Tables}
  {now now' : Timestamp} {newId : UUID}
  {scans : ℕ → Scan}

omit [Interpreter] [Sha256] in
theorem empty : Mirrors σ {} {} where
  versions := .nil
  runs := .nil
  executions := .nil
  events := .nil
  verdicts := .nil
  event_keys := by simp
  verdict_keys := by simp

/-! ### What is there -/

omit [Interpreter] [Sha256] in
/-- An execution is missing in both, or there in both. -/
theorem execution_cases (h : Mirrors σ store db) (hσ : Function.Injective σ) (executionId : UUID) :
    store.getExecution executionId = .error (.httpException 404 "task execution not found") ∧
        Dict.get? db.taskExecutions (σ executionId) = none ∨
      ∃ execution row, store.getExecution executionId = .ok execution ∧
        Dict.get? db.taskExecutions (σ executionId) = some row ∧ execution.upTo σ = row.upTo id := by
  rcases h.executions.get?_cases hσ executionId with
    ⟨hnone, hnone'⟩ | ⟨execution, row, hread, hread', heq⟩
  · refine .inl ⟨?_, hnone'⟩
    rw [PlatformStore.getExecution, hnone]
  · exact .inr ⟨execution, row, PlatformStore.getExecution_eq_ok_iff.mpr hread, hread', heq⟩

theorem getAgentVersion (h : Mirrors σ store db) (hσ : Function.Injective σ) (id : UUID) :
    Corresponds σ (store.perform now newId (.getAgentVersion id))
      ((PostgresStore.transaction now' (σ newId) (.getAgentVersion (σ id))).exec Tables.handle
        scans db) := by
  rw [PostgresStore.transaction, exec_map, PostgresStore.getAgentVersion,
    PostgresStore.exec_getVersion, PlatformStore.perform, PlatformStore.getAgentVersion]
  rcases h.versions.get?_cases hσ id with ⟨hnone, hnone'⟩ | ⟨version, row, hread, hread', heq⟩
  · rw [hnone, hnone']
    exact ⟨rfl, h⟩
  · rw [hread, hread']
    exact ⟨heq, h⟩

theorem getExecution (h : Mirrors σ store db) (hσ : Function.Injective σ) (id : UUID) :
    Corresponds σ (store.perform now newId (.getExecution id))
      ((PostgresStore.transaction now' (σ newId) (.getExecution (σ id))).exec Tables.handle
        scans db) := by
  rw [PostgresStore.transaction, exec_map, PostgresStore.getExecution,
    PostgresStore.exec_getExecution, PlatformStore.perform]
  rcases h.execution_cases hσ id with ⟨hnone, hnone'⟩ | ⟨version, row, hread, hread', heq⟩
  · rw [hnone, hnone']
    exact ⟨rfl, h⟩
  · rw [hread, hread']
    exact ⟨heq, h⟩

theorem createRun (h : Mirrors σ store db) (hσ : Function.Injective σ) (hfresh : newId ∉ store.ids)
    (payload : EvaluationRunCreate) :
    Corresponds σ (store.perform now newId (.createRun payload))
      ((PostgresStore.transaction now' (σ newId) (.createRun (payload.rename σ))).exec Tables.handle
        scans db) := by
  rw [PostgresStore.transaction, exec_map, PostgresStore.createRun, PostgresStore.exec_getVersion]
  simp only [PlatformStore.perform, PlatformStore.createRun]
  rcases h.versions.get?_cases hσ payload.agentVersionId with
    ⟨hnone, hnone'⟩ | ⟨version, row, hread, hread', -⟩
  · have hnone' : Dict.get? db.agentVersions (payload.rename σ).agentVersionId = none := hnone'
    rw [hnone', PostgresStore.found_none_bind, if_neg (by simp [Dict.has, hnone])]
    exact ⟨rfl, h⟩
  · have hread' : Dict.get? db.agentVersions (payload.rename σ).agentVersionId = some row := hread'
    have hfree : ¬ db.RunConflict ((payload.rename σ).run (σ newId) now') := by
      rintro (hkey | hparent)
      · have halike := h.runs.has hσ newId
        rw [Dict.has, (PlatformStore.get?_of_fresh hfresh).2.1] at halike
        exact absurd (halike.trans hkey) (by simp)
      · rw [Dict.has_eq_false_iff] at hparent
        exact absurd (hread'.symm.trans hparent) (by simp)
    rw [hread', PostgresStore.found_some_bind, PostgresStore.exec_insertRun hfree,
      if_pos (Dict.has_iff.mpr ⟨version, hread⟩)]
    exact ⟨rfl, { h with runs := h.runs.set hσ newId rfl }⟩

theorem createExecution (h : Mirrors σ store db) (hσ : Function.Injective σ)
    (hfresh : newId ∉ store.ids) (runId : UUID) (payload : TaskExecutionCreate) :
    Corresponds σ (store.perform now newId (.createExecution runId payload))
      ((PostgresStore.transaction now' (σ newId) (.createExecution (σ runId) payload)).exec
        Tables.handle scans db) := by
  rw [PostgresStore.transaction, exec_map, PostgresStore.createExecution, PostgresStore.exec_getRun]
  simp only [PlatformStore.perform, PlatformStore.createExecution]
  rcases h.runs.get?_cases hσ runId with ⟨hnone, hnone'⟩ | ⟨run, row, hread, hread', -⟩
  · rw [hnone', PostgresStore.found_none_bind, if_neg (by simp [Dict.has, hnone])]
    exact ⟨rfl, h⟩
  · have hfree : ¬ db.ExecutionConflict (payload.execution (σ newId) (σ runId) now') := by
      rintro (hkey | hparent)
      · have halike := h.executions.has hσ newId
        rw [Dict.has, (PlatformStore.get?_of_fresh hfresh).2.2] at halike
        exact absurd (halike.trans hkey) (by simp)
      · rw [Dict.has_eq_false_iff] at hparent
        exact absurd (hread'.symm.trans hparent) (by simp)
    rw [hread', PostgresStore.found_some_bind, PostgresStore.exec_insertExecution hfree,
      if_pos (Dict.has_iff.mpr ⟨run, hread⟩)]
    exact ⟨rfl, { h with executions := h.executions.set hσ newId rfl }⟩

omit [Interpreter] [Sha256] in
/-- Executions that are the same up to ids and timestamps take a result alike. -/
theorem finalize_upTo {execution row : TaskExecution} (h : execution.upTo σ = row.upTo id)
    (payload : TaskExecutionResult) :
    (execution.finalize payload now).upTo σ = (row.finalize payload now').upTo id :=
  congrArg (fun e : TaskExecution => e.finalize payload 0) h

theorem recordResult (h : Mirrors σ store db) (hσ : Function.Injective σ) (executionId : UUID)
    (payload : TaskExecutionResult) :
    Corresponds σ (store.perform now newId (.recordResult executionId payload))
      ((PostgresStore.transaction now' (σ newId) (.recordResult (σ executionId) payload)).exec
        Tables.handle scans db) := by
  rw [PostgresStore.transaction, exec_map, PostgresStore.exec_recordResultRow]
  simp only [PlatformStore.perform, PlatformStore.recordResult]
  rcases h.execution_cases hσ executionId with
    ⟨hnone, hnone'⟩ | ⟨execution, row, hread, hread', heq⟩
  · rw [hnone, hnone']
    exact ⟨rfl, h⟩
  · have hstatus : execution.status = row.status :=
      (congrArg TaskExecution.status heq :)
    rw [hread, hread']
    dsimp only
    rw [hstatus]
    split_ifs
    · exact ⟨rfl, h⟩
    · exact ⟨finalize_upTo heq payload,
        { h with executions := h.executions.set hσ executionId (finalize_upTo heq payload) }⟩

/-! ### Events and verdicts -/

omit [Interpreter] [Sha256] in
/-- A number is taken in both stores, or in neither. -/
theorem taken_iff (h : Mirrors σ store db) (executionId : UUID) (sequenceNo : ℕ) :
    (∃ event ∈ store.events executionId, event.sequenceNo = sequenceNo) ↔
      ∃ row ∈ db.events, row.executionId = σ executionId ∧ row.sequenceNo = sequenceNo := by
  constructor
  · rintro ⟨event, hmem, rfl⟩
    obtain ⟨entry, hentry, howner, heq⟩ := h.events.exists_row hmem
    exact ⟨entry.2, List.mem_map_of_mem hentry, howner,
      (congrArg (fun e : TraceEvent => e.sequenceNo) heq).symm⟩
  · rintro ⟨row, hmem, howner, rfl⟩
    have hrow : row.upTo id ∈ ((db.traceEvents.map Prod.snd).filter fun row =>
        row.executionId = σ executionId).map (TraceEvent.upTo id) :=
      List.mem_map_of_mem (List.mem_filter.mpr ⟨hmem, decide_eq_true howner⟩)
    obtain ⟨event, hevent, heq⟩ := List.mem_map.mp ((h.events.perm executionId).symm.subset hrow)
    exact ⟨event, hevent, (congrArg (fun e : TraceEvent => e.sequenceNo) heq :)⟩

omit [Interpreter] [Sha256] in
/-- **The keys of the table are the ids of the stored events.** -/
theorem has_event_iff (h : Mirrors σ store db) (eventId : UUID) :
    Dict.has db.traceEvents eventId = true ↔ store.HasEvent eventId := by
  rw [Dict.has_iff]
  constructor
  · rintro ⟨row, hread⟩
    have hentry := Dict.mem_of_get?_eq_some hread
    obtain ⟨executionId, -, event, hevent, heq⟩ := h.events.exists_item hentry
    have hkey : executionId ∈ store.eventsByExecution.map Prod.fst := by
      by_contra hnone
      rw [Dict.get?_eq_none_iff.mpr hnone] at hevent
      exact absurd hevent (by simp)
    have hid : event.id = row.id :=
      (congrArg (fun e : TraceEvent => e.id) heq :)
    exact ⟨executionId, hkey, event, hevent, hid.trans (h.event_keys _ hentry)⟩
  · rintro ⟨executionId, -, event, hevent, rfl⟩
    obtain ⟨entry, hentry, -, heq⟩ := h.events.exists_row hevent
    have hid : event.id = entry.2.id :=
      (congrArg (fun e : TraceEvent => e.id) heq :)
    rw [hid, h.event_keys entry hentry]
    exact Option.isSome_iff_exists.mp (Dict.get?_isSome_of_mem hentry)

omit [Interpreter] [Sha256] in
/-- An event conflicts in the database where its number is taken, or its id. -/
theorem eventConflict_iff (h : Mirrors σ store db) (now' : Timestamp) {executionId : UUID}
    {row : TaskExecution}
    (hread : Dict.get? db.taskExecutions (σ executionId) = some row) (payload : TraceEventCreate) :
    db.EventConflict (storedEvent now' (σ executionId) payload) ↔
      (∃ event ∈ store.events executionId, event.sequenceNo = payload.sequenceNo) ∨
        store.HasEvent payload.id := by
  have hparent : ¬ Dict.has db.taskExecutions (σ executionId) = false := by
    simp [Dict.has, hread]
  rw [h.taken_iff, ← h.has_event_iff, Tables.EventConflict, or_comm]
  exact or_congr_left (or_iff_left hparent)

theorem appendTraceEvent (h : Mirrors σ store db) (hσ : Function.Injective σ) (executionId : UUID)
    (payload : TraceEventCreate)
    (hnew : ¬ store.ReusesEventId (.appendTraceEvent executionId payload)) :
    Corresponds σ (store.perform now newId (.appendTraceEvent executionId payload))
      ((PostgresStore.transaction now' (σ newId) (.appendTraceEvent (σ executionId) payload)).exec
        Tables.handle scans db) := by
  rw [PostgresStore.transaction, exec_map]
  simp only [PlatformStore.perform, PlatformStore.appendTraceEvent]
  rcases h.execution_cases hσ executionId with
    ⟨hnone, hnone'⟩ | ⟨execution, row, hread, hread', -⟩
  · rw [PostgresStore.appendTraceEvent, PostgresStore.exec_getExecution, hnone, hnone']
    exact ⟨rfl, h⟩
  · have hconflict := h.eventConflict_iff now' hread' payload
    have hhas : Dict.has store.executions executionId = true :=
      Dict.has_iff.mpr ⟨execution, PlatformStore.getExecution_eq_ok_iff.mp hread⟩
    rw [hread]
    dsimp only
    split_ifs with htaken
    · obtain ⟨event, hmem, heq⟩ := List.any_eq_true.mp htaken
      rw [PostgresStore.exec_appendTraceEvent_of_conflict now' hread'
        (hconflict.mpr (.inl ⟨event, hmem, of_decide_eq_true heq⟩))]
      exact ⟨rfl, h⟩
    · have hfree : ¬ ∃ event ∈ store.events executionId,
          event.sequenceNo = payload.sequenceNo := by
        rintro ⟨event, hmem, heq⟩
        exact htaken (List.any_eq_true.mpr ⟨event, hmem, decide_eq_true heq⟩)
      have hunused : ¬ store.HasEvent payload.id := fun hused =>
        hnew ⟨hhas, fun event hmem heq => hfree ⟨event, hmem, heq⟩, hused⟩
      rw [PostgresStore.exec_appendTraceEvent_of_free now' hread'
        fun hc => (hconflict.mp hc).elim hfree hunused]
      have hkey : Dict.get? db.traceEvents payload.id = none := by
        rw [← Dict.has_eq_false_iff, ← Bool.not_eq_true, h.has_event_iff]
        exact hunused
      refine ⟨rfl, { h with events := ?_, event_keys := ?_ }⟩
      · exact h.events.insert hσ (List.perm_insertionSort _ _) hkey rfl rfl
      · intro entry hmem
        rcases Dict.mem_set hmem with rfl | hmem
        · rfl
        · exact h.event_keys entry hmem

/-- **An id that is taken tells the stores apart.** -/
theorem not_sameOutcome (h : Mirrors σ store db) (hσ : Function.Injective σ) {op : StoreOp}
    (hreuses : store.ReusesEventId op) :
    ¬ SameOutcome σ (store.perform now newId op).1
      ((PostgresStore.transaction now' (σ newId) (op.rename σ)).exec Tables.handle scans db).1 := by
  cases op with
  | appendTraceEvent executionId payload =>
    obtain ⟨hhas, hfree, hused⟩ := hreuses
    rw [StoreOp.rename, PostgresStore.transaction, exec_map]
    simp only [PlatformStore.perform, PlatformStore.appendTraceEvent]
    rcases h.execution_cases hσ executionId with ⟨hnone, -⟩ | ⟨execution, row, hread, hread', -⟩
    · obtain ⟨execution, hread⟩ := Dict.has_iff.mp hhas
      rw [PlatformStore.getExecution_eq_ok_iff.mpr hread] at hnone
      cases hnone
    · have hconflict := (h.eventConflict_iff now' hread' payload).mpr (.inr hused)
      have htaken : ¬ ((store.events executionId).any fun event =>
          event.sequenceNo = payload.sequenceNo) = true := fun htaken => by
        obtain ⟨event, hmem, heq⟩ := List.any_eq_true.mp htaken
        exact hfree event hmem (of_decide_eq_true heq)
      rw [hread, PostgresStore.exec_appendTraceEvent_of_conflict now' hread' hconflict]
      simp only [if_neg htaken]
      exact not_false
  | _ => exact hreuses.elim

/-! ### Lists -/

omit [Interpreter] [Sha256] in
/-- Lists that look the same have parts that look the same. -/
theorem perm_filter_map {α β γ : Type} {f : α → γ} {g : β → γ} {p : γ → Bool} {as : List α}
    {bs : List β} (h : (as.map f).Perm (bs.map g)) :
    ((as.filter fun a => p (f a)).map f).Perm ((bs.filter fun b => p (g b)).map g) := by
  have hfilter := h.filter p
  rwa [List.filter_map, List.filter_map] at hfilter

theorem getRunExecutions (h : Mirrors σ store db) (hσ : Function.Injective σ) (runId : UUID) :
    Corresponds σ (store.perform now newId (.getRunExecutions runId))
      ((PostgresStore.transaction now' (σ newId) (.getRunExecutions (σ runId))).exec Tables.handle
        scans db) := by
  rw [PostgresStore.transaction, exec_map, PostgresStore.getRunExecutions, PostgresStore.exec_getRun]
  simp only [PlatformStore.perform, PlatformStore.getRunExecutions]
  rcases h.runs.get?_cases hσ runId with ⟨hnone, hnone'⟩ | ⟨run, row, hread, hread', -⟩
  · rw [hnone', PostgresStore.found_none_bind, if_neg (by simp [Dict.has, hnone])]
    exact ⟨rfl, h⟩
  · rw [hread', PostgresStore.found_some_bind, if_pos (Dict.has_iff.mpr ⟨run, hread⟩)]
    have hperm := perm_filter_map (p := fun row => row.runId = σ runId)
      (List.Perm.of_eq h.executions.map_values)
    simp only [TaskExecution.upTo, hσ.eq_iff, id] at hperm
    exact ⟨hperm.trans ((Scan.rows_perm _ _).symm.map _), h⟩

omit [Interpreter] [Sha256] in
/-- **Events in increasing order are what the sorted rows are**, where they are the same records. -/
theorem eq_sortBySequenceNo_of_perm {events rows : List TraceEvent}
    (hevents : events.Pairwise fun a b => a.sequenceNo < b.sequenceNo)
    (hperm : (events.map (TraceEvent.upTo σ)).Perm (rows.map (TraceEvent.upTo id))) :
    events.map (TraceEvent.upTo σ) = (sortBySequenceNo rows).map (TraceEvent.upTo id) := by
  have hmapped : (events.map (TraceEvent.upTo σ)).Pairwise fun a b => a.sequenceNo < b.sequenceNo :=
    List.pairwise_map.mpr hevents
  have hdistinct : (rows.map (TraceEvent.upTo id)).Pairwise fun a b => a.sequenceNo ≠ b.sequenceNo :=
    hperm.pairwise (hmapped.imp fun {a b} => ne_of_lt) fun {a b} hab => Ne.symm hab
  rw [List.pairwise_map] at hdistinct
  have hsorted : ((sortBySequenceNo rows).map (TraceEvent.upTo id)).Pairwise
      fun a b => a.sequenceNo < b.sequenceNo :=
    List.pairwise_map.mpr (sortBySequenceNo_increasing hdistinct)
  refine List.Perm.eq_of_pairwise (fun a b _ _ hab hba => ?_) hmapped hsorted
    (hperm.trans ((List.perm_insertionSort _ _).symm.map _))
  exact absurd hab (lt_asymm hba)

theorem getTrace (h : Mirrors σ store db) (hstore : store.WellFormed) (hσ : Function.Injective σ)
    (executionId : UUID) :
    Corresponds σ (store.perform now newId (.getTrace executionId))
      ((PostgresStore.transaction now' (σ newId) (.getTrace (σ executionId))).exec Tables.handle
        scans db) := by
  rw [PostgresStore.transaction, exec_map, PostgresStore.getTrace, PostgresStore.exec_getExecution]
  simp only [PlatformStore.perform, PlatformStore.getTrace]
  rcases h.execution_cases hσ executionId with
    ⟨hnone, hnone'⟩ | ⟨execution, row, hread, hread', -⟩
  · rw [hnone, hnone']
    exact ⟨rfl, h⟩
  · rw [hread, hread', PostgresStore.found_some_bind]
    refine ⟨?_, { h with events := h.events.setDefault executionId }⟩
    exact eq_sortBySequenceNo_of_perm (isTrace_events hstore.events_trace executionId).increasing
      ((h.events.perm executionId).trans ((Scan.rows_perm _ _).symm.map _))

theorem appendJudgeVerdict (h : Mirrors σ store db) (hσ : Function.Injective σ)
    (hfresh : newId ∉ store.ids) (executionId : UUID) (payload : JudgeVerdictCreate) :
    Corresponds σ (store.perform now newId (.appendJudgeVerdict executionId payload))
      ((PostgresStore.transaction now' (σ newId) (.appendJudgeVerdict (σ executionId) payload)).exec
        Tables.handle scans db) := by
  rw [PostgresStore.transaction, exec_map, PostgresStore.appendJudgeVerdict,
    PostgresStore.exec_getExecution]
  simp only [PlatformStore.perform, PlatformStore.appendJudgeVerdict]
  rcases h.execution_cases hσ executionId with
    ⟨hnone, hnone'⟩ | ⟨execution, row, hread, hread', -⟩
  · rw [hnone, hnone']
    exact ⟨rfl, h⟩
  · have hkey : Dict.get? db.judgeVerdicts (σ newId) = none := by
      by_contra hsome
      obtain ⟨verdict, hverdict⟩ := Option.ne_none_iff_exists'.mp hsome
      have hentry := Dict.mem_of_get?_eq_some hverdict
      obtain ⟨k, -, item, hitem, heq⟩ := h.verdicts.exists_item hentry
      have hid : σ item.id = verdict.id := (congrArg (fun v : JudgeVerdict => v.id) heq :)
      obtain rfl := hσ (hid.trans (h.verdict_keys _ hentry))
      exact hfresh (PlatformStore.verdict_mem_ids hitem)
    have hfree : ¬ db.VerdictConflict (payload.verdict (σ newId) (σ executionId) now') := by
      rintro (htaken | hparent)
      · rw [Dict.has] at htaken
        exact absurd htaken (by simp [JudgeVerdictCreate.verdict, hkey])
      · rw [Dict.has_eq_false_iff] at hparent
        exact absurd (hread'.symm.trans hparent) (by simp)
    rw [hread, hread', PostgresStore.found_some_bind, PostgresStore.exec_insertVerdict hfree]
    refine ⟨rfl, { h with verdicts := ?_, verdict_keys := ?_ }⟩
    · exact h.verdicts.insert hσ (List.Perm.refl _) hkey rfl rfl
    · intro entry hmem
      rcases Dict.mem_set hmem with rfl | hmem
      · rfl
      · exact h.verdict_keys entry hmem

theorem getJudgeVerdicts (h : Mirrors σ store db) (hσ : Function.Injective σ) (executionId : UUID) :
    Corresponds σ (store.perform now newId (.getJudgeVerdicts executionId))
      ((PostgresStore.transaction now' (σ newId) (.getJudgeVerdicts (σ executionId))).exec
        Tables.handle scans db) := by
  rw [PostgresStore.transaction, exec_map, PostgresStore.getJudgeVerdicts,
    PostgresStore.exec_getExecution]
  simp only [PlatformStore.perform, PlatformStore.getJudgeVerdicts]
  rcases h.execution_cases hσ executionId with
    ⟨hnone, hnone'⟩ | ⟨execution, row, hread, hread', -⟩
  · rw [hnone, hnone']
    exact ⟨rfl, h⟩
  · rw [hread, hread', PostgresStore.found_some_bind]
    refine ⟨?_, { h with verdicts := h.verdicts.setDefault executionId }⟩
    exact (h.verdicts.perm executionId).trans ((Scan.rows_perm _ _).symm.map _)

/-! ### Versions -/

omit [Interpreter] [Sha256] in
/-- A stored version has a row. -/
theorem exists_row (h : Mirrors σ store db) {version : AgentVersion}
    (hmem : version ∈ store.versions) :
    ∃ row ∈ db.versions, version.upTo σ = row.upTo id ∧ version.contentHash = row.contentHash := by
  have hrow : version.upTo σ ∈ db.versions.map (AgentVersion.upTo id) :=
    h.versions.map_values.subst (List.mem_map_of_mem hmem)
  obtain ⟨row, hrow, heq⟩ := List.mem_map.mp hrow
  exact ⟨row, hrow, heq.symm, (congrArg AgentVersion.contentHash heq.symm :)⟩

omit [Interpreter] [Sha256] in
/-- The rows' hashes are those of the stored versions. -/
theorem map_contentHash (h : Mirrors σ store db) :
    (store.versions.map fun version => version.contentHash) =
      db.versions.map fun row => row.contentHash := by
  calc (store.versions.map fun version => version.contentHash)
      = (store.versions.map (AgentVersion.upTo σ)).map AgentVersion.contentHash := by
        rw [List.map_map]
        rfl
    _ = (db.versions.map (AgentVersion.upTo id)).map AgentVersion.contentHash :=
        congrArg (List.map AgentVersion.contentHash) h.versions.map_values
    _ = db.versions.map fun row => row.contentHash := by
        rw [List.map_map]
        rfl

theorem createAgentVersion (h : Mirrors σ store db) (hstore : store.WellFormed)
    (hσ : Function.Injective σ) (hfresh : newId ∉ store.ids) (payload : AgentVersionCreate) :
    Corresponds σ (store.perform now newId (.createAgentVersion payload))
      ((PostgresStore.transaction now' (σ newId) (.createAgentVersion payload)).exec Tables.handle
        scans db) := by
  rw [PostgresStore.transaction, exec_map, PostgresStore.createAgentVersion_eq, exec_call]
  simp only [PlatformStore.perform, PlatformStore.createAgentVersion]
  have hnodup : db.HashesNodup := h.map_contentHash.subst hstore.hashes_nodup
  have hselect := Tables.handle_selectVersions hnodup (scans 0)
    (computeAgentVersionContentHash payload.content)
  cases hfind : store.versions.find? fun existing =>
      existing.contentHash = computeAgentVersionContentHash payload.content with
  | some version =>
    have hhash : version.contentHash = computeAgentVersionContentHash payload.content := by
      simpa using List.find?_some hfind
    obtain ⟨row, hrow, heq, hrowHash⟩ := h.exists_row (List.mem_of_find?_eq_some hfind)
    rcases hselect with ⟨-, hnone⟩ | ⟨found, hmem, hfound, hhandle⟩
    · exact absurd (hrowHash.symm.trans hhash) (hnone row hrow)
    · rw [hhandle]
      have hsame : found = row := List.inj_on_of_nodup_map hnodup hmem hrow
        (hfound.trans (hhash.symm.trans hrowHash))
      subst hsame
      exact ⟨heq, h⟩
  | none =>
    rcases hselect with ⟨hhandle, hfree⟩ | ⟨row, hmem, hfound, -⟩
    · have hkey : Dict.get? db.agentVersions (σ newId) = none := by
        have halike := h.versions.has hσ newId
        rw [Dict.has, (PlatformStore.get?_of_fresh hfresh).1] at halike
        exact Dict.has_eq_false_iff.mp halike.symm
      rw [hhandle]
      simp only [scalarOneOrNone]
      rw [PostgresStore.exec_insertVersion hkey hfree]
      exact ⟨rfl, { h with versions := h.versions.set hσ newId rfl }⟩
    · have hmem : row.contentHash ∈ store.versions.map fun version => version.contentHash :=
        h.map_contentHash ▸ List.mem_map_of_mem hmem
      obtain ⟨version, hversion, heq⟩ := List.mem_map.mp hmem
      exact absurd (decide_eq_true (heq.trans hfound)) (List.find?_eq_none.mp hfind version hversion)

/-! ### Every operation -/

/-- **Step lemma**: an operation that takes no event id again is answered alike in both stores, and
leaves stores that mirror each other. -/
theorem corresponds (h : Mirrors σ store db) (hstore : store.WellFormed) (hσ : Function.Injective σ)
    (hfresh : newId ∉ store.ids) {op : StoreOp} (hnew : ¬ store.ReusesEventId op) :
    Corresponds σ (store.perform now newId op)
      ((PostgresStore.transaction now' (σ newId) (op.rename σ)).exec Tables.handle scans db) := by
  cases op with
  | createAgentVersion payload => exact h.createAgentVersion hstore hσ hfresh payload
  | getAgentVersion agentVersionId => exact h.getAgentVersion hσ agentVersionId
  | createRun payload => exact h.createRun hσ hfresh payload
  | createExecution runId payload => exact h.createExecution hσ hfresh runId payload
  | recordResult executionId payload => exact h.recordResult hσ executionId payload
  | appendTraceEvent executionId payload => exact h.appendTraceEvent hσ executionId payload hnew
  | getExecution executionId => exact h.getExecution hσ executionId
  | getRunExecutions runId => exact h.getRunExecutions hσ runId
  | getTrace executionId => exact h.getTrace hstore hσ executionId
  | appendJudgeVerdict executionId payload =>
    exact h.appendJudgeVerdict hσ hfresh executionId payload
  | getJudgeVerdicts executionId => exact h.getJudgeVerdicts hσ executionId

end Mirrors

end AgentProof
