import AgentProof.Machinery.Blocks
import AgentProof.Platform.Refinement
import AgentProof.Runner.Isolation
import AgentProof.Runner.Reproduction

/-!
# Runner/Serving — a worker's calls on the database

Each call a worker makes on its store is an operation of the protocol, and so a transaction of
`PostgresStore` (`PostgresStore.serve`).  Three things of a worker's program make it run on the
database as it does on the in-memory store:

* it goes on alike with answers that differ only in ids and times (`Attempt.tolerant`);
* it names its events by position, with ids of its own (`Attempt.names`);
* a transaction that updates a row has just loaded it (`PostgresStore.loads_serve`).
-/

open Machinery Machinery.Prog

namespace AgentProof

/-! ## Calls and operations -/

/-- The operation of the protocol that a call is. -/
def StoreCommand.op : StoreCommand → StoreOp
  | .getAgentVersion id => .getAgentVersion id
  | .appendTraceEvent id payload => .appendTraceEvent id payload
  | .recordResult id payload => .recordResult id payload
  | .appendJudgeVerdict id payload => .appendJudgeVerdict id payload

/-- What the call returns, as what the operation returns. -/
def StoreCommand.reply : (c : StoreCommand) → c.Resp → StoreReply
  | .getAgentVersion _ => .version
  | .appendTraceEvent _ _ => .event
  | .recordResult _ _ => .execution
  | .appendJudgeVerdict _ _ => .verdict

/-- A call of a worker, with the time it is made at and the id it is offered. -/
abbrev WorkerCall : Type := StoreCommand × (Timestamp × UUID)

namespace PostgresStore

/-- A worker's call on the database. -/
def serve : (c : WorkerCall) → Session c.1.Resp
  | (.getAgentVersion id, _) => getAgentVersion id
  | (.appendTraceEvent id payload, (now, _)) => appendTraceEvent now id payload
  | (.recordResult id payload, (now, _)) => recordResultRow now id payload
  | (.appendJudgeVerdict id payload, (now, newId)) => appendJudgeVerdict now newId id payload

theorem transaction_op [Interpreter] [Sha256] (c : StoreCommand) (now : Timestamp) (newId : UUID) :
    transaction now newId c.op = c.reply <$> serve (c, (now, newId)) := by
  cases c <;> rfl

/-- **A worker's call is atomic**, where updates are on time. -/
theorem atomic_serve (c : WorkerCall) (db : Tables) : IsAtomic (serve c) (serve c) db := by
  obtain ⟨c, now, newId⟩ := c
  cases c with
  | getAgentVersion id => exact atomic_getAgentVersion id
  | appendTraceEvent id payload => exact atomic_appendTraceEvent now id payload
  | recordResult id payload => exact atomic_recordResultRow now id payload
  | appendJudgeVerdict id payload => exact atomic_appendJudgeVerdict now newId id payload

end PostgresStore

theorem PlatformStore.perform_op [Interpreter] [Sha256] (store : PlatformStore) (c : StoreCommand)
    (now : Timestamp) (newId : UUID) :
    store.perform now newId c.op =
      ((store.answer now newId c).1.map c.reply, (store.answer now newId c).2) := by
  cases c <;> rfl

theorem StoreOp.rename_id (op : StoreOp) : op.rename id = op := by
  cases op <;> rfl

/-! ## Answers that are alike -/

/-- Two answers to a call are the same but for ids and times. -/
def StoreCommand.AlikeAnswers (c : StoreCommand) (r r' : c.Resp) : Prop :=
  (c.reply r).Alike id (c.reply r')

/-- Two outcomes of a call are alike: answers that are, or two exceptions. -/
inductive StoreCommand.AlikeOutcomes (c : StoreCommand) :
    Except PyError c.Resp → Except PyError c.Resp → Prop where
  | ok {r r' : c.Resp} (h : c.AlikeAnswers r r') : AlikeOutcomes c (.ok r) (.ok r')
  | error (e e' : PyError) : AlikeOutcomes c (.error e) (.error e')

/-- What the stores say of a call, without the operation around it. -/
theorem StoreCommand.AlikeOutcomes.of_sameOutcome {c : StoreCommand}
    {r r' : Except PyError c.Resp} (h : SameOutcome id (r.map c.reply) (r'.map c.reply)) :
    c.AlikeOutcomes r r' := by
  rcases r with e | r <;> rcases r' with e' | r'
  · exact .error e e'
  · cases e <;> exact h.elim
  · exact h.elim
  · exact .ok h

/-- A program that goes on alike with answers that are alike, and ends where a call raises. -/
inductive Tolerant : StoreProg Unit → Prop where
  | done (r : Except PyError Unit) : Tolerant (.done r)
  | call {c : StoreCommand} {k : Except PyError c.Resp → StoreProg Unit}
      (hok : ∀ r r', c.AlikeAnswers r r' → k (.ok r) = k (.ok r'))
      (herror : ∀ e, k (.error e) = .done (.error e)) (hnext : ∀ r, Tolerant (k (.ok r))) :
      Tolerant (.call c k)

namespace Tolerant

/-- Answered alike, it goes on alike, or ends with the exceptions. -/
theorem alike {c : StoreCommand} {k : Except PyError c.Resp → StoreProg Unit}
    (h : Tolerant (.call c k)) {r r' : Except PyError c.Resp} (halike : c.AlikeOutcomes r r') :
    k r' = k r ∨ ∃ e e', k r' = .done (.error e) ∧ k r = .done (.error e') := by
  cases h with
  | call hok herror =>
    cases halike with
    | ok hanswers => exact .inl (hok _ _ hanswers).symm
    | error e e' => exact .inr ⟨e', e, herror e', herror e⟩

/-- A call whose answer is not looked at. -/
theorem perform_bind {c : StoreCommand} {p : StoreProg Unit} (hp : Tolerant p) :
    Tolerant (perform c >>= fun _ => p) :=
  .call (fun _ _ _ => rfl) (fun _ => rfl) fun _ => hp

theorem lift_bind {α : Type} {r : Except PyError α} {f : α → StoreProg Unit}
    (hf : ∀ a, Tolerant (f a)) : Tolerant (Prog.lift r >>= f) := by
  cases r with
  | ok a => exact hf a
  | error e => exact .done _

/-- Whatever is left of the program is tolerant. -/
theorem answer {c : StoreCommand} {k : Except PyError c.Resp → StoreProg Unit}
    (h : Tolerant (.call c k)) (r : Except PyError c.Resp) : Tolerant (k r) := by
  cases h with
  | call _ herror hnext =>
    cases r with
    | ok r => exact hnext r
    | error e => exact (herror e).symm ▸ .done _

end Tolerant

theorem tolerant_appendTrace (executionId : UUID) {p : StoreProg Unit} (hp : Tolerant p)
    (events : List TraceEventCreate) : Tolerant (appendTrace executionId events >>= fun _ => p) := by
  induction events with
  | nil => exact hp
  | cons event events ih =>
    rw [appendTrace, bind_assoc]
    exact .perform_bind ih

theorem tolerant_appendVerdicts (executionId : UUID) (answers : List JudgeAnswer) :
    Tolerant (appendVerdicts executionId answers) := by
  induction answers with
  | nil => exact .done _
  | cons answer answers ih => exact .lift_bind fun payload => .perform_bind ih

section

variable [Interpreter] {host : Host} {version version' : AgentVersion}

/-! ### The version a worker is told -/

section

variable {σ : Type} {client : ModelClient σ}

omit [Interpreter] in
theorem completeWithRetries_congr (h : version.content = version'.content) (messages : Messages)
    (parentStepId : UUID) : ∀ remaining attempt,
      completeWithRetries host client version messages parentStepId remaining attempt =
        completeWithRetries host client version' messages parentStepId remaining attempt := by
  have hcomplete : complete client version messages = complete client version' messages := by
    have hmodel : version.model = version'.model := congrArg Content.model h
    have hconfig : version.config = version'.config := Json.obj.inj (congrArg Content.config h)
    funext s
    rw [complete, complete, hmodel, hconfig]
  intro remaining
  induction remaining with
  | zero =>
    intro attempt
    rw [completeWithRetries, completeWithRetries, hcomplete]
  | succ remaining ih =>
    intro attempt
    rw [completeWithRetries, completeWithRetries, hcomplete]
    simp only [ih]

theorem runRounds_congr (h : version.content = version'.content) (maxSteps maxModelRetries : ℕ) :
    ∀ remaining messages inputTokens outputTokens,
      runRounds host client version maxSteps maxModelRetries remaining messages inputTokens
        outputTokens =
      runRounds host client version' maxSteps maxModelRetries remaining messages inputTokens
        outputTokens := by
  have hmodel : version.model = version'.model := congrArg Content.model h
  intro remaining
  induction remaining with
  | zero => intros; rfl
  | succ remaining ih =>
    intro messages inputTokens outputTokens
    rw [runRounds, runRounds, hmodel]
    simp only [completeWithRetries_congr h, ih]

end

/-- **A run reads nothing of its version but the content.** -/
theorem runJob_congr (h : version.content = version'.content) (modelClient : Option ClientInstance)
    (task : BenchmarkTask) (executionId : UUID) :
    runJob host modelClient version task executionId =
      runJob host modelClient version' task executionId := by
  have hprompt : version.systemPrompt = version'.systemPrompt := congrArg Content.systemPrompt h
  have hmessages : initialMessages version task = initialMessages version' task := by
    rw [initialMessages, initialMessages, hprompt]
  simp only [runJob, runTask, hmessages, runRounds_congr h]

/-- **A worker goes on alike** with answers that are alike. -/
theorem Attempt.tolerant (registry : Dict String BenchmarkTask) (a : Attempt) :
    Tolerant (a.program registry) := by
  have hjudge : ∀ task result, Tolerant (judgeRun a.job.executionId task result a.judgeModel) := by
    intro task result
    cases a.judgeModel with
    | none => exact .done _
    | some model => exact .lift_bind fun answers => tolerant_appendVerdicts _ answers
  rw [program, processJob]
  split
  · exact .done _
  · refine .call (fun version version' halike => ?_) (fun _ => rfl) fun version =>
      .lift_bind fun result => .lift_bind fun events =>
        tolerant_appendTrace _ (.perform_bind (hjudge _ result)) events
    have hupTo : version.upTo id = version'.upTo id := halike
    have hcontent : (version.upTo id).content = (version'.upTo id).content := by rw [hupTo]
    change (Prog.lift (runJob _ _ version _ _) >>= _) = (Prog.lift (runJob _ _ version' _ _) >>= _)
    rw [runJob_congr (show version.content = version'.content from hcontent)]

end

section

variable [Interpreter]

/-! ## The names of events -/

/-- A call of the attempt is on its own execution, and an event that it appends is named by its
position. -/
def Attempt.Names (a : Attempt) : StoreCommand → Prop
  | .appendTraceEvent id payload =>
    id = a.job.executionId ∧ payload.id = a.host.stepId payload.sequenceNo
  | _ => True

omit [Interpreter] in
theorem names_appendTrace {a : Attempt} {events : List TraceEventCreate}
    (h : ∀ event ∈ events, event.id = a.host.stepId event.sequenceNo) :
    (appendTrace a.job.executionId events).Only a.Names := by
  induction events with
  | nil => exact .done _
  | cons event events ih =>
    obtain ⟨hevent, hevents⟩ := List.forall_mem_cons.mp h
    have hnames : a.Names (.appendTraceEvent a.job.executionId event) := ⟨rfl, hevent⟩
    exact .bind (.perform hnames) fun _ => ih hevents

omit [Interpreter] in
theorem names_appendVerdicts (a : Attempt) (answers : List JudgeAnswer) :
    (appendVerdicts a.job.executionId answers).Only a.Names := by
  induction answers with
  | nil => exact .done _
  | cons answer answers ih =>
    exact .bind (.lift _) fun payload => .bind (.perform trivial) fun _ => ih

/-- The events of a run are named by their positions. -/
theorem runJob_names {host : Host} {modelClient : Option ClientInstance} {version : AgentVersion}
    {task : BenchmarkTask} {executionId : UUID} {result : RunnerResult}
    (h : runJob host modelClient version task executionId = .ok result)
    {events : List TraceEventCreate} (hevents : result.trace.toStorage = .ok events) :
    ∀ event ∈ events, event.id = host.stepId event.sequenceNo := by
  have hreproduced : ∃ result', runJob host modelClient version task executionId = .ok result' ∧
      result.Reproduces host host result' :=
    runJob_reproduces (Q := fun _ => True) (fun _ _ => rfl) rfl
      ⟨fun _ => True, trivial, fun _ _ _ _ _ => ⟨trivial, fun _ _ => trivial⟩⟩ h
  obtain ⟨_, -, hreproduces⟩ := hreproduced
  obtain ⟨blueprint, hsteps, -⟩ := hreproduces.trace
  intro event hmem
  obtain ⟨step, hstep, hstored⟩ := (Raising.exists_of_forall₂
    (Raising.forall₂_of_mapM hevents)).2 event hmem
  rw [hsteps, Blueprint.stamp, List.mem_mapIdx] at hstep
  obtain ⟨n, hn, rfl⟩ := hstep
  rw [Trace.storedStep] at hstored
  obtain ⟨fields, -, hevent⟩ := Raising.except_bind_eq_ok.mp hstored
  obtain rfl := Except.ok.inj hevent
  rfl

/-- **A worker names its events by position**, with the ids of its machine. -/
theorem Attempt.names (registry : Dict String BenchmarkTask) (a : Attempt) :
    (a.program registry).Only a.Names := by
  have hjudge : ∀ task result, (judgeRun a.job.executionId task result a.judgeModel).Only
      a.Names := by
    intro task result
    cases a.judgeModel with
    | none => exact .done _
    | some model => exact .bind (.lift _) fun answers => names_appendVerdicts a answers
  rw [program, processJob]
  split
  · exact .done _
  · refine .bind (.perform trivial) fun version => ?_
    cases hrun : runJob a.host a.modelClient version _ a.job.executionId with
    | error e => exact .done _
    | ok result =>
      rw [lift_ok_bind]
      cases hevents : result.trace.toStorage with
      | error e => exact .done _
      | ok events =>
        rw [lift_ok_bind]
        exact .bind (names_appendTrace (runJob_names hrun hevents)) fun _ =>
          .bind (.perform trivial) fun _ => hjudge _ result

end

/-! ## Updates of a worker -/

namespace PostgresStore

/-- What the session issues next is on time. -/
def NextOnTime {α : Type} (db : Tables) (session : Session α) : Prop :=
  ∀ c k, session = .call c k → Tables.OnTime c db

/-- A session that updates a row only right after it loaded it. -/
inductive Loads {α : Type} : Session α → Prop where
  | done (r : Except PyError α) : Loads (.done r)
  | call {c : SessionCommand} {k : Except PyError c.Resp → Session α}
      (hnext : ∀ scan db, NextOnTime (Tables.handle scan c db).2 (k (Tables.handle scan c db).1))
      (hk : ∀ r, Loads (k r)) : Loads (.call c k)

section

variable {α β : Type}

theorem nextOnTime_of_noUpdate {p : Session α} (h : p.Only SessionCommand.NoUpdate) (db : Tables) :
    NextOnTime db p := by
  rintro c k rfl
  cases h with
  | call hc _ => exact Tables.onTime_of_noUpdate hc db

/-- A session that updates nothing. -/
theorem Loads.of_noUpdate {p : Session α} (h : p.Only SessionCommand.NoUpdate) : Loads p := by
  induction h with
  | done r => exact .done r
  | call _ hk ih => exact .call (fun _ db => nextOnTime_of_noUpdate (hk _) _) ih

theorem NextOnTime.andThen {db : Tables} {p : Session α} {f : Except PyError α → Session β}
    (hp : NextOnTime db p) (hf : ∀ r, NextOnTime db (f r)) : NextOnTime db (p.andThen f) := by
  cases p with
  | done r => exact hf r
  | call c k =>
    intro c' k' heq
    cases heq
    exact hp c k rfl

theorem Loads.andThen {p : Session α} {f : Except PyError α → Session β} (hp : Loads p)
    (hf : ∀ r, Loads (f r)) (hnext : ∀ r db, NextOnTime db (f r)) : Loads (p.andThen f) := by
  induction hp with
  | done r => exact hf r
  | call hstep _ ih => exact .call (fun scan db => (hstep scan db).andThen fun r => hnext r _) ih

end

/-- The calls of a worker that update nothing. -/
theorem noUpdate_serve {c : WorkerCall} (h : ∀ id payload, c.1 ≠ .recordResult id payload) :
    (serve c).Only SessionCommand.NoUpdate := by
  obtain ⟨c, now, newId⟩ := c
  cases c with
  | getAgentVersion id => exact .bind (.perform trivial) fun row => noUpdate_found _ row
  | appendTraceEvent id payload =>
    exact noUpdate_lookup (c := .row (.get id)) trivial (fun row => row)
      (noUpdate_insertTraceEvent _)
  | recordResult id payload => exact absurd rfl (h id payload)
  | appendJudgeVerdict id payload =>
    exact noUpdate_lookup (c := .row (.get id)) trivial (fun row => row)
      (.bind (.perform trivial) fun _ => .done _)

/-- A command that updates at most the row that the call is to update. -/
def UpdatesFor (c : WorkerCall) (command : SessionCommand) : Prop :=
  ∀ id loaded assigned, command = .row (.commit id loaded assigned) →
    ∃ payload, c.1 = .recordResult id payload

/-- **Only `record_result` updates, and only its own row.** -/
theorem updatesFor_serve (c : WorkerCall) : (serve c).Only (UpdatesFor c) := by
  obtain ⟨c, now, newId⟩ := c
  cases c with
  | recordResult id payload =>
    rw [serve, recordResultRow_eq]
    refine .call (fun _ _ _ heq => by cases heq) fun r => ?_
    rcases r with e | _ | row
    · exact .done _
    · exact .done _
    · dsimp only
      split_ifs
      · exact .done _
      · refine .call (fun id' _ _ heq => ?_) fun r => ?_
        · cases heq
          exact ⟨payload, rfl⟩
        · rcases r with e | _ <;> exact .done _
  | _ =>
    refine (noUpdate_serve fun _ _ heq => by cases heq).mono ?_
    rintro command hno id loaded assigned rfl
    exact hno.elim

/-- A worker's call starts with no update. -/
theorem nextOnTime_serve (c : WorkerCall) (db : Tables) : NextOnTime db (serve c) := by
  obtain ⟨c, now, newId⟩ := c
  cases c with
  | recordResult id payload =>
    rw [serve, recordResultRow_eq]
    rintro c k heq
    cases heq
    trivial
  | _ => exact nextOnTime_of_noUpdate (noUpdate_serve fun _ _ heq => by cases heq) db

/-- **A worker's call updates what it has just loaded.** -/
theorem loads_serve (c : WorkerCall) : Loads (serve c) := by
  obtain ⟨c, now, newId⟩ := c
  cases c with
  | recordResult id payload =>
    rw [serve, recordResultRow_eq]
    refine .call (fun scan db => ?_) fun r => ?_
    · have hread : Tables.handle scan (.row (.get id)) db =
          (.ok (Dict.get? db.taskExecutions id), db) := rfl
      rw [hread]
      cases hrow : Dict.get? db.taskExecutions id with
      | none =>
        rintro c k heq
        cases heq
      | some row =>
        dsimp only
        split_ifs
        · rintro c k heq
          cases heq
        · rintro c k heq
          cases heq
          exact hrow
    · rcases r with e | _ | row
      · exact .done _
      · exact .done _
      · dsimp only
        split_ifs
        · exact .done _
        · refine .call (fun scan db => ?_) fun r => ?_
          · rcases (Tables.handle scan _ db).1 with e | _ <;> exact fun _ _ heq => by cases heq
          · rcases r with e | _ <;> exact .done _
  | _ => exact .of_noUpdate (noUpdate_serve fun _ _ heq => by cases heq)

/-- A program of calls starts with no update. -/
theorem nextOnTime_expand {α : Type} (p : Prog PyError WorkerCall (fun c => c.1.Resp) α)
    (db : Tables) : NextOnTime db (p.expand serve) := by
  cases p with
  | done r =>
    rintro c k heq
    cases heq
  | call c k =>
    obtain ⟨c', k', hserve⟩ : ∃ c' k', serve c = .call c' k' := by
      have hatomic := atomic_serve c db
      cases hserve : serve c with
      | call c' k' => exact ⟨c', k', rfl⟩
      | done r =>
        rw [hserve] at hatomic
        exact hatomic.elim
    have hnext := nextOnTime_serve c db
    rw [hserve] at hnext
    rw [expand, hserve]
    rintro _ _ heq
    cases heq
    exact hnext _ _ rfl

/-- **A program of calls updates only what it has just loaded.** -/
theorem loads_expand {α : Type} (p : Prog PyError WorkerCall (fun c => c.1.Resp) α) :
    Loads (p.expand serve) := by
  induction p with
  | done r => exact .done r
  | call c k ih => exact (loads_serve c).andThen ih fun r db => nextOnTime_expand _ db

end PostgresStore

end AgentProof
