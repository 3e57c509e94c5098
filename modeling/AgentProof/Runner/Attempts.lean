import AgentProof.Runner.Persistence
import AgentProof.Runner.Shape

/-!
# Runner/Attempts — attempts on one execution do not mix

Any number of attempts write one execution, each at its own pace and each stopping wherever the
store fails it.  Every attempt starts at sequence number `0` and gives up on its first refusal, so
the first attempt to store an event **owns** the execution: the others are refused at their first
write, and what is stored is a prefix of the owner's trace.
-/

open Machinery Machinery.Prog

namespace AgentProof

/-! ## Attempts -/

/-- What a delivery of a job is processed with. -/
structure Attempt where
  host : Host
  job : EvaluationJob
  modelClient : Option ClientInstance
  judgeModel : Option JudgeModel

/-- A run of an attempt, with the events it is stored as. -/
structure RunProduct where
  task : BenchmarkTask
  result : RunnerResult
  events : List TraceEventCreate

variable [Interpreter]

/-- The attempt as a program of store calls. -/
def Attempt.program (registry : Dict String BenchmarkTask) (a : Attempt) : StoreProg Unit :=
  processJob a.host registry a.job a.modelClient a.judgeModel

/-- The run the attempt makes, over these agent versions. -/
structure Attempt.Ran (registry : Dict String BenchmarkTask) (versions : Dict UUID AgentVersion)
    (a : Attempt) (p : RunProduct) : Prop where
  task : Dict.get? registry a.job.taskId = some p.task
  run : ∃ version, Dict.get? versions a.job.agentVersionId = some version ∧
    runJob a.host a.modelClient version p.task a.job.executionId = .ok p.result
  events : EventsOf p.result.trace p.events

namespace RunProduct

/-- The result that is recorded of the run. -/
def outcome (p : RunProduct) : TaskExecutionResult := (scoreExecution p.task p.result).1

/-- What is left to store once the first `k` events are. -/
def persistFrom (executionId : UUID) (judgeModel : Option JudgeModel) (p : RunProduct) (k : ℕ) :
    StoreProg Unit := do
  appendTrace executionId (p.events.drop k)
  let _ ← perform (StoreCommand.recordResult executionId p.outcome)
  judgeRun executionId p.task p.result judgeModel

variable (executionId : UUID) (judgeModel : Option JudgeModel) {p : RunProduct}

/-- The next call is the next event; a refusal ends the attempt. -/
theorem persistFrom_of_lt {k : ℕ} (hk : k < p.events.length) :
    ∃ next : Except PyError TraceEvent → StoreProg Unit,
      p.persistFrom executionId judgeModel k =
        .call (.appendTraceEvent executionId p.events[k]) next ∧
      (∀ event, next (.ok event) = p.persistFrom executionId judgeModel (k + 1)) ∧
      ∀ e, next (.error e) = .done (.error e) := by
  have hdrop := List.drop_eq_getElem_cons hk
  refine ⟨_, by rw [persistFrom, hdrop]; rfl, fun _ => rfl, fun _ => rfl⟩

/-- After the last event the result is recorded. -/
theorem persistFrom_length :
    ∃ next : Except PyError TaskExecution → StoreProg Unit,
      p.persistFrom executionId judgeModel p.events.length =
        .call (.recordResult executionId p.outcome) next ∧
      (∀ execution, next (.ok execution) = judgeRun executionId p.task p.result judgeModel) ∧
      ∀ e, next (.error e) = .done (.error e) := by
  refine ⟨_, by rw [persistFrom, List.drop_length]; rfl, fun _ => rfl, fun _ => rfl⟩

end RunProduct

/-! ## After the result is recorded -/

/-- A program whose only calls append verdicts. -/
inductive OnlyVerdicts : StoreProg Unit → Prop where
  | done (r : Except PyError Unit) : OnlyVerdicts (.done r)
  | call {executionId : UUID} {payload : JudgeVerdictCreate}
      {next : Except PyError JudgeVerdict → StoreProg Unit} (h : ∀ r, OnlyVerdicts (next r)) :
      OnlyVerdicts (.call (.appendJudgeVerdict executionId payload) next)

omit [Interpreter] in
theorem onlyVerdicts_appendVerdicts (executionId : UUID) (answers : List JudgeAnswer) :
    OnlyVerdicts (appendVerdicts executionId answers) := by
  induction answers with
  | nil => exact .done _
  | cons answer answers ih =>
    rw [appendVerdicts]
    cases answer.toCreate with
    | error e => exact .done _
    | ok payload =>
      refine .call fun r => ?_
      cases r with
      | ok _ => exact ih
      | error e => exact .done _

omit [Interpreter] in
theorem onlyVerdicts_judgeRun (executionId : UUID) (task : BenchmarkTask) (result : RunnerResult)
    (judgeModel : Option JudgeModel) : OnlyVerdicts (judgeRun executionId task result judgeModel) := by
  cases judgeModel with
  | none => exact .done _
  | some model =>
    rw [judgeRun]
    cases runJudges task result model with
    | error e => exact .done _
    | ok answers => exact onlyVerdicts_appendVerdicts executionId answers

omit [Interpreter] in
/-- A verdict leaves the trace and the record of every execution alone. -/
theorem PlatformStore.handle_appendJudgeVerdict (w : Circumstance) (id : UUID)
    (payload : JudgeVerdictCreate) (store : PlatformStore) (executionId : UUID) :
    (handle w (.appendJudgeVerdict id payload) store).2.events executionId =
        store.events executionId ∧
      (handle w (.appendJudgeVerdict id payload) store).2.getExecution executionId =
        store.getExecution executionId := by
  have hanswer : (store.answer w.now w.newId (.appendJudgeVerdict id payload)).2.events
        executionId = store.events executionId ∧
      (store.answer w.now w.newId (.appendJudgeVerdict id payload)).2.getExecution executionId =
        store.getExecution executionId := by
    simp only [answer, appendJudgeVerdict]
    cases store.getExecution id <;> exact ⟨rfl, rfl⟩
  rcases handle_cases w (.appendJudgeVerdict id payload) store with h | ⟨e, h | h⟩ <;> rw [h]
  · exact hanswer
  · exact ⟨rfl, rfl⟩
  · exact hanswer

omit [Interpreter] in
/-- Verdicts leave the trace and the record of every execution alone. -/
theorem OnlyVerdicts.exec {program : StoreProg Unit} (h : OnlyVerdicts program)
    (executionId : UUID) : ∀ (oracle : ℕ → Circumstance) (store : PlatformStore),
      (program.exec PlatformStore.handle oracle store).2.events executionId =
          store.events executionId ∧
        (program.exec PlatformStore.handle oracle store).2.getExecution executionId =
          store.getExecution executionId := by
  induction h with
  | done r => exact fun _ _ => ⟨rfl, rfl⟩
  | @call id payload next _ ih =>
    intro oracle store
    obtain ⟨hevents, hexecution⟩ :=
      PlatformStore.handle_appendJudgeVerdict (oracle 0) id payload store executionId
    obtain ⟨hevents', hexecution'⟩ := ih _ (fun n => oracle (n + 1)) _
    exact ⟨hevents'.trans hevents, hexecution'.trans hexecution⟩

/-! ## An attempt that has stored nothing -/

section

variable (registry : Dict String BenchmarkTask) (versions : Dict UUID AgentVersion)
  (executionId : UUID)

/-- An attempt none of whose writes took effect: it is where it began, about to store its first
event, or over. -/
def Attempt.Fresh (a : Attempt) (program : StoreProg Unit) : Prop :=
  program = a.program registry ∨
    (∃ p, a.Ran registry versions p ∧ program = p.persistFrom executionId a.judgeModel 0) ∨
    ∃ r, program = .done r

/-- An attempt that has stored the first `k` events of its run. -/
def Attempt.Writing (a : Attempt) (p : RunProduct) (k : ℕ) (program : StoreProg Unit) : Prop :=
  program = p.persistFrom executionId a.judgeModel k ∨ ∃ r, program = .done r

/-- What is stored of the trace of an execution: the first `k` events of a run. -/
def PlatformStore.Stores (store : PlatformStore) (p : RunProduct) (k : ℕ) : Prop :=
  (store.events executionId).map (·.toTraceEventCreate) = (p.events.take k).map (·.redacted)

end

variable {registry : Dict String BenchmarkTask} {versions : Dict UUID AgentVersion}
  {executionId : UUID}

/-- With its version read, an attempt has its run, or is over. -/
theorem Attempt.Fresh.of_version {a : Attempt} (hjob : a.job.executionId = executionId)
    {task : BenchmarkTask} (htask : Dict.get? registry a.job.taskId = some task)
    {version : AgentVersion} (hversion : Dict.get? versions a.job.agentVersionId = some version) :
    a.Fresh registry versions executionId (do
      let result ← Prog.lift (runJob a.host a.modelClient version task a.job.executionId)
      let events ← Prog.lift result.trace.toStorage
      persistRun a.job.executionId task result events a.judgeModel) := by
  cases hrun : runJob a.host a.modelClient version task a.job.executionId with
  | error e => exact .inr (.inr ⟨.error e, rfl⟩)
  | ok result =>
    obtain ⟨events, hevents⟩ := runJob_events hrun
    have hran : a.Ran registry versions ⟨task, result, events⟩ :=
      ⟨htask, ⟨version, hversion, hrun⟩, hevents⟩
    refine .inr (.inl ⟨_, hran, ?_⟩)
    rw [lift_ok_bind, hevents.toStorage, lift_ok_bind, hjob]
    rfl

/-- What an attempt does until it has a run: it reads its agent version. -/
theorem Attempt.Fresh.of_program {a : Attempt} (hjob : a.job.executionId = executionId)
    {store : PlatformStore} (hversions : store.agentVersions = versions) (w : Circumstance)
    {c : StoreCommand} {next : Except PyError c.Resp → StoreProg Unit}
    (h : a.program registry = .call c next) :
    (PlatformStore.handle w c store).2 = store ∧
      a.Fresh registry versions executionId (next (PlatformStore.handle w c store).1) := by
  rw [program, processJob] at h
  cases htask : Dict.get? registry a.job.taskId with
  | none => simp [htask] at h
  | some task =>
    simp only [htask, perform, Prog.call_bind] at h
    cases h
    refine ⟨?_, ?_⟩
    · rcases PlatformStore.handle_cases w (.getAgentVersion a.job.agentVersionId) store with
        h | ⟨e, h | h⟩ <;> rw [h] <;> rfl
    · cases hread : (PlatformStore.handle w (.getAgentVersion a.job.agentVersionId) store).1 with
      | error e => exact .inr (.inr ⟨.error e, rfl⟩)
      | ok version =>
        have hanswer := PlatformStore.handle_eq_ok hread
        rw [hanswer] at hread
        have hversion := PlatformStore.getAgentVersion_eq_ok hread
        rw [hversions] at hversion
        exact .of_version hjob htask hversion

/-! ## One write -/

omit [Interpreter] in
/-- What is stored of a run is numbered from `0`. -/
theorem PlatformStore.Stores.numbered {store : PlatformStore} {p : RunProduct} {k : ℕ}
    (h : store.Stores executionId p k) (hp : EventsOf p.result.trace p.events)
    (hk : k ≤ p.events.length) :
    (store.events executionId).length = k ∧
      (store.events executionId).map (·.sequenceNo) = List.range k := by
  have hlength : (store.events executionId).length = k := by
    have hmap := congrArg List.length h
    simp only [List.length_map, List.length_take] at hmap
    omega
  refine ⟨hlength, ?_⟩
  calc (store.events executionId).map (·.sequenceNo)
      = ((store.events executionId).map (·.toTraceEventCreate)).map (·.sequenceNo) := by
        rw [List.map_map]; rfl
    _ = (p.events.take k).map (·.sequenceNo) := by rw [h, List.map_map]; rfl
    _ = (List.range p.events.length).take k := by rw [← hp.numbered, List.map_take]
    _ = List.range k := by rw [List.take_range, min_eq_left hk]

omit [Interpreter] in
/-- Once an event of a run is stored, number `0` is taken. -/
theorem PlatformStore.Stores.taken {store : PlatformStore} {p : RunProduct} {k : ℕ}
    (h : store.Stores executionId p k) (hp : EventsOf p.result.trace p.events) (hpos : 1 ≤ k)
    (hk : k ≤ p.events.length) : ∃ event ∈ store.events executionId, event.sequenceNo = 0 := by
  obtain ⟨-, hnumbered⟩ := h.numbered hp hk
  have hzero : 0 ∈ (store.events executionId).map (·.sequenceNo) := by
    rw [hnumbered, List.mem_range]
    omega
  exact List.mem_map.mp hzero

omit [Interpreter] in
/-- A call that the store refuses changes nothing. -/
theorem PlatformStore.handle_of_refused (w : Circumstance) {c : StoreCommand}
    {store : PlatformStore} (h : ∃ e, store.answer w.now w.newId c = (.error e, store)) :
    ∃ e, handle w c store = (.error e, store) := by
  obtain ⟨e, he⟩ := h
  rcases handle_cases w c store with h | ⟨e', h | h⟩
  · exact ⟨e, h.trans he⟩
  · exact ⟨e', h⟩
  · exact ⟨e', by rw [h, he]⟩

omit [Interpreter] in
/-- The next event of a run is appended where the execution exists. -/
theorem PlatformStore.Stores.append {store : PlatformStore} {p : RunProduct} {k : ℕ}
    (h : store.Stores executionId p k) (hp : EventsOf p.result.trace p.events)
    (hk : k < p.events.length) {execution : TaskExecution}
    (hexecution : store.getExecution executionId = .ok execution) (now : Timestamp) :
    ∃ event store', store.appendTraceEvent now executionId p.events[k] = (.ok event, store') ∧
      store'.Stores executionId p (k + 1) ∧ store'.getExecution executionId = .ok execution := by
  obtain ⟨hlength, hnumbered⟩ := h.numbered hp hk.le
  have hnext : p.events[k].sequenceNo = (store.events executionId).length :=
    (hp.sequenceNo_getElem hk).trans hlength.symm
  refine ⟨_, _, appendTraceEvent_of_next now hexecution (by rw [hnumbered, hlength]) hnext, ?_,
    hexecution⟩
  simp only [Stores, events, Dict.get?_set_self, Option.getD_some, List.map_append, List.map_cons,
    List.map_nil]
  rw [Stores, events] at h
  rw [h, List.take_succ_eq_append_getElem hk, List.map_append]
  rfl

omit [Interpreter] in
/-- **The next event of a run**: it is stored at the end, or the store is as it was and the call
raised. -/
theorem PlatformStore.handle_next (w : Circumstance) {store : PlatformStore} {p : RunProduct}
    {k : ℕ} (hp : EventsOf p.result.trace p.events) (hstored : store.Stores executionId p k)
    (hk : k < p.events.length) :
    (∃ e, handle w (.appendTraceEvent executionId p.events[k]) store = (.error e, store)) ∨
      ((handle w (.appendTraceEvent executionId p.events[k]) store).2.Stores executionId p (k + 1) ∧
        (handle w (.appendTraceEvent executionId p.events[k]) store).2.getExecution executionId =
          store.getExecution executionId) := by
  cases hexecution : store.getExecution executionId with
  | error e =>
    exact .inl (handle_of_refused w ⟨e, by simp only [answer, appendTraceEvent, hexecution]⟩)
  | ok execution =>
    obtain ⟨event, store', happend, hstored', hexecution'⟩ := hstored.append hp hk hexecution w.now
    rcases handle_cases w (.appendTraceEvent executionId p.events[k]) store with h | ⟨e, h | h⟩
    · rw [h, answer, happend]
      exact .inr ⟨hstored', hexecution'⟩
    · exact .inl ⟨e, h⟩
    · rw [h, answer, happend]
      exact .inr ⟨hstored', hexecution'⟩

/-- **Where another attempt has stored its first event, a fresh one changes nothing.** -/
theorem Attempt.Fresh.of_taken {a : Attempt} (hjob : a.job.executionId = executionId)
    {store : PlatformStore} (hversions : store.agentVersions = versions)
    (htaken : ∃ event ∈ store.events executionId, event.sequenceNo = 0) (w : Circumstance)
    {c : StoreCommand} {next : Except PyError c.Resp → StoreProg Unit}
    (h : a.Fresh registry versions executionId (.call c next)) :
    (PlatformStore.handle w c store).2 = store ∧
      a.Fresh registry versions executionId (next (PlatformStore.handle w c store).1) := by
  rcases h with h | ⟨p, hran, h⟩ | ⟨r, h⟩
  · exact Attempt.Fresh.of_program hjob hversions w h.symm
  · have hpos : 0 < p.events.length := hran.events.length_pos
    obtain ⟨next', hnext, -, herror⟩ :=
      p.persistFrom_of_lt executionId a.judgeModel hpos
    rw [hnext] at h
    cases h
    have hno : p.events[0].sequenceNo = 0 := hran.events.sequenceNo_getElem hpos
    obtain ⟨event, hmem, hzero⟩ := htaken
    obtain ⟨e, he⟩ := PlatformStore.handle_of_refused
      (c := .appendTraceEvent executionId p.events[0]) w
      (PlatformStore.appendTraceEvent_of_taken w.now hmem (hzero.trans hno.symm))
    rw [he]
    exact ⟨rfl, .inr (.inr ⟨.error e, herror e⟩)⟩
  · exact absurd h (by simp)

/-- **A fresh attempt on an empty trace** stays fresh and changes nothing, or becomes the owner. -/
theorem Attempt.Fresh.of_empty {a : Attempt} (hjob : a.job.executionId = executionId)
    {store : PlatformStore} (hversions : store.agentVersions = versions)
    (hempty : store.events executionId = []) (w : Circumstance)
    {c : StoreCommand} {next : Except PyError c.Resp → StoreProg Unit}
    (h : a.Fresh registry versions executionId (.call c next)) :
    ((PlatformStore.handle w c store).2 = store ∧
      a.Fresh registry versions executionId (next (PlatformStore.handle w c store).1)) ∨
    ∃ p, a.Ran registry versions p ∧ (PlatformStore.handle w c store).2.Stores executionId p 1 ∧
      (PlatformStore.handle w c store).2.getExecution executionId =
        store.getExecution executionId ∧
      a.Writing executionId p 1 (next (PlatformStore.handle w c store).1) := by
  rcases h with h | ⟨p, hran, h⟩ | ⟨r, h⟩
  · exact .inl (Attempt.Fresh.of_program hjob hversions w h.symm)
  · have hpos : 0 < p.events.length := hran.events.length_pos
    obtain ⟨next', hnext, hok, herror⟩ :=
      p.persistFrom_of_lt executionId a.judgeModel hpos
    rw [hnext] at h
    cases h
    have hstored : store.Stores executionId p 0 := by rw [PlatformStore.Stores, hempty]; rfl
    rcases PlatformStore.handle_next w hran.events hstored hpos with ⟨e, he⟩ | ⟨hstored', hsame⟩
    · rw [he]
      exact .inl ⟨rfl, .inr (.inr ⟨.error e, herror e⟩)⟩
    · refine .inr ⟨p, hran, hstored', hsame, ?_⟩
      cases (PlatformStore.handle w (.appendTraceEvent executionId p.events[0]) store).1 with
      | ok event => exact .inl (hok event)
      | error e => exact .inr ⟨.error e, herror e⟩
  · exact absurd h (by simp)

omit [Interpreter] in
/-- The execution has the outcome of a run as its record, and nothing else of it changed. -/
def PlatformStore.Records (executionId : UUID) (initial store : PlatformStore) (p : RunProduct) :
    Prop :=
  ∃ original now, initial.getExecution executionId = .ok original ∧
    store.getExecution executionId = .ok (original.finalize p.outcome now)

/-- **The result of a run**: it is recorded, or the store is as it was and the call raised. -/
theorem PlatformStore.handle_outcome (w : Circumstance) {initial store : PlatformStore}
    (p : RunProduct)
    (hsame : store.getExecution executionId = initial.getExecution executionId) :
    (∃ e, handle w (.recordResult executionId p.outcome) store = (.error e, store)) ∨
      (Records executionId initial (handle w (.recordResult executionId p.outcome) store).2 p ∧
        (handle w (.recordResult executionId p.outcome) store).2.events executionId =
          store.events executionId) := by
  cases hexecution : store.getExecution executionId with
  | error e => exact .inl (handle_of_refused w ⟨e, by simp only [answer, recordResult, hexecution]⟩)
  | ok original =>
    cases hterminal : original.status.terminal with
    | true =>
      exact .inl (handle_of_refused w
        ⟨_, recordResult_of_terminal w.now p.outcome hexecution hterminal⟩)
    | false =>
      have hrecord := recordResult_of_open w.now p.outcome hexecution hterminal
      have hrecords : Records executionId initial
          (store.recordResult w.now executionId p.outcome).2 p := by
        refine ⟨original, w.now, hsame.symm.trans hexecution, ?_⟩
        simp only [hrecord, getExecution, Dict.get?_set_self]
      have hevents : (store.recordResult w.now executionId p.outcome).2.events executionId =
          store.events executionId := by rw [hrecord]; rfl
      rcases handle_cases w (.recordResult executionId p.outcome) store with h | ⟨e, h | h⟩
      · rw [h]
        exact .inr ⟨hrecords, hevents⟩
      · exact .inl ⟨e, h⟩
      · rw [h]
        exact .inr ⟨hrecords, hevents⟩

/-- **A step of the owner**: its call raised and nothing changed, or it stored its next event, or
it recorded its result. -/
theorem Attempt.Writing.step {a : Attempt} {initial store : PlatformStore} {p : RunProduct} {k : ℕ}
    (hp : EventsOf p.result.trace p.events) (hk : k ≤ p.events.length)
    (hstored : store.Stores executionId p k)
    (hsame : store.getExecution executionId = initial.getExecution executionId) (w : Circumstance)
    {c : StoreCommand} {next : Except PyError c.Resp → StoreProg Unit}
    (h : a.Writing executionId p k (.call c next)) :
    ((PlatformStore.handle w c store).2 = store ∧
        a.Writing executionId p k (next (PlatformStore.handle w c store).1)) ∨
      (k < p.events.length ∧ (PlatformStore.handle w c store).2.Stores executionId p (k + 1) ∧
        (PlatformStore.handle w c store).2.getExecution executionId =
          store.getExecution executionId ∧
        a.Writing executionId p (k + 1) (next (PlatformStore.handle w c store).1)) ∨
      (k = p.events.length ∧ (PlatformStore.handle w c store).2.Stores executionId p k ∧
        PlatformStore.Records executionId initial (PlatformStore.handle w c store).2 p ∧
        OnlyVerdicts (next (PlatformStore.handle w c store).1)) := by
  rcases h with h | ⟨r, h⟩
  · rcases hk.lt_or_eq with hlt | rfl
    · obtain ⟨next', hnext, hok, herror⟩ :=
        p.persistFrom_of_lt executionId a.judgeModel hlt
      rw [hnext] at h
      cases h
      rcases PlatformStore.handle_next w hp hstored hlt with ⟨e, he⟩ | ⟨hstored', hsame'⟩
      · rw [he]
        exact .inl ⟨rfl, .inr ⟨.error e, herror e⟩⟩
      · refine .inr (.inl ⟨hlt, hstored', hsame', ?_⟩)
        cases (PlatformStore.handle w (.appendTraceEvent executionId p.events[k]) store).1 with
        | ok event => exact .inl (hok event)
        | error e => exact .inr ⟨.error e, herror e⟩
    · obtain ⟨next', hnext, hok, herror⟩ :=
        p.persistFrom_length executionId a.judgeModel
      rw [hnext] at h
      cases h
      rcases PlatformStore.handle_outcome w p hsame with ⟨e, he⟩ | ⟨hrecords, hevents⟩
      · rw [he]
        exact .inl ⟨rfl, .inr ⟨.error e, herror e⟩⟩
      · refine .inr (.inr ⟨rfl, ?_, hrecords, ?_⟩)
        · rw [PlatformStore.Stores, hevents]
          exact hstored
        · cases (PlatformStore.handle w (.recordResult executionId p.outcome) store).1 with
          | ok execution =>
            have honly := onlyVerdicts_judgeRun executionId p.task p.result a.judgeModel
            rw [← hok execution] at honly
            exact honly
          | error e =>
            have honly := OnlyVerdicts.done (.error e)
            rw [← herror e] at honly
            exact honly
  · exact absurd h (by simp)

/-! ## The invariant -/

section

variable {ι : Type} (attempts : ι → Attempt) (initial : PlatformStore)

/-- Who owns the execution, and how far it is. -/
inductive Ownership (registry : Dict String BenchmarkTask) (executionId : UUID)
    (t : Threads PyError StoreCommand StoreCommand.Resp PlatformStore ι Unit) : Prop where
  | nobody (hempty : t.shared.events executionId = [])
      (hsame : t.shared.getExecution executionId = initial.getExecution executionId)
      (hfresh : ∀ i, (attempts i).Fresh registry initial.agentVersions executionId (t.thread i))
  | writing {i : ι} {p : RunProduct} {k : ℕ}
      (hran : (attempts i).Ran registry initial.agentVersions p)
      (hpos : 1 ≤ k) (hk : k ≤ p.events.length) (hstored : t.shared.Stores executionId p k)
      (hsame : t.shared.getExecution executionId = initial.getExecution executionId)
      (howner : (attempts i).Writing executionId p k (t.thread i))
      (hothers : ∀ j, j ≠ i →
        (attempts j).Fresh registry initial.agentVersions executionId (t.thread j))
  | recorded {i : ι} {p : RunProduct}
      (hran : (attempts i).Ran registry initial.agentVersions p)
      (hstored : t.shared.Stores executionId p p.events.length)
      (hrecords : PlatformStore.Records executionId initial t.shared p)
      (howner : OnlyVerdicts (t.thread i))
      (hothers : ∀ j, j ≠ i →
        (attempts j).Fresh registry initial.agentVersions executionId (t.thread j))

variable {attempts : ι → Attempt} {initial : PlatformStore} [DecidableEq ι]
  {t t' : Threads PyError StoreCommand StoreCommand.Resp PlatformStore ι Unit}

/-- What holds of every other thread holds of it still after thread `i` moved. -/
theorem fresh_advance {i i' : ι} {shared : PlatformStore} {program : StoreProg Unit}
    (h : ∀ j, j ≠ i → (attempts j).Fresh registry versions executionId (t.thread j))
    (hmoved : i' ≠ i → (attempts i').Fresh registry versions executionId program) :
    ∀ j, j ≠ i → (attempts j).Fresh registry versions executionId
      ((t.advance i' shared program).thread j) :=
  Threads.forall_advance (Q := fun j p => j ≠ i → (attempts j).Fresh registry versions executionId p)
    h hmoved

/-- **Step lemma**: every call of every attempt keeps the ownership of the execution. -/
theorem Ownership.step (hjobs : ∀ i, (attempts i).job.executionId = executionId)
    (hversions : t.shared.agentVersions = initial.agentVersions)
    (h : Ownership attempts initial registry executionId t)
    (hstep : Threads.Step PlatformStore.handle t t') :
    Ownership attempts initial registry executionId t' := by
  obtain @⟨i', c, next, hi', w⟩ := hstep
  cases h with
  | nobody hempty hsame hfresh =>
    have hi := hfresh i'
    rw [hi'] at hi
    rcases hi.of_empty (hjobs i') hversions hempty w with
      ⟨hshared, hnext⟩ | ⟨p, hran, hstored, hsame', hwriting⟩
    · rw [hshared]
      exact .nobody hempty hsame (Threads.forall_advance (Q := fun j p =>
        (attempts j).Fresh registry initial.agentVersions executionId p) hfresh hnext)
    · refine .writing hran le_rfl (hran.events.length_pos) hstored
        (hsame'.trans hsame) ?_ (fresh_advance (fun j _ => hfresh j) (absurd rfl))
      rw [Threads.advance_thread_self]
      exact hwriting
  | @writing i p k hran hpos hk hstored hsame howner hothers =>
    by_cases hi : i' = i
    · subst hi
      rw [hi'] at howner
      rcases howner.step hran.events hk hstored hsame w with ⟨hshared, hnext⟩ |
        ⟨hlt, hstored', hsame', hnext⟩ | ⟨rfl, hstored', hrecords, hnext⟩
      · rw [hshared]
        refine .writing hran hpos hk hstored hsame ?_ (fresh_advance hothers (absurd rfl))
        rw [Threads.advance_thread_self]
        exact hnext
      · refine .writing hran (Nat.le_add_left 1 k) hlt hstored' (hsame'.trans hsame) ?_
          (fresh_advance hothers (absurd rfl))
        rw [Threads.advance_thread_self]
        exact hnext
      · refine .recorded hran hstored' hrecords ?_ (fresh_advance hothers (absurd rfl))
        rw [Threads.advance_thread_self]
        exact hnext
    · have hother := hothers i' hi
      rw [hi'] at hother
      obtain ⟨hshared, hnext⟩ := hother.of_taken (hjobs i') hversions
        (hstored.taken hran.events hpos hk) w
      rw [hshared]
      refine .writing hran hpos hk hstored hsame ?_ (fresh_advance hothers fun _ => hnext)
      rw [Threads.advance_thread_of_ne _ _ _ _ (Ne.symm hi)]
      exact howner
  | @recorded i p hran hstored hrecords howner hothers =>
    by_cases hi : i' = i
    · subst hi
      rw [hi'] at howner
      cases howner with
      | @call id payload _ hnext =>
        obtain ⟨hevents, hexecution⟩ :=
          PlatformStore.handle_appendJudgeVerdict w id payload t.shared executionId
        obtain ⟨original, now, horiginal, hrecorded⟩ := hrecords
        refine .recorded hran
          (by rw [Threads.advance_shared, PlatformStore.Stores, hevents]; exact hstored)
          ⟨original, now, horiginal, hexecution.trans hrecorded⟩ ?_
          (fresh_advance hothers (absurd rfl))
        rw [Threads.advance_thread_self]
        exact hnext _
    · have hother := hothers i' hi
      rw [hi'] at hother
      obtain ⟨hshared, hnext⟩ := hother.of_taken (hjobs i') hversions
        (hstored.taken hran.events (hran.events.length_pos) le_rfl) w
      rw [hshared]
      refine .recorded hran hstored hrecords ?_ (fresh_advance hothers fun _ => hnext)
      rw [Threads.advance_thread_of_ne _ _ _ _ (Ne.symm hi)]
      exact howner

/-- **Run lemma**: an execution without events is nobody's, and every interleaving keeps it owned. -/
theorem Ownership.of_reachable (hjobs : ∀ i, (attempts i).job.executionId = executionId)
    (hempty : initial.events executionId = [])
    (h : Threads.Reachable PlatformStore.handle
      ⟨initial, fun i => (attempts i).program registry⟩ t) :
    Ownership attempts initial registry executionId t := by
  have hboth : t.shared.agentVersions = initial.agentVersions ∧
      Ownership attempts initial registry executionId t := by
    refine Threads.Reachable.invariant (P := fun t => t.shared.agentVersions =
      initial.agentVersions ∧ Ownership attempts initial registry executionId t) h
      ⟨rfl, .nobody hempty rfl fun i => .inl rfl⟩ fun u u' hu hstep => ?_
    refine ⟨?_, hu.2.step hjobs hu.1 hstep⟩
    cases hstep with
    | call hi w => rw [Threads.advance_shared, PlatformStore.handle_agentVersions, hu.1]
  exact hboth.2

/-- The execution has a final record. -/
def PlatformStore.Finalized (store : PlatformStore) (executionId : UUID) : Prop :=
  ∃ execution, store.getExecution executionId = .ok execution ∧
    execution.status.terminal = true

instance (store : PlatformStore) (executionId : UUID) : Decidable (store.Finalized executionId) :=
  match h : store.getExecution executionId with
  | .ok execution => decidable_of_iff (execution.status.terminal = true)
      ⟨fun hterminal => ⟨execution, h, hterminal⟩, fun ⟨_, hexecution, hterminal⟩ =>
        Except.ok.inj (h.symm.trans hexecution) ▸ hterminal⟩
  | .error _ => .isFalse fun ⟨_, hexecution, _⟩ => by simp [h] at hexecution

/-- **Attempts do not mix.**  Whatever the interleaving of the attempts and the faults of the store,
what is stored of the trace is a prefix of one attempt's; and once the execution is finalized, its
record is that same attempt's and its trace is complete. -/
theorem attempts_never_mix (hjobs : ∀ i, (attempts i).job.executionId = executionId)
    (hempty : initial.events executionId = []) (hopen : ¬ initial.Finalized executionId)
    (h : Threads.Reachable PlatformStore.handle
      ⟨initial, fun i => (attempts i).program registry⟩ t) :
    (t.shared.events executionId = [] ∧ ¬ t.shared.Finalized executionId) ∨
      ∃ i p k, (attempts i).Ran registry initial.agentVersions p ∧ k ≤ p.events.length ∧
        t.shared.Stores executionId p k ∧
        (t.shared.Finalized executionId → k = p.events.length ∧
          PlatformStore.Records executionId initial t.shared p) := by
  cases Ownership.of_reachable hjobs hempty h with
  | nobody hempty' hsame _ =>
    refine .inl ⟨hempty', ?_⟩
    rw [PlatformStore.Finalized, hsame]
    exact hopen
  | @writing i p k hran _ hk hstored hsame _ _ =>
    refine .inr ⟨i, p, k, hran, hk, hstored, fun hfinal => absurd ?_ hopen⟩
    rw [PlatformStore.Finalized, hsame] at hfinal
    exact hfinal
  | @recorded i p hran hstored hrecords _ _ =>
    exact .inr ⟨i, p, p.events.length, hran, le_rfl, hstored, fun _ => ⟨rfl, hrecords⟩⟩

end

/-! ### Two deliveries of one job -/

/-- A job on the seed task. -/
def seedJob : EvaluationJob where
  executionId := "execution"
  agentVersionId := "version"
  taskId := customerRefundWithinPolicy.taskId

/-- The registry of that task. -/
def seedRegistry : Dict String BenchmarkTask :=
  [(customerRefundWithinPolicy.taskId, customerRefundWithinPolicy)]

/-- A run of the agent over the seed suite. -/
def supportRun (id : UUID) : EvaluationRun where
  id := id
  agentVersionId := "version"
  suiteId := "support"
  suiteVersion := "1.0.0"
  suiteManifestHash := "sha256:support"
  seed := 1
  createdAt := 0

/-- A store in which the job's execution is pending. -/
def pendingStore : PlatformStore where
  agentVersions := [("version", supportAgent)]
  runs := [("run", supportRun "run")]
  executions := [("execution", {
    id := "execution", runId := "run", taskId := customerRefundWithinPolicy.taskId, taskSeed := 1,
    createdAt := 0 })]

/-- A store that does not fail. -/
def noFaults : ℕ → Circumstance := fun n => { now := n, newId := toString n, fault := none }

/-- The job, delivered to the reference agent. -/
def seedAttempt : Attempt where
  host := plainHost
  job := seedJob
  modelClient := none
  judgeModel := none

omit [Interpreter] in
theorem attempts_never_mix_seed :
    ∃ t : Threads PyError StoreCommand StoreCommand.Resp PlatformStore Bool Unit,
      t.shared.Finalized "execution" ∧
      ∃ p k, @Attempt.Ran cpython seedRegistry pendingStore.agentVersions seedAttempt p ∧
        k = p.events.length ∧ t.shared.Stores "execution" p k := by
  have hreach := Threads.Reachable.exec PlatformStore.handle (i := true)
    (t := ⟨pendingStore, fun _ => @Attempt.program cpython seedRegistry seedAttempt⟩) noFaults rfl
  have hfinal : ((@Attempt.program cpython seedRegistry seedAttempt).exec PlatformStore.handle
      noFaults pendingStore).2.Finalized "execution" := by
    decide +kernel
  rcases @attempts_never_mix cpython seedRegistry "execution" Bool (fun _ => seedAttempt)
    pendingStore _ _ (fun _ => rfl) rfl (by decide)
    hreach with ⟨-, hopen⟩ | ⟨_, p, k, hran, -, hstored, hcomplete⟩
  · exact absurd hfinal hopen
  · exact ⟨_, hfinal, p, k, hran, (hcomplete hfinal).1, hstored⟩

end AgentProof
