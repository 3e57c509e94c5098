import AgentProof.Runner.Attempts

/-!
# Runner/Isolation — executions do not interfere

Attempts on other executions neither change what is stored of an execution nor learn anything of
it, so they can be left out (`persisted_of_reachable`): among any attempts on any executions, an
execution is finalized by an interleaving of the attempts on it alone.
-/

open Machinery Machinery.Prog

namespace AgentProof

/-! ## Commands and executions -/

/-- The execution a command names. -/
def StoreCommand.execution? : StoreCommand → Option UUID
  | .getAgentVersion _ => none
  | .appendTraceEvent executionId _ => some executionId
  | .recordResult executionId _ => some executionId
  | .appendJudgeVerdict executionId _ => some executionId

/-- The command names no other execution. -/
def StoreCommand.Concerns (executionId : UUID) (c : StoreCommand) : Prop :=
  ∀ id, c.execution? = some id → id = executionId

/-- The command does not name the execution. -/
def StoreCommand.Ignores (executionId : UUID) (c : StoreCommand) : Prop :=
  c.execution? ≠ some executionId

theorem StoreCommand.Concerns.ignores {executionId executionId' : UUID} {c : StoreCommand}
    (h : c.Concerns executionId) (hne : executionId ≠ executionId') : c.Ignores executionId' :=
  fun hc => hne (h _ hc).symm

section

variable {executionId : UUID}

theorem concerns_appendTrace (events : List TraceEventCreate) :
    (appendTrace executionId events).Only (StoreCommand.Concerns executionId) := by
  induction events with
  | nil => exact .done _
  | cons event events ih =>
    exact .bind (.perform fun _ hid => (Option.some.inj hid).symm) fun _ => ih

theorem concerns_appendVerdicts (answers : List JudgeAnswer) :
    (appendVerdicts executionId answers).Only (StoreCommand.Concerns executionId) := by
  induction answers with
  | nil => exact .done _
  | cons answer answers ih =>
    exact .bind (.lift _) fun _ =>
      .bind (.perform fun _ hid => (Option.some.inj hid).symm) fun _ => ih

variable [Interpreter]

/-- **An attempt names no execution but its own.** -/
theorem Attempt.concerns (registry : Dict String BenchmarkTask) (a : Attempt) :
    (a.program registry).Only (StoreCommand.Concerns a.job.executionId) := by
  have hjudge : ∀ task result, (judgeRun a.job.executionId task result a.judgeModel).Only
      (StoreCommand.Concerns a.job.executionId) := by
    intro task result
    cases a.judgeModel with
    | none => exact .done _
    | some model => exact .bind (.lift _) fun answers => concerns_appendVerdicts answers
  rw [program, processJob]
  split
  · exact .done _
  · refine .bind (.perform fun _ hid => absurd hid (by simp [StoreCommand.execution?])) fun _ =>
      .bind (.lift _) fun result => .bind (.lift _) fun events =>
        .bind (concerns_appendTrace events) fun _ =>
          .bind (.perform fun _ hid => (Option.some.inj hid).symm) fun _ => hjudge _ result

end

/-! ## What is seen of an execution -/

/-- Two stores hold the same agent versions, and the same of one execution. -/
structure PlatformStore.SameView (executionId : UUID) (store store' : PlatformStore) : Prop where
  versions : store.agentVersions = store'.agentVersions
  execution : store.getExecution executionId = store'.getExecution executionId
  events : store.events executionId = store'.events executionId

namespace PlatformStore

variable {executionId : UUID} {store store' : PlatformStore}

/-- What names the execution is answered alike by stores that hold the same of it. -/
theorem SameView.answer (h : SameView executionId store store') (now : Timestamp) (newId : UUID)
    {c : StoreCommand} (hc : c.Concerns executionId) :
    (store.answer now newId c).1 = (store'.answer now newId c).1 ∧
      SameView executionId (store.answer now newId c).2 (store'.answer now newId c).2 := by
  obtain ⟨hversions, hexecution, hevents⟩ := h
  cases c with
  | getAgentVersion id =>
    refine ⟨?_, hversions, hexecution, hevents⟩
    simp only [PlatformStore.answer, getAgentVersion, hversions]
  | appendTraceEvent id payload =>
    obtain rfl := hc id rfl
    simp only [PlatformStore.answer, appendTraceEvent, hexecution, hevents]
    cases store'.getExecution id with
    | error e => exact ⟨rfl, hversions, hexecution, hevents⟩
    | ok execution =>
      dsimp only
      split
      · exact ⟨rfl, hversions, hexecution, hevents⟩
      · refine ⟨rfl, hversions, hexecution, ?_⟩
        simp only [PlatformStore.events, Dict.get?_set_self]
  | recordResult id payload =>
    obtain rfl := hc id rfl
    simp only [PlatformStore.answer, recordResult, hexecution]
    cases hread : store'.getExecution id with
    | error e => exact ⟨rfl, hversions, hexecution, hevents⟩
    | ok execution =>
      dsimp only
      split
      · exact ⟨rfl, hversions, hexecution, hevents⟩
      · refine ⟨rfl, hversions, ?_, hevents⟩
        simp only [getExecution, Dict.get?_set_self]
  | appendJudgeVerdict id payload =>
    obtain rfl := hc id rfl
    simp only [PlatformStore.answer, appendJudgeVerdict, hexecution]
    cases store'.getExecution id with
    | error e => exact ⟨rfl, hversions, hexecution, hevents⟩
    | ok execution => exact ⟨rfl, hversions, hexecution, hevents⟩

/-- What does not name the execution changes nothing of it. -/
theorem sameView_answer (now : Timestamp) (newId : UUID) {c : StoreCommand}
    (hc : c.Ignores executionId) (store : PlatformStore) :
    SameView executionId (store.answer now newId c).2 store := by
  have hne : ∀ {id : UUID}, c.execution? = some id → id ≠ executionId :=
    fun hid heq => hc (heq ▸ hid)
  cases c with
  | getAgentVersion id => exact ⟨rfl, rfl, rfl⟩
  | appendTraceEvent id payload =>
    simp only [PlatformStore.answer, appendTraceEvent]
    cases store.getExecution id with
    | error e => exact ⟨rfl, rfl, rfl⟩
    | ok execution =>
      dsimp only
      split
      · exact ⟨rfl, rfl, rfl⟩
      · refine ⟨rfl, rfl, ?_⟩
        simp only [events, Dict.get?_set_of_ne _ (hne rfl)]
  | recordResult id payload =>
    simp only [PlatformStore.answer, recordResult]
    cases store.getExecution id with
    | error e => exact ⟨rfl, rfl, rfl⟩
    | ok execution =>
      dsimp only
      split
      · exact ⟨rfl, rfl, rfl⟩
      · refine ⟨rfl, ?_, rfl⟩
        simp only [getExecution, Dict.get?_set_of_ne _ (hne rfl)]
  | appendJudgeVerdict id payload =>
    simp only [PlatformStore.answer, appendJudgeVerdict]
    cases store.getExecution id with
    | error e => exact ⟨rfl, rfl, rfl⟩
    | ok execution => exact ⟨rfl, rfl, rfl⟩

theorem SameView.trans {store'' : PlatformStore} (h : SameView executionId store store')
    (h' : SameView executionId store' store'') : SameView executionId store store'' :=
  ⟨h.versions.trans h'.versions, h.execution.trans h'.execution, h.events.trans h'.events⟩

/-- **The frame of an execution**: attempts on others are foreign to it. -/
theorem frame (executionId : UUID) :
    Threads.Frame handle (StoreCommand.Concerns executionId) (StoreCommand.Ignores executionId)
      (SameView executionId) where
  own w c s s' hc h := by
    obtain ⟨hanswer, hview⟩ := h.answer w.now w.newId hc
    rw [handle, handle]
    cases w.fault with
    | none => exact ⟨hanswer, hview⟩
    | some fault =>
      cases fault with
      | before e => exact ⟨rfl, h⟩
      | after e => exact ⟨rfl, hview⟩
  foreign w c s s' hc h := by
    have hview := (sameView_answer w.now w.newId hc s).trans h
    rw [handle]
    cases w.fault with
    | none => exact hview
    | some fault =>
      cases fault with
      | before e => exact h
      | after e => exact hview

/-- Everything but one execution is as it was. -/
structure ChangesOnly (executionId : UUID) (store store' : PlatformStore) : Prop where
  versions : store'.agentVersions = store.agentVersions
  runs : store'.runs = store.runs
  executions : ∀ id, id ≠ executionId → store'.getExecution id = store.getExecution id
  traces : ∀ id, id ≠ executionId → PlatformStore.events store' id = PlatformStore.events store id

/-- **A program that names one execution changes no other.** -/
theorem changesOnly_exec {α : Type} {program : StoreProg α}
    (h : program.Only (StoreCommand.Concerns executionId)) (oracle : ℕ → Circumstance)
    (store : PlatformStore) : ChangesOnly executionId store (program.exec handle oracle store).2 := by
  have hview : ∀ id, id ≠ executionId → SameView id (program.exec handle oracle store).2 store :=
    fun id hne => h.exec_invariant (P := fun s => SameView id s store)
      (fun w c s hc hs => (frame id).foreign w c s store (hc.ignores hne.symm) hs) oracle
      ⟨rfl, rfl, rfl⟩
  obtain ⟨hversions, hruns⟩ := exec_invariant
    (P := fun s => s.agentVersions = store.agentVersions ∧ s.runs = store.runs)
    (fun w c s hs => ⟨(handle_keeps w c s).1.trans hs.1, (handle_keeps w c s).2.trans hs.2⟩)
    program oracle ⟨rfl, rfl⟩
  exact ⟨hversions, hruns, fun id hne => (hview id hne).execution,
    fun id hne => (hview id hne).events⟩

end PlatformStore

/-! ## Persisted executions -/

variable [Interpreter]

/-- What the store holds of the execution was left there by an interleaving of attempts on it, which
found it open and without events. -/
structure PlatformStore.PersistedBy {ι : Type} [DecidableEq ι] (store : PlatformStore)
    (registry : Dict String BenchmarkTask) (executionId : UUID) (attempts : ι → Attempt)
    (initial : PlatformStore) : Prop where
  jobs : ∀ i, (attempts i).job.executionId = executionId
  empty : initial.events executionId = []
  isOpen : ¬ initial.Finalized executionId
  finalized : store.Finalized executionId
  reached : ∃ t, Threads.Reachable PlatformStore.handle
      ⟨initial, fun i => (attempts i).program registry⟩ t ∧
    store.getExecution executionId = t.shared.getExecution executionId ∧
    store.events executionId = t.shared.events executionId

section

variable {ι : Type} [DecidableEq ι] {registry : Dict String BenchmarkTask} {executionId : UUID}
  {attempts : ι → Attempt} {initial store : PlatformStore}

/-- **A persisted execution is one run's**: the trace and the record of one attempt. -/
theorem PlatformStore.PersistedBy.exists_run
    (h : store.PersistedBy registry executionId attempts initial) :
    ∃ i p, (attempts i).Ran registry initial.agentVersions p ∧
      store.Stores executionId p p.events.length ∧
      PlatformStore.Records executionId initial store p := by
  obtain ⟨t, hreach, hexecution, hevents⟩ := h.reached
  have hfinal := h.finalized
  rw [PlatformStore.Finalized, hexecution] at hfinal
  cases Ownership.of_reachable h.jobs h.empty hreach with
  | nobody _ hsame _ =>
    rw [hsame] at hfinal
    exact absurd hfinal h.isOpen
  | writing _ _ _ _ hsame _ _ =>
    rw [hsame] at hfinal
    exact absurd hfinal h.isOpen
  | @recorded i p hran hstored hrecords _ _ =>
    obtain ⟨original, now, horiginal, hrecorded⟩ := hrecords
    refine ⟨i, p, hran, ?_, original, now, horiginal, hexecution.trans hrecorded⟩
    rw [PlatformStore.Stores, hevents]
    exact hstored

/-- **Executions do not interfere.**  Among any attempts on any executions, one that is finalized
was persisted by the attempts on it. -/
theorem persisted_of_reachable
    {t : Threads PyError StoreCommand StoreCommand.Resp PlatformStore ι Unit}
    (hempty : initial.events executionId = []) (hopen : ¬ initial.Finalized executionId)
    (h : Threads.Reachable PlatformStore.handle
      ⟨initial, fun i => (attempts i).program registry⟩ t)
    (hfinal : t.shared.Finalized executionId) :
    t.shared.PersistedBy registry executionId
      (fun i : { i // (attempts i).job.executionId = executionId } => attempts i) initial := by
  have hwithout : Threads.Without (StoreCommand.Concerns executionId)
      (StoreCommand.Ignores executionId) (PlatformStore.SameView executionId)
      (fun i => (attempts i).job.executionId = executionId)
      ⟨initial, fun i => (attempts i).program registry⟩
      ⟨initial, fun i => (attempts i).program registry⟩ := by
    refine ⟨fun i => ⟨?_, rfl⟩, fun i hi => ?_, ⟨rfl, rfl, rfl⟩⟩
    · have hconcerns := (attempts i.1).concerns registry
      rw [i.2] at hconcerns
      exact hconcerns
    · exact ((attempts i).concerns registry).mono fun _ hc => hc.ignores hi
  obtain ⟨u, hreach, hview⟩ := h.restrict (PlatformStore.frame executionId) hwithout
  exact ⟨fun i => i.2, hempty, hopen, hfinal, u, hreach, hview.shared.execution,
    hview.shared.events⟩

/-- The executions stay under their ids, whatever the interleaving. -/
theorem keyed_of_reachable
    {t : Threads PyError StoreCommand StoreCommand.Resp PlatformStore ι Unit}
    (hkeyed : initial.Keyed) (h : Threads.Reachable PlatformStore.handle
      ⟨initial, fun i => (attempts i).program registry⟩ t) : t.shared.Keyed :=
  h.invariant (P := fun t => t.shared.Keyed) hkeyed fun _ _ hu hstep => by
    obtain @⟨_, c, _, _, w⟩ := hstep
    exact hu.handle w c

end

end AgentProof
