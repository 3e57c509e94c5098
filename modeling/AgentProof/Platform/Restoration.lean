import AgentProof.Platform.Decoding

/-!
# Platform/Restoration — which events are a trace

    appends ──▸ trace ──to_storage──▸ rows ──▸ events, in any order ──from_storage──▸ trace

`Trace.from_storage` accepts a list of events exactly if they are well formed (`WellFormedEvents`):
numbered without a gap or a repetition, each parent numbered before its child, each payload of its
type.  That does not depend on their order, and neither does the trace they are read as.

**Decoding accepts exactly the well-formed lists, and inverts encoding** (`fromStorage_inverts`).
-/

open Machinery Machinery.Raising

namespace AgentProof

/-! ## Sorted events -/

/-- The events in the order `from_storage` reads them. -/
def inOrder (events : List TraceEvent) : List TraceEvent :=
  events.insertionSort fun a b => a.sequenceNo ≤ b.sequenceNo

theorem perm_inOrder (events : List TraceEvent) : (inOrder events).Perm events :=
  List.perm_insertionSort _ events

/-- Numbers that are sorted and are the first `n` in some order are the first `n`. -/
theorem eq_range_of_perm {nos : List ℕ} {n : ℕ} (hsorted : nos.Pairwise (· ≤ ·))
    (h : nos.Perm (List.range n)) : nos = List.range n :=
  h.eq_of_pairwise (fun _ _ _ _ => le_antisymm) hsorted List.pairwise_le_range

/-- **Events numbered without gap or repetition are sorted by their numbers.** -/
theorem map_inOrder_eq_range {events : List TraceEvent}
    (h : (events.map (·.sequenceNo)).Perm (List.range events.length)) :
    (inOrder events).map (·.sequenceNo) = List.range events.length := by
  have hsorted : (inOrder events).Pairwise fun a b => a.sequenceNo ≤ b.sequenceNo :=
    List.pairwise_insertionSort _ events
  exact eq_range_of_perm (List.pairwise_map.mpr hsorted) (((perm_inOrder events).map _).trans h)

/-- Events with the numbers of their positions are strictly sorted. -/
theorem pairwise_lt_of_map_eq_range {events : List TraceEvent} {n : ℕ}
    (h : events.map (·.sequenceNo) = List.range n) :
    events.Pairwise fun a b => a.sequenceNo < b.sequenceNo :=
  List.pairwise_map.mp (h ▸ List.pairwise_lt_range)

/-- **The order in which events are presented does not matter** to the order they are read in. -/
theorem inOrder_eq_of_perm {events events' : List TraceEvent} (h : events.Perm events')
    (hnumbered : (events.map (·.sequenceNo)).Perm (List.range events.length)) :
    inOrder events = inOrder events' := by
  have hnumbered' : (events'.map (·.sequenceNo)).Perm (List.range events'.length) := by
    rw [← h.length_eq]
    exact (h.symm.map _).trans hnumbered
  refine List.Perm.eq_of_pairwise (fun _ _ _ _ hab hba => absurd (hab.trans hba) (lt_irrefl _))
    (pairwise_lt_of_map_eq_range (map_inOrder_eq_range hnumbered))
    (pairwise_lt_of_map_eq_range (map_inOrder_eq_range hnumbered')) ?_
  exact (perm_inOrder events).trans (h.trans (perm_inOrder events').symm)

/-! ## Parents -/

/-- **Each parent stands before its child exactly if it has a smaller number**, among steps that
are numbered in their order. -/
theorem parentsBefore_iff {steps : List TraceStep}
    (hsorted : steps.Pairwise fun a b => a.sequenceNo < b.sequenceNo) : ∀ {ids : List UUID},
    ParentsBefore ids steps ↔ ∀ step ∈ steps, ∀ parent, step.parentStepId = some parent →
      parent ∈ ids ∨ ∃ earlier ∈ steps, earlier.id = parent ∧
        earlier.sequenceNo < step.sequenceNo := by
  induction steps with
  | nil => simp [ParentsBefore]
  | cons first steps ih =>
    obtain ⟨hfirst, hsorted⟩ := List.pairwise_cons.mp hsorted
    intro ids
    rw [ParentsBefore, ih hsorted, List.forall_mem_cons]
    refine and_congr ?_ ?_
    · refine forall₂_congr fun parent _ => ⟨.inl, ?_⟩
      rintro (hids | ⟨earlier, hearlier, -, hlt⟩)
      · exact hids
      · rcases List.mem_cons.mp hearlier with rfl | hlater
        · exact absurd hlt (lt_irrefl _)
        · exact absurd (hlt.trans (hfirst earlier hlater)) (lt_irrefl _)
    · refine forall₂_congr fun step hstep => forall₂_congr fun parent _ => ?_
      simp only [List.mem_append, List.mem_singleton, List.exists_mem_cons_iff, or_assoc]
      refine or_congr_right (or_congr_left ?_)
      exact ⟨fun h => ⟨h.symm, hfirst step hstep⟩, fun h => h.1.symm⟩

/-! ## What is accepted -/

section

variable [Pydantic]

/-- **Well-formed events**: the numbers are `0 … n-1`, each once; a parent is the id of an event
with a smaller number; every payload parses as the type of its event. -/
structure WellFormedEvents (events : List TraceEvent) : Prop where
  numbered : (events.map (·.sequenceNo)).Perm (List.range events.length)
  parents : ∀ event ∈ events, ∀ parent, event.parentEventId = some parent →
    ∃ earlier ∈ events, earlier.id = parent ∧ earlier.sequenceNo < event.sequenceNo
  payloads : ∀ event ∈ events, ∃ payload,
    StepPayload.validate event.eventType event.payload = .ok payload

/-- The order of the events does not matter. -/
theorem WellFormedEvents.perm {events events' : List TraceEvent} (h : WellFormedEvents events)
    (hperm : events.Perm events') : WellFormedEvents events' where
  numbered := by
    rw [← hperm.length_eq]
    exact (hperm.symm.map _).trans h.numbered
  parents event hevent parent hparent := by
    obtain ⟨earlier, hearlier, hid⟩ := h.parents event (hperm.mem_iff.mpr hevent) parent hparent
    exact ⟨earlier, hperm.mem_iff.mp hearlier, hid⟩
  payloads event hevent := h.payloads event (hperm.mem_iff.mpr hevent)

/-- The steps read are numbered like their events. -/
theorem map_sequenceNo_of_readSteps {events : List TraceEvent} {steps : List TraceStep}
    (h : events.mapM Trace.readStep = .ok steps) :
    events.map (·.sequenceNo) = steps.map (·.sequenceNo) :=
  map_eq_map_of_forall₂ (forall₂_of_mapM h) fun _ _ hstep => by
    obtain ⟨payload, -, rfl⟩ := Trace.readStep_eq_ok_iff.mp hstep
    rfl

theorem fromStorage_eq_ok_iff {executionId : UUID} {events : List TraceEvent} {trace : Trace} :
    Trace.fromStorage executionId events = .ok trace ↔ ∃ steps,
      (inOrder events).mapM Trace.readStep = .ok steps ∧
        steps.map (·.sequenceNo) = List.range steps.length ∧ ParentsBefore [] steps ∧
        trace = { executionId, steps } := by
  rw [Trace.fromStorage, Trace.restore_eq_ok_iff]
  simp only [List.range_eq_range']
  rfl

/-- What the loop accepts is well formed. -/
theorem wellFormed_of_readSteps {events : List TraceEvent} {steps : List TraceStep}
    (hsteps : (inOrder events).mapM Trace.readStep = .ok steps)
    (hnumbered : steps.map (·.sequenceNo) = List.range steps.length)
    (hparents : ParentsBefore [] steps) : WellFormedEvents events := by
  have hsorted : steps.Pairwise fun a b => a.sequenceNo < b.sequenceNo :=
    List.pairwise_map.mp (hnumbered ▸ List.pairwise_lt_range)
  have hlength : steps.length = events.length := by
    rw [← (forall₂_of_mapM hsteps).length_eq, (perm_inOrder events).length_eq]
  have hread : ∀ event ∈ events, ∃ step ∈ steps, Trace.readStep event = .ok step :=
    fun event hevent => exists_of_mapM hsteps ((perm_inOrder events).mem_iff.mpr hevent)
  refine ⟨?_, fun event hevent parent hparent => ?_, fun event hevent => ?_⟩
  · rw [← hlength, ← hnumbered, ← map_sequenceNo_of_readSteps hsteps]
    exact ((perm_inOrder events).map _).symm
  · obtain ⟨step, hstep, hreadStep⟩ := hread event hevent
    obtain ⟨payload, -, rfl⟩ := Trace.readStep_eq_ok_iff.mp hreadStep
    rcases (parentsBefore_iff hsorted).mp hparents _ hstep parent hparent with
      hnone | ⟨earlier, hearlier, hid, hlt⟩
    · exact absurd hnone List.not_mem_nil
    · obtain ⟨event', hevent', hreadEvent'⟩ := exists_of_mem_mapM hsteps hearlier
      obtain ⟨payload', -, rfl⟩ := Trace.readStep_eq_ok_iff.mp hreadEvent'
      exact ⟨event', (perm_inOrder events).mem_iff.mp hevent', hid, hlt⟩
  · obtain ⟨step, -, hreadStep⟩ := hread event hevent
    obtain ⟨payload, hpayload, -⟩ := Trace.readStep_eq_ok_iff.mp hreadStep
    exact ⟨payload, hpayload⟩

/-- Well-formed events are accepted. -/
theorem WellFormedEvents.exists_trace {events : List TraceEvent} (h : WellFormedEvents events)
    (executionId : UUID) : ∃ trace, Trace.fromStorage executionId events = .ok trace := by
  have hparse : ∀ event ∈ inOrder events, ∃ step, Trace.readStep event = .ok step :=
    fun event hevent => by
      obtain ⟨payload, hpayload⟩ := h.payloads event ((perm_inOrder events).mem_iff.mp hevent)
      exact ⟨_, Trace.readStep_eq_ok_iff.mpr ⟨payload, hpayload, rfl⟩⟩
  obtain ⟨steps, hsteps⟩ := exists_mapM_eq_ok hparse
  have hlength : steps.length = events.length := by
    rw [← (forall₂_of_mapM hsteps).length_eq, (perm_inOrder events).length_eq]
  have hnumbered : steps.map (·.sequenceNo) = List.range steps.length := by
    rw [← map_sequenceNo_of_readSteps hsteps, map_inOrder_eq_range h.numbered, hlength]
  have hsorted : steps.Pairwise fun a b => a.sequenceNo < b.sequenceNo :=
    List.pairwise_map.mp (hnumbered ▸ List.pairwise_lt_range)
  refine ⟨_, fromStorage_eq_ok_iff.mpr ⟨steps, hsteps, hnumbered, ?_, rfl⟩⟩
  refine (parentsBefore_iff hsorted).mpr fun step hstep parent hparent => .inr ?_
  obtain ⟨event, hevent, hread⟩ := exists_of_mem_mapM hsteps hstep
  obtain ⟨payload, -, rfl⟩ := Trace.readStep_eq_ok_iff.mp hread
  obtain ⟨earlier, hearlier, hid, hlt⟩ :=
    h.parents event ((perm_inOrder events).mem_iff.mp hevent) parent hparent
  obtain ⟨step', hstep', hread'⟩ :=
    exists_of_mapM hsteps ((perm_inOrder events).mem_iff.mpr hearlier)
  obtain ⟨payload', -, rfl⟩ := Trace.readStep_eq_ok_iff.mp hread'
  exact ⟨_, hstep', hid, hlt⟩

/-- **`from_storage` accepts exactly the well-formed events.** -/
theorem exists_fromStorage_iff (executionId : UUID) (events : List TraceEvent) :
    (∃ trace, Trace.fromStorage executionId events = .ok trace) ↔ WellFormedEvents events := by
  refine ⟨?_, fun h => h.exists_trace executionId⟩
  rintro ⟨trace, htrace⟩
  obtain ⟨steps, hsteps, hnumbered, hparents, -⟩ := fromStorage_eq_ok_iff.mp htrace
  exact wellFormed_of_readSteps hsteps hnumbered hparents

/-- **The trace does not depend on the order of the events.** -/
theorem fromStorage_perm {executionId : UUID} {events events' : List TraceEvent} {trace : Trace}
    (hperm : events.Perm events') (h : Trace.fromStorage executionId events = .ok trace) :
    Trace.fromStorage executionId events' = .ok trace := by
  have hwell := (exists_fromStorage_iff executionId events).mp ⟨trace, h⟩
  rw [fromStorage_eq_ok_iff] at h ⊢
  rw [← inOrder_eq_of_perm hperm hwell.numbered]
  exact h

end

/-! ## What is built by appends -/

/-- The arguments of one call of `append`. -/
structure AppendCall where
  payload : StepPayload
  parentStepId : Option UUID := none
  durationMs : Option ℕ := none

/-- The trace after calls of `append`: one that raises leaves it as it is. -/
def appendAll (host : Host) : Trace → List AppendCall → Trace
  | trace, [] => trace
  | trace, call :: calls =>
    match trace.append host call.payload call.parentStepId call.durationMs with
    | .ok (_, trace') => appendAll host trace' calls
    | .error _ => appendAll host trace calls

/-- A payload that its model accepts, with JSON for its contents. -/
def StepPayload.Storable (payload : StepPayload) : Prop := payload.Valid ∧ payload.Plain

/-- **What appends keep**: steps numbered by their positions, parents among the earlier steps,
payloads that can be stored. -/
structure Appended (trace : Trace) : Prop where
  numbered : trace.Numbered
  parents : ParentsBefore [] trace.steps
  storable : ∀ step ∈ trace.steps, step.payload.Storable
  undated : ∀ step ∈ trace.steps, step.createdAt = none

/-- A new trace. -/
theorem Appended.empty (executionId : UUID) : Appended { executionId } :=
  ⟨Trace.numbered_nil executionId, trivial, by simp, by simp⟩

theorem Appended.push {trace : Trace} (h : Appended trace) (host : Host) {payload : StepPayload}
    (hpayload : payload.Storable) {parent : Option UUID}
    (hparent : ∀ id, parent = some id → trace.hasStep id = true) (duration : Option ℕ) :
    Appended (Trace.push host trace payload parent duration).2 where
  numbered := Trace.numbered_push host h.numbered payload parent duration
  parents := by
    refine parentsBefore_append.mpr ⟨h.parents, fun id hid => ?_, trivial⟩
    obtain ⟨step, hstep, hsame⟩ := List.any_eq_true.mp (hparent id hid)
    rw [List.nil_append]
    exact List.mem_map.mpr ⟨step, hstep, by simpa using hsame⟩
  storable step hstep := by
    rcases List.mem_append.mp hstep with hold | hnew
    · exact h.storable step hold
    · obtain rfl := List.mem_singleton.mp hnew
      exact hpayload
  undated step hstep := by
    rcases List.mem_append.mp hstep with hold | hnew
    · exact h.undated step hold
    · obtain rfl := List.mem_singleton.mp hnew
      rfl

/-- **What `append` asks and does**: the parent is a step of the trace, and the step is pushed. -/
theorem Trace.append_eq_ok_iff {host : Host} {trace : Trace} {payload : StepPayload}
    {parent : Option UUID} {duration : Option ℕ} {pushed : TraceStep × Trace} :
    trace.append host payload parent duration = .ok pushed ↔
      (∀ id, parent = some id → trace.hasStep id = true) ∧
        Trace.push host trace payload parent duration = pushed := by
  cases parent with
  | none => simp [Trace.append]
  | some parent =>
    by_cases hhas : trace.hasStep parent = true <;> simp [Trace.append, hhas]

theorem Appended.append {host : Host} {trace trace' : Trace} {step : TraceStep}
    {call : AppendCall} (h : Appended trace) (hpayload : call.payload.Storable)
    (happend : trace.append host call.payload call.parentStepId call.durationMs =
      .ok (step, trace')) : Appended trace' := by
  obtain ⟨hparent, hpush⟩ := Trace.append_eq_ok_iff.mp happend
  obtain rfl := congrArg Prod.snd hpush
  exact h.push host hpayload hparent _

/-- **Every trace built by appends.**  Induction on the calls. -/
theorem Appended.appendAll {host : Host} : ∀ {calls : List AppendCall} {trace : Trace},
    Appended trace → (∀ call ∈ calls, call.payload.Storable) →
      Appended (AgentProof.appendAll host trace calls)
  | [], _, h, _ => h
  | call :: calls, trace, h, hcalls => by
    obtain ⟨hcall, hcalls⟩ := List.forall_mem_cons.mp hcalls
    rw [AgentProof.appendAll]
    split
    · rename_i step trace' happend
      exact (h.append hcall happend).appendAll hcalls
    · exact h.appendAll hcalls

theorem executionId_appendAll {host : Host} : ∀ (calls : List AppendCall) (trace : Trace),
    (appendAll host trace calls).executionId = trace.executionId
  | [], _ => rfl
  | call :: calls, trace => by
    rw [appendAll]
    split
    · rename_i step trace' happend
      rw [executionId_appendAll calls]
      exact (congrArg (·.2.executionId) (Trace.append_eq_ok_iff.mp happend).2).symm
    · exact executionId_appendAll calls trace

/-! ## The round trip -/

/-- A step but for the time at which the store wrote it. -/
def TraceStep.undated (step : TraceStep) : TraceStep := { step with createdAt := none }

theorem parentsBefore_map_undated {steps : List TraceStep} : ∀ {ids : List UUID},
    ParentsBefore ids (steps.map TraceStep.undated) ↔ ParentsBefore ids steps := by
  induction steps with
  | nil => exact Iff.rfl
  | cons step steps ih => exact and_congr Iff.rfl ih

/-- A payload of JSON is dumped. -/
theorem StepPayload.Storable.exists_dumpFields {payload : StepPayload} (h : payload.Storable) :
    ∃ fields, payload.dumpFields = .ok fields := by
  cases payload with
  | toolResult callId result =>
    obtain ⟨j, rfl⟩ := h.2
    exact ⟨_, rfl⟩
  | _ => exact ⟨_, rfl⟩

/-- **Every trace built by appends is stored.** -/
theorem Appended.exists_toStorage {trace : Trace} (h : Appended trace) :
    ∃ creates, trace.toStorage = .ok creates := by
  refine exists_mapM_eq_ok fun step hstep => ?_
  obtain ⟨fields, hfields⟩ := (h.storable step hstep).exists_dumpFields
  rw [Trace.storedStep, hfields]
  exact ⟨_, rfl⟩

/-- A row has the number of its step. -/
theorem sequenceNo_of_storedStep {step : TraceStep} {create : TraceEventCreate}
    (h : Trace.storedStep step = .ok create) : create.sequenceNo = step.sequenceNo := by
  obtain ⟨fields, -, h⟩ := except_bind_eq_ok.mp h
  obtain rfl := Except.ok.inj h
  rfl

/-- **The events made from the rows of a trace, put in order, are its rows.** -/
theorem map_inOrder_eq_creates {trace : Trace} (h : Appended trace)
    {creates : List TraceEventCreate} (hcreates : trace.toStorage = .ok creates)
    {events : List TraceEvent} (hevents : (events.map (·.toTraceEventCreate)).Perm creates) :
    (inOrder events).map (·.toTraceEventCreate) = creates := by
  have hrows : creates.map (·.sequenceNo) = List.range creates.length := by
    rw [← map_eq_map_of_forall₂ (forall₂_of_mapM hcreates) fun _ _ hstored =>
      (sequenceNo_of_storedStep hstored).symm, ← (forall₂_of_mapM hcreates).length_eq]
    exact h.numbered
  have hnumbered : (events.map (·.sequenceNo)).Perm (List.range events.length) := by
    have hnos := hevents.map (·.sequenceNo)
    rw [List.map_map, hrows, ← hevents.length_eq, List.length_map] at hnos
    exact hnos
  have hsorted := pairwise_lt_of_map_eq_range (map_inOrder_eq_range hnumbered)
  have hsortedRows : creates.Pairwise fun a b => a.sequenceNo < b.sequenceNo :=
    List.pairwise_map.mp (hrows ▸ List.pairwise_lt_range)
  refine List.Perm.eq_of_pairwise (fun _ _ _ _ hab hba => absurd (hab.trans hba) (lt_irrefl _))
    (List.pairwise_map.mpr hsorted) hsortedRows ?_
  exact ((perm_inOrder events).map _).trans hevents

section

variable [Pydantic]

/-- **An event made from the row of a step is read as the step.** -/
theorem readStep_of_storedStep {step : TraceStep} (hpayload : step.payload.Storable)
    (hundated : step.createdAt = none) {event : TraceEvent}
    (h : Trace.storedStep step = .ok event.toTraceEventCreate) :
    ∃ restored, Trace.readStep event = .ok restored ∧ restored.undated = step := by
  obtain ⟨fields, hfields, h⟩ := except_bind_eq_ok.mp h
  have hrow := Except.ok.inj h
  have hparsed := validate_dumpFields hpayload.1 hpayload.2 hfields
  rw [show step.payload.eventType = event.eventType from congrArg TraceEventCreate.eventType hrow,
    show fields = event.payload from congrArg TraceEventCreate.payload hrow] at hparsed
  refine ⟨_, Trace.readStep_eq_ok_iff.mpr ⟨step.payload, hparsed, rfl⟩, ?_⟩
  rw [Trace.restoredStep, TraceStep.undated, ← hrow, ← hundated]

/-- **A trace built by appends is read back from its events**, in whatever order. -/
theorem Appended.fromStorage {trace : Trace} (h : Appended trace)
    {creates : List TraceEventCreate} (hcreates : trace.toStorage = .ok creates)
    {events : List TraceEvent} (hevents : (events.map (·.toTraceEventCreate)).Perm creates) :
    ∃ steps, Trace.fromStorage trace.executionId events =
        .ok { executionId := trace.executionId, steps } ∧
      steps.map TraceStep.undated = trace.steps := by
  have hrows := forall₂_of_mapM hcreates
  rw [← map_inOrder_eq_creates h hcreates hevents, List.forall₂_map_right_iff] at hrows
  obtain ⟨-, hstored⟩ := exists_of_forall₂ hrows
  have hread : ∀ event ∈ inOrder events, ∃ restored, Trace.readStep event = .ok restored :=
    fun event hevent => by
      obtain ⟨step, hstep, hrow⟩ := hstored event hevent
      obtain ⟨restored, hrestored, -⟩ :=
        readStep_of_storedStep (h.storable step hstep) (h.undated step hstep) hrow
      exact ⟨restored, hrestored⟩
  obtain ⟨steps, hsteps⟩ := exists_mapM_eq_ok hread
  have hsame : steps.map TraceStep.undated = trace.steps := by
    have hkept := (List.forall₂_and_left _ _).mpr
      ⟨fun step hstep => And.intro (h.storable step hstep) (h.undated step hstep), hrows⟩
    have hboth := forall₂_of_common
      (q := fun restored step => TraceStep.undated restored = step)
      (fun event restored step hread hrow => by
        obtain ⟨restored', hread', hundated⟩ := readStep_of_storedStep hrow.1.1 hrow.1.2 hrow.2
        obtain rfl := Except.ok.inj (hread.symm.trans hread')
        exact hundated) (forall₂_of_mapM hsteps) hkept.flip
    rw [map_eq_map_of_forall₂ hboth fun _ _ hundated => hundated, List.map_id']
  have hnumbered : steps.map (·.sequenceNo) = trace.steps.map (·.sequenceNo) := by
    rw [← hsame, List.map_map]
    rfl
  refine ⟨steps, fromStorage_eq_ok_iff.mpr ⟨steps, hsteps, ?_, ?_, rfl⟩, hsame⟩
  · rw [hnumbered, h.numbered, ← hsame, List.length_map]
  · exact parentsBefore_map_undated.mp (hsame ▸ h.parents)

/-- **Trace decoding accepts exactly the well-formed lists of events, whatever their order, and
inverts encoding.** -/
theorem fromStorage_inverts :
    (∀ (host : Host) (executionId : UUID) (calls : List AppendCall),
      (∀ call ∈ calls, call.payload.Storable) →
        ∃ creates, (appendAll host { executionId } calls).toStorage = .ok creates ∧
          ∀ events : List TraceEvent, (events.map (·.toTraceEventCreate)).Perm creates →
            ∃ steps, Trace.fromStorage executionId events = .ok { executionId, steps } ∧
              steps.map TraceStep.undated = (appendAll host { executionId } calls).steps) ∧
    ∀ (executionId : UUID) (events : List TraceEvent),
      ((∃ trace, Trace.fromStorage executionId events = .ok trace) ↔ WellFormedEvents events) ∧
        ∀ events' : List TraceEvent, events.Perm events' → ∀ trace,
          Trace.fromStorage executionId events = .ok trace ↔
            Trace.fromStorage executionId events' = .ok trace := by
  refine ⟨fun host executionId calls hcalls => ?_, fun executionId events => ⟨?_, ?_⟩⟩
  · have hbuilt : Appended (appendAll host { executionId } calls) :=
      Appended.appendAll (.empty executionId) hcalls
    obtain ⟨creates, hcreates⟩ := hbuilt.exists_toStorage
    refine ⟨creates, hcreates, fun events hevents => ?_⟩
    have hread := hbuilt.fromStorage hcreates hevents
    rw [executionId_appendAll] at hread
    exact hread
  · exact exists_fromStorage_iff executionId events
  · exact fun events' hperm trace => ⟨fromStorage_perm hperm, fromStorage_perm hperm.symm⟩

end

end AgentProof
