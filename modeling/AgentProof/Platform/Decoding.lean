import AgentProof.Machinery.Raising
import AgentProof.Platform.Store
import AgentProof.Platform.Trace
import Mathlib.Data.List.Forall2
import Mathlib.Data.List.Sort

/-!
# Platform/Decoding — a stored trace is read back

`Trace.fromStorage` sorts the events, checks that they are numbered without a gap and that every
parent is an earlier step, and validates each payload against the model of its type.

Redaction replaces values, never keys, and no field of a payload has a sensitive name; so a payload
that was stored is still valid (`validate_redactPayload`).
-/

open Machinery Machinery.Raising

namespace AgentProof

/-- pydantic, in its lax mode. -/
class Pydantic where
  /-- the integer it makes of a value that is none, such as `True`, `2.0` or `"2"` -/
  coerceInt : Json → Option ℤ

/-! ## The types of the fields -/

namespace Json

/-- `str` -/
def asStr : Json → Option String
  | .str s => some s
  | _ => none

/-- `str | None` -/
def asOptStr : Json → Option (Option String)
  | .null => some none
  | j => j.asStr.map some

/-- `dict[str, Any]` -/
def asDict : Json → Option (Dict String Json)
  | .obj fields => some fields
  | _ => none

/-- `list[dict[str, Any]]` -/
def asDicts : Json → Option (List (Dict String Json))
  | .arr items => items.mapM asDict
  | _ => none

section

variable [Pydantic]

/-- `int = Field(ge=least)`, for a bound that is not negative. -/
def asNat (least : ℕ) (j : Json) : Option ℕ :=
  let n := match j with
    | .int n => some n
    | j => Pydantic.coerceInt j
  n.bind fun n => if least ≤ n then some n.toNat else none

/-- `int | None = Field(ge=least)` -/
def asOptNat (least : ℕ) : Json → Option (Option ℕ)
  | .null => some none
  | j => (j.asNat least).map some

end

theorem asDicts_map_obj (dicts : List (Dict String Json)) :
    asDicts (.arr (dicts.map .obj)) = some dicts := by
  rw [asDicts]
  induction dicts with
  | nil => rfl
  | cons fields dicts ih => rw [List.map_cons, List.mapM_cons, ih]; rfl

end Json

theorem redactItems_map_obj (dicts : List (Dict String Json)) :
    redactItems (dicts.map .obj) = (dicts.map redactPayload).map .obj := by
  induction dicts with
  | nil => rfl
  | cons fields dicts ih => rw [List.map_cons, redactItems, ih]; rfl

theorem redactFields_nil : redactFields [] = [] := rfl

/-- A field that is not sensitive keeps its key. -/
theorem redactFields_cons {key : String} (hkey : isSensitive key = false) (j : Json)
    (fields : Dict String Json) :
    redactFields ((key, j) :: fields) = (key, redactValue j) :: redactFields fields := by
  rw [redactFields, hkey]
  rfl

theorem redactValue_optStr (s : Option String) : redactValue (.optStr s) = .optStr s := by
  cases s <;> rfl

theorem redactValue_optNat (n : Option ℕ) : redactValue (.optNat n) = .optNat n := by
  cases n <;> rfl

theorem Json.asOptStr_optStr (s : Option String) : (Json.optStr s).asOptStr = some s := by
  cases s <;> rfl

/-! ## The payloads -/

namespace StepPayload

/-- A required field. -/
def required {α : Type} (payload : Dict String Json) (key : String) (validate : Json → Option α) :
    Except PyError α :=
  match (Dict.get? payload key).bind validate with
  | some a => .ok a
  | none => .error (.validationError key)

/-- A field with a default. -/
def optional {α : Type} (payload : Dict String Json) (key : String) (validate : Json → Option α)
    (default : α) : Except PyError α :=
  match Dict.get? payload key with
  | none => .ok default
  | some _ => required payload key validate

section

variable {α : Type} {fields : Dict String Json} {key : String} {j : Json}
  {validate : Json → Option α} {a : α}

/-- A field that is there is validated. -/
theorem required_eq_ok (hget : Dict.get? fields key = some j) (h : validate j = some a) :
    required fields key validate = .ok a := by
  rw [required, hget, Option.bind_some, h]

theorem optional_eq_ok (default : α) (hget : Dict.get? fields key = some j)
    (h : validate j = some a) : optional fields key validate default = .ok a := by
  rw [optional, hget]
  exact required_eq_ok hget h

end

variable [Pydantic]

/-- `_step_payload_adapter.validate_python({**payload, "event_type": event_type})` -/
def validate (eventType : EventType) (payload : Dict String Json) : Except PyError StepPayload :=
  match eventType with
  | .modelRequest => do
    let messages ← required payload "messages" Json.asDicts
    let model ← required payload "model" Json.asStr
    let params ← optional payload "params" Json.asDict []
    return .modelRequest messages model params
  | .modelResponse => do
    let content ← optional payload "content" Json.asOptStr none
    let toolCalls ← optional payload "tool_calls" Json.asDicts []
    let finishReason ← required payload "finish_reason" Json.asStr
    let inputTokens ← optional payload "input_tokens" (Json.asOptNat 0) none
    let outputTokens ← optional payload "output_tokens" (Json.asOptNat 0) none
    return .modelResponse content toolCalls finishReason inputTokens outputTokens
  | .toolCall => do
    let callId ← required payload "call_id" Json.asStr
    let service ← required payload "service" Json.asStr
    let operation ← required payload "operation" Json.asStr
    let arguments ← optional payload "arguments" Json.asDict []
    return .toolCall callId service operation arguments
  | .toolResult => do
    let callId ← required payload "call_id" Json.asStr
    let result ← optional payload "result" some .null
    return .toolResult callId (.json result)
  | .retry => do
    let attempt ← required payload "attempt" (Json.asNat 1)
    let reason ← required payload "reason" Json.asStr
    return .retry attempt reason
  | .error => do
    let errorType ← required payload "error_type" Json.asStr
    let message ← required payload "message" Json.asStr
    return .error errorType message
  | .finalAnswer => do
    let content ← required payload "content" Json.asStr
    return .finalAnswer content

/-- The payload satisfies the bounds its model declares. -/
def Valid : StepPayload → Prop
  | .retry attempt _ => 1 ≤ attempt
  | _ => True

/-- The payload holds JSON. -/
def Plain : StepPayload → Prop
  | .toolResult _ result => ∃ j, result = .json j
  | _ => True

end StepPayload

section

variable [Pydantic]

theorem Json.asNat_int {least n : ℕ} (h : least ≤ n) : (Json.int n).asNat least = some n := by
  simp [asNat, h]

theorem Json.asOptNat_optNat (n : Option ℕ) : (Json.optNat n).asOptNat 0 = some n := by
  cases n with
  | none => rfl
  | some n => exact congrArg (Option.map some) (asNat_int (Nat.zero_le n))

/-- **What is dumped of a payload is validated as that payload.** -/
theorem validate_dumpFields {payload : StepPayload} (hvalid : payload.Valid)
    (hplain : payload.Plain) {fields : Dict String Json}
    (hfields : payload.dumpFields = .ok fields) :
    StepPayload.validate payload.eventType fields = .ok payload := by
  cases payload with
  | modelRequest messages model params =>
    obtain rfl := Except.ok.inj hfields
    simp only [StepPayload.eventType, StepPayload.validate]
    rw [StepPayload.required_eq_ok rfl (Json.asDicts_map_obj messages),
      StepPayload.required_eq_ok (a := model) rfl rfl,
      StepPayload.optional_eq_ok (a := params) _ rfl rfl]
    rfl
  | modelResponse content toolCalls finishReason inputTokens outputTokens =>
    obtain rfl := Except.ok.inj hfields
    simp only [StepPayload.eventType, StepPayload.validate]
    rw [StepPayload.optional_eq_ok _ rfl (Json.asOptStr_optStr content),
      StepPayload.optional_eq_ok _ rfl (Json.asDicts_map_obj toolCalls),
      StepPayload.required_eq_ok (a := finishReason) rfl rfl,
      StepPayload.optional_eq_ok _ rfl (Json.asOptNat_optNat inputTokens),
      StepPayload.optional_eq_ok _ rfl (Json.asOptNat_optNat outputTokens)]
    rfl
  | toolCall callId service operation arguments =>
    obtain rfl := Except.ok.inj hfields
    simp only [StepPayload.eventType, StepPayload.validate]
    rw [StepPayload.required_eq_ok (a := callId) rfl rfl,
      StepPayload.required_eq_ok (a := service) rfl rfl,
      StepPayload.required_eq_ok (a := operation) rfl rfl,
      StepPayload.optional_eq_ok (a := arguments) _ rfl rfl]
    rfl
  | toolResult callId result =>
    obtain ⟨j, rfl⟩ := hplain
    obtain rfl := Except.ok.inj hfields
    simp only [StepPayload.eventType, StepPayload.validate]
    rw [StepPayload.required_eq_ok (a := callId) rfl rfl,
      StepPayload.optional_eq_ok (a := j) _ rfl rfl]
    rfl
  | retry attempt reason =>
    obtain rfl := Except.ok.inj hfields
    simp only [StepPayload.eventType, StepPayload.validate]
    rw [StepPayload.required_eq_ok (a := attempt) rfl (Json.asNat_int hvalid),
      StepPayload.required_eq_ok (a := reason) rfl rfl]
    rfl
  | error errorType message =>
    obtain rfl := Except.ok.inj hfields
    simp only [StepPayload.eventType, StepPayload.validate]
    rw [StepPayload.required_eq_ok (a := errorType) rfl rfl,
      StepPayload.required_eq_ok (a := message) rfl rfl]
    rfl
  | finalAnswer content =>
    obtain rfl := Except.ok.inj hfields
    simp only [StepPayload.eventType, StepPayload.validate]
    rw [StepPayload.required_eq_ok (a := content) rfl rfl]
    rfl

omit [Pydantic] in
/-- What is dumped of a payload, redacted, is what is dumped of a payload of the same type. -/
theorem exists_redacted {payload : StepPayload} (hvalid : payload.Valid)
    {fields : Dict String Json} (hfields : payload.dumpFields = .ok fields) :
    ∃ redacted : StepPayload, redacted.Valid ∧ redacted.Plain ∧
      redacted.eventType = payload.eventType ∧
      redacted.dumpFields = .ok (redactPayload fields) := by
  cases payload with
  | modelRequest messages model params =>
    obtain rfl := Except.ok.inj hfields
    refine ⟨.modelRequest (messages.map redactPayload) model (redactPayload params), trivial,
      trivial, rfl, ?_⟩
    simp (disch := decide) only [StepPayload.dumpFields, redactPayload, redactFields_cons,
      redactValue, redactItems_map_obj, redactFields_nil]
  | modelResponse content toolCalls finishReason inputTokens outputTokens =>
    obtain rfl := Except.ok.inj hfields
    refine ⟨.modelResponse content (toolCalls.map redactPayload) finishReason inputTokens
      outputTokens, trivial, trivial, rfl, ?_⟩
    simp (disch := decide) only [StepPayload.dumpFields, redactPayload, redactFields_cons,
      redactValue, redactItems_map_obj, redactValue_optStr, redactValue_optNat, redactFields_nil]
  | toolCall callId service operation arguments =>
    obtain rfl := Except.ok.inj hfields
    refine ⟨.toolCall callId service operation (redactPayload arguments), trivial, trivial, rfl, ?_⟩
    simp (disch := decide) only [StepPayload.dumpFields, redactPayload, redactFields_cons,
      redactValue, redactFields_nil]
  | toolResult callId result =>
    obtain ⟨j, -, hfields⟩ := except_bind_eq_ok.mp hfields
    obtain rfl := Except.ok.inj hfields
    refine ⟨.toolResult callId (.json (redactValue j)), trivial, ⟨_, rfl⟩, rfl, ?_⟩
    simp (disch := decide) only [StepPayload.dumpFields, redactPayload, redactFields_cons,
      redactValue, redactFields_nil]
    rfl
  | retry attempt reason =>
    obtain rfl := Except.ok.inj hfields
    refine ⟨.retry attempt reason, hvalid, trivial, rfl, ?_⟩
    simp (disch := decide) only [StepPayload.dumpFields, redactPayload, redactFields_cons,
      redactValue, redactFields_nil]
  | error errorType message =>
    obtain rfl := Except.ok.inj hfields
    refine ⟨.error errorType message, trivial, trivial, rfl, ?_⟩
    simp (disch := decide) only [StepPayload.dumpFields, redactPayload, redactFields_cons,
      redactValue, redactFields_nil]
  | finalAnswer content =>
    obtain rfl := Except.ok.inj hfields
    refine ⟨.finalAnswer content, trivial, trivial, rfl, ?_⟩
    simp (disch := decide) only [StepPayload.dumpFields, redactPayload, redactFields_cons,
      redactValue, redactFields_nil]

/-- **Redaction breaks no payload**: what is stored of a valid payload is the payload of the same
type that holds the redacted values. -/
theorem validate_redactPayload {payload : StepPayload} (hvalid : payload.Valid)
    {fields : Dict String Json} (hfields : payload.dumpFields = .ok fields) :
    ∃ restored, StepPayload.validate payload.eventType (redactPayload fields) = .ok restored ∧
      restored.eventType = payload.eventType ∧
      restored.dumpFields = .ok (redactPayload fields) := by
  obtain ⟨redacted, hredacted, hplain, htype, hdump⟩ := exists_redacted hvalid hfields
  exact ⟨redacted, htype ▸ validate_dumpFields hredacted hplain hdump, htype, hdump⟩

end

/-! ## Stored events -/

/-- The event is the stored form of the step. -/
structure StoredAs (step : TraceStep) (event : TraceEvent) : Prop where
  id : event.id = step.id
  sequenceNo : event.sequenceNo = step.sequenceNo
  parent : event.parentEventId = step.parentStepId
  duration : event.durationMs = step.durationMs
  eventType : event.eventType = step.payload.eventType
  payload : ∃ fields, step.payload.dumpFields = .ok fields ∧ event.payload = redactPayload fields

/-- A stored step. -/
theorem storedAs_of_storedStep {step : TraceStep} {create : TraceEventCreate} {event : TraceEvent}
    (h : Trace.storedStep step = .ok create) (hevent : event.toTraceEventCreate = create.redacted) :
    StoredAs step event := by
  obtain ⟨fields, hfields, h⟩ := except_bind_eq_ok.mp h
  obtain rfl := Except.ok.inj h
  exact ⟨congrArg TraceEventCreate.id hevent, congrArg TraceEventCreate.sequenceNo hevent,
    congrArg TraceEventCreate.parentEventId hevent, congrArg TraceEventCreate.durationMs hevent,
    congrArg TraceEventCreate.eventType hevent, fields, hfields,
    congrArg TraceEventCreate.payload hevent⟩

/-- **A stored trace is its steps, one by one.** -/
theorem forall₂_storedAs {steps : List TraceStep} {creates : List TraceEventCreate}
    {events : List TraceEvent} (h : steps.mapM Trace.storedStep = .ok creates)
    (hevents : events.map (·.toTraceEventCreate) = creates.map (·.redacted)) :
    List.Forall₂ StoredAs steps events := by
  induction steps generalizing creates events with
  | nil =>
    obtain rfl := Except.ok.inj h
    obtain rfl := List.map_eq_nil_iff.mp hevents
    exact .nil
  | cons step steps ih =>
    rw [List.mapM_cons] at h
    obtain ⟨create, hstep, h⟩ := except_bind_eq_ok.mp h
    obtain ⟨creates', hsteps, h⟩ := except_bind_eq_ok.mp h
    obtain rfl := Except.ok.inj h
    obtain ⟨event, events', rfl, hevent, hrest⟩ := List.map_eq_cons_iff.mp hevents
    exact .cons (storedAs_of_storedStep hstep hevent) (ih hsteps hrest)

theorem map_sequenceNo_of_storedAs {steps : List TraceStep} {events : List TraceEvent}
    (h : List.Forall₂ StoredAs steps events) :
    events.map (·.sequenceNo) = steps.map (·.sequenceNo) :=
  (map_eq_map_of_forall₂ h fun _ _ hstored => hstored.sequenceNo.symm).symm

/-! ## Reading back -/

/-- Every parent is the id of an earlier step, or one of these. -/
def ParentsBefore : (ids : List UUID) → List TraceStep → Prop
  | _, [] => True
  | ids, step :: steps =>
    (∀ parent, step.parentStepId = some parent → parent ∈ ids) ∧
      ParentsBefore (ids ++ [step.id]) steps

theorem parentsBefore_append {ids : List UUID} {steps steps' : List TraceStep} :
    ParentsBefore ids (steps ++ steps') ↔
      ParentsBefore ids steps ∧ ParentsBefore (ids ++ steps.map (·.id)) steps' := by
  induction steps generalizing ids with
  | nil => simp [ParentsBefore]
  | cons step steps ih => simp [ParentsBefore, ih, and_assoc]

/-- More ids to choose from do no harm. -/
theorem ParentsBefore.mono {steps : List TraceStep} :
    ∀ {ids ids' : List UUID}, ParentsBefore ids steps → ids ⊆ ids' → ParentsBefore ids' steps := by
  induction steps with
  | nil => exact fun _ _ => trivial
  | cons step steps ih =>
    rintro ids ids' ⟨hparent, hrest⟩ hids
    exact ⟨fun parent h => hids (hparent parent h),
      ih hrest (List.append_subset.mpr ⟨List.Subset.trans hids (List.subset_append_left ..),
        List.subset_append_right ..⟩)⟩

/-- A stored step, read back. -/
structure RestoredAs (step restored : TraceStep) : Prop where
  id : restored.id = step.id
  sequenceNo : restored.sequenceNo = step.sequenceNo
  parent : restored.parentStepId = step.parentStepId
  duration : restored.durationMs = step.durationMs
  eventType : restored.payload.eventType = step.payload.eventType
  payload : ∃ fields, step.payload.dumpFields = .ok fields ∧
    restored.payload.dumpFields = .ok (redactPayload fields)

namespace Trace

variable [Pydantic]

/-- The step an event is read back as. -/
def restoredStep (event : TraceEvent) (payload : StepPayload) : TraceStep where
  id := event.id
  sequenceNo := event.sequenceNo
  payload := payload
  parentStepId := event.parentEventId
  durationMs := event.durationMs
  createdAt := some event.createdAt

/-- The loop of `from_storage`. -/
def restore : (expected : ℕ) → List TraceEvent → Trace → Except PyError Trace
  | _, [], trace => .ok trace
  | expected, event :: events, trace =>
    if event.sequenceNo ≠ expected then
      .error (.valueError
        s!"trace event sequence gap: expected {expected}, got {event.sequenceNo}")
    else
      match event.parentEventId.filter fun parent => !trace.hasStep parent with
      | some parent =>
        .error (.valueError s!"parent_event_id {parent} is not a prior step in this trace")
      | none => do
        let payload ← StepPayload.validate event.eventType event.payload
        restore (expected + 1) events
          { trace with steps := trace.steps ++ [restoredStep event payload] }

/-- `Trace.from_storage` -/
def fromStorage (executionId : UUID) (events : List TraceEvent) : Except PyError Trace :=
  restore 0 (events.insertionSort fun a b => a.sequenceNo ≤ b.sequenceNo) { executionId }

/-- The step an event is read as, if its payload parses. -/
def readStep (event : TraceEvent) : Except PyError TraceStep := do
  let payload ← StepPayload.validate event.eventType event.payload
  return restoredStep event payload

theorem readStep_eq_ok_iff {event : TraceEvent} {step : TraceStep} :
    readStep event = .ok step ↔ ∃ payload,
      StepPayload.validate event.eventType event.payload = .ok payload ∧
        step = restoredStep event payload := by
  rw [readStep, except_bind_eq_ok]
  exact exists_congr fun payload => and_congr_right fun _ =>
    ⟨fun h => (Except.ok.inj h).symm, fun h => congrArg Except.ok h.symm⟩

omit [Pydantic] in
/-- A parent is found among the steps there are. -/
theorem filter_hasStep_eq_none_iff {trace : Trace} {parentEventId : Option UUID} :
    (parentEventId.filter fun parent => !trace.hasStep parent) = none ↔
      ∀ parent, parentEventId = some parent → parent ∈ trace.steps.map (·.id) := by
  rw [Option.filter_eq_none_iff]
  refine forall₂_congr fun parent _ => ?_
  simp [hasStep]

/-- **What the loop accepts**: events that parse, numbered from where it stands, each parent an
earlier step.  Induction on the events. -/
theorem restore_eq_ok_iff {events : List TraceEvent} : ∀ {expected : ℕ} {trace trace' : Trace},
    restore expected events trace = .ok trace' ↔ ∃ steps, events.mapM readStep = .ok steps ∧
      steps.map (·.sequenceNo) = List.range' expected steps.length ∧
      ParentsBefore (trace.steps.map (·.id)) steps ∧
      trace' = { trace with steps := trace.steps ++ steps } := by
  induction events with
  | nil =>
    intro expected trace trace'
    rw [restore]
    constructor
    · intro h
      obtain rfl := Except.ok.inj h
      exact ⟨[], rfl, rfl, trivial, by rw [List.append_nil]⟩
    · rintro ⟨steps, hsteps, -, -, rfl⟩
      obtain rfl : [] = steps := Except.ok.inj hsteps
      rw [List.append_nil]
  | cons event events ih =>
    intro expected trace trace'
    rw [restore]
    constructor
    · intro h
      split_ifs at h with hno
      split at h
      · cases h
      rename_i hparent
      obtain ⟨payload, hpayload, h⟩ := except_bind_eq_ok.mp h
      obtain ⟨steps, hsteps, hnos, hparents, rfl⟩ := ih.mp h
      have hread := readStep_eq_ok_iff.mpr ⟨payload, hpayload, rfl⟩
      refine ⟨restoredStep event payload :: steps, ?_, ?_,
        ⟨filter_hasStep_eq_none_iff.mp hparent, ?_⟩, ?_⟩
      · rw [List.mapM_cons, hread, hsteps]
        rfl
      · rw [List.map_cons, List.length_cons, List.range'_succ, hnos]
        exact congrArg (· :: _) (not_not.mp hno)
      · rwa [List.map_append] at hparents
      · rw [List.append_assoc]
        rfl
    · rintro ⟨steps, hsteps, hnos, hparents, rfl⟩
      rw [List.mapM_cons] at hsteps
      obtain ⟨step, hstep, hsteps⟩ := except_bind_eq_ok.mp hsteps
      obtain ⟨steps', hsteps', h⟩ := except_bind_eq_ok.mp hsteps
      obtain rfl := Except.ok.inj h
      obtain ⟨payload, hpayload, rfl⟩ := readStep_eq_ok_iff.mp hstep
      rw [List.map_cons, List.length_cons, List.range'_succ] at hnos
      obtain ⟨hno, hnos⟩ := List.cons.inj hnos
      change event.sequenceNo = expected at hno
      have hparent := filter_hasStep_eq_none_iff.mpr hparents.1
      change (event.parentEventId.filter fun parent => !trace.hasStep parent) = none at hparent
      rw [if_neg (not_not.mpr hno), hparent, hpayload]
      refine ih.mpr ⟨steps', hsteps', hnos, ?_, ?_⟩
      · rw [List.map_append]
        exact hparents.2
      · rw [List.append_assoc]
        rfl

/-- A stored step is read back. -/
theorem StoredAs.readStep {step : TraceStep} {event : TraceEvent} (h : StoredAs step event)
    (hvalid : step.payload.Valid) :
    ∃ restored, readStep event = .ok restored ∧ RestoredAs step restored := by
  obtain ⟨fields, hfields, hpayload⟩ := h.payload
  obtain ⟨payload, hrestored, htype, hdump⟩ := validate_redactPayload hvalid hfields
  rw [← h.eventType, ← hpayload] at hrestored
  exact ⟨_, readStep_eq_ok_iff.mpr ⟨payload, hrestored, rfl⟩,
    ⟨h.id, h.sequenceNo, h.parent, h.duration, htype, fields, hfields, hdump⟩⟩

theorem exists_readSteps {steps : List TraceStep} {events : List TraceEvent}
    (h : List.Forall₂ StoredAs steps events) (hvalid : ∀ step ∈ steps, step.payload.Valid) :
    ∃ restored, events.mapM readStep = .ok restored ∧
      List.Forall₂ RestoredAs steps restored := by
  induction h with
  | nil => exact ⟨[], rfl, .nil⟩
  | cons hstored _ ih =>
    obtain ⟨hstep, hvalid⟩ := List.forall_mem_cons.mp hvalid
    obtain ⟨restored, hread, hrestored⟩ := StoredAs.readStep hstored hstep
    obtain ⟨rest, hrest, hall⟩ := ih hvalid
    refine ⟨restored :: rest, ?_, .cons hrestored hall⟩
    rw [List.mapM_cons, hread, hrest]
    rfl

omit [Pydantic] in
/-- Steps with the same numbers. -/
theorem map_sequenceNo_of_restoredAs {steps restored : List TraceStep}
    (h : List.Forall₂ RestoredAs steps restored) :
    restored.map (·.sequenceNo) = steps.map (·.sequenceNo) :=
  (map_eq_map_of_forall₂ h fun _ _ hrestored => hrestored.sequenceNo.symm).symm

omit [Pydantic] in
/-- Steps with the same ids and parents. -/
theorem parentsBefore_of_restoredAs {steps restored : List TraceStep}
    (h : List.Forall₂ RestoredAs steps restored) :
    ∀ {ids : List UUID}, ParentsBefore ids steps → ParentsBefore ids restored := by
  induction h with
  | nil => exact id
  | cons hrestored _ ih =>
    rintro ids ⟨hparent, hrest⟩
    refine ⟨hrestored.parent ▸ hparent, ih ?_⟩
    rw [hrestored.id]
    exact hrest

/-- **The loop reads stored steps back**, one by one. -/
theorem restore_of_storedAs {steps : List TraceStep} {events : List TraceEvent}
    (h : List.Forall₂ StoredAs steps events) (expected : ℕ) (trace : Trace)
    (hnumbered : steps.map (·.sequenceNo) = List.range' expected steps.length)
    (hparents : ParentsBefore (trace.steps.map (·.id)) steps)
    (hvalid : ∀ step ∈ steps, step.payload.Valid) :
    ∃ restored, restore expected events trace =
        .ok { trace with steps := trace.steps ++ restored } ∧
      List.Forall₂ RestoredAs steps restored := by
  obtain ⟨restored, hread, hrestored⟩ := exists_readSteps h hvalid
  refine ⟨restored, restore_eq_ok_iff.mpr ⟨restored, hread, ?_,
    parentsBefore_of_restoredAs hrestored hparents, rfl⟩, hrestored⟩
  rw [map_sequenceNo_of_restoredAs hrestored, hnumbered, hrestored.length_eq]

/-- **A stored trace is read back**, in any order of its events that the store returns. -/
theorem fromStorage_of_storedAs {steps : List TraceStep} {events : List TraceEvent}
    (executionId : UUID) (h : List.Forall₂ StoredAs steps events)
    (hnumbered : steps.map (·.sequenceNo) = List.range steps.length)
    (hparents : ParentsBefore [] steps) (hvalid : ∀ step ∈ steps, step.payload.Valid) :
    ∃ restored, fromStorage executionId events = .ok { executionId, steps := restored } ∧
      List.Forall₂ RestoredAs steps restored := by
  have hsorted : events.insertionSort (fun a b => a.sequenceNo ≤ b.sequenceNo) = events := by
    have hnos : events.map (·.sequenceNo) = List.range steps.length := by
      rw [map_sequenceNo_of_storedAs h, hnumbered]
    have hpairwise : (events.map (·.sequenceNo)).Pairwise (· ≤ ·) := by
      rw [hnos]
      exact List.pairwise_le_range
    exact List.Pairwise.insertionSort_eq (List.pairwise_map.mp hpairwise)
  rw [fromStorage, hsorted]
  exact restore_of_storedAs h _ _ (by rw [hnumbered, List.range_eq_range']) hparents hvalid

end Trace

end AgentProof
