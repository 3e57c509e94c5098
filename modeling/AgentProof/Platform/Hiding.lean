import AgentProof.Platform.FirstDivergence
import AgentProof.Platform.Noninterference

/-!
# Platform/Hiding — redaction hides a divergence or delays it

Attribution runs on stored events, whose payloads are redacted.  What tells two stored events apart
tells the events apart that were appended, and in the same way (`eventDivergence_of_redacted`): the
detector compares payloads by `==`, which redaction respects, and a tool is named by two strings,
which redaction keeps.
-/

open Machinery

namespace AgentProof

/-! ## One payload -/

/-- Equal values agree outside their sensitive values. -/
theorem AgreeOutside.of_eq {E : Json → Json → Prop} (hE : Json.Extensional E) (x : Json) :
    ∀ {y : Json}, E x y → AgreeOutside E x y := by
  induction x using Json.induct with
  | scalar j hj => exact fun h => .scalar hj (by rw [← hE.scalar_eq h, hj]) h
  | arr items ih =>
    intro y h
    obtain ⟨ys, rfl⟩ := hE.exists_arr h
    obtain ⟨hlength, hitems⟩ := List.forall₂_iff_get.mp (hE.arr_iff.mp h)
    refine .arr hlength fun i a b ha hb => ?_
    obtain ⟨hi, rfl⟩ := List.getElem?_eq_some_iff.mp ha
    obtain ⟨hi', rfl⟩ := List.getElem?_eq_some_iff.mp hb
    exact ih _ (List.getElem_mem hi) (hitems i hi hi')
  | obj fields ih =>
    intro y h
    obtain ⟨gs, rfl⟩ := hE.exists_obj h
    have hread := hE.obj_iff.mp h
    refine .obj (fun k => isSome_eq_of_rel (hread k)) fun k a b _ ha hb => ?_
    have hread := hread k
    rw [ha, hb, Option.rel_some_some] at hread
    exact ih k a ha hread

/-- **Redaction respects `==`.** -/
theorem Json.Alike.redactValue {x y : Json} (h : x.Alike y) :
    (redactValue x).Alike (redactValue y) :=
  (AgreeOutside.of_eq alike_extensional x h).redactValue_eq alike_extensional

/-- Equal values are compared alike after redaction. -/
theorem pyEq_redactValue {x y : Json} (h : x.pyEq y = true) :
    (redactValue x).pyEq (redactValue y) = true :=
  Json.pyEq_iff.mpr (Json.Alike.redactValue (Json.pyEq_iff.mp h))

/-! ## One event -/

namespace TraceEvent

/-- The event as it is stored. -/
def redacted (event : TraceEvent) : TraceEvent :=
  { event with toTraceEventCreate := event.toTraceEventCreate.redacted }

@[simp] theorem redacted_eventType (event : TraceEvent) :
    event.redacted.eventType = event.eventType := rfl

@[simp] theorem redacted_payload (event : TraceEvent) :
    event.redacted.payload = redactPayload event.payload := rfl

/-- What is read under an innocent key is redacted. -/
theorem field_redacted (event : TraceEvent) {key : String} (h : isSensitive key = false) :
    event.redacted.field key = redactValue (event.field key) := by
  rw [field, field, redacted_payload, get?_redactPayload_of_innocent _ h]
  cases Dict.get? event.payload key <;> rfl

/-- A tool call names its service and its operation by strings. -/
def NamesTool (event : TraceEvent) : Prop :=
  event.eventType = .toolCall →
    (∃ service, event.field "service" = .str service) ∧
      ∃ operation, event.field "operation" = .str operation

/-- The strings that name the tool are stored as they are. -/
theorem NamesTool.field_redacted {event : TraceEvent} (h : event.NamesTool)
    (hcall : event.eventType = .toolCall) :
    event.redacted.field "service" = event.field "service" ∧
      event.redacted.field "operation" = event.field "operation" := by
  obtain ⟨⟨service, hservice⟩, operation, hoperation⟩ := h hcall
  rw [event.field_redacted (by decide), event.field_redacted (by decide), hservice, hoperation]
  exact ⟨rfl, rfl⟩

end TraceEvent

/-- Tools are told apart alike before and after redaction. -/
theorem sameTool_redacted {left right : TraceEvent} (hleft : left.NamesTool)
    (hright : right.NamesTool) (hcall : left.eventType = .toolCall)
    (hcall' : right.eventType = .toolCall) :
    ((left.redacted.field "service").pySame (right.redacted.field "service") ∧
        (left.redacted.field "operation").pySame (right.redacted.field "operation")) ↔
      ((left.field "service").pySame (right.field "service") ∧
        (left.field "operation").pySame (right.field "operation")) := by
  rw [(hleft.field_redacted hcall).1, (hleft.field_redacted hcall).2,
    (hright.field_redacted hcall').1, (hright.field_redacted hcall').2]

/-- What differs after redaction under an innocent key differed before. -/
theorem field_pyEq_redacted (left right : TraceEvent) (key : String)
    (hkey : isSensitive key = false) (h : (left.field key).pyEq (right.field key) = true) :
    (left.redacted.field key).pyEq (right.redacted.field key) = true := by
  rw [left.field_redacted hkey, right.field_redacted hkey]
  exact pyEq_redactValue h

/-- **What tells two stored events apart told them apart before**, in the same way. -/
theorem eventDivergence_of_redacted {left right : TraceEvent} (hleft : left.NamesTool)
    (hright : right.NamesTool) {divergence : TraceDivergenceType}
    (h : eventDivergence left.redacted right.redacted = some divergence) :
    eventDivergence left right = some divergence := by
  have hpayload : (Json.obj left.payload).pyEq (.obj right.payload) = true →
      (Json.obj left.redacted.payload).pyEq (.obj right.redacted.payload) = true :=
    fun h => pyEq_redactValue (x := .obj left.payload) (y := .obj right.payload) h
  have harguments := field_pyEq_redacted left right "arguments" (by decide)
  have hcontent := field_pyEq_redacted left right "content" (by decide)
  have htool := sameTool_redacted hleft hright
  simp only [eventDivergence, TraceEvent.redacted_eventType] at h ⊢
  -- every condition of the detector is the same as before, or held before
  grind

/-! ## Two traces -/

/-- The events as they are stored. -/
abbrev redactedEvents (events : List TraceEvent) : List TraceEvent := events.map (·.redacted)

variable {baselineEvents candidateEvents : List TraceEvent}

/-- Every tool call of a trace names its tool by strings. -/
abbrev NameTools (events : List TraceEvent) : Prop := ∀ event ∈ events, event.NamesTool

/-- **Redaction only delays the detector.** -/
theorem divergencePosition_le_redacted (hbaseline : NameTools baselineEvents)
    (hcandidate : NameTools candidateEvents) :
    divergencePosition baselineEvents candidateEvents ≤
      divergencePosition (redactedEvents baselineEvents) (redactedEvents candidateEvents) := by
  have hzip : (redactedEvents baselineEvents).zip (redactedEvents candidateEvents) =
      (baselineEvents.zip candidateEvents).map fun pair => (pair.1.redacted, pair.2.redacted) :=
    List.zip_map
  rw [divergencePosition, divergencePosition, hzip, List.findIdx_map]
  refine List.findIdx_le_findIdx fun pair hmem hsome => ?_
  obtain ⟨divergence, hdivergence⟩ := Option.isSome_iff_exists.mp hsome
  obtain ⟨hleft, hright⟩ := List.of_mem_zip hmem
  have hdivergence := eventDivergence_of_redacted (hbaseline _ hleft) (hcandidate _ hright)
    hdivergence
  exact Option.isSome_iff_exists.mpr ⟨divergence, hdivergence⟩

/-- A divergence of the stored events is one of the events that were appended. -/
theorem firstDivergence_ne_none_of_redacted {taskId : String} {baseline candidate : TaskExecution}
    (hbaseline : NameTools baselineEvents) (hcandidate : NameTools candidateEvents)
    {attribution : TraceAttribution}
    (h : firstDivergence taskId baseline candidate (redactedEvents baselineEvents)
      (redactedEvents candidateEvents) = some attribution) :
    firstDivergence taskId baseline candidate baselineEvents candidateEvents ≠ none := by
  have hle := divergencePosition_le_redacted hbaseline hcandidate
  refine firstDivergence_ne_none ?_
  rcases firstDivergence_eq_some h with ⟨left, right, _, hleft, hright, -⟩ | ⟨-, hlength, -⟩
  · obtain ⟨hi, -⟩ := List.getElem?_eq_some_iff.mp hleft
    obtain ⟨hi', -⟩ := List.getElem?_eq_some_iff.mp hright
    simp only [List.length_map] at hi hi'
    exact .inl (lt_min (lt_of_le_of_lt hle hi) (lt_of_le_of_lt hle hi'))
  · simp only [List.length_map] at hlength
    exact .inr hlength

/-- **At the same position, the divergence is of the same type.** -/
theorem divergenceType_eq_of_redacted {taskId : String} {baseline candidate : TaskExecution}
    (hbaseline : NameTools baselineEvents) (hcandidate : NameTools candidateEvents)
    {attribution attribution' : TraceAttribution}
    (h : firstDivergence taskId baseline candidate (redactedEvents baselineEvents)
      (redactedEvents candidateEvents) = some attribution)
    (h' : firstDivergence taskId baseline candidate baselineEvents candidateEvents =
      some attribution')
    (hposition : divergencePosition baselineEvents candidateEvents =
      divergencePosition (redactedEvents baselineEvents) (redactedEvents candidateEvents)) :
    attribution'.divergenceType = attribution.divergenceType := by
  rcases firstDivergence_eq_some h with
    ⟨_, _, divergence, hleft, hright, hdivergence, rfl⟩ | ⟨hend, hlength, rfl⟩
  · -- the pair of stored events comes from a pair at the same position
    rw [← hposition, List.getElem?_map] at hleft hright
    obtain ⟨left, hget, rfl⟩ := Option.map_eq_some_iff.mp hleft
    obtain ⟨right, hget', rfl⟩ := Option.map_eq_some_iff.mp hright
    have hbefore := eventDivergence_of_redacted (hbaseline _ (List.mem_of_getElem? hget))
      (hcandidate _ (List.mem_of_getElem? hget')) hdivergence
    rcases firstDivergence_eq_some h' with
      ⟨left', right', divergence', hleft', hright', hdivergence', rfl⟩ | ⟨hend, -, -⟩
    · obtain rfl := Option.some.inj (hget.symm.trans hleft')
      obtain rfl := Option.some.inj (hget'.symm.trans hright')
      exact Option.some.inj (hdivergence'.symm.trans hbefore)
    · obtain ⟨hi, -⟩ := List.getElem?_eq_some_iff.mp hget
      obtain ⟨hi', -⟩ := List.getElem?_eq_some_iff.mp hget'
      omega
  · -- the shorter trace ends there, so no pair is left
    simp only [List.length_map] at hend
    rcases firstDivergence_eq_some h' with ⟨_, _, _, hleft, hright, -⟩ | ⟨-, -, rfl⟩
    · obtain ⟨hi, -⟩ := List.getElem?_eq_some_iff.mp hleft
      obtain ⟨hi', -⟩ := List.getElem?_eq_some_iff.mp hright
      omega
    · rfl

/-- **Redaction hides a divergence or delays it, and never makes one up.**  Where the stored events
diverge, the events that were appended diverge no later; at the same position, in the same way. -/
theorem redaction_only_hides (taskId : String) (baseline candidate : TaskExecution)
    {baselineEvents candidateEvents : List TraceEvent} (hbaseline : NameTools baselineEvents)
    (hcandidate : NameTools candidateEvents) :
    (∀ attribution, firstDivergence taskId baseline candidate (redactedEvents baselineEvents)
        (redactedEvents candidateEvents) = some attribution →
      ∃ attribution', firstDivergence taskId baseline candidate baselineEvents candidateEvents =
          some attribution' ∧
        divergencePosition baselineEvents candidateEvents ≤
          divergencePosition (redactedEvents baselineEvents) (redactedEvents candidateEvents) ∧
        (divergencePosition baselineEvents candidateEvents =
            divergencePosition (redactedEvents baselineEvents) (redactedEvents candidateEvents) →
          attribution'.divergenceType = attribution.divergenceType)) ∧
    (firstDivergence taskId baseline candidate baselineEvents candidateEvents = none →
      firstDivergence taskId baseline candidate (redactedEvents baselineEvents)
        (redactedEvents candidateEvents) = none) := by
  refine ⟨fun attribution h => ?_, fun hnone => ?_⟩
  · obtain ⟨attribution', h'⟩ :=
      Option.ne_none_iff_exists'.mp (firstDivergence_ne_none_of_redacted hbaseline hcandidate h)
    exact ⟨attribution', h', divergencePosition_le_redacted hbaseline hcandidate,
      divergenceType_eq_of_redacted hbaseline hcandidate h h'⟩
  · by_contra hsome
    obtain ⟨attribution, h⟩ := Option.ne_none_iff_exists'.mp hsome
    exact firstDivergence_ne_none_of_redacted hbaseline hcandidate h hnone

/-! ### A divergence that is delayed -/

/-- A call of `get_customer` that names an e-mail address, and the answer that follows. -/
def lookupEvents (email answer : String) : List TraceEvent :=
  [{ id := "call", sequenceNo := 0, eventType := .toolCall,
     payload := [("service", .str "customer"), ("operation", .str "get_customer"),
      ("arguments", .obj [("customer_id", .str "CUST-001"), ("email", .str email)])],
     parentEventId := none, durationMs := none, executionId := "execution", createdAt := 0 },
    { id := "answer", sequenceNo := 1, eventType := .finalAnswer,
      payload := [("content", .str answer)],
      parentEventId := none, durationMs := none, executionId := "execution", createdAt := 0 }]

theorem nameTools_lookupEvents (email answer : String) : NameTools (lookupEvents email answer) := by
  intro event hmem
  rcases List.mem_cons.mp hmem with rfl | hmem
  · exact fun _ => ⟨⟨_, rfl⟩, _, rfl⟩
  · obtain rfl := List.mem_singleton.mp hmem
    exact fun h => absurd h (by simp)

/-- Two lookups that differ in the address differ in the answer only, once they are stored. -/
theorem redaction_only_hides_lookup :
    let execution : TaskExecution := { id := "e", runId := "r", taskId := "t", taskSeed := 1,
                                       createdAt := 0 }
    let baselineEvents := lookupEvents "ada@example.test" "refunded"
    let candidateEvents := lookupEvents "bob@example.test" "refused"
    divergencePosition baselineEvents candidateEvents = 0 ∧
      divergencePosition (redactedEvents baselineEvents) (redactedEvents candidateEvents) = 1 ∧
      ∀ attribution, firstDivergence "t" execution execution (redactedEvents baselineEvents)
          (redactedEvents candidateEvents) = some attribution →
        ∃ attribution', firstDivergence "t" execution execution baselineEvents candidateEvents =
          some attribution' := by
  refine ⟨by decide, by decide, fun attribution h => ?_⟩
  obtain ⟨attribution', h', -⟩ := (redaction_only_hides "t" _ _
    (nameTools_lookupEvents "ada@example.test" "refunded")
    (nameTools_lookupEvents "bob@example.test" "refused")).1 attribution h
  exact ⟨attribution', h'⟩

end AgentProof
