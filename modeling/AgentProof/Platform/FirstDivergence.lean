import AgentProof.Platform.Comparison
import Mathlib.Data.List.Zip
import Mathlib.Order.Bounds.Defs

/-!
# Platform/FirstDivergence — where the detector stops

Two events are told apart by `TraceEvent.compared`, so *no divergence* is an equivalence and the
type of a divergence is the same from either side.  Only a `NaN` gets in the way: an event that
compares one diverges from every event, itself included (`eventDivergence_eq_none_iff`).

`firstDivergence` goes along the two traces by position.  `divergencePosition` is the position it
stops at, and `firstDivergence_eq_some` says what it reports there: the pair of events at that
position, or the end of the shorter trace.  `firstDivergence_minimal` puts this together: the
position is the least one, and exchanging the traces exchanges the sides of the report.
-/

open Machinery

namespace AgentProof

/-! ## What an event is compared by -/

section Events

variable {F : Type} [DecidableEq F] [Floats F]

/-- What `eventDivergence` reads of an event: its type, and up to `==` the payload of an error, the
tool and arguments of a call, the content of a final answer. -/
def TraceEvent.compared (event : TraceEvent F) : EventType × List (Json F) :=
  (event.eventType,
    if event.eventType = .error then [(Json.obj event.payload).canon]
    else if event.eventType = .toolCall then
      [(event.field "service").canon, (event.field "operation").canon,
        (event.field "arguments").canon]
    else if event.eventType = .finalAnswer then [(event.field "content").canon]
    else [])

/-- The event compares a `NaN`: as the arguments of a call, or as the content of a final answer. -/
def TraceEvent.ComparesNan (event : TraceEvent F) : Prop :=
  event.eventType = .toolCall ∧ (event.field "arguments").isNan = true ∨
    event.eventType = .finalAnswer ∧ (event.field "content").isNan = true

/-- **Two events are told apart** by what is compared of them, and by nothing else; a `NaN` is told
from everything. -/
theorem eventDivergence_eq_none_iff {left right : TraceEvent F} :
    eventDivergence left right = none ↔ left.compared = right.compared ∧ ¬ left.ComparesNan := by
  have hobj : (Json.obj left.payload).isNan = false := rfl
  simp only [eventDivergence, TraceEvent.compared, TraceEvent.ComparesNan, Prod.mk.injEq,
    Json.pyEq_iff_of_floats, Json.pySame_iff, hobj]
  grind

/-- **The type of a divergence** is the same from either side. -/
theorem eventDivergence_comm (left right : TraceEvent F) :
    eventDivergence left right = eventDivergence right left := by
  simp only [eventDivergence, Json.pyEq_comm (.obj left.payload), Json.pySame_iff,
    Json.pyEq_comm (left.field _)]
  grind

/-- **An event that compares a `NaN`** diverges from every event. -/
theorem eventDivergence_ne_none_of_comparesNan {event : TraceEvent F} (h : event.ComparesNan)
    (other : TraceEvent F) : eventDivergence event other ≠ none :=
  fun hnone => (eventDivergence_eq_none_iff.mp hnone).2 h

/-- **No divergence is an equivalence** on the other events. -/
theorem eventDivergence_equivalence :
    Equivalence fun left right : { event : TraceEvent F // ¬ event.ComparesNan } =>
      eventDivergence left.1 right.1 = none := by
  refine ⟨fun event => ?_, fun h => ?_, fun h h' => ?_⟩
  · exact eventDivergence_eq_none_iff.mpr ⟨rfl, event.2⟩
  · rwa [eventDivergence_comm] at h
  · obtain ⟨hleft, hnan⟩ := eventDivergence_eq_none_iff.mp h
    exact eventDivergence_eq_none_iff.mpr
      ⟨hleft.trans (eventDivergence_eq_none_iff.mp h').1, hnan⟩

end Events

variable {F : Type} [DecidableEq F] [Floats F]

/-- The position the detector stops at: of the first pair it tells apart, or where the shorter trace
ends. -/
def divergencePosition (baselineEvents candidateEvents : List (TraceEvent F)) : ℕ :=
  (baselineEvents.zip candidateEvents).findIdx fun pair => (eventDivergence pair.1 pair.2).isSome

/-- The position is the same from either side. -/
theorem divergencePosition_comm (baselineEvents candidateEvents : List (TraceEvent F)) :
    divergencePosition candidateEvents baselineEvents =
      divergencePosition baselineEvents candidateEvents := by
  rw [divergencePosition, ← List.zip_swap, List.findIdx_map, divergencePosition]
  congr 1
  funext pair
  rw [Function.comp_apply, Prod.fst_swap, Prod.snd_swap, eventDivergence_comm]

/-- The positions at which both traces have an event, and the two events are told apart. -/
def divergences (baselineEvents candidateEvents : List (TraceEvent F)) : Set ℕ :=
  {i | ∃ left right, baselineEvents[i]? = some left ∧ candidateEvents[i]? = some right ∧
    eventDivergence left right ≠ none}

section

variable {taskId : String} {baseline candidate : TaskExecution}
  {baselineEvents candidateEvents : List (TraceEvent F)}

/-- Before that position, no pair is told apart. -/
theorem eventDivergence_eq_none_of_lt {i : ℕ}
    (h : i < divergencePosition baselineEvents candidateEvents) {left right : TraceEvent F}
    (hleft : baselineEvents[i]? = some left) (hright : candidateEvents[i]? = some right) :
    eventDivergence left right = none := by
  have hpair : (baselineEvents.zip candidateEvents)[i]? = some (left, right) :=
    List.getElem?_zip_eq_some.mpr ⟨hleft, hright⟩
  obtain ⟨hi, hpair⟩ := List.getElem?_eq_some_iff.mp hpair
  have hnot := List.not_of_lt_findIdx h
  rw [hpair] at hnot
  simpa using hnot

/-- **What is reported where the detector stops.** -/
theorem firstDivergence_eq_some {attribution : TraceAttribution F}
    (h : firstDivergence taskId baseline candidate baselineEvents candidateEvents =
      some attribution) :
    (∃ left right divergence,
      baselineEvents[divergencePosition baselineEvents candidateEvents]? = some left ∧
      candidateEvents[divergencePosition baselineEvents candidateEvents]? = some right ∧
      eventDivergence left right = some divergence ∧
      attribution = eventAttribution taskId baseline candidate left right divergence) ∨
    divergencePosition baselineEvents candidateEvents =
        min baselineEvents.length candidateEvents.length ∧
      baselineEvents.length ≠ candidateEvents.length ∧
      attribution = lengthAttribution taskId baseline candidate baselineEvents candidateEvents := by
  rw [firstDivergence] at h
  split at h
  · rename_i found hfound
    obtain rfl := Option.some.inj h
    obtain ⟨before, pair, after, hzip, hpair, hbefore⟩ := List.findSome?_eq_some_iff.mp hfound
    obtain ⟨divergence, hdivergence, rfl⟩ := Option.map_eq_some_iff.mp hpair
    have hposition : divergencePosition baselineEvents candidateEvents = before.length := by
      have hnone : ∀ pair ∈ before, (eventDivergence pair.1 pair.2).isSome = false := by
        intro pair hmem
        simpa using hbefore pair hmem
      rw [divergencePosition, hzip, List.findIdx_append, List.findIdx_eq_length_of_false hnone,
        if_neg (lt_irrefl _), List.findIdx_cons]
      simp [hdivergence]
    have hget : (baselineEvents.zip candidateEvents)[before.length]? = some pair := by
      rw [hzip, List.getElem?_append_right (le_refl _), Nat.sub_self, List.getElem?_cons_zero]
    obtain ⟨hleft, hright⟩ := List.getElem?_zip_eq_some.mp hget
    rw [hposition]
    exact .inl ⟨pair.1, pair.2, divergence, hleft, hright, hdivergence, rfl⟩
  · rename_i hnone
    split_ifs at h with hlength
    obtain rfl := Option.some.inj h
    refine .inr ⟨?_, hlength, rfl⟩
    rw [← List.length_zip]
    refine List.findIdx_eq_length_of_false fun pair hmem => ?_
    simpa using List.findSome?_eq_none_iff.mp hnone pair hmem

/-- **The detector reports something** when a pair is told apart, or the lengths differ. -/
theorem firstDivergence_ne_none (h : divergencePosition baselineEvents candidateEvents <
      min baselineEvents.length candidateEvents.length ∨
    baselineEvents.length ≠ candidateEvents.length) :
    firstDivergence taskId baseline candidate baselineEvents candidateEvents ≠ none := by
  intro hnone
  have hforall := List.forall₂_iff_zip.mp (firstDivergence_eq_none_iff.mp hnone)
  rcases h with hposition | hlength
  · rw [← List.length_zip, divergencePosition, List.findIdx_lt_length] at hposition
    obtain ⟨⟨left, right⟩, hmem, hsome⟩ := hposition
    rw [hforall.2 hmem] at hsome
    exact absurd hsome (by simp)
  · exact hlength hforall.1

/-- Where a pair is told apart, that is the least position where one is. -/
theorem divergencePosition_isLeast
    (h : divergencePosition baselineEvents candidateEvents ∈
      divergences baselineEvents candidateEvents) :
    IsLeast (divergences baselineEvents candidateEvents)
      (divergencePosition baselineEvents candidateEvents) := by
  refine ⟨h, fun i hi => ?_⟩
  obtain ⟨left, right, hleft, hright, hdivergence⟩ := hi
  exact not_lt.mp fun hlt =>
    hdivergence (eventDivergence_eq_none_of_lt hlt hleft hright)

/-- No pair is told apart when the detector stops at the end of the shorter trace. -/
theorem divergences_eq_empty (h : divergencePosition baselineEvents candidateEvents =
    min baselineEvents.length candidateEvents.length) :
    divergences baselineEvents candidateEvents = ∅ := by
  refine Set.eq_empty_of_forall_notMem fun i hi => ?_
  obtain ⟨left, right, hleft, hright, hdivergence⟩ := hi
  have hlt : i < divergencePosition baselineEvents candidateEvents := by
    rw [h]
    exact lt_min (List.getElem?_eq_some_iff.mp hleft).1 (List.getElem?_eq_some_iff.mp hright).1
  exact hdivergence (eventDivergence_eq_none_of_lt hlt hleft hright)

/-- The report in terms of the ids of the events at the position, on either side. -/
theorem firstDivergence_ids {attribution : TraceAttribution F}
    (h : firstDivergence taskId baseline candidate baselineEvents candidateEvents =
      some attribution) :
    attribution.baselineEventId =
        (baselineEvents[divergencePosition baselineEvents candidateEvents]?).map (·.id) ∧
      attribution.candidateEventId =
        (candidateEvents[divergencePosition baselineEvents candidateEvents]?).map (·.id) := by
  rcases firstDivergence_eq_some h with
    ⟨left, right, divergence, hleft, hright, -, rfl⟩ | ⟨hposition, hlength, rfl⟩
  · rw [hleft, hright]
    exact ⟨rfl, rfl⟩
  · rw [hposition]
    rcases Nat.lt_or_gt_of_ne hlength with hlt | hlt
    · rw [min_eq_left hlt.le]
      exact ⟨by simp [lengthAttribution, hlt.le], rfl⟩
    · rw [min_eq_right hlt.le]
      exact ⟨rfl, by simp [lengthAttribution, hlt.le]⟩

end

/-! ## Both sides of a report -/

/-- The same divergence, reported with the two sides exchanged. -/
structure TraceAttribution.Mirrors (attribution mirrored : TraceAttribution F) : Prop where
  taskId : mirrored.taskId = attribution.taskId
  divergenceType : mirrored.divergenceType = attribution.divergenceType
  baselineExecutionId : mirrored.baselineExecutionId = attribution.candidateExecutionId
  candidateExecutionId : mirrored.candidateExecutionId = attribution.baselineExecutionId
  baselineEventId : mirrored.baselineEventId = attribution.candidateEventId
  candidateEventId : mirrored.candidateEventId = attribution.baselineEventId
  payloads : Dict.get? mirrored.evidence "baseline" = Dict.get? attribution.evidence "candidate" ∧
    Dict.get? mirrored.evidence "candidate" = Dict.get? attribution.evidence "baseline"
  counts : Dict.get? mirrored.evidence "baseline_event_count" =
      Dict.get? attribution.evidence "candidate_event_count" ∧
    Dict.get? mirrored.evidence "candidate_event_count" =
      Dict.get? attribution.evidence "baseline_event_count"

/-- **Exchanging the traces** exchanges the sides of the report. -/
theorem firstDivergence_mirrors {taskId : String} {baseline candidate : TaskExecution}
    {baselineEvents candidateEvents : List (TraceEvent F)} {attribution : TraceAttribution F}
    (h : firstDivergence taskId baseline candidate baselineEvents candidateEvents =
      some attribution) :
    ∃ mirrored, firstDivergence taskId candidate baseline candidateEvents baselineEvents =
      some mirrored ∧ attribution.Mirrors mirrored := by
  have hne : firstDivergence taskId candidate baseline candidateEvents baselineEvents ≠ none := by
    intro hnone
    have hflip := List.Forall₂.flip (firstDivergence_eq_none_iff.mp hnone)
    have hnone' : firstDivergence taskId baseline candidate baselineEvents candidateEvents = none :=
      firstDivergence_eq_none_iff.mpr
        (hflip.imp fun left right hdivergence => eventDivergence_comm left right ▸ hdivergence)
    exact absurd (h.symm.trans hnone') (by simp)
  obtain ⟨mirrored, hmirrored⟩ := Option.ne_none_iff_exists'.mp hne
  refine ⟨mirrored, hmirrored, ?_⟩
  rcases firstDivergence_eq_some h with
    ⟨left, right, divergence, hleft, hright, hdivergence, rfl⟩ | ⟨hposition, hlength, rfl⟩
  · rcases firstDivergence_eq_some hmirrored with
      ⟨left', right', divergence', hleft', hright', hdivergence', rfl⟩ | ⟨hposition', -⟩
    · rw [divergencePosition_comm] at hleft' hright'
      obtain rfl := Option.some.inj (hleft'.symm.trans hright)
      obtain rfl := Option.some.inj (hright'.symm.trans hleft)
      rw [eventDivergence_comm] at hdivergence'
      obtain rfl := Option.some.inj (hdivergence'.symm.trans hdivergence)
      exact ⟨rfl, rfl, rfl, rfl, rfl, rfl, ⟨rfl, rfl⟩, rfl, rfl⟩
    · have hempty := divergences_eq_empty hposition'
      have hmem : divergencePosition baselineEvents candidateEvents ∈
          divergences candidateEvents baselineEvents :=
        ⟨right, left, hright, hleft, by rw [eventDivergence_comm, hdivergence]; simp⟩
      exact absurd (hempty ▸ hmem) (Set.notMem_empty _)
  · rcases firstDivergence_eq_some hmirrored with
      ⟨left', right', divergence', hleft', hright', hdivergence', rfl⟩ | ⟨-, -, rfl⟩
    · rw [divergencePosition_comm] at hleft' hright'
      have hempty := divergences_eq_empty hposition
      have hmem : divergencePosition baselineEvents candidateEvents ∈
          divergences baselineEvents candidateEvents :=
        ⟨right', left', hright', hleft', by rw [eventDivergence_comm, hdivergence']; simp⟩
      exact absurd (hempty ▸ hmem) (Set.notMem_empty _)
    · exact ⟨rfl, rfl, rfl, rfl, rfl, rfl, ⟨rfl, rfl⟩, rfl, rfl⟩

/-! ## The first divergence is the first -/

section

variable {taskId : String} {baseline candidate : TaskExecution}
  {baselineEvents candidateEvents : List (TraceEvent F)}

/-- **Nothing is reported** for traces of one length that diverge nowhere. -/
theorem firstDivergence_eq_none_iff_divergences :
    firstDivergence taskId baseline candidate baselineEvents candidateEvents = none ↔
      baselineEvents.length = candidateEvents.length ∧
        divergences baselineEvents candidateEvents = ∅ := by
  rw [firstDivergence_eq_none_iff, List.forall₂_iff_get]
  refine and_congr_right fun hlength => ?_
  constructor
  · intro hnone
    refine Set.eq_empty_of_forall_notMem fun i ⟨left, right, hleft, hright, hdivergence⟩ => ?_
    obtain ⟨hi, rfl⟩ := List.getElem?_eq_some_iff.mp hleft
    obtain ⟨hi', rfl⟩ := List.getElem?_eq_some_iff.mp hright
    exact hdivergence (hnone i hi hi')
  · intro hempty i hi hi'
    by_contra hdivergence
    have hmem : i ∈ divergences baselineEvents candidateEvents :=
      ⟨_, _, List.getElem?_eq_getElem hi, List.getElem?_eq_getElem hi', hdivergence⟩
    exact absurd (hempty ▸ hmem) (Set.notMem_empty i)

/-- **Past the end of the shorter trace**, the first event of the longer one is reported. -/
theorem firstDivergence_ids_of_length {attribution : TraceAttribution F}
    (h : firstDivergence taskId baseline candidate baselineEvents candidateEvents =
      some attribution)
    (hposition : divergencePosition baselineEvents candidateEvents =
      min baselineEvents.length candidateEvents.length)
    (hlength : baselineEvents.length ≠ candidateEvents.length) :
    (∃ event, candidateEvents.length < baselineEvents.length ∧
        baselineEvents[candidateEvents.length]? = some event ∧
        attribution.baselineEventId = some event.id ∧ attribution.candidateEventId = none) ∨
      ∃ event, baselineEvents.length < candidateEvents.length ∧
        candidateEvents[baselineEvents.length]? = some event ∧
        attribution.candidateEventId = some event.id ∧ attribution.baselineEventId = none := by
  obtain ⟨hbaselineId, hcandidateId⟩ := firstDivergence_ids h
  rcases Nat.lt_or_gt_of_ne hlength with hlt | hlt
  · rw [hposition, min_eq_left hlt.le] at hbaselineId hcandidateId
    refine .inr ⟨candidateEvents[baselineEvents.length], hlt, List.getElem?_eq_getElem hlt, ?_, ?_⟩
    · rw [hcandidateId, List.getElem?_eq_getElem hlt, Option.map_some]
    · rw [hbaselineId, List.getElem?_eq_none (le_refl _), Option.map_none]
  · rw [hposition, min_eq_right hlt.le] at hbaselineId hcandidateId
    refine .inl ⟨baselineEvents[candidateEvents.length], hlt, List.getElem?_eq_getElem hlt, ?_, ?_⟩
    · rw [hbaselineId, List.getElem?_eq_getElem hlt, Option.map_some]
    · rw [hcandidateId, List.getElem?_eq_none (le_refl _), Option.map_none]

end

/-- **The detector finds the first divergence.**  *No divergence* is an equivalence on the events that
compare no `NaN`, from which the others all diverge, and the type is symmetric.  Nothing is reported
exactly for traces of one length without a divergence.  What is reported is the pair of events at the
least position where two are told apart, with their type; or, where no two are, the first event past
the end of the shorter trace, as a premature termination.  Exchanging the traces leaves position and
type and exchanges the sides. -/
theorem firstDivergence_minimal :
    (Equivalence fun left right : { event : TraceEvent F // ¬ event.ComparesNan } =>
      eventDivergence left.1 right.1 = none) ∧
    (∀ event : TraceEvent F, event.ComparesNan → ∀ other, eventDivergence event other ≠ none) ∧
    (∀ left right : TraceEvent F, eventDivergence left right = eventDivergence right left) ∧
    ∀ taskId baseline candidate, ∀ baselineEvents candidateEvents : List (TraceEvent F),
      (firstDivergence taskId baseline candidate baselineEvents candidateEvents = none ↔
        baselineEvents.length = candidateEvents.length ∧
          divergences baselineEvents candidateEvents = ∅) ∧
      ∀ attribution,
        firstDivergence taskId baseline candidate baselineEvents candidateEvents =
          some attribution →
        ((∃ i left right, IsLeast (divergences baselineEvents candidateEvents) i ∧
            i = divergencePosition baselineEvents candidateEvents ∧
            baselineEvents[i]? = some left ∧ candidateEvents[i]? = some right ∧
            attribution.baselineEventId = some left.id ∧
            attribution.candidateEventId = some right.id ∧
            eventDivergence left right = some attribution.divergenceType) ∨
          divergences baselineEvents candidateEvents = ∅ ∧
            attribution.divergenceType = .prematureTermination ∧
            divergencePosition baselineEvents candidateEvents =
              min baselineEvents.length candidateEvents.length ∧
            ((∃ event, candidateEvents.length < baselineEvents.length ∧
                baselineEvents[candidateEvents.length]? = some event ∧
                attribution.baselineEventId = some event.id ∧
                attribution.candidateEventId = none) ∨
              ∃ event, baselineEvents.length < candidateEvents.length ∧
                candidateEvents[baselineEvents.length]? = some event ∧
                attribution.candidateEventId = some event.id ∧
                attribution.baselineEventId = none)) ∧
        divergencePosition candidateEvents baselineEvents =
          divergencePosition baselineEvents candidateEvents ∧
        ∃ mirrored, firstDivergence taskId candidate baseline candidateEvents baselineEvents =
          some mirrored ∧ attribution.Mirrors mirrored := by
  refine ⟨eventDivergence_equivalence, fun _ => eventDivergence_ne_none_of_comparesNan,
    eventDivergence_comm,
    fun taskId baseline candidate baselineEvents candidateEvents =>
      ⟨firstDivergence_eq_none_iff_divergences, fun attribution h =>
        ⟨?_, divergencePosition_comm _ _, firstDivergence_mirrors h⟩⟩⟩
  rcases firstDivergence_eq_some h with
    ⟨left, right, divergence, hleft, hright, hdivergence, rfl⟩ | ⟨hposition, hlength, rfl⟩
  · have hmem : divergencePosition baselineEvents candidateEvents ∈
        divergences baselineEvents candidateEvents :=
      ⟨left, right, hleft, hright, by rw [hdivergence]; simp⟩
    exact .inl ⟨_, left, right, divergencePosition_isLeast hmem, rfl, hleft, hright, rfl, rfl,
      hdivergence⟩
  · exact .inr ⟨divergences_eq_empty hposition, rfl, hposition,
      firstDivergence_ids_of_length h hposition hlength⟩

/-- A final answer that is a `NaN`. -/
def nanAnswer : TraceEvent AnyFloat where
  id := "answer"
  sequenceNo := 0
  eventType := .finalAnswer
  payload := [("content", .float (.nan 0))]
  parentEventId := none
  durationMs := none
  executionId := "execution"
  createdAt := 0

/-- **It diverges from itself.** -/
theorem not_eventDivergence_equivalence :
    ¬ Equivalence fun left right : TraceEvent AnyFloat => eventDivergence left right = none :=
  fun h => absurd (h.refl nanAnswer) (by decide)

end AgentProof
