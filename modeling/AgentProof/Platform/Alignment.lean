import AgentProof.Platform.Dispositions
import AgentProof.Platform.FirstDivergence
import Mathlib.Data.Finset.Range
import Mathlib.Data.Finset.Card
import Mathlib.Data.Finset.Filter

/-!
# Platform/Alignment — positions and sequence numbers

The store sorts the events of an execution by `sequence_no` and takes any numbers that are distinct;
the detector goes by position and reports the baseline's number for both events.  The two notions
coincide exactly as far as both traces leave out equally many numbers (`sameStep_iff`).
-/

open Machinery

namespace AgentProof

/-! ## The numbers a trace leaves out -/

/-- How many numbers below `n` no event of the trace has. -/
def skippedBelow (events : List TraceEvent) (n : ℕ) : ℕ :=
  ((Finset.range n).filter fun k => k ∉ events.map (·.sequenceNo)).card

/-- In an increasing list, the numbers below an entry that occur are those before it. -/
theorem card_filter_mem {l : List ℕ} (h : l.Pairwise (· < ·)) {i n : ℕ} (hget : l[i]? = some n) :
    ((Finset.range n).filter (· ∈ l)).card = i := by
  obtain ⟨hi, rfl⟩ := List.getElem?_eq_some_iff.mp hget
  have hsplit : l = l.take i ++ l[i] :: l.drop (i + 1) := by simp
  have hbefore : (Finset.range l[i]).filter (· ∈ l) = (l.take i).toFinset := by
    rw [hsplit, List.pairwise_append] at h
    obtain ⟨-, hlast, hlt⟩ := h
    ext k
    rw [Finset.mem_filter, Finset.mem_range, List.mem_toFinset]
    constructor
    · rintro ⟨hk, hmem⟩
      rw [hsplit, List.mem_append, List.mem_cons] at hmem
      rcases hmem with hmem | rfl | hmem
      · exact hmem
      · exact absurd hk (lt_irrefl _)
      · exact absurd hk ((List.pairwise_cons.mp hlast).1 k hmem).asymm
    · exact fun hmem => ⟨hlt k hmem _ List.mem_cons_self, List.mem_of_mem_take hmem⟩
  have hnodup : (l.take i).Nodup := (h.sublist (List.take_sublist i l)).imp ne_of_lt
  rw [hbefore, List.toFinset_card_of_nodup hnodup, List.length_take, min_eq_left hi.le]

/-- **What an event's number and its position differ by** is what was left out before it. -/
theorem skippedBelow_add {id : UUID} {events : List TraceEvent} (h : IsTrace id events) {i : ℕ}
    {event : TraceEvent} (hget : events[i]? = some event) :
    skippedBelow events event.sequenceNo + i = event.sequenceNo := by
  have hnumbers : (events.map (·.sequenceNo)).Pairwise (· < ·) :=
    List.pairwise_map.mpr h.increasing
  have hnumber : (events.map (·.sequenceNo))[i]? = some event.sequenceNo := by
    rw [List.getElem?_map, hget, Option.map_some]
  have hcard := Finset.card_filter_add_card_filter_not (s := Finset.range event.sequenceNo)
    (· ∈ events.map (·.sequenceNo))
  rw [card_filter_mem hnumbers hnumber, Finset.card_range] at hcard
  rw [skippedBelow]
  omega

/-! ## The pair that is reported -/

variable [Interpreter] [Sha256]

/-- The two events an attribution names are of one step, the one its evidence gives. -/
def TraceAttribution.SameStep (attribution : TraceAttribution) (left right : TraceEvent) : Prop :=
  left.sequenceNo = right.sequenceNo ∧
    Dict.get? attribution.evidence "sequence_no" = some (.int left.sequenceNo)

/-- Below the first pair the detector tells apart, the two traces leave out equally many numbers. -/
def EquallySkipped (baselineEvents candidateEvents : List TraceEvent) : Prop :=
  ∀ (i : ℕ) (left right : TraceEvent), baselineEvents[i]? = some left →
    candidateEvents[i]? = some right → eventDivergence left right ≠ none →
    (∀ j < i, ∀ left' right', baselineEvents[j]? = some left' → candidateEvents[j]? = some right' →
      eventDivergence left' right' = none) →
    skippedBelow baselineEvents left.sequenceNo = skippedBelow candidateEvents right.sequenceNo

omit [Interpreter] [Sha256] in
/-- Traces numbered `0, 1, 2, …` leave out nothing. -/
theorem equallySkipped_of_numbered {id id' : UUID} {baselineEvents candidateEvents : List TraceEvent}
    (hbaseline : IsTrace id baselineEvents) (hcandidate : IsTrace id' candidateEvents)
    (hnumbered : baselineEvents.map (·.sequenceNo) = List.range baselineEvents.length)
    (hnumbered' : candidateEvents.map (·.sequenceNo) = List.range candidateEvents.length) :
    EquallySkipped baselineEvents candidateEvents := by
  have hnone : ∀ {id : UUID} {events : List TraceEvent}, IsTrace id events →
      events.map (·.sequenceNo) = List.range events.length → ∀ {i : ℕ} {event : TraceEvent},
      events[i]? = some event → skippedBelow events event.sequenceNo = 0 := by
    intro id events htrace hnumbers i event hget
    have hnumber : (events.map (·.sequenceNo))[i]? = some event.sequenceNo := by
      rw [List.getElem?_map, hget, Option.map_some]
    rw [hnumbers] at hnumber
    obtain ⟨hi, heq⟩ := List.getElem?_eq_some_iff.mp hnumber
    rw [List.getElem_range] at heq
    have hadd := skippedBelow_add htrace hget
    omega
  intro i left right hleft hright _ _
  rw [hnone hbaseline hnumbered hleft, hnone hcandidate hnumbered' hright]

omit [Interpreter] [Sha256] in
/-- A divergence with two events is the first pair that is told apart. -/
theorem firstDivergence_pair {taskId : String} {baseline candidate : TaskExecution}
    {baselineEvents candidateEvents : List TraceEvent} {attribution : TraceAttribution}
    (h : firstDivergence taskId baseline candidate baselineEvents candidateEvents =
      some attribution)
    (hpair : attribution.baselineEventId ≠ none ∧ attribution.candidateEventId ≠ none) :
    ∃ left right divergence,
      baselineEvents[divergencePosition baselineEvents candidateEvents]? = some left ∧
      candidateEvents[divergencePosition baselineEvents candidateEvents]? = some right ∧
      eventDivergence left right = some divergence ∧
      attribution = eventAttribution taskId baseline candidate left right divergence := by
  rcases firstDivergence_eq_some h with hevents | ⟨-, hlength, rfl⟩
  · exact hevents
  · obtain ⟨hleft, hright⟩ := hpair
    simp only [lengthAttribution, ne_eq, Option.map_eq_none_iff, List.getElem?_eq_none_iff,
      not_le] at hleft hright
    omega

/-- **Attribution pairs events of one step** exactly where both traces leave out equally many numbers
below the pair. -/
theorem sameStep_iff {store : PlatformStore} (hreachable : store.Reachable)
    {baselineRunId candidateRunId : UUID} {comparison : RunComparison}
    (hcompare : compareRuns store baselineRunId candidateRunId = .ok comparison)
    {item : PairedTaskComparison} (hitem : item ∈ comparison.results)
    {attribution : TraceAttribution} (hattribution : item.attribution = some attribution)
    (hpair : attribution.baselineEventId ≠ none ∧ attribution.candidateEventId ≠ none) :
    ∃ left ∈ store.events item.baselineExecutionId,
      ∃ right ∈ store.events item.candidateExecutionId,
        attribution.baselineEventId = some left.id ∧ attribution.candidateEventId = some right.id ∧
        (attribution.SameStep left right ↔ EquallySkipped
          (store.events item.baselineExecutionId) (store.events item.candidateExecutionId)) := by
  have hstore := PlatformStore.wellFormed_of_reachable hreachable
  have hregression := compareRuns_attribution hcompare hitem (by simp [hattribution])
  obtain ⟨baseline, candidate, -, -, hbaselineId, hcandidateId, -, -, hfirst⟩ :=
    compareRuns_regression hcompare hitem hregression
  rw [hattribution, ← hbaselineId, ← hcandidateId] at hfirst
  obtain ⟨left, right, divergence, hleft, hright, hdivergence, rfl⟩ :=
    firstDivergence_pair hfirst.symm hpair
  refine ⟨left, List.mem_of_getElem? hleft, right, List.mem_of_getElem? hright, rfl, rfl, ?_⟩
  have hadd := skippedBelow_add (isTrace_events hstore.events_trace _) hleft
  have hadd' := skippedBelow_add (isTrace_events hstore.events_trace _) hright
  constructor
  · rintro ⟨hsame, -⟩ i left' right' hleft' hright' hne hbefore
    -- both positions are the first at which a pair is told apart
    have hposition : i = divergencePosition (store.events item.baselineExecutionId)
        (store.events item.candidateExecutionId) := by
      rcases lt_trichotomy i (divergencePosition (store.events item.baselineExecutionId)
        (store.events item.candidateExecutionId)) with hlt | heq | hgt
      · exact absurd (eventDivergence_eq_none_of_lt hlt hleft' hright') hne
      · exact heq
      · rw [hbefore _ hgt _ _ hleft hright] at hdivergence
        exact absurd hdivergence (by simp)
    subst hposition
    obtain rfl := Option.some.inj (hleft.symm.trans hleft')
    obtain rfl := Option.some.inj (hright.symm.trans hright')
    omega
  · intro hskipped
    have hequal := hskipped _ left right hleft hright (by simp [hdivergence])
      fun j hj left' right' => eventDivergence_eq_none_of_lt hj
    exact ⟨by omega, rfl⟩

/-! ### A gap in one of two traces -/

/-- A call of a tool of the customer service. -/
def lookupCall (id : UUID) (sequenceNo : ℕ) (customerId : String) : TraceEventCreate where
  id := id
  sequenceNo := sequenceNo
  eventType := .toolCall
  payload := [("service", .str "customer"), ("operation", .str "get_customer"),
    ("arguments", .obj [("customer_id", .str customerId)])]
  parentEventId := none
  durationMs := none

omit [Interpreter] [Sha256] in
/-- Traces with the same gap are compared step by step. -/
theorem sameStep_iff_gap :
    let _ := cpython
    let _ := sha256
    ∃ run ∈ PlatformStore.performAll (pairSession
        [lookupCall "b" 5 "CUST-001", lookupCall "a" 0 "CUST-001"]
        [lookupCall "c" 0 "CUST-001", lookupCall "d" 5 "CUST-002"] failedResult) {},
      ∃ comparison, compareRuns run.2 "baseline" "candidate" = .ok comparison ∧
        ∃ item ∈ comparison.results, ∃ attribution, item.attribution = some attribution ∧
          ∃ left ∈ run.2.events item.baselineExecutionId,
            ∃ right ∈ run.2.events item.candidateExecutionId,
              (attribution.SameStep left right ↔ EquallySkipped
                (run.2.events item.baselineExecutionId)
                (run.2.events item.candidateExecutionId)) := by
  intro _ _
  have hrun : ∃ run ∈ PlatformStore.performAll (pairSession
        [lookupCall "b" 5 "CUST-001", lookupCall "a" 0 "CUST-001"]
        [lookupCall "c" 0 "CUST-001", lookupCall "d" 5 "CUST-002"] failedResult) {},
      ∃ comparison, compareRuns run.2 "baseline" "candidate" = .ok comparison ∧
        ∃ item ∈ comparison.results, ∃ attribution ∈ item.attribution,
          attribution.baselineEventId ≠ none ∧ attribution.candidateEventId ≠ none := by
    decide +kernel
  obtain ⟨run, hperform, comparison, hcompare, item, hitem, attribution, hattribution, hpair⟩ := hrun
  obtain ⟨left, hleft, right, hright, -, -, hiff⟩ :=
    sameStep_iff ⟨run.1, PlatformStore.execution_performAll hperform⟩ hcompare hitem hattribution
      hpair
  exact ⟨run, hperform, comparison, hcompare, item, hitem, attribution, hattribution, left, hleft,
    right, hright, hiff⟩

omit [Interpreter] [Sha256] in
/-- **An event numbered 0 is paired with one numbered 1**, and the evidence gives one number for
both. -/
theorem not_sameStep :
    let _ := cpython
    let _ := sha256
    ¬ ∀ store : PlatformStore, store.Reachable →
      ∀ baselineRunId candidateRunId comparison,
        compareRuns store baselineRunId candidateRunId = .ok comparison →
        ∀ item ∈ comparison.results, ∀ attribution ∈ item.attribution,
          attribution.baselineEventId ≠ none ∧ attribution.candidateEventId ≠ none →
          ∃ left ∈ store.events item.baselineExecutionId,
            ∃ right ∈ store.events item.candidateExecutionId,
              attribution.baselineEventId = some left.id ∧
              attribution.candidateEventId = some right.id ∧
              left.sequenceNo = right.sequenceNo := by
  intro _ _ hclaim
  have hrun : ∃ run ∈ PlatformStore.performAll (pairSession
        [lookupCall "a" 0 "CUST-001"] [lookupCall "b" 1 "CUST-002"] failedResult) {},
      ∃ comparison, compareRuns run.2 "baseline" "candidate" = .ok comparison ∧
        ∃ item ∈ comparison.results, ∃ attribution ∈ item.attribution,
          (attribution.baselineEventId ≠ none ∧ attribution.candidateEventId ≠ none) ∧
          ∀ left ∈ run.2.events item.baselineExecutionId,
            ∀ right ∈ run.2.events item.candidateExecutionId,
              left.sequenceNo ≠ right.sequenceNo := by
    decide +kernel
  obtain ⟨run, hperform, comparison, hcompare, item, hitem, attribution, hattribution, hpair,
    hne⟩ := hrun
  obtain ⟨left, hleft, right, hright, -, -, hsame⟩ :=
    hclaim run.2 ⟨run.1, PlatformStore.execution_performAll hperform⟩ _ _ comparison hcompare item
      hitem attribution hattribution hpair
  exact hne left hleft right hright hsame

end AgentProof
