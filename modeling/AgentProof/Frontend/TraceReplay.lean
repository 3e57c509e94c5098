import AgentProof.Platform.Alignment

/-!
# Frontend/TraceReplay — opening a divergence in trace replay

The API serves a trace in pages of 200 events unless asked otherwise, and the client does not ask:
trace replay sees the first 200 events of an execution.  A divergence is selected exactly when its
position is below 200 and no earlier event carries the same id (`attribution_opens_iff`); otherwise
the page falls back to step 0, or shows the earlier event.
-/

open Machinery

namespace AgentProof

/-! ## The trace endpoint -/

/-- The query of the trace endpoint, `limit` validated by `ge=1, le=1000`. -/
structure TraceQuery where
  limit : ℕ := 200
  offset : ℕ := 0
  limit_mem : 1 ≤ limit ∧ limit ≤ 1000 := by decide

/-- `app.main.get_trace`: the `X-Total-Count` and `events[offset : offset + limit]`. -/
def getTracePage (store : PlatformStore) (executionId : UUID) (query : TraceQuery) :
    Except PyError (ℕ × List TraceEvent) := do
  let events ← store.getTrace executionId
  return (events.length, (events.drop query.offset).take query.limit)

/-! ## The client -/

/-- `fetchTrace`: no query, and no look at the count. -/
def fetchTrace (store : PlatformStore) (executionId : UUID) : Except PyError (List TraceEvent) :=
  (getTracePage store executionId {}).map Prod.snd

/-- The state of `TraceReplayPage`. -/
structure TraceReplay where
  events : Option (List TraceEvent) := none
  selectedIndex : ℕ := 0
  error : Option PyError := none

/-- `loadTrace`.  The ids are those of a comparison: there is nothing to trim, and the empty
highlight is `none`. -/
def loadTrace (store : PlatformStore) (page : TraceReplay) (executionId : UUID)
    (highlightId : Option UUID) : TraceReplay :=
  match fetchTrace store executionId with
  | .ok result =>
    let highlightIndex := highlightId.bind fun id => result.findIdx? fun event => event.id = id
    { events := some result, selectedIndex := highlightIndex.getD 0, error := none }
  | .error e => { page with events := none, error := some e }

/-- The step the page shows. -/
def TraceReplay.selected (page : TraceReplay) : Option TraceEvent :=
  page.events.bind fun events => events[page.selectedIndex]?

/-- What is fetched of an execution that exists. -/
theorem fetchTrace_eq_ok {store : PlatformStore} {executionId : UUID} {execution : TaskExecution}
    (h : store.getExecution executionId = .ok execution) :
    fetchTrace store executionId = .ok ((store.events executionId).take 200) := by
  simp only [fetchTrace, getTracePage, PlatformStore.getTrace, h]
  rfl

/-! ## What is opened -/

/-- The event is fetched, and it is the step that is selected. -/
def Opens (store : PlatformStore) (executionId : UUID) (event : TraceEvent) : Prop :=
  (∃ events, fetchTrace store executionId = .ok events ∧ event ∈ events) ∧
    ∀ page, (loadTrace store page executionId (some event.id)).selected = some event

/-- The position is below 200, and no earlier event carries the id. -/
def OnFirstPage (events : List TraceEvent) (i : ℕ) : Prop :=
  i < 200 ∧ ∀ j < i, ∀ event ∈ events[i]?, ∀ event' ∈ events[j]?, event'.id ≠ event.id

/-- In an increasing trace, an event has one position. -/
theorem IsTrace.position_unique {id : UUID} {events : List TraceEvent} (h : IsTrace id events)
    {i j : ℕ} {event : TraceEvent} (hi : events[i]? = some event) (hj : events[j]? = some event) :
    i = j := by
  have hadd := skippedBelow_add h hi
  have hadd' := skippedBelow_add h hj
  omega

/-- **An event is opened** exactly when it is on the first page, before any other of its id. -/
theorem opens_iff {store : PlatformStore} {executionId : UUID} {execution : TaskExecution}
    (hexecution : store.getExecution executionId = .ok execution)
    (htrace : IsTrace executionId (store.events executionId)) {i : ℕ} {event : TraceEvent}
    (hget : (store.events executionId)[i]? = some event) :
    Opens store executionId event ↔ OnFirstPage (store.events executionId) i := by
  have hfetch := fetchTrace_eq_ok hexecution
  have htake : ∀ {j : ℕ} {event' : TraceEvent},
      ((store.events executionId).take 200)[j]? = some event' ↔
        j < 200 ∧ (store.events executionId)[j]? = some event' := by
    intro j event'
    rw [List.getElem?_take]
    split_ifs with hj <;> simp [hj]
  constructor
  · rintro ⟨⟨events, hevents, hmem⟩, hselected⟩
    obtain rfl := Except.ok.inj (hfetch.symm.trans hevents)
    have hselected := hselected {}
    simp only [loadTrace, hfetch, TraceReplay.selected, Option.bind_some] at hselected
    cases hindex : ((store.events executionId).take 200).findIdx? fun e => e.id = event.id with
    | none =>
      have hno := List.findIdx?_eq_none_iff.mp hindex event hmem
      simp at hno
    | some k =>
      rw [hindex, Option.getD_some] at hselected
      obtain ⟨hk, hread⟩ := htake.mp hselected
      obtain rfl := htrace.position_unique hread hget
      refine ⟨hk, fun j hj event' hevent' other hother => ?_⟩
      obtain rfl := Option.some.inj (hget.symm.trans hevent')
      obtain ⟨_, -, hbefore⟩ := List.findIdx?_eq_some_iff_getElem.mp hindex
      have hfirst := htake.mpr ⟨hj.trans hk, hother⟩
      obtain ⟨hlt, rfl⟩ := List.getElem?_eq_some_iff.mp hfirst
      simpa using hbefore j hj
  · rintro ⟨hi, hbefore⟩
    have hread := htake.mpr ⟨hi, hget⟩
    refine ⟨⟨_, hfetch, List.mem_of_getElem? hread⟩, fun page => ?_⟩
    have hindex : (((store.events executionId).take 200).findIdx? fun e => e.id = event.id) =
        some i := by
      obtain ⟨hlt, heq⟩ := List.getElem?_eq_some_iff.mp hread
      refine List.findIdx?_eq_some_iff_getElem.mpr ⟨hlt, by simp [heq], fun j hj => ?_⟩
      have hother := htake.mp (List.getElem?_eq_getElem (hj.trans hlt))
      simpa using hbefore j hj event hget _ hother.2
    simp only [loadTrace, hfetch, TraceReplay.selected, Option.bind_some, hindex, Option.getD_some,
      hread]

/-! ## What a comparison links to -/

variable [Interpreter] [Sha256]

omit [Interpreter] [Sha256] in
/-- The events an attribution names stand where the detector stops. -/
theorem firstDivergence_events {taskId : String} {baseline candidate : TaskExecution}
    {baselineEvents candidateEvents : List TraceEvent} {attribution : TraceAttribution}
    (h : firstDivergence taskId baseline candidate baselineEvents candidateEvents =
      some attribution) :
    (∀ id, attribution.baselineEventId = some id → ∃ event,
      baselineEvents[divergencePosition baselineEvents candidateEvents]? = some event ∧
        event.id = id) ∧
    ∀ id, attribution.candidateEventId = some id → ∃ event,
      candidateEvents[divergencePosition baselineEvents candidateEvents]? = some event ∧
        event.id = id := by
  rcases firstDivergence_eq_some h with ⟨left, right, _, hleft, hright, -, rfl⟩ | ⟨hend, -, rfl⟩
  · exact ⟨fun id hid => ⟨left, hleft, Option.some.inj hid⟩,
      fun id hid => ⟨right, hright, Option.some.inj hid⟩⟩
  · -- the event that only one trace has follows the end of the other
    rw [hend]
    constructor <;> intro id hid <;> obtain ⟨event, hget, heq⟩ := Option.map_eq_some_iff.mp hid <;>
      refine ⟨event, ?_, heq⟩ <;> obtain ⟨hi, -⟩ := List.getElem?_eq_some_iff.mp hget
    · rwa [min_eq_right hi.le]
    · rwa [min_eq_left hi.le]

/-- **A divergence can be opened in trace replay** exactly when it is among the first 200 events of
the trace, and no earlier event carries its id: for each event that an attribution names. -/
theorem attribution_opens_iff {store : PlatformStore} (hreachable : store.Reachable)
    {baselineRunId candidateRunId : UUID} {comparison : RunComparison}
    (hcompare : compareRuns store baselineRunId candidateRunId = .ok comparison)
    {item : PairedTaskComparison} (hitem : item ∈ comparison.results)
    {attribution : TraceAttribution} (hattribution : item.attribution = some attribution) :
    let position := divergencePosition (store.events item.baselineExecutionId)
      (store.events item.candidateExecutionId)
    (∀ id, attribution.baselineEventId = some id → ∃ event,
      (store.events item.baselineExecutionId)[position]? = some event ∧ event.id = id ∧
        (Opens store item.baselineExecutionId event ↔
          OnFirstPage (store.events item.baselineExecutionId) position)) ∧
    ∀ id, attribution.candidateEventId = some id → ∃ event,
      (store.events item.candidateExecutionId)[position]? = some event ∧ event.id = id ∧
        (Opens store item.candidateExecutionId event ↔
          OnFirstPage (store.events item.candidateExecutionId) position) := by
  have hstore := PlatformStore.wellFormed_of_reachable hreachable
  obtain ⟨performed, hrun⟩ := hreachable
  have hkeyed := PlatformStore.keyed_of_execution hrun
  have hregression := compareRuns_attribution hcompare hitem (by simp [hattribution])
  obtain ⟨baseline, candidate, ⟨_, hbaseline, rfl⟩, ⟨_, hcandidate, rfl⟩, hbaselineId,
    hcandidateId, -, -, hfirst⟩ := compareRuns_regression hcompare hitem hregression
  rw [hattribution, ← hbaselineId, ← hcandidateId] at hfirst
  have hget := hkeyed.getExecution_of_mem hbaseline
  have hget' := hkeyed.getExecution_of_mem hcandidate
  rw [← hbaselineId] at hget
  rw [← hcandidateId] at hget'
  obtain ⟨hleft, hright⟩ := firstDivergence_events hfirst.symm
  refine ⟨fun id hid => ?_, fun id hid => ?_⟩
  · obtain ⟨event, hevent, heq⟩ := hleft id hid
    exact ⟨event, hevent, heq, opens_iff hget (isTrace_events hstore.events_trace _) hevent⟩
  · obtain ⟨event, hevent, heq⟩ := hright id hid
    exact ⟨event, hevent, heq, opens_iff hget' (isTrace_events hstore.events_trace _) hevent⟩

/-! ### Long traces -/

/-- **Events with the next numbers are appended at the end**, one after the other. -/
theorem execution_appends {id : UUID} {execution : TaskExecution} :
    ∀ (payloads : List TraceEventCreate) (payload : TraceEventCreate) (store : PlatformStore),
      store.getExecution id = .ok execution → "" ∉ store.ids →
      (store.events id).map (·.sequenceNo) = List.range (store.events id).length →
      (payload :: payloads).map (·.sequenceNo) =
        List.range' (store.events id).length (payloads.length + 1) →
      ∃ performed, Execution PlatformStore.Step store performed { store with
        eventsByExecution := Dict.set store.eventsByExecution id (store.events id ++
          (payload :: payloads).map (PlatformStore.storedEvent 6 id)) }
  | payloads, payload, store, hexecution, hfresh, hnumbered, hnext => by
    rw [List.range'_succ, List.map_cons, List.cons.injEq] at hnext
    obtain ⟨hno, hrest⟩ := hnext
    have hstep := PlatformStore.Step.perform store
      ⟨.appendTraceEvent id payload, 6, ""⟩ hfresh
    have happend := PlatformStore.appendTraceEvent_of_next 6 hexecution hnumbered hno
    simp only [PlatformStore.perform, happend] at hstep
    cases payloads with
    | nil => exact ⟨_, .snoc (.nil store) hstep⟩
    | cons next payloads =>
      have hevents : PlatformStore.events { store with
          eventsByExecution := Dict.set store.eventsByExecution id
            (store.events id ++ [PlatformStore.storedEvent 6 id payload]) } id =
          store.events id ++ [PlatformStore.storedEvent 6 id payload] := by
        simp [PlatformStore.events]
      have hlength : (store.events id ++ [PlatformStore.storedEvent 6 id payload]).length =
          (store.events id).length + 1 := by simp
      obtain ⟨performed, hrun⟩ := execution_appends payloads next { store with
          eventsByExecution := Dict.set store.eventsByExecution id
            (store.events id ++ [PlatformStore.storedEvent 6 id payload]) } hexecution hfresh
        (by rw [hevents, hlength, List.map_append, hnumbered, List.range_succ]
            exact congrArg (_ ++ ·) (congrArg (· :: []) hno))
        (by rw [hevents, hlength]; exact hrest)
      rw [hevents] at hrun
      simp only [Dict.set_set, List.append_assoc, List.singleton_append] at hrun
      exact ⟨_, .cons hstep hrun⟩

/-- **A numbered trace is appended** to an execution that has no events. -/
theorem execution_trace {id : UUID} {execution : TaskExecution} (store : PlatformStore)
    (hexecution : store.getExecution id = .ok execution) (hfresh : "" ∉ store.ids)
    (hempty : Dict.get? store.eventsByExecution id = none) {payloads : List TraceEventCreate}
    (hne : payloads ≠ []) (hnumbered : payloads.map (·.sequenceNo) = List.range payloads.length) :
    ∃ performed, Execution PlatformStore.Step store performed { store with
      eventsByExecution := store.eventsByExecution ++
        [(id, payloads.map (PlatformStore.storedEvent 6 id))] } := by
  obtain ⟨payload, rest, rfl⟩ := List.exists_cons_of_ne_nil hne
  have hevents : store.events id = [] := by rw [PlatformStore.events, hempty, Option.getD_none]
  have hrun := execution_appends rest payload store hexecution hfresh (by rw [hevents]; rfl)
    (by rw [hevents, hnumbered, List.range_eq_range']; rfl)
  rwa [hevents, List.nil_append, Dict.set_of_get?_eq_none hempty] at hrun

/-- As many lookups of one customer, then one of another. -/
def lookupCalls (n : ℕ) (side customerId : String) : List TraceEventCreate :=
  ((List.range n).map fun i => lookupCall s!"{side}-{i}" i "CUST-001") ++
    [lookupCall s!"{side}-{n}" n customerId]

omit [Interpreter] [Sha256] in
theorem lookupCalls_numbered (n : ℕ) (side customerId : String) :
    (lookupCalls n side customerId).map (·.sequenceNo) =
      List.range (lookupCalls n side customerId).length := by
  simp [lookupCalls, lookupCall, List.range_succ, Function.comp_def]

omit [Interpreter] [Sha256] in
theorem lookupCalls_ne_nil (n : ℕ) (side customerId : String) :
    lookupCalls n side customerId ≠ [] := by simp [lookupCalls]

/-- An execution of a run, before its result. -/
def lookupExecution (id runId : UUID) (createdAt : Timestamp) : TaskExecution where
  id := id
  runId := runId
  taskId := "customer_refund_within_policy"
  taskSeed := 1
  createdAt := createdAt

/-- A run of the version. -/
def lookupRun (id : UUID) (createdAt : Timestamp) : EvaluationRun where
  id := id
  agentVersionId := "version"
  suiteId := "support"
  suiteVersion := "1.0.0"
  suiteManifestHash := "sha256:suite"
  seed := 1
  createdAt := createdAt

/-- Two runs of one task, with the events that were appended to either. -/
def lookupStore (left right : TaskExecution) (eventsByExecution : Dict UUID (List TraceEvent)) :
    PlatformStore where
  agentVersions := [("version", referenceAgent.version
    (computeAgentVersionContentHash referenceAgent.content) "version" 1)]
  runs := [("baseline", lookupRun "baseline" 2), ("candidate", lookupRun "candidate" 3)]
  executions := [("left", left), ("right", right)]
  eventsByExecution := eventsByExecution

omit [Interpreter] [Sha256] in
/-- No id of such a store is empty. -/
theorem fresh_lookupStore (eventsByExecution : Dict UUID (List TraceEvent)) :
    let _ := cpython
    let _ := sha256
    "" ∉ (lookupStore (lookupExecution "left" "baseline" 4) (lookupExecution "right" "candidate" 5)
      eventsByExecution).ids := by
  intro _ _
  simp [PlatformStore.ids, lookupStore]

/-- The traces of two runs, the second with another customer at the end. -/
def lookupTraces (n : ℕ) : Dict UUID (List TraceEvent) :=
  [("left", (lookupCalls n "left" "CUST-001").map (PlatformStore.storedEvent 6 "left")),
    ("right", (lookupCalls n "right" "CUST-002").map (PlatformStore.storedEvent 6 "right"))]

/-- The store after two runs, the second of which failed. -/
def failedLookup (n : ℕ) : PlatformStore :=
  lookupStore ((lookupExecution "left" "baseline" 4).finalize passedResult 7)
    ((lookupExecution "right" "candidate" 5).finalize failedResult 8) (lookupTraces n)

omit [Interpreter] [Sha256] in
/-- **Two runs of any length** are in some store that operations lead to. -/
theorem reachable_failedLookup (n : ℕ) :
    let _ := cpython
    let _ := sha256
    (failedLookup n).Reachable := by
  intro _ _
  let left := lookupExecution "left" "baseline" 4
  let right := lookupExecution "right" "candidate" 5
  have hcreated : ∃ performed, PlatformStore.performAll pairCreation {} =
      some (performed, lookupStore left right []) := ⟨_, rfl⟩
  obtain ⟨created, hcreated⟩ := hcreated
  have hcreated := PlatformStore.execution_performAll hcreated
  have hleft : (lookupStore left right []).getExecution "left" = .ok left := rfl
  obtain ⟨appended, happended⟩ := execution_trace _ hleft (fresh_lookupStore _) rfl
    (lookupCalls_ne_nil n "left" "CUST-001") (lookupCalls_numbered n "left" "CUST-001")
  have hright : (lookupStore left right [("left", (lookupCalls n "left" "CUST-001").map
      (PlatformStore.storedEvent 6 "left"))]).getExecution "right" = .ok right := rfl
  obtain ⟨appended', happended'⟩ := execution_trace _ hright (fresh_lookupStore _) rfl
    (lookupCalls_ne_nil n "right" "CUST-002") (lookupCalls_numbered n "right" "CUST-002")
  have hrecorded : ∃ performed, PlatformStore.performAll (pairResults failedResult)
      (lookupStore left right (lookupTraces n)) = some (performed, failedLookup n) := ⟨_, rfl⟩
  obtain ⟨recorded, hrecorded⟩ := hrecorded
  exact ⟨_, ((hcreated.append happended).append happended').append
    (PlatformStore.execution_performAll hrecorded)⟩

omit [Interpreter] [Sha256] in
/-- A divergence at the second event is opened. -/
theorem attribution_opens_iff_short :
    let _ := cpython
    let _ := sha256
    ∃ comparison, compareRuns (failedLookup 1) "baseline" "candidate" = .ok comparison ∧
      ∃ item ∈ comparison.results, ∃ attribution, item.attribution = some attribution ∧
        ∃ event, attribution.candidateEventId = some event.id ∧
          Opens (failedLookup 1) item.candidateExecutionId event := by
  intro _ _
  have hcompare : ∃ comparison,
      compareRuns (failedLookup 1) "baseline" "candidate" = .ok comparison ∧
      ∃ item ∈ comparison.results, item.candidateExecutionId = "right" ∧
        divergencePosition ((failedLookup 1).events item.baselineExecutionId)
          ((failedLookup 1).events item.candidateExecutionId) = 1 ∧
        ∃ attribution ∈ item.attribution, ∃ id ∈ attribution.candidateEventId, id = "right-1" := by
    decide +kernel
  obtain ⟨comparison, hcompare, item, hitem, hexecution, hposition, attribution, hattribution, _,
    hid, rfl⟩ := hcompare
  obtain ⟨event, hevent, heq, hiff⟩ := (attribution_opens_iff (reachable_failedLookup 1) hcompare
    hitem hattribution).2 _ hid
  refine ⟨comparison, hcompare, item, hitem, attribution, hattribution, event, heq ▸ hid,
    hiff.mpr ?_⟩
  rw [hposition] at hevent ⊢
  rw [hexecution] at hevent ⊢
  refine ⟨by decide, fun j hj event' hevent' other hother => ?_⟩
  obtain rfl : j = 0 := by omega
  obtain rfl := Option.some.inj (hevent.symm.trans hevent')
  have hids : ∀ first ∈ ((failedLookup 1).events "right")[0]?, first.id ≠ "right-1" := by
    decide +kernel
  rw [heq]
  exact hids other hother

omit [Interpreter] [Sha256] in
/-- **The event at position 200 is not fetched**, and the page shows step 0. -/
theorem not_attribution_opens :
    let _ := cpython
    let _ := sha256
    ¬ ∀ store : PlatformStore, store.Reachable →
      ∀ baselineRunId candidateRunId comparison,
        compareRuns store baselineRunId candidateRunId = .ok comparison →
        ∀ item ∈ comparison.results, ∀ attribution ∈ item.attribution,
          ∀ id ∈ attribution.candidateEventId, ∃ events,
            fetchTrace store item.candidateExecutionId = .ok events ∧
              ∃ event ∈ events, event.id = id := by
  intro _ _ hclaim
  have hcompare : ∃ comparison,
      compareRuns (failedLookup 200) "baseline" "candidate" = .ok comparison ∧
        ∃ item ∈ comparison.results, ∃ attribution ∈ item.attribution,
          ∃ id ∈ attribution.candidateEventId, ∃ events,
            fetchTrace (failedLookup 200) item.candidateExecutionId = .ok events ∧
              ∀ event ∈ events, event.id ≠ id := by
    decide +kernel
  obtain ⟨comparison, hcompare, item, hitem, attribution, hattribution, id, hid, events, hevents,
    hne⟩ := hcompare
  obtain ⟨events', hevents', event, hmem, heq⟩ := hclaim _ (reachable_failedLookup 200) _ _
    comparison hcompare item hitem attribution hattribution id hid
  obtain rfl := Except.ok.inj (hevents.symm.trans hevents')
  exact hne event hmem heq

end AgentProof
